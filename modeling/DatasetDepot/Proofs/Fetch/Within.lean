import DatasetDepot.Proofs.Fetch.Effect

/-!
Where fetched files lie.

The archive lies in the directory of the cache, and the file it stands for lies there too, under
the rest of its name.  Two kinds of addresses are different: a name that is dots in front of its
extension stands for the directory above, and a single dot for the directory itself, which is
then taken for the archive if it is named like one.
-/

namespace DatasetDepot.Fetch

/-- Where an archive and the file it stands for lie, for a name and a directory. -/
inductive Lies (directory : Location) (name : Name) (archive target : Location) : Prop where
  | inside {before ending : Name} (named : name = before ++ '.' :: ending)
      (ordinary : name.IsPlain) (plain : before.IsPlain) (archived : archive = directory ++ [name])
      (placed : target = directory ++ [before])
  | above {dots ending : Name} (named : name = dots ++ '.' :: ending)
      (dotted : dots = ['.'] ∨ dots = ['.', '.']) (ordinary : name.IsPlain)
      (archived : archive = directory ++ [name]) (placed : target = directory.dropLast)
  | itself {upper : Location} {before ending : Name} (named : name = ['.'])
      (archived : archive = directory) (within : directory = upper ++ [before ++ '.' :: ending])
      (placed : target = upper ++ [before] ∨ target = upper ∨ target = upper.dropLast)

variable {cache archive : Path} {front tail : List Name} {before ending name : Name}

theorem IsArchive.name_eq_dot
    (isArchive : IsArchive cache (cache.join name) front before ending tail) (part : name.IsPart)
    (behind : tail ≠ []) : name = ['.'] := by
  obtain ⟨others, parts, _⟩ := Path.exists_parts_join cache part
  have last := congrArg List.getLast? (isArchive.splits.parts.symm.trans parts)
  have dot := (isArchive.within.resolve_left fun within => behind within.1).1
  rw [List.getLast?_append, List.getLast?_cons_of_ne_nil behind, dot, List.getLast?_concat] at last
  exact (Option.some.inj last).symm

/-- The file an archive stands for does not lie under a longer name beside it. -/
theorem IsArchive.target_place_ne_append
    (isArchive : IsArchive cache archive front before ending tail) {base upper : Location}
    (upper_eq : upper = Location.follow (if cache.isAbsolute then [] else base)
      (front.filter Path.isStep)) {rest : Name} (some : rest ≠ []) :
    archive.withoutExtension.place base ≠ upper ++ [before ++ rest] := by
  intro same
  cases isArchive.stands with
  | file ends =>
      rw [ends.place_eq, ← upper_eq] at same
      have longer := congrArg List.length (List.cons.inj (List.append_cancel_left same)).1
      rw [List.length_append] at longer
      exact some (List.length_eq_zero_iff.mp (by omega))
  | place behind isAbsolute steps _ =>
      rw [Path.place, isAbsolute, steps, ← upper_eq] at same
      simpa using congrArg List.length same
  | up dotted isAbsolute steps _ unnamed =>
      rw [Path.place_of_steps steps, isAbsolute, ← upper_eq] at same
      have shorter := congrArg List.length (show upper.dropLast = _ from same)
      rw [List.length_dropLast, List.length_append, List.length_singleton] at shorter
      omega

/-- The file an archive stands for lies elsewhere than the archive. -/
theorem IsArchive.target_place_ne (isArchive : IsArchive cache archive front before ending tail)
    (base : Location) : archive.withoutExtension.place base ≠ archive.place base := by
  obtain ⟨upper, upper_eq, place, _⟩ := isArchive.exists_above base
  rw [place]
  exact isArchive.target_place_ne_append upper_eq (by simp)

/-- It does not lie where the archive is unfinished either. -/
theorem IsArchive.target_place_ne_unfinished
    (isArchive : IsArchive cache archive front before ending tail) (base : Location) :
    archive.withoutExtension.place base ≠ archive.unfinished.place base := by
  obtain ⟨upper, upper_eq, _, _⟩ := isArchive.exists_above base
  rw [isArchive.splits.unfinished.place_eq, isArchive.isAbsolute, ← upper_eq, List.append_assoc]
  exact isArchive.target_place_ne_append upper_eq (by simp)

/-- No archive lies where something is unfinished. -/
theorem IsArchive.place_ne_unfinished
    (isArchive : IsArchive cache archive front before ending tail) (path : Path)
    (base : Location) : archive.place base ≠ path.unfinished.place base := by
  obtain ⟨upper, _, place, _⟩ := isArchive.exists_above base
  obtain ⟨others, name, unfinished, _⟩ := path.exists_unfinished_place base
  rw [place, unfinished]
  intro same
  exact append_ne_unfinished isArchive.isEnding before name
    (List.cons.inj (List.append_inj' same rfl).2).1

theorem IsArchiveOf.lies {url : String} (isArchiveOf : IsArchiveOf cache url name)
    (base : Location) :
    Lies (cache.place base) name ((cache.join name).place base)
      ((cache.join name).withoutExtension.place base) := by
  obtain ⟨front, before, ending, tail, isArchive, whole⟩ := isArchiveOf.exists_isArchive
  obtain ⟨upper, upper_eq, place, ⟨last, directory⟩ | ⟨behind, directory⟩⟩ :=
    isArchive.exists_above base
  · have ordinary := isArchive.splits.plain
    rw [directory, place, ← whole last]
    rw [← whole last] at ordinary
    cases isArchive.stands with
    | file ends =>
        exact .inside (whole last) ordinary ends.plain rfl (by rw [ends.place_eq, ← upper_eq])
    | place behind isAbsolute steps some => exact absurd last behind
    | up dotted isAbsolute steps some unnamed =>
        refine .above (whole last) dotted ordinary rfl ?_
        rw [Path.place_of_steps steps, isAbsolute, ← upper_eq]
        rfl
  · refine .itself (isArchive.name_eq_dot (isPart_of_nameOf? isArchiveOf.named) behind)
      (place.trans directory.symm) directory ?_
    cases isArchive.stands with
    | file ends => exact .inl (by rw [ends.place_eq, ← upper_eq])
    | place behind isAbsolute steps some =>
        exact .inr (.inl (by rw [Path.place, isAbsolute, steps, ← upper_eq]))
    | up dotted isAbsolute steps some unnamed =>
        refine .inr (.inr ?_)
        rw [Path.place_of_steps steps, isAbsolute, ← upper_eq]
        rfl

/-- What is fetched lies in the directory beside its archive, under a name of its own, unless the
address names it by dots alone. -/
theorem lies_of_fetch {services : Services} {url : String} {start after : World} {path : Path}
    (given : (fetch services cache url).run.run start = (.ok path, after)) :
    ∃ name, nameOf? url.toList = some name ∧ path = (cache.join name).withoutExtension ∧
      after.store.has (cache.join name) = true ∧ after.store.has path = true ∧
        ∀ base, path.place base ≠ (cache.join name).place base ∧
          Lies (cache.place base) name ((cache.join name).place base) (path.place base) := by
  have fetches := fetches services cache url .sound start
  rw [given] at fetches
  obtain ⟨name, fetched, rfl⟩ := fetches.fetched rfl
  obtain ⟨_, _, _, _, isArchive, _⟩ := fetched.exists_isArchive
  exact ⟨name, fetched.named, rfl, fetched.archive, fetched.target,
    fun base => ⟨isArchive.target_place_ne base, fetched.lies base⟩⟩

/-- An archive and its file that are there already. -/
theorem lies_of_fetch_stored :
    let services : Services := {
      download := fun _ => ⟨[], some "offline"⟩
      launch := fun _ store => (store, .exited 0) }
    let start : World := ⟨⟨[], [([['c']], .directory), ([['c'], ['x', '.', 'g', 'z']], .file [0]),
      ([['c'], ['x']], .file [1])]⟩, []⟩
    (fetch services (.ofString "c") "http://host/x.gz?y").run.run start =
        (.ok (.ofString "c/x"), start) ∧
      ∃ name, nameOf? "http://host/x.gz?y".toList = some name ∧
        Lies [['c']] name (((Path.ofString "c").join name).place [])
          ((Path.ofString "c/x").place []) := by
  intro services start
  have fetched : Fetched (.ofString "c") "http://host/x.gz?y" ['x', '.', 'g', 'z'] start.store :=
    ⟨⟨by decide, .gzip, by decide⟩, by rfl, by decide, by decide⟩
  have given : (fetch services (.ofString "c") "http://host/x.gz?y").run.run start =
      (.ok (.ofString "c/x"), start) := by
    rw [fetched.run_fetch]
    rfl
  obtain ⟨name, named, _, _, _, lies⟩ := lies_of_fetch given
  exact ⟨given, name, named, (lies []).2⟩

/-- An address whose name is two dots and an extension gives the directory above the cache. -/
theorem fetch_leaves_directory :
    let services : Services := {
      download := fun _ => ⟨[0], none⟩
      launch := fun _ store => (store, .exited 0) }
    ∃ after, (fetch services (.ofString "a/c") "http://host/..gz").run.run ⟨⟨[], []⟩, []⟩ =
        (.ok (.ofString "a/c/.."), after) ∧
      after.store.resolve (.ofString "a/c/..") = .ok [['a']] ∧
        ¬ ∃ name, (Path.ofString "a/c/..").place [] = (Path.ofString "a/c").place [] ++ [name] := by
  intro services
  refine ⟨_, rfl, by decide, ?_⟩
  rintro ⟨name, same⟩
  have place : (Path.ofString "a/c/..").place [] = [['a']] := by decide
  have directory : (Path.ofString "a/c").place [] = [['a'], ['c']] := by decide
  rw [place, directory] at same
  cases same

end DatasetDepot.Fetch
