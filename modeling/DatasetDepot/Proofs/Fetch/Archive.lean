import DatasetDepot.Fetch
import DatasetDepot.Proofs.Action

/-!
Archives and the files they stand for.

An archive in a cache directory has a name with an extension, and the file it stands for has the
rest of that name.  Both lie in the directory, unless the address names the directory itself:
then they lie next to each other above it.  Main statement: no archive, and no file an archive
stands for, lies where a fetch puts something unfinished, unless its own name is that of
something unfinished.
-/

namespace DatasetDepot

namespace Codec

theorem length_of_ofExtension? {ending : Name} {codec : Codec}
    (found : ofExtension? ending = some codec) : ending.length = 2 ∨ ending.length = 3 := by
  have lengths : ∀ text : String, String.ofList (ending.map Char.toLower) = text →
      ending.length = text.toList.length := by
    rintro text rfl
    rw [String.toList_ofList, List.length_map]
  unfold ofExtension? at found
  simp only at found
  split at found
  · rename_i gz
    exact .inl (lengths _ gz)
  · split at found
    · rename_i bz2
      exact .inr (lengths _ bz2)
    · split at found
      · rename_i zip
        exact .inr (lengths _ zip)
      · cases found

theorem ofPath_eq_ok_iff {path : Path} {codec : Codec} :
    ofPath path = .ok codec ↔ ∃ ending, path.extension? = some ending ∧
      ofExtension? ending = some codec := by
  unfold ofPath
  cases path.extension? with
  | none => simp
  | some ending =>
      cases found : ofExtension? ending with
      | none => simp [found]
      | some other => simp [found]

end Codec

namespace Fetch

theorem isPart_of_nameOf? {url : List Char} {name : Name} (named : nameOf? url = some name) :
    name.IsPart := by
  unfold nameOf? at named
  simp only [Option.ite_none_left_eq_some, Option.some.injEq] at named
  obtain ⟨proper, rfl⟩ := named
  constructor
  · intro nothing
    rw [nothing] at proper
    simp at proper
  · intro slash
    have other := List.mem_takeWhile_imp (List.mem_reverse.mp slash)
    simp at other

/-- What the name of an archive ends in: a dot and the extension of one. -/
structure IsEnding (ending : Name) : Prop where
  noDot : '.' ∉ ending
  length : ending.length = 2 ∨ ending.length = 3

/-- An archive in the directory of a cache, or that directory itself. -/
structure IsArchive (cache archive : Path) (front : List Name) (before ending : Name)
    (tail : List Name) : Prop where
  splits : archive.Splits front (before ++ '.' :: ending) tail
  nonempty : before ≠ []
  isEnding : IsEnding ending
  isAbsolute : archive.isAbsolute = cache.isAbsolute
  within : tail = [] ∧ front.filter Path.isStep = cache.steps ∨
    tail.getLast? = some ['.'] ∧ cache.steps = front.filter Path.isStep ++ [before ++ '.' :: ending]

theorem exists_isArchive {cache : Path} {name : Name} {codec : Codec} (part : name.IsPart)
    (decoded : Codec.ofPath (cache.join name) = .ok codec) :
    ∃ front before ending tail, IsArchive cache (cache.join name) front before ending tail ∧
      (tail = [] → name = before ++ '.' :: ending) := by
  obtain ⟨ending, extension, found⟩ := Codec.ofPath_eq_ok_iff.mp decoded
  obtain ⟨full, named, extended⟩ := Option.bind_eq_some_iff.mp extension
  obtain ⟨before, nonempty, noDot, rfl⟩ := Name.extension?_eq_some_iff.mp extended
  obtain ⟨front, tail, splits⟩ := Path.exists_splits_of_name? named
  obtain ⟨others, parts, steps⟩ := Path.exists_parts_join cache part
  have isEnding : IsEnding ending := ⟨noDot, Codec.length_of_ofExtension? found⟩
  have whole : front ++ (before ++ '.' :: ending) :: tail = others ++ [name] := by
    rw [← splits.parts, parts]
  refine ⟨front, before, ending, tail,
    ⟨splits, nonempty, isEnding, Path.isAbsolute_join cache part, ?_⟩, ?_⟩
  · by_cases behind : tail = []
    · subst behind
      obtain ⟨rfl, _⟩ := List.append_inj' whole rfl
      exact .inl ⟨rfl, steps⟩
    · have last : tail.getLast? = some name := by
        have last := congrArg List.getLast? whole
        rwa [List.getLast?_concat, List.getLast?_append, List.getLast?_cons_of_ne_nil behind,
          List.getLast?_eq_some_getLast behind, Option.some_or,
          ← List.getLast?_eq_some_getLast behind] at last
      have idle := splits.idle name (List.mem_of_getLast? last)
      obtain rfl : name = ['.'] := (Path.isStep_eq_false_iff.mp idle).resolve_left part.nonempty
      have same : (cache.join ['.']).steps = cache.steps := by
        rw [Path.steps, parts, List.filter_append, steps]
        exact List.append_nil _
      refine .inr ⟨last, ?_⟩
      rw [← splits.steps, same]
  · rintro rfl
    exact (List.cons.inj (List.append_inj' whole rfl).2).1.symm

/-! Where something unfinished may lie. -/

/-- The places of unfinished files, of a fetch into a directory or of one of the directory. -/
def scratch (directory : Location) : Set Location :=
  { place | ∃ name, name ≠ [] ∧ (place = directory ++ [name ++ Name.mark] ∨
    ∃ above ending, IsEnding ending ∧ directory = above ++ [name ++ '.' :: ending] ∧
      place = above ++ [name ++ Name.mark]) }

theorem append_ne_unfinished {ending : Name} (isEnding : IsEnding ending) (before name : Name) :
    before ++ '.' :: ending ≠ name ++ Name.mark := by
  intro same
  obtain ⟨_, rfl⟩ := Name.append_cons_inj isEnding.noDot (by decide) same
  exact absurd isEnding.length (by decide)

variable {directory above : Location}

theorem notMem_scratch_of_length {place : Location} (shorter : place.length < directory.length) :
    place ∉ scratch directory := by
  rintro ⟨name, _, rfl | ⟨above, ending, _, rfl, rfl⟩⟩
  · rw [List.length_append, List.length_singleton] at shorter
    omega
  · simp at shorter

theorem notMem_scratch_self : directory ∉ scratch directory := by
  rintro ⟨name, _, same | ⟨above, ending, isEnding, whole, same⟩⟩
  · simpa using congrArg List.length same
  · rw [whole] at same
    have last := (List.append_inj' same rfl).2
    exact append_ne_unfinished isEnding name name (List.cons.inj last).1

theorem notMem_scratch_within {name : Name} (finished : ∀ other, other ≠ [] →
    name ≠ other ++ Name.mark) : directory ++ [name] ∉ scratch directory := by
  rintro ⟨other, some, same | ⟨above, ending, _, whole, same⟩⟩
  · exact finished other some (List.cons.inj (List.append_inj' same rfl).2).1
  · have longer := congrArg List.length same
    simp [whole] at longer

theorem notMem_scratch_beside {before ending : Name} (isEnding : IsEnding ending)
    (whole : directory = above ++ [before ++ '.' :: ending]) :
    above ++ [before] ∉ scratch directory := by
  rintro ⟨other, _, same | ⟨others, ending', isEnding', whole', same⟩⟩
  · have longer := congrArg List.length same
    simp [whole] at longer
  · rw [whole] at whole'
    obtain ⟨rfl, last⟩ := List.append_inj' whole' rfl
    obtain ⟨rfl, _⟩ :=
      Name.append_cons_inj isEnding.noDot isEnding'.noDot (List.cons.inj last).1
    have longer := congrArg List.length (List.cons.inj (List.append_inj' same rfl).2).1
    simp [Name.mark] at longer

/-! The file an archive stands for. -/

/-- The path of the file for an archive: the rest of the name in the same place, or what comes to
mean that place or the one above. -/
inductive Stands (target : Path) (absolute : Bool) (above : List Name) (before : Name)
    (tail : List Name) : Prop where
  | file (ends : target.EndsAt absolute above before)
  | place (behind : tail ≠ []) (isAbsolute : target.isAbsolute = absolute)
      (steps : target.steps = above) (some : target.letters ≠ [])
  | up (dotted : before = ['.'] ∨ before = ['.', '.']) (isAbsolute : target.isAbsolute = absolute)
      (steps : target.steps = above ++ [['.', '.']]) (some : target.letters ≠ [])
      (unnamed : target.name? = none)

namespace IsArchive

variable {cache archive : Path} {front tail : List Name} {before ending : Name}

theorem noSlash (isArchive : IsArchive cache archive front before ending tail) : '/' ∉ before :=
  fun slash => isArchive.splits.plain.noSlash (List.mem_append_left _ slash)

theorem stands (isArchive : IsArchive cache archive front before ending tail) :
    Stands archive.withoutExtension cache.isAbsolute (front.filter Path.isStep) before tail := by
  have splits := isArchive.splits
  have cuts : tail = [] ∨ ending ≠ [] ∧ ending.length ≤ 3 ∧ tail.getLast? = some ['.'] := by
    refine isArchive.within.imp And.left fun beside => ⟨?_, ?_, beside.1⟩
    · rintro rfl
      exact absurd isArchive.isEnding.length (by decide)
    · have length := isArchive.isEnding.length
      omega
  obtain ⟨step, target, step_eq, notDot⟩ :=
    splits.exists_withoutExtension isArchive.nonempty isArchive.isEnding.noDot cuts
  have part : Name.IsPart step := by
    rcases step_eq with rfl | ⟨rfl, _⟩
    · exact ⟨isArchive.nonempty, isArchive.noSlash⟩
    · exact ⟨by decide, by decide⟩
  obtain ⟨parts, isAbsolute⟩ := splits.ofParts_concat part
  have some : (Path.ofParts (front ++ [step])).letters ≠ [] := by
    intro nothing
    rw [show Path.ofParts (front ++ [step]) = ⟨[]⟩ from congrArg Path.mk nothing,
      Path.parts_nil] at parts
    have last := congrArg List.getLast? parts
    rw [List.getLast?_concat] at last
    exact part.nonempty (Option.some.inj last).symm
  rw [target, ← isArchive.isAbsolute]
  have steps : (Path.ofParts (front ++ [step])).steps =
      front.filter Path.isStep ++ [step].filter Path.isStep := by
    rw [Path.steps, parts, List.filter_append]
  by_cases dots : step = ['.', '.']
  · subst dots
    exact .up (step_eq.symm.imp And.right Eq.symm) isAbsolute steps some
      (Path.name?_eq_none_of_dots (by rw [parts, List.getLast?_concat]))
  · obtain rfl : step = before := step_eq.resolve_right fun other => dots other.1
    by_cases dot : step = ['.']
    · subst dot
      exact .place (fun last => notDot last rfl) isAbsolute (steps.trans (List.append_nil _)) some
    · exact .file (splits.endsAt_ofParts ⟨part, dot, dots⟩)

/-- The directory of the cache is the place above an archive, or the archive itself. -/
theorem exists_above (isArchive : IsArchive cache archive front before ending tail)
    (base : Location) :
    ∃ above, above = Location.follow (if cache.isAbsolute then [] else base)
        (front.filter Path.isStep) ∧
      archive.place base = above ++ [before ++ '.' :: ending] ∧
      (tail = [] ∧ cache.place base = above ∨
        tail ≠ [] ∧ cache.place base = above ++ [before ++ '.' :: ending]) := by
  have plain := isArchive.splits.plain
  refine ⟨_, rfl, ?_, ?_⟩
  · rw [Path.place_of_steps isArchive.splits.steps, Location.descend_of_isPlain plain,
      isArchive.isAbsolute]
  · rcases isArchive.within with ⟨none, steps⟩ | ⟨last, steps⟩
    · refine .inl ⟨none, ?_⟩
      rw [Path.place, steps]
    · refine .inr ⟨?_, ?_⟩
      · rintro rfl
        cases last
      · rw [Path.place_of_steps steps, Location.descend_of_isPlain plain]

theorem archive_notMem_scratch (isArchive : IsArchive cache archive front before ending tail)
    (base : Location) : archive.place base ∉ scratch (cache.place base) := by
  obtain ⟨above, _, place, ⟨_, directory⟩ | ⟨_, directory⟩⟩ := isArchive.exists_above base
  · rw [place, directory]
    exact notMem_scratch_within fun other _ => append_ne_unfinished isArchive.isEnding before other
  · rw [place, ← directory]
    exact notMem_scratch_self

/-- The file an archive stands for lies where nothing unfinished does, unless it is named so. -/
theorem target_notMem_scratch (isArchive : IsArchive cache archive front before ending tail)
    (finished : tail = [] → ∀ other, other ≠ [] → before ≠ other ++ Name.mark) (base : Location) :
    archive.withoutExtension.place base ∉ scratch (cache.place base) := by
  obtain ⟨above, above_eq, _, directory⟩ := isArchive.exists_above base
  cases isArchive.stands with
  | file ends =>
      rw [ends.place_eq, ← above_eq]
      rcases directory with ⟨none, directory⟩ | ⟨_, directory⟩
      · rw [directory]
        exact notMem_scratch_within (finished none)
      · exact notMem_scratch_beside isArchive.isEnding directory
  | place behind isAbsolute steps some =>
      have place : archive.withoutExtension.place base = above := by
        rw [Path.place, isAbsolute, steps, ← above_eq]
      rw [place]
      rcases directory with ⟨_, directory⟩ | ⟨_, directory⟩
      · rw [directory]
        exact notMem_scratch_self
      · exact notMem_scratch_of_length (by simp [directory])
  | up dotted isAbsolute steps some unnamed =>
      have place : archive.withoutExtension.place base = above.dropLast := by
        rw [Path.place_of_steps steps, isAbsolute, ← above_eq]
        rfl
      rw [place]
      rcases directory with ⟨_, directory⟩ | ⟨_, directory⟩
      · rw [directory]
        rcases List.eq_nil_or_concat above with rfl | ⟨rest, last, rfl⟩
        · exact notMem_scratch_self
        · exact notMem_scratch_of_length (by simp)
      · apply notMem_scratch_of_length
        rw [directory, List.length_dropLast, List.length_append, List.length_singleton]
        omega

theorem archive_unfinished_mem (isArchive : IsArchive cache archive front before ending tail)
    (within : tail = []) (base : Location) :
    archive.unfinished.place base ∈ scratch (cache.place base) := by
  obtain ⟨above, above_eq, _, ⟨_, directory⟩ | ⟨behind, _⟩⟩ := isArchive.exists_above base
  · refine ⟨before ++ '.' :: ending, isArchive.splits.plain.nonempty, .inl ?_⟩
    rw [isArchive.splits.unfinished.place_eq, isArchive.isAbsolute, directory, above_eq]
  · exact absurd within behind

theorem target_unfinished_mem (isArchive : IsArchive cache archive front before ending tail)
    (ends : archive.withoutExtension.EndsAt cache.isAbsolute (front.filter Path.isStep) before)
    (base : Location) :
    archive.withoutExtension.unfinished.place base ∈ scratch (cache.place base) := by
  obtain ⟨above, above_eq, _, directory⟩ := isArchive.exists_above base
  refine ⟨before, isArchive.nonempty, ?_⟩
  rw [ends.unfinished.place_eq, ← above_eq]
  rcases directory with ⟨_, directory⟩ | ⟨_, directory⟩
  · exact .inl (by rw [directory])
  · exact .inr ⟨above, ending, isArchive.isEnding, directory, rfl⟩

end IsArchive

end Fetch

end DatasetDepot
