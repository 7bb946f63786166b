import DatasetDepot.Proofs.Fetch.Once
import DatasetDepot.Proofs.Fetch.Within
import DatasetDepot.Proofs.Snapshot.Files

/-!
Whose data a fetched file holds.

A directory only knows names: whatever has the name of an archive is taken for it, and whatever
has the rest of that name for the file.  So a run of fetches serves each address its own data
only as long as the two names of each address meet those of no other.  Main statement: then all
that is in the directory, at any time, comes from the address it is named after.
-/

namespace DatasetDepot

open DatasetDepot.Action

namespace Fetch

/-- An address that names an archive, in a directory of any name. -/
structure IsNamed (url : String) (name : Name) (codec : Codec) : Prop where
  named : nameOf? url.toList = some name
  known : name.extension?.bind Codec.ofExtension? = some codec

namespace IsNamed

variable {url : String} {name other : Name} {codec codec' : Codec}

theorem unique (isNamed : IsNamed url name codec) (isNamed' : IsNamed url other codec') :
    name = other ∧ codec = codec' := by
  have same := isNamed.named.symm.trans isNamed'.named
  cases same
  have same := isNamed.known.symm.trans isNamed'.known
  cases same
  exact ⟨rfl, rfl⟩

theorem exists_ending (isNamed : IsNamed url name codec) :
    ∃ ending, name = name.stem ++ '.' :: ending ∧ '.' ∉ ending ∧
      Codec.ofExtension? ending = some codec := by
  obtain ⟨ending, extended, known⟩ := Option.bind_eq_some_iff.mp isNamed.known
  obtain ⟨before, nonempty, noDot, whole⟩ := Name.extension?_eq_some_iff.mp extended
  refine ⟨ending, ?_, noDot, known⟩
  rw [whole, Name.stem_append nonempty noDot]

theorem stem_ne (isNamed : IsNamed url name codec) : name.stem ≠ name := by
  obtain ⟨ending, whole, _⟩ := isNamed.exists_ending
  intro same
  have longer := congrArg List.length (whole.trans (by rw [same]))
  simp at longer

theorem isPlain (isNamed : IsNamed url name codec) : name.IsPlain := by
  obtain ⟨ending, whole, noDot, known⟩ := isNamed.exists_ending
  have part := isPart_of_nameOf? isNamed.named
  apply Name.isPlain_of_long _ part.noSlash
  have length := Codec.length_of_ofExtension? known
  have longer := congrArg List.length whole
  rw [List.length_append, List.length_cons] at longer
  omega

theorem target_endsAt (isNamed : IsNamed url name codec) (plain : name.stem.IsPlain)
    (cache : Path) :
    (cache.join name).withoutExtension.EndsAt cache.isAbsolute cache.steps name.stem := by
  obtain ⟨ending, whole, noDot, _⟩ := isNamed.exists_ending
  have ends := Path.endsAt_join cache isNamed.isPlain
  rw [← ends.isAbsolute]
  obtain ⟨front, splits, steps⟩ := ends.splits
  have parted : (cache.join name).Splits front (name.stem ++ '.' :: ending) [] := by
    rwa [← whole]
  obtain ⟨step, target, step_eq, _⟩ :=
    parted.exists_withoutExtension plain.nonempty noDot (.inl rfl)
  obtain rfl : step = name.stem := step_eq.resolve_right fun dots => plain.notDot dots.2
  rw [target, ← steps]
  exact splits.endsAt_ofParts plain

end IsNamed

theorem IsArchiveOf.isNamed {cache : Path} {url : String} {name : Name} {codec : Codec}
    (isArchiveOf : IsArchiveOf cache url name) (other : name ≠ ['.'])
    (decoded : Codec.ofPath (cache.join name) = .ok codec) : IsNamed url name codec := by
  obtain ⟨front, before, ending, tail, isArchive, whole⟩ := isArchiveOf.exists_isArchive
  have last : tail = [] := by
    by_contra behind
    exact other (isArchive.name_eq_dot (isPart_of_nameOf? isArchiveOf.named) behind)
  obtain ⟨ending', extended, known⟩ := Codec.ofPath_eq_ok_iff.mp decoded
  rw [Path.extension?, isArchive.splits.name?_eq, ← whole last] at extended
  exact ⟨isArchiveOf.named, Option.bind_eq_some_iff.mpr ⟨ending', extended, known⟩⟩

/-! Runs of addresses whose names do not meet. -/

/-- A run of fetches into an empty directory.  Whenever a download of an address comes, it brings
the same; the names of archives and of their files are ordinary, and none is one of another
address. -/
structure Runs (cache : Path) (directory : Location) (payload : String → Bytes)
    (calls : List Call) (start : World) : Prop where
  on : Snapshot.IsOn start.store directory cache
  nothing : ∀ name, start.store.lookup (directory ++ [name]) = none
  brings : ∀ call ∈ calls, ¬ call.Fails →
    (call.services.download call.url).bytes = payload call.url
  ordinary : ∀ call ∈ calls, call.name? ≠ some ['.'] ∧
    ∀ name codec, IsNamed call.url name codec → name.stem.IsPlain
  apart : ∀ call ∈ calls, ∀ other ∈ calls, call.url ≠ other.url →
    ∀ name codec name' codec', IsNamed call.url name codec → IsNamed other.url name' codec' →
      name ≠ name' ∧ name.stem ≠ name'.stem ∧ name ≠ name'.stem

/-- What is at a name in the directory: the archive of an address, or its decoded contents. -/
inductive Origin (payload : String → Bytes) (calls : List Call) : Name → Node → Prop where
  | archive {call : Call} {name : Name} {codec : Codec} (member : call ∈ calls)
      (isNamed : IsNamed call.url name codec) :
      Origin payload calls name (.file (payload call.url))
  | target {call : Call} {name : Name} {codec : Codec} {contents : Bytes} (member : call ∈ calls)
      (isNamed : IsNamed call.url name codec)
      (decoded : codec.decode (payload call.url) = .ok contents) :
      Origin payload calls name.stem (.file contents)

/-- All that is in the directory comes from the address it is named after. -/
structure Holds (cache : Path) (directory : Location) (payload : String → Bytes)
    (calls : List Call) (store : Store) : Prop where
  on : Snapshot.IsOn store directory cache
  origin : ∀ name node, store.lookup (directory ++ [name]) = some node →
    Origin payload calls name node

variable {cache : Path} {directory : Location} {payload : String → Bytes} {calls : List Call}
  {start : World} {call : Call} {name : Name} {codec : Codec} {node : Node}

namespace Runs

theorem start_holds (runs : Runs cache directory payload calls start) :
    Holds cache directory payload calls start.store where
  on := runs.on
  origin name node found := by
    rw [runs.nothing] at found
    cases found

theorem archive_eq (runs : Runs cache directory payload calls start) (member : call ∈ calls)
    (isNamed : IsNamed call.url name codec) (origin : Origin payload calls name node) :
    node = .file (payload call.url) := by
  cases origin with
  | archive member' isNamed' =>
      rename_i other codec'
      by_cases same : call.url = other.url
      · rw [same]
      · exact absurd rfl (runs.apart _ member _ member' same _ _ _ _ isNamed isNamed').1
  | target member' isNamed' decoded =>
      rename_i other name' codec' contents
      by_cases same : call.url = other.url
      · rw [same] at isNamed
        exact absurd (isNamed'.unique isNamed).1.symm isNamed'.stem_ne
      · exact absurd rfl (runs.apart _ member _ member' same _ _ _ _ isNamed isNamed').2.2

theorem exists_target_eq (runs : Runs cache directory payload calls start) (member : call ∈ calls)
    (isNamed : IsNamed call.url name codec) (origin : Origin payload calls name.stem node) :
    ∃ contents, node = .file contents ∧ codec.decode (payload call.url) = .ok contents := by
  generalize stem_eq : name.stem = stem at origin
  cases origin with
  | archive member' isNamed' =>
      rename_i other codec'
      by_cases same : call.url = other.url
      · rw [same] at isNamed
        exact absurd (stem_eq.trans (isNamed'.unique isNamed).1) isNamed.stem_ne
      · exact absurd stem_eq.symm
          (runs.apart _ member' _ member (Ne.symm same) _ _ _ _ isNamed' isNamed).2.2
  | target member' isNamed' decoded =>
      rename_i other name' codec' contents
      by_cases same : call.url = other.url
      · rw [same] at isNamed ⊢
        obtain ⟨_, rfl⟩ := isNamed'.unique isNamed
        exact ⟨contents, rfl, decoded⟩
      · exact absurd stem_eq (runs.apart _ member _ member' same _ _ _ _ isNamed isNamed').2.1

end Runs

namespace Holds

variable {path : Path} {produce : Action Bytes} {world middle after : World} {opened : Store}
  {result : Except Fault Unit × World}

theorem place_eq (holds : Holds cache directory payload calls world.store)
    (ends : path.EndsAt cache.isAbsolute cache.steps name) :
    path.place world.store.base = directory ++ [name] := by
  rw [ends.place_eq, ← holds.on.place]
  rfl

theorem provide (holds : Holds cache directory payload calls world.store)
    (ends : path.EndsAt cache.isAbsolute cache.steps name)
    (provision : Provision .sound path produce world result)
    (produces : ∀ opened contents middle,
      Store.Touches [path.unfinished.place world.store.base] world.store opened →
        produce.run.run { world with store := opened } = (.ok contents, middle) →
          Origin payload calls name (.file contents)) :
    Holds cache directory payload calls result.2.store where
  on := holds.on.mono provision.touches.base fun _ => provision.spares.leads
  origin other node found := by
    cases provision with
    | there has => exact holds.origin other node found
    | written absent writes =>
        rcases writes.lookup_cases found with before | ⟨_, leaves, rfl⟩
        · exact holds.origin other node before
        · have whole := leaves.place_eq (Store.find_ne_of_absent absent .directory)
          obtain ⟨_, _, opens, produced⟩ := leaves.produced
          rw [holds.place_eq ends] at whole
          cases List.append_cancel_left whole
          exact produces _ _ _ opens produced

theorem of_opens (holds : Holds cache directory payload calls world.store)
    {way : Location → Prop} (opens : Store.Opens way world.store opened)
    (unchanged : ∀ name, opened.lookup (directory ++ [name]) =
      world.store.lookup (directory ++ [name])) :
    Holds cache directory payload calls opened where
  on := holds.on.mono opens.base fun _ => (opens.spares ∅).leads
  origin name node found := holds.origin name node ((unchanged name).symm.trans found)

end Holds

namespace Ready

variable {world middle after : World} {opened : Store} {result : Except Fault Unit}

theorem isNamed (ready : Ready cache call.url world name codec opened)
    (other : call.name? ≠ some ['.']) : IsNamed call.url name codec := by
  refine ready.isArchiveOf.isNamed ?_ ready.decoded
  rintro rfl
  exact other ready.named

theorem holds_archive (ready : Ready cache call.url world name codec opened)
    (runs : Runs cache directory payload calls start) (member : call ∈ calls)
    (holds : Holds cache directory payload calls world.store)
    (first : Provision .sound (cache.join name)
      (arrival call.services call.url (cache.join name) .sound)
      { world with store := opened } (result, middle)) :
    Holds cache directory payload calls middle.store := by
  rw [arrival_sound] at first
  have isNamed := ready.isNamed (runs.ordinary call member).1
  have opens := (Store.opens_ensureDirectory ready.made).1
  have holds' :
      Holds cache directory payload calls ({ world with store := opened } : World).store :=
    holds.of_opens opens (holds.on.lookup_ensureDirectory ready.made)
  refine holds'.provide (Path.endsAt_join cache isNamed.isPlain) first
    fun _ contents _ _ came => ?_
  cases downloads_of_run came with
  | came succeeded =>
      rw [runs.brings call member (not_not.mpr succeeded)]
      exact .archive member isNamed

theorem holds_target (ready : Ready cache call.url world name codec opened)
    (runs : Runs cache directory payload calls start) (member : call ∈ calls)
    (holds : Holds cache directory payload calls middle.store)
    (second : Provision .sound (cache.join name).withoutExtension
      (extraction codec (cache.join name) .sound) middle (result, after)) :
    Holds cache directory payload calls after.store := by
  rw [extraction_sound] at second
  obtain ⟨other, ordinary⟩ := runs.ordinary call member
  have isNamed := ready.isNamed other
  obtain ⟨_, _, _, _, isArchive, _⟩ := ready.isArchiveOf.exists_isArchive
  refine holds.provide (isNamed.target_endsAt (ordinary name codec isNamed) cache) second
    fun opened contents _ opens decoded => ?_
  cases decodes_of_run decoded with
  | decoded read decoded =>
      obtain ⟨location, resolved, there⟩ := Store.read_eq_ok_iff.mp read
      have apart :=
        isArchive.place_ne_unfinished (cache.join name).withoutExtension middle.store.base
      rw [Store.eq_place_of_resolve resolved] at there
      change opened.lookup ((cache.join name).place opened.base) = _ at there
      rw [opens.base, opens.elsewhere _ (by rwa [List.mem_singleton]),
        holds.place_eq (Path.endsAt_join cache isNamed.isPlain)] at there
      cases runs.archive_eq member isNamed (holds.origin name _ there)
      exact .target member isNamed decoded

end Ready

theorem Holds.perform {world : World} (holds : Holds cache directory payload calls world.store)
    (runs : Runs cache directory payload calls start) (member : call ∈ calls) :
    Holds cache directory payload calls (call.perform cache world).2.store := by
  have fetches := fetches call.services cache call.url .sound world
  unfold Call.perform
  generalize (fetch call.services cache call.url).run.run world = result at fetches
  cases fetches with
  | refused fault => exact holds
  | unopened isArchiveOf refused =>
      exact holds.of_opens (Store.opens_begunDirectory _ _) (holds.on.lookup_begunDirectory refused)
  | failed ready archived =>
      exact ready.holds_archive runs member holds (ready.provision_archive archived)
  | unpacked ready archived decoded =>
      have first := ready.provision_archive archived
      exact ready.holds_target runs member (ready.holds_archive runs member holds first)
        (ready.provision_target first.spares decoded)

theorem holds_run (runs : Runs cache directory payload calls start) {before after : List Call}
    (split : calls = before ++ after) :
    Holds cache directory payload calls (run cache before start).store := by
  induction before using List.reverseRecOn generalizing after with
  | nil => exact runs.start_holds
  | append_singleton before call inductionHypothesis =>
      rw [List.append_assoc] at split
      rw [run_append]
      exact (inductionHypothesis split).perform runs (by simp [split])

/-- In a run of addresses whose names do not meet, what a fetch gives holds the decoded payload of
its own address. -/
theorem read_of_perform (runs : Runs cache directory payload calls start)
    {before after : List Call} {path : Path} (split : calls = before ++ call :: after)
    (given : (call.perform cache (run cache before start)).1 = .ok path) :
    ∃ name codec contents, IsNamed call.url name codec ∧
      codec.decode (payload call.url) = .ok contents ∧
      (call.perform cache (run cache before start)).2.store.read path = .ok contents := by
  have member : call ∈ calls := by simp [split]
  obtain ⟨other, ordinary⟩ := runs.ordinary call member
  have holds := (holds_run runs split).perform runs member
  obtain ⟨name, fetched, rfl⟩ :=
    (fetches call.services cache call.url .sound (run cache before start)).fetched given
  obtain ⟨codec, decoded⟩ := fetched.decoded
  have isNamed : IsNamed call.url name codec := by
    refine fetched.isNamed ?_ decoded
    rintro rfl
    exact other fetched.named
  obtain ⟨location, node, resolved, there⟩ := Store.has_iff.mp fetched.target
  have place : location = directory ++ [name.stem] := (Store.eq_place_of_resolve resolved).trans
    (holds.place_eq (isNamed.target_endsAt (ordinary name codec isNamed) cache))
  subst place
  obtain ⟨contents, rfl, own⟩ := runs.exists_target_eq member isNamed (holds.origin _ _ there)
  exact ⟨name, codec, contents, isNamed, own, Store.read_eq_ok_iff.mpr ⟨_, resolved, there⟩⟩

/-- An archive with one byte that is stored as it is. -/
def stored (byte : UInt8) : Bytes :=
  [0x50, 0x4B, 3, 4, 20, 0, 0, 0, 0, 0, 0, 0, 0, 0, 0, 0, 0, 0, 1, 0, 0, 0, 1, 0, 0, 0, 0, 0, 0, 0,
    byte]

/-- Two archives whose names do not meet. -/
theorem read_of_perform_two :
    let payload : String → Bytes := fun url => stored (if url = "http://host/x.zip" then 65 else 66)
    let services : Services := {
      download := fun url => ⟨payload url, none⟩
      launch := fun _ store => (store, .exited 0) }
    let first : Call := ⟨services, "http://host/x.zip"⟩
    let second : Call := ⟨services, "http://host/y.zip?z"⟩
    let cache := Path.ofString "c"
    let before := run cache [first] ⟨⟨[], []⟩, []⟩
    (second.perform cache before).1 = .ok (.ofString "c/y") ∧
      ∃ name codec contents, IsNamed second.url name codec ∧
        codec.decode (payload second.url) = .ok contents ∧
        (second.perform cache before).2.store.read (.ofString "c/y") = .ok contents := by
  intro payload services first second cache before
  have named : ∀ call ∈ [first, second], ∀ name codec, IsNamed call.url name codec →
      call = first ∧ name = "x.zip".toList ∨ call = second ∧ name = "y.zip".toList := by
    intro call member name codec isNamed
    rcases List.mem_pair.mp member with rfl | rfl
    · exact .inl ⟨rfl, Option.some.inj (isNamed.named.symm.trans (by decide))⟩
    · exact .inr ⟨rfl, Option.some.inj (isNamed.named.symm.trans (by decide))⟩
  have runs : Runs cache [['c']] payload [first, second] ⟨⟨[], []⟩, []⟩ := {
    on := ⟨by decide, .inr (by decide)⟩
    nothing := fun name => rfl
    brings := by
      intro call member _
      rcases List.mem_pair.mp member with rfl | rfl <;> rfl
    ordinary := by
      intro call member
      refine ⟨?_, fun name codec isNamed => ?_⟩
      · rcases List.mem_pair.mp member with rfl | rfl <;> decide
      · rcases named call member name codec isNamed with ⟨_, rfl⟩ | ⟨_, rfl⟩
        · exact ⟨⟨by decide, by decide⟩, by decide, by decide⟩
        · exact ⟨⟨by decide, by decide⟩, by decide, by decide⟩
    apart := by
      intro call member other member' ne name codec name' codec' isNamed isNamed'
      rcases named call member name codec isNamed with ⟨rfl, rfl⟩ | ⟨rfl, rfl⟩ <;>
        rcases named other member' name' codec' isNamed' with ⟨rfl, rfl⟩ | ⟨rfl, rfl⟩
      · exact absurd rfl ne
      · decide
      · decide
      · exact absurd rfl ne }
  have given : (second.perform cache before).1 = .ok (.ofString "c/y") := by decide +kernel
  have split : [first, second] = [first] ++ second :: [] := rfl
  exact ⟨given, read_of_perform runs split given⟩

/-- Two archives of different addresses and names that stand for one file: the second fetch gives
the data of the first. -/
theorem read_of_perform_other :
    let payload : String → Bytes := fun url =>
      if url = "http://host/x.zip" then stored 65
      else [31, 139, 8, 0, 0, 0, 0, 0, 0, 255, 1, 1, 0, 254, 255, 66, 49, 207, 208, 74, 1, 0, 0, 0]
    let services : Services := {
      download := fun url => ⟨payload url, none⟩
      launch := fun _ store => (store, .exited 0) }
    let second : Call := ⟨services, "http://host/x.gz"⟩
    let cache := Path.ofString "c"
    let before := run cache [⟨services, "http://host/x.zip"⟩] ⟨⟨[], []⟩, []⟩
    IsNamed "http://host/x.zip" "x.zip".toList .zip ∧ IsNamed second.url "x.gz".toList .gzip ∧
      (second.perform cache before).1 = .ok (.ofString "c/x") ∧
      (second.perform cache before).2.store.read (.ofString "c/x") = .ok [65] ∧
      Codec.gzip.decode (payload second.url) = .ok [66] := by
  intro payload services second cache before
  exact ⟨⟨by decide, by decide⟩, ⟨by decide, by decide⟩, by decide +kernel, by decide +kernel,
    by decide +kernel⟩

end Fetch

end DatasetDepot
