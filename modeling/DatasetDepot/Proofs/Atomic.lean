import DatasetDepot.Proofs.Fetch.Within
import DatasetDepot.Proofs.Snapshot.Files

/-!
What fetching and storing may change, and what they leave behind when they fail.

Both make sure of a directory and then write files whole.  Making sure of a directory makes
directories on the way to it, and they stay; apart from them only the files that are written
change.  Main statement: whatever the disk refuses, a fetch and a load that fail leave no file but
an archive that came in full, and nothing unfinished but what is only refused its place.
-/

namespace DatasetDepot

open DatasetDepot.Action

/-- A place is as it was, or a directory was made there on the way to the directory of a cache. -/
def Store.Stays (cache : Path) (before after : Store) (location : Location) : Prop :=
  after.lookup location = before.lookup location ∨
    OnWay (before.start cache.isAbsolute) cache.steps location ∧
      before.lookup location = none ∧ after.lookup location = some .directory

namespace Store

variable {cache : Path} {before middle after : Store} {location : Location}

theorem Stays.refl (cache : Path) (store : Store) (location : Location) :
    Stays cache store store location := .inl rfl

theorem Opens.stays
    (opens : Opens (OnWay (before.start cache.isAbsolute) cache.steps) before after)
    (location : Location) : Stays cache before after location := opens.opened location

theorem Stays.of_eq (stays : Stays cache before middle location)
    (same : after.lookup location = middle.lookup location) :
    Stays cache before after location := by
  unfold Stays
  rwa [same]

theorem Stays.eq_of_there (stays : Stays cache before after location)
    (there : before.lookup location ≠ none) : after.lookup location = before.lookup location :=
  stays.resolve_right fun made => there made.2.1

theorem Stays.congr {other : Store} (stays : Stays cache before after location)
    (base : before.base = other.base) (same : before.lookup location = other.lookup location) :
    Stays cache other after location := by
  unfold Stays start at stays ⊢
  rwa [← base, ← same]

/-- No file takes the place of a directory that was made. -/
theorem Stays.of_touches {places : List Location} {left : Prop}
    (stays : Stays cache before middle location) (nothing : before.lookup location = none)
    (touches : Touches places middle after)
    (cleared : middle.lookup location = none → after.lookup location = none ∨ left) :
    Stays cache before after location ∨ left := by
  rcases stays with same | ⟨onWay, _, directory⟩
  · rw [nothing] at same
    exact (cleared same).imp_left fun none => .inl (none.trans nothing.symm)
  · exact .inl (.inr ⟨onWay, nothing, (touches.directories location).mpr directory⟩)

end Store

theorem Store.Stays.provide {disk : Disk} {cache path : Path} {before : Store}
    {location : Location} {produce : Action Bytes} {start : World}
    {result : Except Fault Unit × World} (stays : Stays cache before start.store location)
    (nothing : before.lookup location = none)
    (provision : Provision disk path produce start result) :
    Stays cache before result.2.store location ∨ start.store.has path = false ∧
      ∃ contents, Writes.Leaves disk path produce start result location contents ∧
        result.2.store.lookup location = some (.file contents) :=
  stays.of_touches nothing provision.touches provision.lookup_eq_none_or

theorem Action.Provision.lookup_eq {disk : Disk} {path : Path} {produce : Action Bytes}
    {start : World} {result : Except Fault Unit × World}
    (provision : Provision disk path produce start result)
    {location : Location} (finished : location ≠ path.unfinished.place start.store.base)
    (there : start.store.lookup location ≠ none) :
    result.2.store.lookup location = start.store.lookup location := by
  obtain ⟨node, found⟩ := Option.ne_none_iff_exists'.mp there
  rw [found]
  exact provision.spares.kept location node found fun unfinished => absurd unfinished finished

/-! One fetch. -/

/-- Whether a fault is found in an address alone. -/
def Fault.rejects : Fault → Bool
  | .invalidParameter _ _ | .unsupportedCompression _ => true
  | _ => false

namespace Fetch

def archive? (cache : Path) (url : String) : Option Path :=
  (nameOf? url.toList).map cache.join

/-- Where the archive and the file it stands for lie. -/
def finished (archive : Path) (base : Location) : List Location :=
  [archive.place base, archive.withoutExtension.place base]

/-- Where the two lie while they are written. -/
def unfinished (archive : Path) (base : Location) : List Location :=
  [archive.unfinished.place base, archive.withoutExtension.unfinished.place base]

/-- Nothing changes but an archive and the file it stands for, whole or unfinished, and what was
whole before stays. -/
structure Frames (cache archive : Path) (before after : Store) : Prop where
  base : after.base = before.base
  elsewhere : ∀ location, location ∉ finished archive before.base →
    location ∉ unfinished archive before.base → Store.Stays cache before after location
  kept : ∀ location ∈ finished archive before.base, before.lookup location ≠ none →
    after.lookup location = before.lookup location

/-- What a fetch leaves unfinished: an archive, or the file it stands for, that has come in full and
that the disk refuses to move into its place. -/
inductive Strands (disk : Disk) (services : Services) (url : String) (archive : Path)
    (base : Location) (fault : Fault) (after : Store) : Location → Prop where
  | archive {message : String} (came : (services.download url).failure? = none)
      (whole : after.lookup (archive.unfinished.place base) =
        some (.file (services.download url).bytes))
      (refused : disk.move archive.unfinished archive = some message)
      (reported : fault = .io archive.text message) :
      Strands disk services url archive base fault after (archive.unfinished.place base)
  | target {codec : Codec} {bytes contents : Bytes} {message : String}
      (read : after.lookup (archive.place base) = some (.file bytes))
      (decoded : codec.decode bytes = .ok contents)
      (whole : after.lookup (archive.withoutExtension.unfinished.place base) =
        some (.file contents))
      (refused : disk.move archive.withoutExtension.unfinished archive.withoutExtension =
        some message)
      (reported : fault = .io archive.withoutExtension.text message) :
      Strands disk services url archive base fault after
        (archive.withoutExtension.unfinished.place base)

/-- What a fetch changes at most, and what it leaves when it fails. -/
structure IsAtomic (disk : Disk) (services : Services) (cache : Path) (url : String)
    (start : World) (result : Except Fault Path × World) : Prop where
  /-- Nothing is done about an address that names nothing, or no archive of a known kind. -/
  unnamed : archive? cache url = none → result.2 = start
  rejected : ∀ fault, result.1 = .error fault → fault.rejects = true → result.2 = start
  frames : ∀ archive ∈ archive? cache url, Frames cache archive start.store result.2.store
  /-- Nothing unfinished is left where there was nothing, unless the disk refuses to move it. -/
  cleared : ∀ archive ∈ archive? cache url, ∀ location ∈ unfinished archive start.store.base,
    start.store.lookup location = none →
      Store.Stays cache start.store result.2.store location ∨
        ∃ fault, result.1 = .error fault ∧ Strands disk services url archive start.store.base
          fault result.2.store location
  /-- A fetch that fails leaves no file, and no archive but one that came in full. -/
  failed : ∀ fault, result.1 = .error fault → ∀ archive ∈ archive? cache url,
    Store.Stays cache start.store result.2.store
        (archive.withoutExtension.place start.store.base) ∧
      (Store.Stays cache start.store result.2.store (archive.place start.store.base) ∨
        (services.download url).failure? = none ∧
          result.2.journal = start.journal ++ [.downloaded url] ∧
          result.2.store.lookup (archive.place start.store.base) =
            some (.file (services.download url).bytes))

namespace Frames

variable {cache archive : Path} {before after : Store}

theorem of_opens
    (opens : Store.Opens (Store.OnWay (before.start cache.isAbsolute) cache.steps) before after) :
    Frames cache archive before after where
  base := opens.base
  elsewhere location _ _ := opens.stays location
  kept location _ there := (opens.stays location).eq_of_there there

theorem provide {disk : Disk} {path : Path} {produce : Action Bytes} {start : World}
    {result : Except Fault Unit × World} (frames : Frames cache archive before start.store)
    (provision : Provision disk path produce start result)
    (placed : path.place before.base ∈ finished archive before.base)
    (placed' : path.unfinished.place before.base ∈ unfinished archive before.base)
    (apart : ∀ location ∈ finished archive before.base, location ∉ unfinished archive before.base) :
    Frames cache archive before result.2.store where
  base := provision.touches.base.trans frames.base
  elsewhere location other other' := by
    refine (frames.elsewhere location other other').of_eq (provision.touches.elsewhere location ?_)
    rw [frames.base]
    rintro member
    rcases List.mem_pair.mp member with rfl | rfl
    · exact other' placed'
    · exact other placed
  kept location member there := by
    have same := frames.kept location member there
    rw [provision.lookup_eq (by rintro rfl; exact apart _ member (frames.base ▸ placed'))
      (same ▸ there), same]

end Frames

variable {disk : Disk} {services : Services} {cache : Path} {url : String}
  {start middle after : World} {name : Name} {codec : Codec} {opened : Store} {fault : Fault}
  {result : Except Fault Unit}

theorem rejects_of_unlessRefused {refused? : Bytes → Option String} {report : String → Fault}
    {produce : Action Bytes} (reports : ∀ message, (report message).rejects = false)
    (produces : ∀ {start after : World} {fault : Fault},
      produce.run.run start = (.error fault, after) → fault.rejects = false)
    {start after : World} {fault : Fault}
    (failed : (unlessRefused refused? report produce).run.run start = (.error fault, after)) :
    fault.rejects = false := by
  rw [run_unlessRefused] at failed
  rcases given : produce.run.run start with ⟨_ | contents, middle⟩
  · rw [given] at failed
    cases failed
    exact produces given
  · rw [given] at failed
    simp only at failed
    cases taken : refused? contents with
    | none =>
        rw [taken] at failed
        cases failed
    | some message =>
        rw [taken] at failed
        cases failed
        exact reports message

theorem rejects_arrival {archive : Path}
    (failed : (arrival services url archive disk).run.run start = (.error fault, after)) :
    fault.rejects = false := by
  refine rejects_of_unlessRefused (fun _ => rfl) (fun failed => ?_) failed
  cases downloads_of_run failed with
  | failed failure => rfl

theorem rejects_extraction {archive : Path}
    (failed : (extraction codec archive disk).run.run start = (.error fault, after)) :
    fault.rejects = false := by
  refine rejects_of_unlessRefused (fun _ => rfl) (fun failed => ?_) failed
  cases decodes_of_run failed with
  | unread refusal => rfl
  | damaged message => rfl

theorem rejects_of_provision {path : Path} {produce : Action Bytes}
    (produces : ∀ {start after : World} {fault : Fault},
      produce.run.run start = (.error fault, after) → fault.rejects = false)
    (provision : Provision disk path produce start (.error fault, after)) :
    fault.rejects = false := by
  cases provision with
  | written absent writes =>
      cases writes with
      | refused refusal => rfl
      | failed opens produced touches cleared =>
          exact rejects_of_unlessRefused (fun _ => rfl) produces produced
      | unmoved opens produced blocked touches whole => rfl

theorem lookup_of_arrived {archive : Path}
    (provision : Provision disk archive (arrival services url archive disk) start
      (.ok (), after)) :
    after = start ∨ (services.download url).failure? = none ∧
      after.journal = start.journal ++ [.downloaded url] ∧
      after.store.lookup (archive.place start.store.base) =
        some (.file (services.download url).bytes) := by
  cases provision with
  | there has => exact .inl rfl
  | written absent writes =>
      cases writes with
      | done opens produced touches cleared read =>
          obtain ⟨location, resolved, there⟩ := Store.read_eq_ok_iff.mp read
          rw [Store.eq_place_of_resolve resolved, touches.base] at there
          cases downloads_of_run (run_of_unlessRefused produced) with
          | came failure => exact .inr ⟨failure, rfl, there⟩

theorem isAtomic_of_opens {after : Store}
    (opens : Store.Opens (Store.OnWay (start.store.start cache.isAbsolute) cache.steps)
      start.store after)
    (unchanged : archive? cache url = none ∨ fault.rejects = true → after = start.store) :
    IsAtomic disk services cache url start (.error fault, { start with store := after }) where
  unnamed none := by rw [unchanged (.inl none)]
  rejected := by
    rintro _ ⟨rfl⟩ rejects
    rw [unchanged (.inr rejects)]
  frames _ _ := .of_opens opens
  cleared _ _ _ _ _ := .inl (opens.stays _)
  failed _ _ _ _ := ⟨opens.stays _, .inl (opens.stays _)⟩

theorem IsArchiveOf.archive?_eq (isArchiveOf : IsArchiveOf cache url name) :
    archive? cache url = some (cache.join name) := by
  rw [archive?, isArchiveOf.named]
  rfl

/-- Nothing finished lies where something is unfinished. -/
theorem IsArchiveOf.apart (isArchiveOf : IsArchiveOf cache url name) (base : Location) :
    ∀ location ∈ finished (cache.join name) base, location ∉ unfinished (cache.join name) base := by
  obtain ⟨_, _, _, _, isArchive, _⟩ := isArchiveOf.exists_isArchive
  intro location member member'
  rcases List.mem_pair.mp member with rfl | rfl
  · rcases List.mem_pair.mp member' with same | same
    · exact Path.unfinished_place_ne _ _ same.symm
    · exact isArchive.place_ne_unfinished _ _ same
  · rcases List.mem_pair.mp member' with same | same
    · exact isArchive.target_place_ne_unfinished _ same
    · exact Path.unfinished_place_ne _ _ same.symm

/-- Only what becomes of the archive of an address is left to show. -/
theorem IsArchiveOf.isAtomic {result : Except Fault Path × World}
    (isArchiveOf : IsArchiveOf cache url name)
    (rejects : ∀ fault, result.1 = .error fault → fault.rejects = false)
    (frames : Frames cache (cache.join name) start.store result.2.store)
    (cleared : ∀ location ∈ unfinished (cache.join name) start.store.base,
      start.store.lookup location = none →
        Store.Stays cache start.store result.2.store location ∨
          ∃ fault, result.1 = .error fault ∧ Strands disk services url (cache.join name)
            start.store.base fault result.2.store location)
    (failed : ∀ fault, result.1 = .error fault →
      Store.Stays cache start.store result.2.store
          ((cache.join name).withoutExtension.place start.store.base) ∧
        (Store.Stays cache start.store result.2.store ((cache.join name).place start.store.base) ∨
          (services.download url).failure? = none ∧
            result.2.journal = start.journal ++ [.downloaded url] ∧
            result.2.store.lookup ((cache.join name).place start.store.base) =
              some (.file (services.download url).bytes))) :
    IsAtomic disk services cache url start result where
  unnamed none := by
    rw [isArchiveOf.archive?_eq] at none
    cases none
  rejected fault failed rejected := by
    rw [rejects fault failed] at rejected
    cases rejected
  frames := by
    rw [isArchiveOf.archive?_eq]
    rintro _ ⟨rfl⟩
    exact frames
  cleared := by
    rw [isArchiveOf.archive?_eq]
    rintro _ ⟨rfl⟩
    exact cleared
  failed := by
    rw [isArchiveOf.archive?_eq]
    rintro fault error _ ⟨rfl⟩
    exact failed fault error

namespace Ready

theorem opens (ready : Ready cache url start name codec opened) :
    Store.Opens (Store.OnWay (start.store.start cache.isAbsolute) cache.steps) start.store opened :=
  (Store.opens_ensureDirectory ready.made).1

theorem frames_archive (ready : Ready cache url start name codec opened)
    (first : Provision disk (cache.join name) (arrival services url (cache.join name) disk)
      { start with store := opened } (result, middle)) :
    Frames cache (cache.join name) start.store middle.store :=
  (Frames.of_opens ready.opens).provide first (List.mem_pair.mpr (.inl rfl))
    (List.mem_pair.mpr (.inl rfl)) (ready.isArchiveOf.apart _)

theorem stays_target (ready : Ready cache url start name codec opened)
    (first : Provision disk (cache.join name) (arrival services url (cache.join name) disk)
      { start with store := opened } (result, middle)) :
    Store.Stays cache start.store middle.store
      ((cache.join name).withoutExtension.place start.store.base) := by
  obtain ⟨_, _, _, _, isArchive, _⟩ := ready.isArchiveOf.exists_isArchive
  apply (ready.opens.stays _).of_eq
  apply first.touches.elsewhere
  rw [ready.opens.base]
  intro member
  rcases List.mem_pair.mp member with same | same
  · exact isArchive.target_place_ne_unfinished _ same
  · exact isArchive.target_place_ne _ same

/-- An archive that is left unfinished came in full. -/
theorem cleared_archive (ready : Ready cache url start name codec opened)
    (first : Provision disk (cache.join name) (arrival services url (cache.join name) disk)
      { start with store := opened } (result, middle)) {location : Location}
    (member : location ∈ unfinished (cache.join name) start.store.base)
    (nothing : start.store.lookup location = none) :
    Store.Stays cache start.store middle.store location ∨
      ∃ fault, result = .error fault ∧ Strands disk services url (cache.join name)
        start.store.base fault middle.store location := by
  have base : ({ start with store := opened } : World).store.base = start.store.base :=
    ready.opens.base
  refine ((ready.opens.stays location).provide nothing first).imp_right ?_
  rintro ⟨absent, contents, leaves, found⟩
  obtain ⟨place, message, blocked, failed⟩ := leaves.placed.resolve_left <| by
    rw [base]
    rintro rfl
    exact ready.isArchiveOf.apart _ _ (List.mem_pair.mpr (.inl rfl)) member
  obtain ⟨_, _, _, produced⟩ := leaves.produced
  rw [base] at place
  subst place
  cases downloads_of_run (run_of_unlessRefused produced) with
  | came failure =>
      exact ⟨_, failed, .archive failure found
        (blocked.resolve_right (Store.find_ne_of_absent absent _)) rfl⟩

theorem isAtomic_of_failed (ready : Ready cache url start name codec opened)
    (first : Provision disk (cache.join name) (arrival services url (cache.join name) disk)
      { start with store := opened } (.error fault, middle)) :
    IsAtomic disk services cache url start (.error fault, middle) := by
  refine ready.isArchiveOf.isAtomic ?_ (ready.frames_archive first) ?_ ?_
  · rintro _ ⟨rfl⟩
    exact rejects_of_provision rejects_arrival first
  · intro location member nothing
    refine (ready.cleared_archive first member nothing).imp_right ?_
    rintro ⟨_, ⟨rfl⟩, strands⟩
    exact ⟨_, rfl, strands⟩
  · intro _ _
    refine ⟨ready.stays_target first, .inl ?_⟩
    apply (ready.opens.stays _).of_eq
    apply first.touches_of_error.elsewhere
    rw [ready.opens.base, List.mem_singleton]
    exact fun same => Path.unfinished_place_ne _ _ same.symm

/-- What fails behind the archive leaves both places as the archive found them. -/
theorem lookup_of_failed (ready : Ready cache url start name codec opened)
    (first : Provision disk (cache.join name) (arrival services url (cache.join name) disk)
      { start with store := opened } (.ok (), middle))
    (second : Provision disk (cache.join name).withoutExtension
      (extraction codec (cache.join name) disk) middle (.error fault, after)) :
    ∀ location ∈ finished (cache.join name) start.store.base,
      after.store.lookup location = middle.store.lookup location := by
  intro location member
  apply second.touches_of_error.elsewhere
  rw [(ready.frames_archive first).base, List.mem_singleton]
  rintro rfl
  exact ready.isArchiveOf.apart _ _ member (List.mem_pair.mpr (.inr rfl))

/-- A file that is left unfinished is what its archive stands for. -/
theorem cleared_target (ready : Ready cache url start name codec opened)
    (first : Provision disk (cache.join name) (arrival services url (cache.join name) disk)
      { start with store := opened } (.ok (), middle))
    (second : Provision disk (cache.join name).withoutExtension
      (extraction codec (cache.join name) disk) middle (result, after)) {location : Location}
    (member : location ∈ unfinished (cache.join name) start.store.base)
    (nothing : start.store.lookup location = none) :
    Store.Stays cache start.store after.store location ∨
      ∃ fault, result = .error fault ∧ Strands disk services url (cache.join name)
        start.store.base fault after.store location := by
  have base := (ready.frames_archive first).base
  obtain ⟨_, _, _, _, isArchive, _⟩ := ready.isArchiveOf.exists_isArchive
  have stays := (ready.cleared_archive first member nothing).resolve_right nofun
  refine (stays.provide nothing second).imp_right ?_
  rintro ⟨absent, contents, leaves, found⟩
  obtain ⟨place, message, blocked, failed⟩ := leaves.placed.resolve_left <| by
    rw [base]
    rintro rfl
    exact ready.isArchiveOf.apart _ _ (List.mem_pair.mpr (.inr rfl)) member
  obtain ⟨unfilled, _, opens, produced⟩ := leaves.produced
  rw [base] at place
  subst place
  obtain rfl : result = .error (.io (cache.join name).withoutExtension.text message) := failed
  cases decodes_of_run (run_of_unlessRefused produced) with
  | decoded read decoded =>
      obtain ⟨place, resolved, there⟩ := Store.read_eq_ok_iff.mp read
      obtain rfl := Store.eq_place_of_resolve resolved
      change unfilled.lookup ((cache.join name).place unfilled.base) = _ at there
      rw [opens.base, opens.elsewhere _ (by
        rw [List.mem_singleton]
        exact isArchive.place_ne_unfinished _ _), base,
        ← ready.lookup_of_failed first second _ (List.mem_pair.mpr (.inl rfl))] at there
      exact ⟨_, rfl, .target there decoded found
        (blocked.resolve_right (Store.find_ne_of_absent absent _)) rfl⟩

theorem isAtomic_of_unpacked (ready : Ready cache url start name codec opened)
    (first : Provision disk (cache.join name) (arrival services url (cache.join name) disk)
      { start with store := opened } (.ok (), middle))
    (second : Provision disk (cache.join name).withoutExtension
      (extraction codec (cache.join name) disk) middle (result, after))
    (journal : after.journal = middle.journal) :
    IsAtomic disk services cache url start
      (result.map fun _ => (cache.join name).withoutExtension, after) := by
  refine ready.isArchiveOf.isAtomic ?_ ?_ ?_ ?_
  · intro fault failed
    cases result with
    | ok done => cases failed
    | error _ =>
        cases failed
        exact rejects_of_provision rejects_extraction second
  · exact (ready.frames_archive first).provide second (List.mem_pair.mpr (.inr rfl))
      (List.mem_pair.mpr (.inr rfl)) (ready.isArchiveOf.apart _)
  · intro location member nothing
    refine (ready.cleared_target first second member nothing).imp_right ?_
    rintro ⟨fault, rfl, strands⟩
    exact ⟨fault, rfl, strands⟩
  · intro fault failed
    cases result with
    | ok done => cases failed
    | error _ =>
        have same := ready.lookup_of_failed first second
        have archived := same _ (List.mem_pair.mpr (.inl rfl))
        refine ⟨(ready.stays_target first).of_eq (same _ (List.mem_pair.mpr (.inr rfl))), ?_⟩
        rcases lookup_of_arrived first with rfl | ⟨came, asked, there⟩
        · exact .inl ((ready.opens.stays _).of_eq archived)
        · rw [ready.opens.base] at there
          exact .inr ⟨came, journal.trans asked, archived.trans there⟩

end Ready

/-- A fetch changes no more than the two files it is about. -/
theorem isAtomic_fetch (services : Services) (cache : Path) (url : String) (disk : Disk)
    (start : World) :
    IsAtomic disk services cache url start ((fetch services cache url disk).run.run start) := by
  have fetches := fetches services cache url disk start
  generalize (fetch services cache url disk).run.run start = result at fetches
  cases fetches with
  | refused fault => exact isAtomic_of_opens (Store.Opens.refl _ _) fun _ => rfl
  | unopened isArchiveOf refused =>
      refine isAtomic_of_opens (Store.opens_begunDirectory _ _) fun unchanged => ?_
      rw [isArchiveOf.archive?_eq] at unchanged
      rcases unchanged with none | rejects
      · cases none
      · cases rejects
  | failed ready archived => exact ready.isAtomic_of_failed (ready.provision_archive archived)
  | unpacked ready archived decoded =>
      have first := ready.provision_archive archived
      exact ready.isAtomic_of_unpacked first (ready.provision_target first.spares decoded)
        (journal_provide_extraction decoded)

end Fetch

/-! Storing and loading. -/

namespace Snapshot

variable {cache file : Path} {name : String} {rows columns : Nat} {dataset : Dataset}
  {tables : TableFormat} {disk : Disk} {loader : Nat → Action Dataset} {start : World}

/-- What storing leaves unfinished: a snapshot that has all of its contents and is refused its
place, by the disk or by a directory there. -/
structure Strands (disk : Disk) (file : Path) (base : Location) (contents : Bytes) (fault : Fault)
    (after : Store) : Prop where
  whole : after.lookup (file.unfinished.place base) = some (.file contents)
  refused : ∃ message, fault = .io file.text message ∧
    (disk.move file.unfinished file = some message ∨
      after.lookup (file.place base) = some .directory)

/-- What comes of storing a dataset.  If it is not stored, nothing is, unless it is only refused its
place. -/
structure Stores (cache file : Path) (dataset : Dataset) (tables : TableFormat) (disk : Disk)
    (start : World) (result : Except Fault Unit × World) : Prop where
  base : result.2.store.base = start.store.base
  elsewhere : ∀ location, location ∉ [file.unfinished.place start.store.base,
      file.place start.store.base] → Store.Stays cache start.store result.2.store location
  stored : result.1 = .ok () → result.2.store.read file = .ok (tables.write (tableOf dataset))
  undone : ∀ fault, result.1 = .error fault →
    Store.Stays cache start.store result.2.store (file.place start.store.base) ∧
      (start.store.lookup (file.unfinished.place start.store.base) = none →
        Store.Stays cache start.store result.2.store (file.unfinished.place start.store.base) ∨
          Strands disk file start.store.base (tables.write (tableOf dataset)) fault result.2.store)

theorem run_of_encoded {opened middle : World} {contents : Bytes}
    (given : (encoded file dataset tables disk).run.run opened = (.ok contents, middle)) :
    contents = tables.write (tableOf dataset) ∧ middle = opened := by
  have taken := run_of_unlessRefused (run_of_unlessRefused given)
  exact ⟨(Except.ok.inj (congrArg Prod.fst taken)).symm, (congrArg Prod.snd taken).symm⟩

theorem isQuiet_encoded (file : Path) (dataset : Dataset) (tables : TableFormat) (disk : Disk) :
    (encoded file dataset tables disk).IsQuiet :=
  ((isQuiet_pure _).unlessRefused _ _).unlessRefused _ _

/-! A store in which the directory of the cache was made. -/

section Opened

variable {opened : Store} {result : Except Fault Unit × World}

/-- A snapshot that is left unfinished has all of its contents. -/
theorem strands_of_leaves {fault : Fault} {after : World} {contents : Bytes}
    (base : opened.base = start.store.base)
    (unchanged : after.store.lookup (file.place start.store.base) =
      opened.lookup (file.place start.store.base))
    (leaves : Writes.Leaves disk file (encoded file dataset tables disk)
      { start with store := opened } (.error fault, after)
      (file.unfinished.place start.store.base) contents)
    (found : after.store.lookup (file.unfinished.place start.store.base) = some (.file contents)) :
    Strands disk file start.store.base (tables.write (tableOf dataset)) fault after.store := by
  obtain ⟨_, _, _, produced⟩ := leaves.produced
  obtain ⟨rfl, _⟩ := run_of_encoded produced
  obtain ⟨_, message, blocked, failed⟩ := leaves.placed.resolve_left <| by
    rw [show ({ start with store := opened } : World).store.base = _ from base]
    exact file.unfinished_place_ne _
  refine ⟨found, message, Except.error.inj failed, blocked.imp_right fun there => ?_⟩
  obtain ⟨location, resolved, directory⟩ := Store.find_eq_ok_iff.mp there
  rw [Store.eq_place_of_resolve resolved] at directory
  change opened.lookup (file.place opened.base) = _ at directory
  rw [unchanged, ← base, directory]

theorem stores_of_writes
    (opens : Store.Opens (Store.OnWay (start.store.start cache.isAbsolute) cache.steps)
      start.store opened)
    (writes : Writes disk file (encoded file dataset tables disk) { start with store := opened }
      result) :
    Stores cache file dataset tables disk start result := by
  have base : ({ start with store := opened } : World).store.base = start.store.base := opens.base
  have touches := writes.touches
  rw [base] at touches
  constructor
  · exact touches.base.trans opens.base
  · exact fun location other => (opens.stays location).of_eq (touches.elsewhere location other)
  · intro stored
    rcases result with ⟨outcome, after⟩
    obtain rfl : outcome = .ok () := stored
    cases writes with
    | done opens produced touches cleared read =>
        obtain ⟨rfl, _⟩ := run_of_encoded produced
        exact read
  · intro fault failed
    rcases result with ⟨outcome, after⟩
    obtain rfl : outcome = .error fault := failed
    have unchanged := writes.touches_of_error.elsewhere (file.place start.store.base) (by
      rw [base, List.mem_singleton]
      exact (file.unfinished_place_ne start.store.base).symm)
    refine ⟨(opens.stays _).of_eq unchanged, fun nothing => ?_⟩
    refine ((opens.stays _).of_touches nothing touches writes.lookup_eq_none_or).imp_right ?_
    rintro ⟨contents, leaves, found⟩
    exact strands_of_leaves opens.base unchanged leaves found

end Opened

theorem stores_write {absolute : Bool} {above : List Name} {last : Name}
    (ends : file.EndsAt absolute above last) (cache : Path) (dataset : Dataset)
    (tables : TableFormat) (disk : Disk) (start : World) :
    Stores cache file dataset tables disk start
      ((write cache file dataset tables disk).run.run start) := by
  rw [run_write]
  cases made : start.store.ensureDirectory cache with
  | error refusal =>
      have opens := Store.opens_begunDirectory start.store cache
      exact ⟨opens.base, fun location _ => opens.stays location, nofun,
        fun _ _ => ⟨opens.stays _, fun _ => .inl (opens.stays _)⟩⟩
  | ok opened =>
      exact stores_of_writes (Store.opens_ensureDirectory made).1
        (writes_writeWhole ends (isQuiet_encoded file dataset tables disk) disk _)

/-- What a load changes at most apart from what its loader does, and what it leaves when it fails
before its dataset is stored. -/
structure IsAtomic (cache file : Path) (name : String) (rows columns : Nat)
    (loader : Nat → Action Dataset) (tables : TableFormat) (disk : Disk) (start : World)
    (result : Except Fault Dataset × World) : Prop where
  /-- A snapshot that is there is only read. -/
  kept : start.store.has file = true → result.2 = start
  /-- Only the snapshot is written. -/
  elsewhere : start.store.has file = false → ∀ location,
    location ∉ [file.unfinished.place start.store.base, file.place start.store.base] →
      Store.Stays cache ((loader rows).run.run start).2.store result.2.store location
  /-- A load that fails asked too much of a dataset that is stored, or leaves nothing of it.  What
  is unfinished is only left where it has all of its contents and is refused its place. -/
  failed : start.store.has file = false → ∀ fault, result.1 = .error fault →
    (∃ dataset loaded, (loader rows).run.run start = (.ok dataset, loaded) ∧
      result.2.store.read file = .ok (tables.write (tableOf dataset)) ∧
      crop name dataset rows columns = .error fault) ∨
    Store.Stays cache start.store result.2.store (file.place start.store.base) ∧
      (start.store.lookup (file.unfinished.place start.store.base) = none →
        Store.Stays cache start.store result.2.store (file.unfinished.place start.store.base) ∨
          ∃ dataset loaded, (loader rows).run.run start = (.ok dataset, loaded) ∧
            Strands disk file start.store.base (tables.write (tableOf dataset)) fault
              result.2.store)

/-- The same store as far as a file is concerned, whole or unfinished. -/
structure LeavesAlone (file : Path) (before after : Store) : Prop where
  base : after.base = before.base
  whole : after.lookup (file.place before.base) = before.lookup (file.place before.base)
  unfinished : after.lookup (file.unfinished.place before.base) =
    before.lookup (file.unfinished.place before.base)

theorem IsAtomic.of_there {result : Except Fault Dataset × World}
    (there : start.store.has file = true) (same : result.2 = start) :
    IsAtomic cache file name rows columns loader tables disk start result := by
  refine ⟨fun _ => same, fun absent => ?_, fun absent => ?_⟩
  · rw [there] at absent
    cases absent
  · rw [there] at absent
    cases absent

theorem run_read (file : Path) (tables : TableFormat) (start : World) :
    ((read file tables).run.run start).2 = start := by
  unfold read
  rw [run_bind, run_store]
  simp only
  cases start.store.read file with
  | error refusal => cases refusal <;> rfl
  | ok contents =>
      simp only
      cases tables.read contents with
      | error reason => rfl
      | ok reading =>
          simp only
          cases ofReading reading <;> rfl

theorem exists_endsAt_path (cache : Path) (name : String) (rows : Nat) :
    ∃ absolute above last, (path cache name rows).EndsAt absolute above last := by
  have letters : ∃ front, (path cache name rows).letters = front ++ ending := by
    rw [path_eq, fileName_eq, Path.join]
    split
    · exact ⟨_, rfl⟩
    · split
      · exact ⟨_, (List.append_assoc _ _ _).symm⟩
      · exact ⟨_, (List.append_assoc _ (_ :: _) _).symm⟩
  obtain ⟨front, letters⟩ := letters
  exact Path.exists_endsAt_of_letters letters (by decide) (by decide)

theorem isAtomic_of_loaded {loaded : World}
    (absent : start.store.has file = false)
    (given : (loader rows).run.run start = (.ok dataset, loaded))
    (apart : LeavesAlone file start.store loaded.store) {outcome : Except Fault Unit}
    {after : World} (stores : Stores cache file dataset tables disk loaded (outcome, after)) :
    IsAtomic cache file name rows columns loader tables disk start
      (outcome.bind fun _ => crop name dataset rows columns, after) where
  kept there := by
    rw [there] at absent
    cases absent
  elsewhere _ location other := by
    rw [given]
    apply stores.elsewhere
    rwa [apart.base]
  failed _ fault failed := by
    cases outcome with
    | ok done => exact .inl ⟨dataset, loaded, given, stores.stored rfl, failed⟩
    | error _ =>
        cases failed
        obtain ⟨whole, unfinished⟩ := stores.undone _ rfl
        rw [apart.base] at whole unfinished
        refine .inr ⟨whole.congr apart.base apart.whole, fun nothing => ?_⟩
        exact (unfinished (apart.unfinished.trans nothing)).imp
          (fun stays => stays.congr apart.base apart.unfinished)
          fun strands => ⟨dataset, loaded, given, strands⟩

/-- A load that fails leaves no file of its dataset. -/
theorem isAtomic_load
    (apart : LeavesAlone (path cache name rows) start.store ((loader rows).run.run start).2.store)
    (tables : TableFormat) (disk : Disk) :
    IsAtomic cache (path cache name rows) name rows columns loader tables disk start
      ((load cache name rows columns loader tables disk).run.run start) := by
  obtain ⟨_, _, _, ends⟩ := exists_endsAt_path cache name rows
  rw [run_load]
  by_cases there : start.store.has (path cache name rows) = true
  · have same := run_read (path cache name rows) tables start
    rw [if_pos there]
    rcases result : (read (path cache name rows) tables).run.run start with ⟨outcome, after⟩
    rw [result] at same
    cases outcome <;> exact .of_there there same
  · rw [if_neg there]
    have absent := Bool.not_eq_true _ ▸ there
    rcases given : (loader rows).run.run start with ⟨fault | dataset, loaded⟩
    · rw [given] at apart
      exact {
        kept := fun there' => absurd there' there
        elsewhere := fun _ location _ => by
          rw [given]
          exact .refl _ _ _
        failed := fun _ _ _ => .inr ⟨.inl apart.whole, fun _ => .inl (.inl apart.unfinished)⟩ }
    · rw [given] at apart
      have stores := stores_write ends cache dataset tables disk loaded
      rcases run : (write cache (path cache name rows) dataset tables disk).run.run loaded with
        ⟨outcome, after⟩
      rw [run] at stores
      simp only [run]
      cases outcome <;> exact isAtomic_of_loaded absent given apart stores

end Snapshot

/-- Fetching and loading change no more than their own files, whatever the disk refuses, and what
they cannot finish leaves none of them but what is only refused its place. -/
theorem isAtomic_fetch_and_load {services : Services} {tables : TableFormat} {disk : Disk}
    {cache : Path} {url name : String} {rows columns : Nat} {loader : Nat → Action Dataset}
    {start before : World}
    (apart : Snapshot.LeavesAlone (Snapshot.path cache name rows) before.store
      ((loader rows).run.run before).2.store) :
    Fetch.IsAtomic disk services cache url start
        ((Fetch.fetch services cache url disk).run.run start) ∧
      Snapshot.IsAtomic cache (Snapshot.path cache name rows) name rows columns loader tables disk
        before ((Snapshot.load cache name rows columns loader tables disk).run.run before) :=
  ⟨Fetch.isAtomic_fetch services cache url disk start, Snapshot.isAtomic_load apart tables disk⟩

/-- A download that comes in full and is refused its place, and a loader that asks for something and
fails, next to a directory of the same name as that of the cache. -/
theorem isAtomic_fetch_and_load_of_failures :
    let services : Services := {
      download := fun _ => ⟨[1], none⟩
      launch := fun _ store => (store, .exited 0) }
    let disk : Disk := { Disk.sound with move := fun _ _ => some "denied" }
    let cache := Path.ofString "d/c"
    let loader : Nat → Action Dataset := fun _ => do
      record (.generated "a")
      throw (.externalCommand "loader" "offline")
    let start : World := ⟨⟨[], [([['c']], .directory)]⟩, []⟩
    Snapshot.LeavesAlone (Snapshot.path cache "a" 2) start.store
        ((loader 2).run.run start).2.store ∧
      Fetch.IsAtomic disk services cache "http://host/x.gz" start
        ((Fetch.fetch services cache "http://host/x.gz" disk).run.run start) ∧
      Snapshot.IsAtomic cache (Snapshot.path cache "a" 2) "a" 2 1 loader .packed disk start
        ((Snapshot.load cache "a" 2 1 loader .packed disk).run.run start) := by
  intro services disk cache loader start
  have apart : Snapshot.LeavesAlone (Snapshot.path cache "a" 2) start.store
      ((loader 2).run.run start).2.store := ⟨rfl, rfl, rfl⟩
  exact ⟨apart, isAtomic_fetch_and_load apart⟩

/-- A directory on the way to that of the cache has the name of the snapshot.  So the load fails, on
a disk that refuses nothing, and leaves the unfinished file behind. -/
theorem load_leaves_unfinished :
    let cache := Path.ofString "a-0-samples.parquet/.."
    let dataset := Dataset.ofRows 1 #[(0, #[1])]
    let start : World := ⟨⟨[], []⟩, []⟩
    let result := (Snapshot.load cache "a" 0 0 fun _ => pure dataset).run.run start
    (∃ fault, result.1 = .error fault) ∧
      start.store.has (Snapshot.path cache "a" 0).unfinished = false ∧
      result.2.store.has (Snapshot.path cache "a" 0).unfinished = true := by
  intro cache dataset start result
  have failed : result.1.isOk = false := by decide +kernel
  refine ⟨?_, by decide +kernel, by decide +kernel⟩
  cases given : result.1 with
  | error fault => exact ⟨fault, rfl⟩
  | ok restored =>
      rw [given] at failed
      cases failed

end DatasetDepot
