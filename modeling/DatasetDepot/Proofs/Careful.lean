import DatasetDepot.Proofs.Fetch.Effect
import DatasetDepot.Proofs.Snapshot.Files

/-!
Actions that only add to what is there.

`IsCareful` is an action on the store alone that takes nothing away but unfinished files, though
it may give other files new contents.  Careful actions can be put one behind the other.  Main
statements: writing a file whole is careful if bringing its contents is, and with that so are the
steps from an archive to a snapshot.
-/

namespace DatasetDepot

namespace Store

/-- Where files are put that are not finished. -/
def unfinishedPlaces : Set Location :=
  { place | ∃ above name, place = above ++ [name ++ Name.mark] }

/-- What was there before is still there, if perhaps with other contents, but for files in these
places. -/
structure Retains (scratch : Set Location) (before after : Store) : Prop
    extends Spares Set.univ before after where
  there : ∀ location, location ∉ scratch → before.lookup location ≠ none →
    after.lookup location ≠ none

namespace Retains

variable {scratch : Set Location} {before middle after : Store}

theorem refl (scratch : Set Location) (store : Store) : Retains scratch store store :=
  ⟨Spares.refl _ _, fun _ _ => id⟩

theorem trans (first : Retains scratch before middle) (second : Retains scratch middle after) :
    Retains scratch before after where
  toSpares := first.toSpares.trans second.toSpares
  there location safe some := second.there location safe (first.there location safe some)

theorem has (retains : Retains scratch before after) {path : Path}
    (there : before.has path = true) (safe : path.place before.base ∉ scratch) :
    after.has path = true := by
  obtain ⟨location, node, resolved, found⟩ := has_iff.mp there
  rw [← eq_place_of_resolve resolved] at safe
  have some := retains.there location safe (by simp [found])
  obtain ⟨other, found'⟩ := Option.ne_none_iff_exists'.mp some
  exact has_iff.mpr ⟨location, other, retains.resolve resolved, found'⟩

end Retains

variable {before after : Store}

theorem Spares.retains {scratch : Set Location} (spares : Spares scratch before after) :
    Retains scratch before after where
  toSpares := spares.mono (Set.subset_univ scratch)
  there location safe some := by
    obtain ⟨node, found⟩ := Option.ne_none_iff_exists'.mp some
    rw [spares.kept location node found fun member => absurd member safe]
    exact Option.some_ne_none node

theorem Touches.retains {places : List Location} {scratch : Set Location}
    (touches : Touches places before after)
    (left : ∀ place ∈ places, place ∈ scratch ∨ after.lookup place ≠ none) :
    Retains scratch before after where
  toSpares := touches.spares fun _ _ => .inl trivial
  there location safe some := by
    by_cases member : location ∈ places
    · exact (left location member).resolve_left safe
    · rwa [touches.elsewhere location member]

theorem lookup_place_of_read {path : Path} {contents : Bytes}
    (read : after.read path = .ok contents) :
    after.lookup (path.place after.base) = some (.file contents) := by
  obtain ⟨location, resolved, there⟩ := read_eq_ok_iff.mp read
  rwa [← eq_place_of_resolve resolved]

theorem retains_write {path : Path} {contents : Bytes}
    (written : before.write path contents = .ok after) (scratch : Set Location) :
    Retains scratch before after := by
  obtain ⟨touches, read⟩ := Action.touches_write written
  have there := lookup_place_of_read read
  rw [touches.base] at there
  apply touches.retains
  intro place member
  rw [List.mem_singleton.mp member, there]
  exact .inr (Option.some_ne_none _)

theorem mem_unfinishedPlaces (path : Path) (base : Location) :
    path.unfinished.place base ∈ unfinishedPlaces := by
  obtain ⟨above, name, place, _⟩ := path.exists_unfinished_place base
  exact ⟨above, name, place⟩

theorem retains_discard {path : Path} (store : Store) : Retains unfinishedPlaces store
    ((store.remove path.unfinished).toOption.getD store) := by
  cases removed : store.remove path.unfinished with
  | error refusal => exact Retains.refl _ _
  | ok after =>
      obtain ⟨location, contents, resolved, there, rfl⟩ := remove_eq_ok_iff.mp removed
      have unfinished := mem_unfinishedPlaces path store.base
      rw [← eq_place_of_resolve resolved] at unfinished
      apply (Touches.clear (by simp [there])).retains
      intro place member
      rw [List.mem_singleton.mp member]
      exact .inl unfinished

theorem retains_rename {path : Path} (renamed : before.rename path.unfinished path = .ok after) :
    Retains unfinishedPlaces before after := by
  obtain ⟨contents, _, _, read, _⟩ := rename_eq_ok_iff.mp renamed
  obtain ⟨touches, moved, _⟩ :=
    Action.touches_rename read renamed (path.unfinished_place_ne before.base)
  have there := lookup_place_of_read moved
  rw [touches.base] at there
  apply touches.retains
  intro place member
  rcases List.mem_pair.mp member with rfl | rfl
  · exact .inl (mem_unfinishedPlaces path before.base)
  · rw [there]
    exact .inr (Option.some_ne_none _)

end Store

/-- No archive of a known kind lies where a file is put that is not finished. -/
theorem Codec.place_notMem_unfinished {path : Path} {codec : Codec}
    (decoded : ofPath path = .ok codec) (base : Location) :
    path.place base ∉ Store.unfinishedPlaces := by
  obtain ⟨ending, extension, found⟩ := ofPath_eq_ok_iff.mp decoded
  obtain ⟨full, named, extended⟩ := Option.bind_eq_some_iff.mp extension
  obtain ⟨before, _, noDot, rfl⟩ := Name.extension?_eq_some_iff.mp extended
  obtain ⟨front, tail, splits⟩ := Path.exists_splits_of_name? named
  rintro ⟨above, name, place⟩
  rw [Path.place_of_steps splits.steps, Location.descend_of_isPlain splits.plain] at place
  have last := (List.cons.inj (List.append_inj' place rfl).2).1
  exact Fetch.append_ne_unfinished ⟨noDot, length_of_ofExtension? found⟩ before name last

namespace Action

variable {Input Output : Type}

/-- An action on the store alone that takes nothing away but what is unfinished. -/
structure IsCareful (action : Action Output) : Prop where
  /-- The journal is neither read nor added to. -/
  blind : ∀ store journal, action.run.run ⟨store, journal⟩ =
    ((action.run.run ⟨store, []⟩).1, ⟨(action.run.run ⟨store, []⟩).2.store, journal⟩)
  retains : ∀ start : World,
    start.store.Retains Store.unfinishedPlaces (action.run.run start).2.store

theorem IsCareful.journal {action : Action Output} (careful : action.IsCareful) (start : World) :
    (action.run.run start).2.journal = start.journal := by
  rw [careful.blind start.store start.journal]

/-- What an action gives does not depend on what was asked of others before. -/
theorem IsCareful.congr {action : Action Output} (careful : action.IsCareful)
    {start other : World} (same : start.store = other.store) :
    (action.run.run start).1 = (action.run.run other).1 := by
  rw [careful.blind start.store start.journal, careful.blind other.store other.journal, same]

theorem isCareful_of_reads {action : Action Output} (given : Store → Except Fault Output)
    (run : ∀ start, action.run.run start = (given start.store, start)) : action.IsCareful where
  blind store journal := by rw [run, run]
  retains start := by
    rw [run]
    exact Store.Retains.refl _ _

theorem isCareful_pure (output : Output) : (pure output : Action Output).IsCareful :=
  isCareful_of_reads (fun _ => .ok output) fun _ => rfl

theorem isCareful_throw (fault : Fault) : (throw fault : Action Output).IsCareful :=
  isCareful_of_reads (fun _ => .error fault) fun _ => rfl

theorem isCareful_liftM (result : Except Fault Output) :
    (liftM result : Action Output).IsCareful :=
  isCareful_of_reads (fun _ => result) (run_liftM result)

theorem isCareful_store : Action.store.IsCareful := isCareful_of_reads .ok run_store

theorem IsCareful.bind {action : Action Input} {next : Input → Action Output}
    (first : action.IsCareful) (rest : ∀ input, (next input).IsCareful) :
    (action >>= next).IsCareful where
  blind store journal := by
    rw [run_bind, run_bind, first.blind store journal]
    rcases action.run.run ⟨store, []⟩ with ⟨fault | input, middle⟩
    · rfl
    · simp only
      rw [(rest input).blind middle.store journal, (rest input).blind middle.store middle.journal]
  retains start := by
    have before := first.retains start
    rw [run_bind]
    rcases run : action.run.run start with ⟨fault | input, middle⟩
    · rwa [run] at before
    · rw [run] at before
      exact before.trans ((rest input).retains middle)

theorem isCareful_ensureDirectory (path : Path) : (ensureDirectory path).IsCareful where
  blind store journal := by
    rw [run_ensureDirectory, run_ensureDirectory]
    cases store.ensureDirectory path <;> rfl
  retains start := by
    rw [run_ensureDirectory]
    cases made : start.store.ensureDirectory path with
    | error refusal => exact ((start.store.opens_begunDirectory path).spares _).retains
    | ok opened => exact ((Store.opens_ensureDirectory made).1.spares _).retains

theorem IsCareful.unlessRefused {produce : Action Bytes} (careful : produce.IsCareful)
    (refused? : Bytes → Option String) (report : String → Fault) :
    (unlessRefused refused? report produce).IsCareful := by
  apply careful.bind
  intro contents
  cases refused? contents with
  | none => exact isCareful_pure contents
  | some message => exact isCareful_throw (report message)

/-- A file written whole takes the place of another at most. -/
theorem isCareful_writeWhole {produce : Action Bytes} (careful : produce.IsCareful) (path : Path)
    (disk : Disk) : (writeWhole path produce disk).IsCareful where
  blind store journal := by
    rw [run_writeWhole, run_writeWhole]
    simp only
    cases store.write path.unfinished [] with
    | error refusal => rfl
    | ok opened =>
        simp only
        rw [(careful.unlessRefused _ _).blind opened journal]
        rcases (Action.unlessRefused (disk.flush path.unfinished) (.io path.unfinished.text)
          produce).run.run ⟨opened, []⟩ with ⟨fault | contents, middle⟩
        · rfl
        · simp only
          cases middle.store.write path.unfinished contents with
          | error refusal => rfl
          | ok filled =>
              simp only
              cases disk.move path.unfinished path with
              | some message => rfl
              | none =>
                  simp only
                  cases filled.rename path.unfinished path <;> rfl
  retains start := by
    rw [run_writeWhole]
    cases opening : start.store.write path.unfinished [] with
    | error refusal => exact Store.Retains.refl _ _
    | ok opened =>
        have opens := Store.retains_write opening Store.unfinishedPlaces
        have produces := opens.trans ((careful.unlessRefused (disk.flush path.unfinished)
          (.io path.unfinished.text)).retains { start with store := opened })
        simp only
        rcases run : (Action.unlessRefused (disk.flush path.unfinished) (.io path.unfinished.text)
          produce).run.run { start with store := opened } with ⟨fault | contents, middle⟩
        · rw [run] at produces
          exact produces.trans (Store.retains_discard middle.store)
        · rw [run] at produces
          simp only
          cases filling : middle.store.write path.unfinished contents with
          | error refusal => exact produces
          | ok filled =>
              have fills := produces.trans (Store.retains_write filling _)
              simp only
              cases disk.move path.unfinished path with
              | some message => exact fills
              | none =>
                  simp only
                  cases moving : filled.rename path.unfinished path with
                  | error refusal => exact fills
                  | ok done => exact fills.trans (Store.retains_rename moving)

end Action

theorem Fetch.isCareful_decode (codec : Codec) (archive : Path) :
    (decode codec archive).IsCareful := by
  apply Action.isCareful_store.bind
  intro store
  cases store.read archive with
  | error refusal => cases refusal <;> exact Action.isCareful_throw _
  | ok bytes =>
      simp only
      cases codec.decode bytes with
      | error damage => exact Action.isCareful_throw _
      | ok contents => exact Action.isCareful_pure contents

theorem Fetch.isCareful_unpack (archive : Path) (disk : Disk) :
    (unpack archive disk).IsCareful := by
  apply (Action.isCareful_liftM _).bind
  intro codec
  apply Action.isCareful_store.bind
  intro store
  have extracts : (extraction codec archive disk).IsCareful :=
    (isCareful_decode codec archive).unlessRefused _ _
  cases store.has archive.withoutExtension with
  | true => exact Action.isCareful_pure _
  | false =>
      apply (Action.isCareful_writeWhole extracts _ _).bind
      exact fun _ => Action.isCareful_pure _

theorem Snapshot.isCareful_encoded (path : Path) (dataset : Dataset) (tables : TableFormat)
    (disk : Disk) : (encoded path dataset tables disk).IsCareful :=
  ((Action.isCareful_pure _).unlessRefused _ _).unlessRefused _ _

theorem Snapshot.isCareful_write (cache path : Path) (dataset : Dataset) (tables : TableFormat)
    (disk : Disk) : (write cache path dataset tables disk).IsCareful := by
  apply (Action.isCareful_ensureDirectory cache).bind
  intro
  exact Action.isCareful_writeWhole (isCareful_encoded path dataset tables disk) path disk

end DatasetDepot
