import DatasetDepot.Proofs.Published.Command

/-!
What a command leaves behind that fails.

The command writes to the place of the archive itself, and later calls only ask whether something
is there.  Main statement: after a call whose command failed, the next call gives what it would
have given at first if its own command had brought what the failed one left.  What was left is
trusted; only where nothing was left does the failed call not show.
-/

namespace DatasetDepot

namespace Store

variable {before after : Store} {path : Path}

/-- What is there and spared reads as before. -/
theorem Spares.read_eq {scratch : Set Location} (spares : Spares scratch before after)
    (there : before.has path = true) (safe : path.place before.base ∉ scratch) :
    after.read path = before.read path := by
  obtain ⟨location, node, resolved, found⟩ := has_iff.mp there
  rw [← eq_place_of_resolve resolved] at safe
  have kept := spares.kept location node found fun member => absurd member safe
  have before' : before.find path = .ok node := find_eq_ok_iff.mpr ⟨location, resolved, found⟩
  have after' : after.find path = .ok node :=
    find_eq_ok_iff.mpr ⟨location, spares.resolve resolved, kept⟩
  unfold read
  rw [before', after']

/-- Whether a file can be written does not depend on what is written. -/
theorem write_error (refusal : Refusal) (contents other : Bytes)
    (refused : before.write path contents = .error refusal) :
    before.write path other = .error refusal := by
  unfold write at refused ⊢
  cases resolved : before.resolve path with
  | error refusal =>
      rw [resolved] at refused
      exact refused
  | ok location =>
      rw [resolved] at refused
      rcases found : before.lookup location with _ | ⟨_ | _⟩
      all_goals simp_all [bind, Except.bind, pure, Except.pure]

end Store

theorem Snapshot.read_congr {file : Path} {start other : World}
    (same : start.store.read file = other.store.read file) (tables : TableFormat) :
    ((read file tables).run.run start).1 = ((read file tables).run.run other).1 := by
  unfold read
  rw [Action.run_bind, Action.run_bind, Action.run_store, Action.run_store]
  simp only [same]
  cases other.store.read file with
  | error refusal => cases refusal <;> rfl
  | ok contents =>
      simp only
      cases tables.read contents with
      | error reason => rfl
      | ok reading =>
          simp only
          cases ofReading reading <;> rfl

namespace Published.Site

open DatasetDepot.Action

variable {site : Site} {call : Call} {start : World} {opened : Store}

theorem perform_of_unchecked {fault : Fault}
    (refused : call.demand.parameters.check .bosch = .error fault) (start : World) :
    site.perform call start = (.error fault, start) := by
  unfold perform bosch
  rw [run_keep, refused]

theorem perform_of_found (checked : call.demand.parameters.check .bosch = .ok ())
    (fresh : start.store.has (site.snapshot call.demand.rows) = false)
    (found : start.store.has site.archive = true) :
    site.perform call start =
      (site.build call.demand call.services.tables).run.run start := by
  apply perform_of_archive checked fresh
  have obtains := site.obtains call start
  generalize (boschArchive (site.context call)).run.run start = result at obtains
  cases obtains with
  | there => rfl
  | refused noArchive | failed noArchive | launched noArchive =>
      rw [noArchive] at found
      cases found

/-- A call that lacks everything runs the command, and goes on if that succeeds. -/
theorem perform_of_lacks (lacks : site.Lacks call start.store)
    (opens : start.store.ensureDirectory site.cache = .ok opened) :
    site.perform call start =
      if (site.launch call opened).2.succeeded then
        (site.build call.demand call.services.tables).run.run
          (site.left call opened start.journal)
      else
        (.error (.externalCommand (site.command call).text (site.launch call opened).2.text),
          site.left call opened start.journal) := by
  have goes := site.goes call start
  generalize site.perform call start = result at goes ⊢
  cases goes with
  | idle usable => exact absurd lacks usable
  | refused _ refused => cases opens.symm.trans refused
  | used found => simp [lacks.noArchive, lacks.noFile] at found
  | failed _ opens' ended =>
      cases opens.symm.trans opens'
      exact (if_neg (Bool.eq_false_iff.mp ended)).symm
  | launched _ opens' ended =>
      cases opens.symm.trans opens'
      exact (if_pos ended).symm

/-- A store in which the cache directory can be made, and then has neither the archive nor the file
in it.  Making it brings no snapshot. -/
structure IsFresh (site : Site) (store opened : Store) : Prop where
  opens : store.ensureDirectory site.cache = .ok opened
  noArchive : opened.has site.archive = false
  noFile : opened.has site.file = false
  snapshots : ∀ rows, opened.has (site.snapshot rows) = store.has (site.snapshot rows)

/-! What was left. -/

/-- Snapshots have another extension than archives. -/
theorem snapshot_place_ne {codec : Codec} (known : Codec.ofPath site.archive = .ok codec)
    (rows : Nat) (base : Location) :
    (site.snapshot rows).place base ≠ site.archive.place base := by
  obtain ⟨ending, extension, found⟩ := Codec.ofPath_eq_ok_iff.mp known
  obtain ⟨full, named, extended⟩ := Option.bind_eq_some_iff.mp extension
  obtain ⟨before, _, noDot, rfl⟩ := Name.extension?_eq_some_iff.mp extended
  obtain ⟨front, tail, splits⟩ := Path.exists_splits_of_name? named
  have noSlash : '/' ∉ Title.bosch.name.toList := by decide
  have ends := Path.endsAt_join site.cache (Snapshot.isPlain_fileName noSlash rows)
  have whole : Snapshot.fileName Title.bosch.name rows =
      (Title.bosch.name.toList ++ '-' :: rows.repr.toList ++ "-samples".toList) ++
        '.' :: "parquet".toList := by
    rw [Snapshot.fileName_eq, List.append_assoc, List.append_assoc, List.append_assoc]
    rfl
  intro same
  have place := ends.place_eq base
  rw [show (site.cache.join (Snapshot.fileName Title.bosch.name rows)).place base = _ from same,
    Path.place_of_steps splits.steps, Location.descend_of_isPlain splits.plain] at place
  have last := (List.cons.inj (List.append_inj' place rfl).2).1
  rw [whole] at last
  obtain ⟨_, rfl⟩ := Name.append_cons_inj noDot (by decide) last
  exact absurd (Codec.length_of_ofExtension? found) (by decide)

theorem touches_leave (site : Site) (bytes? : Option Bytes) (store : Store) :
    Store.Touches [site.archive.place store.base] store (site.leave bytes? store) := by
  unfold leave
  cases bytes? with
  | none => exact Store.Touches.refl _ _
  | some bytes =>
      cases written : store.write site.archive bytes with
      | error refusal =>
          simp only [written]
          exact Store.Touches.refl _ _
      | ok after =>
          simp only [written]
          exact (touches_write written).1

/-- Either bytes were left, or what is brought later comes to the same store. -/
theorem leave_cases (site : Site) (left? : Option Bytes) (bytes : Bytes) (store : Store) :
    (site.leave left? store).has site.archive = true ∧
        site.leave (some (left?.getD bytes)) store = site.leave left? store ∨
      site.leave left? store = store ∧
        site.leave (some (left?.getD bytes)) store = site.leave (some bytes) store := by
  cases left? with
  | none => exact .inr ⟨rfl, rfl⟩
  | some left =>
      unfold leave
      cases written : store.write site.archive left with
      | ok after =>
          obtain ⟨location, resolved, found⟩ :=
            Store.read_eq_ok_iff.mp (touches_write written).2
          have has : after.has site.archive = true :=
            Store.has_iff.mpr ⟨location, _, resolved, found⟩
          left
          simp only [written, Option.getD_some]
          exact ⟨has, trivial⟩
      | error refusal =>
          have refused := Store.write_error refusal left bytes written
          right
          simp only [written, refused, Option.getD_some]
          exact ⟨rfl, trivial⟩

theorem perform_of_failing {demand : Demand} {left? : Option Bytes} {tables : TableFormat}
    {outcome : Outcome}
    (lacks : site.Lacks ⟨demand, site.leaving left? outcome tables⟩ start.store)
    (opens : start.store.ensureDirectory site.cache = .ok opened)
    (ended : outcome.succeeded = false) :
    site.perform ⟨demand, site.leaving left? outcome tables⟩ start =
      (.error (.externalCommand (site.command ⟨demand, site.leaving left? outcome tables⟩).text
        outcome.text), ⟨site.leave left? opened,
          start.journal ++
            [.launched (site.command ⟨demand, site.leaving left? outcome tables⟩)]⟩) :=
  (perform_of_lacks lacks opens).trans (if_neg (Bool.eq_false_iff.mp ended))

theorem perform_of_working {demand : Demand} {bytes? : Option Bytes} {tables : TableFormat}
    (lacks : site.Lacks ⟨demand, site.leaving bytes? (.exited 0) tables⟩ start.store)
    (opens : start.store.ensureDirectory site.cache = .ok opened) :
    site.perform ⟨demand, site.leaving bytes? (.exited 0) tables⟩ start =
      (site.build demand tables).run.run ⟨site.leave bytes? opened, start.journal ++
        [.launched (site.command ⟨demand, site.leaving bytes? (.exited 0) tables⟩)]⟩ :=
  (perform_of_lacks lacks opens).trans (if_pos rfl)

theorem perform_congr_of_snapshot {call other : Call} {world : World}
    (checked : call.demand.parameters.check .bosch = .ok ()) (demand : call.demand = other.demand)
    (tables : call.services.tables = other.services.tables)
    (stored : start.store.has (site.snapshot call.demand.rows) = true)
    (stored' : world.store.has (site.snapshot call.demand.rows) = true)
    (same : start.store.read (site.snapshot call.demand.rows) =
      world.store.read (site.snapshot call.demand.rows)) :
    (site.perform call start).1 = (site.perform other world).1 := by
  have reads := Snapshot.read_congr same call.services.tables
  rw [perform_of_checked checked, if_pos stored, perform_of_checked (demand ▸ checked), ← demand,
    ← tables, if_pos stored']
  rcases run : (Snapshot.read (site.snapshot call.demand.rows) call.services.tables).run.run
    start with ⟨read, after⟩
  rcases run' : (Snapshot.read (site.snapshot call.demand.rows) call.services.tables).run.run
    world with ⟨read', after'⟩
  rw [run, run'] at reads
  obtain rfl : read = read' := reads
  cases read <;> rfl

section After

variable {after : World} {left? : Option Bytes} {codec : Codec} {next : Demand}
  {tables : TableFormat}

theorem read_snapshot_of_left (known : Codec.ofPath site.archive = .ok codec)
    (opens : start.store.ensureDirectory site.cache = .ok opened)
    (left : after.store = site.leave left? opened) (rows : Nat)
    (stored : start.store.has (site.snapshot rows) = true) :
    after.store.has (site.snapshot rows) = true ∧
      after.store.read (site.snapshot rows) = start.store.read (site.snapshot rows) := by
  have opening := (Store.opens_ensureDirectory opens).1.spares {site.archive.place opened.base}
  have leaving := (site.touches_leave left? opened).spares fun place member =>
    .inl (List.mem_singleton.mp member)
  have spares := opening.trans leaving
  have safe : (site.snapshot rows).place start.store.base ∉
      ({site.archive.place opened.base} : Set Location) := by
    rw [← opening.base]
    exact snapshot_place_ne known rows opened.base
  rw [left]
  exact ⟨spares.has stored safe, spares.read_eq stored safe⟩

theorem has_snapshot_of_left (known : Codec.ofPath site.archive = .ok codec)
    (left : after.store = site.leave left? opened) (rows : Nat)
    (fresh : opened.has (site.snapshot rows) = false) :
    after.store.has (site.snapshot rows) = false := by
  have touches := site.touches_leave left? opened
  rw [left]
  by_contra stored
  obtain ⟨location, node, resolved, found⟩ := Store.has_iff.mp (Bool.eq_true_of_not_eq_false stored)
  have resolved' := touches.resolve_iff.mp resolved
  have apart : location ∉ [site.archive.place opened.base] := by
    rw [List.mem_singleton, Store.eq_place_of_resolve resolved']
    exact snapshot_place_ne known rows opened.base
  rw [touches.elsewhere location apart] at found
  rw [Store.has_iff.mpr ⟨location, node, resolved', found⟩] at fresh
  cases fresh

theorem perform_of_left (known : Codec.ofPath site.archive = .ok codec)
    (fresh : site.IsFresh start.store opened) (noArchive : start.store.has site.archive = false)
    (noFile : start.store.has site.file = false)
    (left : after.store = site.leave left? opened) (next : Demand) (bytes : Bytes) :
    (site.perform ⟨next, site.leaving (some bytes) (.exited 0) tables⟩ after).1 =
      (site.perform ⟨next, site.leaving (some (left?.getD bytes)) (.exited 0) tables⟩ start).1 := by
  cases checked : next.parameters.check .bosch with
  | error fault => rw [perform_of_unchecked checked, perform_of_unchecked checked]
  | ok done =>
      cases stored : start.store.has (site.snapshot next.rows) with
      | true =>
          obtain ⟨stored', same⟩ := read_snapshot_of_left known fresh.opens left next.rows stored
          exact perform_congr_of_snapshot checked rfl rfl stored' stored same
      | false =>
          obtain ⟨noCenters, noClasses⟩ := (check_bosch_eq_ok_iff _).mp checked
          have unstored := (fresh.snapshots next.rows).trans stored
          have unstored' := has_snapshot_of_left known left next.rows unstored
          have lacks : site.Lacks ⟨next, site.leaving (some (left?.getD bytes)) (.exited 0) tables⟩
              start.store := ⟨noCenters, noClasses, stored, noArchive, noFile⟩
          rw [perform_of_working lacks fresh.opens]
          rcases site.leave_cases left? bytes opened with ⟨found, same⟩ | ⟨nothing, same⟩
          · rw [← left] at found same
            have used : site.perform ⟨next, site.leaving (some bytes) (.exited 0) tables⟩ after =
                (site.build next tables).run.run after := perform_of_found checked unstored' found
            rw [used, same]
            exact (site.isCareful_build next tables).congr rfl
          · rw [nothing] at left
            have lacks' : site.Lacks ⟨next, site.leaving (some bytes) (.exited 0) tables⟩
                after.store := by
              rw [left]
              exact ⟨noCenters, noClasses, unstored, fresh.noArchive, fresh.noFile⟩
            have stands : after.store.ensureDirectory site.cache = .ok opened := by
              rw [left]
              exact (Store.Spares.refl ∅ opened).ensureDirectory fresh.opens
            rw [perform_of_working lacks' stands, same]
            exact (site.isCareful_build next tables).congr rfl

end After

/-- A call whose command fails does not show if nothing was left.  Otherwise what was left counts
as what the next command brings. -/
theorem perform_of_leftover {codec : Codec} (known : Codec.ofPath site.archive = .ok codec)
    (fresh : site.IsFresh start.store opened) {first : Demand} {left? : Option Bytes}
    {outcome : Outcome} {tables : TableFormat}
    (lacks : site.Lacks ⟨first, site.leaving left? outcome tables⟩ start.store)
    (ended : outcome.succeeded = false) :
    ∃ after, site.perform ⟨first, site.leaving left? outcome tables⟩ start =
        (.error (.externalCommand (site.command ⟨first, site.leaving left? outcome tables⟩).text
          outcome.text), after) ∧
      ∀ next bytes, (site.perform ⟨next, site.leaving (some bytes) (.exited 0) tables⟩ after).1 =
        (site.perform ⟨next, site.leaving (some (left?.getD bytes)) (.exited 0) tables⟩ start).1 :=
  ⟨_, perform_of_failing lacks fresh.opens ended,
    perform_of_left known fresh lacks.noArchive lacks.noFile rfl⟩

/-- An archive with a few bytes that are stored as they are. -/
def packed (contents : Bytes) : Bytes :=
  let size := contents.length.toUInt8
  [0x50, 0x4B, 3, 4, 20, 0, 0, 0, 0, 0, 0, 0, 0, 0, 0, 0, 0, 0, size, 0, 0, 0, size, 0, 0, 0,
    0, 0, 0, 0] ++ contents

/-- A header and a row. -/
def halfTable : Bytes := [0x69, 0x2C, 0x66, 0x2C, 0x79, 10, 0x30, 0x2C, 0x31, 0x2C, 0x30, 10]

/-- The table with one more row. -/
def wholeTable : Bytes := halfTable ++ [0x31, 0x2C, 0x31, 0x2C, 0x30, 10]

theorem perform_of_leftover_half :
    let site : Site := ⟨.ofString "c", {}⟩
    let start : World := ⟨⟨[], [([['c']], .directory)]⟩, []⟩
    let failing : Call := ⟨⟨0, 0, 0, {}⟩, site.leaving (some (packed halfTable)) (.exited 1)⟩
    let working (bytes : Bytes) : Call := ⟨⟨0, 0, 0, {}⟩, site.leaving (some bytes) (.exited 0)⟩
    site.IsFresh start.store start.store ∧
      (site.perform (working (packed wholeTable)) (site.perform failing start).2).1 =
        (site.perform (working (packed halfTable)) start).1 := by
  intro site start failing working
  have known : Codec.ofPath site.archive = .ok .zip := by decide +kernel
  have fresh : site.IsFresh start.store start.store :=
    ⟨by rfl, by decide +kernel, by decide +kernel, fun _ => rfl⟩
  have lacks : site.Lacks failing start.store :=
    ⟨rfl, rfl, by decide +kernel, fresh.noArchive, fresh.noFile⟩
  obtain ⟨after, failed, next⟩ := perform_of_leftover known fresh lacks rfl
  refine ⟨fresh, ?_⟩
  rw [show site.perform failing start = _ from failed]
  exact next ⟨0, 0, 0, {}⟩ (packed wholeTable)

/-- A command fails after the first of two rows, and that row is all that the next call gives,
although its command works. -/
theorem perform_trusts_leftover :
    let site : Site := ⟨.ofString "c", {}⟩
    let start : World := ⟨⟨[], [([['c']], .directory)]⟩, []⟩
    let failing : Call := ⟨⟨0, 0, 0, {}⟩, site.leaving (some (packed halfTable)) (.exited 1)⟩
    let working : Call := ⟨⟨0, 0, 0, {}⟩, site.leaving (some (packed wholeTable)) (.exited 0)⟩
    start.store.has site.archive = false ∧ start.store.has site.file = false ∧
      ∃ after, site.perform failing start = (.error (.externalCommand (site.command failing).text
          (Outcome.exited 1).text), after) ∧
        (site.perform working after).1.toOption.map Dataset.rows = some 1 ∧
        (site.perform working start).1.toOption.map Dataset.rows = some 2 ∧
        (site.perform working after).1 ≠ (site.perform working start).1 := by
  intro site start failing working
  have lacks : site.Lacks failing start.store :=
    ⟨rfl, rfl, by decide +kernel, by decide +kernel, by decide +kernel⟩
  have opens : start.store.ensureDirectory site.cache = .ok start.store := by rfl
  have failed := perform_of_failing lacks opens rfl
  have half : (site.perform working (site.perform failing start).2).1.toOption.map Dataset.rows =
      some 1 := by decide +kernel
  have whole : (site.perform working start).1.toOption.map Dataset.rows = some 2 := by
    decide +kernel
  rw [show site.perform failing start = _ from failed] at half
  refine ⟨lacks.noArchive, lacks.noFile, _, failed, half, whole, ?_⟩
  intro same
  rw [same, whole] at half
  cases half

end Published.Site

end DatasetDepot
