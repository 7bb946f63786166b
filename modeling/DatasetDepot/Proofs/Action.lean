import DatasetDepot.Proofs.Store
import DatasetDepot.World

/-!
What actions do to a world.

One equation for each action says what it gives and which world it leaves.  Main statement: a
file that is written whole is there afterwards with all of its contents, or nothing has changed
but what was at the place of the unfinished file.
-/

namespace DatasetDepot.Action

theorem run_bind {Input Output : Type} (action : Action Input) (next : Input → Action Output)
    (start : World) :
    (action >>= next).run.run start =
      match action.run.run start with
      | (.ok input, after) => (next input).run.run after
      | (.error fault, after) => (.error fault, after) := by
  rw [ExceptT.run_bind, StateT.run_bind]
  rcases action.run.run start with ⟨_ | _, _⟩ <;> rfl

theorem run_liftM {Output : Type} (result : Except Fault Output) (start : World) :
    (liftM result : Action Output).run.run start = (result, start) := rfl

theorem run_record (event : Event) (start : World) :
    (Action.record event).run.run start =
      (.ok (), { start with journal := start.journal ++ [event] }) := rfl

theorem run_store (start : World) : Action.store.run.run start = (.ok start.store, start) := rfl

theorem run_tryCatch {Output : Type} (action : Action Output) (handle : Fault → Action Output)
    (start : World) :
    (tryCatch action handle).run.run start =
      match action.run.run start with
      | (.ok output, after) => (.ok output, after)
      | (.error fault, after) => (handle fault).run.run after := by
  have caught : (tryCatch action handle : Action Output).run = action.run >>= fun result =>
      match result with
      | .ok output => pure (.ok output)
      | .error fault => (handle fault).run := by
    change ExceptT.tryCatch action handle = _
    unfold ExceptT.tryCatch ExceptT.mk
    congr 1
    funext result
    cases result <;> rfl
  rw [caught, StateT.run_bind]
  rcases action.run.run start with ⟨_ | _, _⟩ <;> rfl

theorem run_change (path : Path) (operation : Store → Except Refusal Store) (start : World) :
    (change path operation).run.run start =
      match operation start.store with
      | .ok changed => (.ok (), { start with store := changed })
      | .error refusal => (.error (.io path.text refusal.text), start) := by
  unfold change
  rw [run_bind, run_store]
  simp only
  cases operation start.store <;> rfl

theorem run_ensureDirectory (path : Path) (start : World) :
    (ensureDirectory path).run.run start =
      match start.store.ensureDirectory path with
      | .ok opened => (.ok (), { start with store := opened })
      | .error refusal =>
          (.error (.io path.text refusal.text),
            { start with store := start.store.begunDirectory path }) := by
  unfold ensureDirectory
  rw [run_bind, run_store]
  simp only
  cases start.store.ensureDirectory path <;> rfl

theorem run_discard (path : Path) (start : World) :
    (discard path).run.run start =
      (.ok (), { start with store := (start.store.remove path).toOption.getD start.store }) := rfl

theorem run_download (services : Services) (url : String) (start : World) :
    (download services url).run.run start =
      ((match (services.download url).failure? with
        | none => .ok (services.download url).bytes
        | some message => .error (.download url message)),
        { start with journal := start.journal ++ [.downloaded url] }) := by
  unfold download
  rw [run_bind, run_record]
  simp only
  cases (services.download url).failure? <;> rfl

theorem run_launch (services : Services) (command : Command) (start : World) :
    (launch services command).run.run start =
      (.ok (services.launch command start.store).2,
        ⟨(services.launch command start.store).1, start.journal ++ [.launched command]⟩) := rfl

/-- What comes of asking for a download. -/
inductive Downloads (services : Services) (url : String) (start : World) :
    Except Fault Bytes × World → Prop where
  | came (failure : (services.download url).failure? = none) :
      Downloads services url start (.ok (services.download url).bytes,
        { start with journal := start.journal ++ [.downloaded url] })
  | failed {message : String} (failure : (services.download url).failure? = some message) :
      Downloads services url start (.error (.download url message),
        { start with journal := start.journal ++ [.downloaded url] })

theorem downloads_of_run {services : Services} {url : String} {start : World}
    {result : Except Fault Bytes × World}
    (run : (download services url).run.run start = result) :
    Downloads services url start result := by
  rw [← run, run_download]
  cases failure : (services.download url).failure? with
  | none => exact .came failure
  | some message => exact .failed failure

theorem run_unlessRefused (refused? : Bytes → Option String) (report : String → Fault)
    (produce : Action Bytes) (start : World) :
    (unlessRefused refused? report produce).run.run start =
      match produce.run.run start with
      | (.error fault, after) => (.error fault, after)
      | (.ok contents, after) =>
          match refused? contents with
          | none => (.ok contents, after)
          | some message => (.error (report message), after) := by
  unfold unlessRefused
  rw [run_bind]
  rcases produce.run.run start with ⟨fault | contents, after⟩
  · rfl
  · simp only
    cases refused? contents <;> rfl

theorem unlessRefused_none (report : String → Fault) (produce : Action Bytes) :
    unlessRefused (fun _ => none) report produce = produce := bind_pure produce

theorem flushed_sound (path : Path) (report : String → Fault) (produce : Action Bytes) :
    unlessRefused (Disk.sound.flush path) report produce = produce := unlessRefused_none _ _

/-- The whole of what writing a file does. -/
theorem run_writeWhole (path : Path) (produce : Action Bytes) (disk : Disk) (start : World) :
    (writeWhole path produce disk).run.run start =
      match start.store.write path.unfinished [] with
      | .error refusal => (.error (.io path.unfinished.text refusal.text), start)
      | .ok opened =>
          match (unlessRefused (disk.flush path.unfinished) (.io path.unfinished.text)
              produce).run.run { start with store := opened } with
          | (.error fault, middle) =>
              (.error fault, { middle with
                store := (middle.store.remove path.unfinished).toOption.getD middle.store })
          | (.ok contents, middle) =>
              match middle.store.write path.unfinished contents with
              | .error refusal => (.error (.io path.unfinished.text refusal.text), middle)
              | .ok filled =>
                  match disk.move path.unfinished path with
                  | some message =>
                      (.error (.io path.text message), { middle with store := filled })
                  | none =>
                      match filled.rename path.unfinished path with
                      | .error refusal =>
                          (.error (.io path.text refusal.text), { middle with store := filled })
                      | .ok done => (.ok (), { middle with store := done }) := by
  unfold writeWhole
  rw [run_bind, run_change]
  cases start.store.write path.unfinished [] with
  | error refusal => rfl
  | ok opened =>
      simp only
      rw [run_bind, run_tryCatch]
      rcases (unlessRefused (disk.flush path.unfinished) (.io path.unfinished.text)
        produce).run.run { start with store := opened } with ⟨fault | contents, middle⟩
      · simp only
        rw [run_bind, run_discard]
        rfl
      · simp only
        rw [run_bind, run_change]
        cases middle.store.write path.unfinished contents with
        | error refusal => rfl
        | ok filled =>
            simp only
            cases disk.move path.unfinished path with
            | some message => rfl
            | none =>
                simp only
                rw [run_change]
                simp only
                cases filled.rename path.unfinished path <;> rfl

/-- Writing a file asks others for no more than the contents do. -/
theorem journal_writeWhole {produce : Action Bytes}
    (silent : ∀ start, (produce.run.run start).2.journal = start.journal) (path : Path)
    (disk : Disk) (start : World) :
    ((writeWhole path produce disk).run.run start).2.journal = start.journal := by
  rw [run_writeWhole]
  cases start.store.write path.unfinished [] with
  | error refusal => rfl
  | ok opened =>
      have produced := silent { start with store := opened }
      simp only
      rw [run_unlessRefused]
      rcases result : produce.run.run { start with store := opened } with ⟨fault | contents, middle⟩
      · rwa [result] at produced
      · rw [result] at produced
        simp only
        cases disk.flush path.unfinished contents with
        | some message => exact produced
        | none =>
            simp only
            cases middle.store.write path.unfinished contents with
            | error refusal => exact produced
            | ok filled =>
                simp only
                cases disk.move path.unfinished path with
                | some message => exact produced
                | none =>
                    simp only
                    cases filled.rename path.unfinished path <;> exact produced

/-- An action that leaves the store as it is. -/
def IsQuiet {Output : Type} (action : Action Output) : Prop :=
  ∀ start, (action.run.run start).2.store = start.store

theorem isQuiet_pure {Output : Type} (output : Output) : (pure output : Action Output).IsQuiet :=
  fun _ => rfl

theorem isQuiet_download (services : Services) (url : String) :
    (download services url).IsQuiet := by
  intro start
  rw [run_download]

theorem IsQuiet.unlessRefused {produce : Action Bytes} (quiet : produce.IsQuiet)
    (refused? : Bytes → Option String) (report : String → Fault) :
    (unlessRefused refused? report produce).IsQuiet := by
  intro start
  have unmoved := quiet start
  rw [run_unlessRefused]
  rcases given : produce.run.run start with ⟨fault | contents, after⟩
  · rwa [given] at unmoved
  · rw [given] at unmoved
    simp only
    cases refused? contents <;> exact unmoved

theorem run_of_unlessRefused {refused? : Bytes → Option String} {report : String → Fault}
    {produce : Action Bytes} {start after : World} {contents : Bytes}
    (produced : (unlessRefused refused? report produce).run.run start = (.ok contents, after)) :
    produce.run.run start = (.ok contents, after) := by
  rw [run_unlessRefused] at produced
  rcases given : produce.run.run start with ⟨fault | bytes, middle⟩
  · rw [given] at produced
    cases produced
  · rw [given] at produced
    simp only at produced
    cases taken : refused? bytes with
    | some message =>
        rw [taken] at produced
        cases produced
    | none =>
        rw [taken] at produced
        exact produced

/-- What keeps a file unfinished that has all of its contents: the disk does not move it, or there
is a directory in its place. -/
def Blocks (disk : Disk) (path : Path) (store : Store) (message : String) : Prop :=
  disk.move path.unfinished path = some message ∨ store.find path = .ok .directory

theorem not_blocks_sound {path : Path} {store : Store} (free : store.find path ≠ .ok .directory)
    (message : String) : ¬ Blocks .sound path store message := by
  rintro (refused | there)
  · cases refused
  · exact free there

/-- What comes of writing a file whole: it cannot be started, or its contents do not come and
only the unfinished file was touched, or it has them and is kept unfinished, or it is there with
all of them. -/
inductive Writes (disk : Disk) (path : Path) (produce : Action Bytes) (start : World) :
    Except Fault Unit × World → Prop where
  | refused (refusal : Refusal) :
      Writes disk path produce start (.error (.io path.unfinished.text refusal.text), start)
  | failed {opened after : Store} {middle : World} {fault : Fault}
      (opens : Store.Touches [path.unfinished.place start.store.base] start.store opened)
      (produced : (unlessRefused (disk.flush path.unfinished) (.io path.unfinished.text)
        produce).run.run { start with store := opened } = (.error fault, middle))
      (touches : Store.Touches [path.unfinished.place start.store.base] start.store after)
      (cleared : after.lookup (path.unfinished.place start.store.base) = none) :
      Writes disk path produce start (.error fault, { middle with store := after })
  | unmoved {opened after : Store} {middle : World} {contents : Bytes} {message : String}
      (opens : Store.Touches [path.unfinished.place start.store.base] start.store opened)
      (produced : produce.run.run { start with store := opened } = (.ok contents, middle))
      (blocked : Blocks disk path start.store message)
      (touches : Store.Touches [path.unfinished.place start.store.base] start.store after)
      (whole : after.read path.unfinished = .ok contents) :
      Writes disk path produce start
        (.error (.io path.text message), { middle with store := after })
  | done {opened after : Store} {middle : World} {contents : Bytes}
      (opens : Store.Touches [path.unfinished.place start.store.base] start.store opened)
      (produced : produce.run.run { start with store := opened } = (.ok contents, middle))
      (touches : Store.Touches
        [path.unfinished.place start.store.base, path.place start.store.base] start.store after)
      (cleared : after.lookup (path.unfinished.place start.store.base) = none)
      (read : after.read path = .ok contents) :
      Writes disk path produce start (.ok (), { middle with store := after })

theorem touches_write {path : Path} {before after : Store} {contents : Bytes}
    (written : before.write path contents = .ok after) :
    Store.Touches [path.place before.base] before after ∧ after.read path = .ok contents := by
  obtain ⟨location, resolved, notDirectory, rfl⟩ := Store.write_eq_ok_iff.mp written
  have place := Store.eq_place_of_resolve resolved
  have touches := Store.Touches.set notDirectory contents
  have below : location ≠ [] := by
    rintro rfl
    exact notDirectory (Store.lookup_nil before)
  rw [← place]
  exact ⟨touches, Store.read_eq_ok_iff.mpr
    ⟨location, touches.resolve_iff.mpr resolved, Store.lookup_set_self _ below _⟩⟩

/-- What can be read can be taken away. -/
theorem touches_remove {path : Path} {before : Store} {contents : Bytes}
    (read : before.read path = .ok contents) :
    ∃ after, before.remove path = .ok after ∧
      Store.Touches [path.place before.base] before after ∧
        after.lookup (path.place before.base) = none := by
  obtain ⟨location, resolved, there⟩ := Store.read_eq_ok_iff.mp read
  have below : location ≠ [] := by
    rintro rfl
    rw [Store.lookup_nil] at there
    cases there
  rw [← Store.eq_place_of_resolve resolved]
  exact ⟨_, Store.remove_eq_ok_iff.mpr ⟨location, contents, resolved, there, rfl⟩,
    Store.Touches.clear (by simp [there]), Store.lookup_clear_self _ below⟩

theorem touches_rename {source target : Path} {before after : Store} {contents : Bytes}
    (read : before.read source = .ok contents) (renamed : before.rename source target = .ok after)
    (apart : source.place before.base ≠ target.place before.base) :
    Store.Touches [source.place before.base, target.place before.base] before after ∧
      after.read target = .ok contents ∧ after.lookup (source.place before.base) = none := by
  obtain ⟨moved, origin, location, read', resolved, resolved', notDirectory, rfl⟩ :=
    Store.rename_eq_ok_iff.mp renamed
  rw [read, Except.ok.injEq] at read'
  subst read'
  obtain ⟨origin', sourceResolved, there⟩ := Store.read_eq_ok_iff.mp read
  rw [resolved, Except.ok.injEq] at sourceResolved
  subst sourceResolved
  have cleared : Store.Touches [origin] before (before.clear origin) :=
    Store.Touches.clear (by simp [there])
  have notDirectory' := mt (cleared.directories location).mp notDirectory
  have below : location ≠ [] := by
    rintro rfl
    exact notDirectory (Store.lookup_nil before)
  have touches : Store.Touches [origin, location] before
      ((before.clear origin).set location (.file contents)) :=
    (cleared.mono (by simp)).trans ((Store.Touches.set notDirectory' contents).mono (by simp))
  rw [← Store.eq_place_of_resolve resolved, ← Store.eq_place_of_resolve resolved'] at apart ⊢
  have originBelow : origin ≠ [] := by
    rintro rfl
    rw [Store.lookup_nil] at there
    cases there
  refine ⟨touches, Store.read_eq_ok_iff.mpr
    ⟨location, touches.resolve_iff.mpr resolved', Store.lookup_set_self _ below _⟩, ?_⟩
  rw [Store.lookup_set_ne _ apart, Store.lookup_clear_self _ originBelow]

theorem exists_write {path : Path} {store : Store} {former : Bytes}
    (read : store.read path = .ok former) (contents : Bytes) :
    ∃ after, store.write path contents = .ok after := by
  obtain ⟨location, resolved, there⟩ := Store.read_eq_ok_iff.mp read
  exact ⟨_, Store.write_eq_ok_iff.mpr ⟨location, resolved, by simp [there], rfl⟩⟩

/-- What is read through a path that ends in a name can be moved to one of the same directory
and a shorter name. -/
theorem exists_rename {source target : Path} {absolute : Bool} {above : List Name}
    {name rest : Name} (sourceEnds : source.EndsAt absolute above (name ++ rest))
    (targetEnds : target.EndsAt absolute above name) {store : Store} {contents : Bytes}
    (read : store.read source = .ok contents) (free : store.find target ≠ .ok .directory) :
    ∃ after, store.rename source target = .ok after := by
  obtain ⟨origin, resolved, _⟩ := Store.read_eq_ok_iff.mp read
  obtain ⟨place, leads, fits, _⟩ := (Store.resolve_of_endsAt sourceEnds).mp resolved
  have resolved' : store.resolve target = .ok (place ++ [name]) :=
    (Store.resolve_of_endsAt targetEnds).mpr ⟨place, leads, fits.of_append, rfl⟩
  refine ⟨_, Store.rename_eq_ok_iff.mpr ⟨contents, origin, _, read, resolved, resolved', ?_, rfl⟩⟩
  exact fun there => free (Store.find_eq_ok_iff.mpr ⟨_, resolved', there⟩)

section Opened

variable {disk : Disk} {path : Path} {produce : Action Bytes} {start middle : World}
  {opened : Store}

/-- When the contents do not come, nothing is left of the unfinished file. -/
theorem run_writeWhole_of_failed (quiet : produce.IsQuiet) {fault : Fault}
    (opening : start.store.write path.unfinished [] = .ok opened)
    (produced : (unlessRefused (disk.flush path.unfinished) (.io path.unfinished.text)
      produce).run.run { start with store := opened } = (.error fault, middle)) :
    ∃ after, (writeWhole path produce disk).run.run start =
        (.error fault, { middle with store := after }) ∧
      Store.Touches [path.unfinished.place start.store.base] start.store after ∧
        after.lookup (path.unfinished.place start.store.base) = none := by
  obtain ⟨opens, empty⟩ := touches_write opening
  have unmoved := quiet.unlessRefused (disk.flush path.unfinished) (.io path.unfinished.text)
    { start with store := opened }
  rw [produced] at unmoved
  obtain rfl : middle.store = opened := unmoved
  obtain ⟨after, removed, removes, cleared⟩ := touches_remove empty
  rw [opens.base] at removes cleared
  refine ⟨after, ?_, opens.trans removes, cleared⟩
  rw [run_writeWhole, opening]
  simp only [produced, removed]
  rfl

/-- When the contents come, the unfinished file has all of them. -/
theorem exists_filled (quiet : produce.IsQuiet) {contents : Bytes}
    (opening : start.store.write path.unfinished [] = .ok opened)
    (produced : produce.run.run { start with store := opened } = (.ok contents, middle)) :
    ∃ filled, middle.store.write path.unfinished contents = .ok filled ∧
      Store.Touches [path.unfinished.place start.store.base] start.store filled ∧
        filled.read path.unfinished = .ok contents := by
  obtain ⟨opens, empty⟩ := touches_write opening
  have unmoved := quiet { start with store := opened }
  rw [produced] at unmoved
  obtain rfl : middle.store = opened := unmoved
  obtain ⟨filled, filling⟩ := exists_write empty contents
  obtain ⟨fills, full⟩ := touches_write filling
  exact ⟨filled, filling, opens.trans (opens.base ▸ fills), full⟩

/-- A file that is blocked stays unfinished. -/
theorem run_writeWhole_of_blocked (quiet : produce.IsQuiet) {contents : Bytes} {reason : String}
    (opening : start.store.write path.unfinished [] = .ok opened)
    (produced : (unlessRefused (disk.flush path.unfinished) (.io path.unfinished.text)
      produce).run.run { start with store := opened } = (.ok contents, middle))
    (blocked : Blocks disk path start.store reason) :
    ∃ message after, Blocks disk path start.store message ∧
      (writeWhole path produce disk).run.run start =
        (.error (.io path.text message), { middle with store := after }) ∧
      Store.Touches [path.unfinished.place start.store.base] start.store after ∧
        after.read path.unfinished = .ok contents := by
  obtain ⟨filled, filling, fills, full⟩ :=
    exists_filled (quiet.unlessRefused _ _) opening produced
  rw [run_writeWhole, opening]
  simp only [produced, filling]
  cases moves : disk.move path.unfinished path with
  | some message => exact ⟨message, filled, .inl moves, rfl, fills, full⟩
  | none =>
      have there : start.store.find path = .ok .directory := by
        rcases blocked with refused | there
        · rw [moves] at refused
          cases refused
        · exact there
      obtain ⟨location, resolved, directory⟩ :=
        Store.find_eq_ok_iff.mp (fills.find_directory_iff.mpr there)
      simp only
      cases moving : filled.rename path.unfinished path with
      | error refusal => exact ⟨_, filled, .inr there, rfl, fills, full⟩
      | ok done =>
          obtain ⟨_, _, location', _, _, resolved', notDirectory, _⟩ :=
            Store.rename_eq_ok_iff.mp moving
          rw [resolved, Except.ok.injEq] at resolved'
          exact absurd (resolved' ▸ directory) notDirectory

/-- A file with a name that is no directory then takes the place of the unfinished one. -/
theorem run_writeWhole_of_produced {absolute : Bool} {above : List Name} {name : Name}
    (ends : path.EndsAt absolute above name) (quiet : produce.IsQuiet)
    (free : start.store.find path ≠ .ok .directory) {contents : Bytes}
    (opening : start.store.write path.unfinished [] = .ok opened)
    (produced : (unlessRefused (disk.flush path.unfinished) (.io path.unfinished.text)
      produce).run.run { start with store := opened } = (.ok contents, middle))
    (moves : disk.move path.unfinished path = none) :
    ∃ after, (writeWhole path produce disk).run.run start =
        (.ok (), { middle with store := after }) ∧
      Store.Touches [path.unfinished.place start.store.base, path.place start.store.base]
        start.store after ∧
      after.lookup (path.unfinished.place start.store.base) = none ∧
        after.read path = .ok contents := by
  obtain ⟨filled, filling, fills, full⟩ :=
    exists_filled (quiet.unlessRefused _ _) opening produced
  obtain ⟨done, moved⟩ :=
    exists_rename ends.unfinished ends full (mt fills.find_directory_iff.mp free)
  obtain ⟨renames, read, cleared⟩ :=
    touches_rename full moved (path.unfinished_place_ne filled.base)
  rw [fills.base] at renames cleared
  refine ⟨done, ?_, (fills.mono (by simp)).trans renames, cleared, read⟩
  rw [run_writeWhole, opening]
  simp only [produced, filling, moves, moved]

end Opened

theorem writes_writeWhole {path : Path} {absolute : Bool} {above : List Name} {name : Name}
    (ends : path.EndsAt absolute above name) {produce : Action Bytes} (quiet : produce.IsQuiet)
    (disk : Disk) (start : World) :
    Writes disk path produce start ((writeWhole path produce disk).run.run start) := by
  cases opening : start.store.write path.unfinished [] with
  | error refusal =>
      rw [run_writeWhole, opening]
      exact .refused _
  | ok opened =>
      have opens := (touches_write opening).1
      rcases produced : (unlessRefused (disk.flush path.unfinished) (.io path.unfinished.text)
        produce).run.run { start with store := opened } with ⟨fault | contents, middle⟩
      · obtain ⟨after, run, touches, cleared⟩ := run_writeWhole_of_failed quiet opening produced
        rw [run]
        exact .failed opens produced touches cleared
      · have given := run_of_unlessRefused produced
        by_cases blocked : ∃ reason, Blocks disk path start.store reason
        · obtain ⟨_, blocked⟩ := blocked
          obtain ⟨message, after, blocks, run, touches, whole⟩ :=
            run_writeWhole_of_blocked quiet opening produced blocked
          rw [run]
          exact .unmoved opens given blocks touches whole
        · have free : start.store.find path ≠ .ok .directory := fun there =>
            blocked ⟨"", .inr there⟩
          have moves : disk.move path.unfinished path = none :=
            Option.eq_none_iff_forall_ne_some.mpr fun message refused =>
              blocked ⟨message, .inl refused⟩
          obtain ⟨after, run, touches, cleared, read⟩ :=
            run_writeWhole_of_produced ends quiet free opening produced moves
          rw [run]
          exact .done opens given touches cleared read

namespace Writes

variable {disk : Disk} {path : Path} {produce : Action Bytes} {start after : World}
  {result : Except Fault Unit × World}

/-- What is written is all that changes. -/
theorem touches (writes : Writes disk path produce start result) :
    Store.Touches [path.unfinished.place start.store.base, path.place start.store.base]
      start.store result.2.store := by
  cases writes with
  | refused refusal => exact Store.Touches.refl _ _
  | failed opens produced touches cleared => exact touches.mono (by simp)
  | unmoved opens produced blocked touches whole => exact touches.mono (by simp)
  | done opens produced touches cleared read => exact touches

theorem touches_of_error {fault : Fault}
    (writes : Writes disk path produce start (.error fault, after)) :
    Store.Touches [path.unfinished.place start.store.base] start.store after.store := by
  cases writes with
  | refused refusal => exact Store.Touches.refl _ _
  | failed opens produced touches cleared => exact touches
  | unmoved opens produced blocked touches whole => exact touches

/-- What was produced is in the file, or in the unfinished one where that is blocked. -/
structure Leaves (disk : Disk) (path : Path) (produce : Action Bytes) (start : World)
    (result : Except Fault Unit × World) (location : Location) (contents : Bytes) : Prop where
  produced : ∃ opened middle,
    Store.Touches [path.unfinished.place start.store.base] start.store opened ∧
      produce.run.run { start with store := opened } = (.ok contents, middle)
  placed : location = path.place start.store.base ∨
    location = path.unfinished.place start.store.base ∧
      ∃ message, Blocks disk path start.store message ∧ result.1 = .error (.io path.text message)

/-- Where the disk refuses nothing, it is in the file. -/
theorem Leaves.place_eq {location : Location} {contents : Bytes}
    (leaves : Leaves .sound path produce start result location contents)
    (free : start.store.find path ≠ .ok .directory) : location = path.place start.store.base :=
  leaves.placed.resolve_right fun ⟨_, _, blocked, _⟩ => not_blocks_sound free _ blocked

/-- What is found after a file was written was there before, or is the file. -/
theorem lookup_cases (writes : Writes disk path produce start result) {location : Location}
    {node : Node} (found : result.2.store.lookup location = some node) :
    start.store.lookup location = some node ∨
      ∃ contents, Leaves disk path produce start result location contents ∧
        node = .file contents := by
  cases writes with
  | refused refusal => exact .inl found
  | failed opens produced touches cleared =>
      by_cases unfinished : location = path.unfinished.place start.store.base
      · rw [unfinished, cleared] at found
        cases found
      · rw [touches.elsewhere location (by rwa [List.mem_singleton])] at found
        exact .inl found
  | @unmoved opened filled middle contents message opens produced blocked touches whole =>
      by_cases unfinished : location = path.unfinished.place start.store.base
      · obtain ⟨place, resolved, there⟩ := Store.read_eq_ok_iff.mp whole
        rw [Store.eq_place_of_resolve resolved, touches.base, ← unfinished, found] at there
        cases there
        exact .inr ⟨contents, ⟨⟨_, _, opens, produced⟩, .inr ⟨unfinished, message, blocked, rfl⟩⟩,
          rfl⟩
      · rw [touches.elsewhere location (by rwa [List.mem_singleton])] at found
        exact .inl found
  | @done opened filled middle contents opens produced touches cleared read =>
      by_cases unfinished : location = path.unfinished.place start.store.base
      · rw [unfinished, cleared] at found
        cases found
      · by_cases whole : location = path.place start.store.base
        · obtain ⟨place, resolved, there⟩ := Store.read_eq_ok_iff.mp read
          rw [Store.eq_place_of_resolve resolved, touches.base, ← whole, found] at there
          cases there
          exact .inr ⟨contents, ⟨⟨_, _, opens, produced⟩, .inl whole⟩, rfl⟩
        · rw [touches.elsewhere location (by simp [unfinished, whole])] at found
          exact .inl found

/-- Where nothing was, there is nothing but what was produced. -/
theorem lookup_eq_none_or (writes : Writes disk path produce start result) {location : Location}
    (nothing : start.store.lookup location = none) :
    result.2.store.lookup location = none ∨
      ∃ contents, Leaves disk path produce start result location contents ∧
        result.2.store.lookup location = some (.file contents) := by
  cases found : result.2.store.lookup location with
  | none => exact .inl rfl
  | some node =>
      rcases writes.lookup_cases found with before | ⟨contents, leaves, rfl⟩
      · rw [nothing] at before
        cases before
      · exact .inr ⟨contents, leaves, rfl⟩

theorem has (writes : Writes disk path produce start (.ok (), after)) :
    after.store.has path = true := by
  cases writes with
  | done opens produced touches cleared read => exact Store.has_of_read read

/-- Writing a file that was not there spares all others. -/
theorem spares (writes : Writes disk path produce start result)
    (absent : start.store.has path = false) :
    Store.Spares {path.unfinished.place start.store.base} start.store result.2.store := by
  rcases result with ⟨fault | done, after⟩
  · exact writes.touches_of_error.spares fun location member =>
      .inl (List.mem_singleton.mp member)
  · cases writes with
    | done opens produced touches cleared read =>
        obtain ⟨place, resolved, _⟩ := Store.read_eq_ok_iff.mp read
        have resolved' := touches.resolve_iff.mp resolved
        refine touches.spares fun location member => ?_
        rcases List.mem_cons.mp member with unfinished | whole
        · exact .inl unfinished
        · rw [List.mem_singleton.mp whole, ← Store.eq_place_of_resolve resolved']
          cases found : start.store.lookup place with
          | none => exact .inr rfl
          | some node =>
              rw [Store.has_iff.mpr ⟨place, node, resolved', found⟩] at absent
              cases absent

/-- A download that is asked for and comes is written, where the disk takes it. -/
theorem download {services : Services} {url : String}
    (writes : Writes .sound path (Action.download services url) start result)
    (free : start.store.find path ≠ .ok .directory) :
    result.2.journal = start.journal ∨
      result.2.journal = start.journal ++ [.downloaded url] ∧
        ((services.download url).failure? = none → result.1 = .ok ()) := by
  cases writes with
  | refused refusal => exact .inl rfl
  | failed opens produced touches cleared =>
      rw [flushed_sound] at produced
      cases downloads_of_run produced with
      | failed failure =>
          refine .inr ⟨rfl, fun came => ?_⟩
          rw [failure] at came
          cases came
  | unmoved opens produced blocked touches whole => exact absurd blocked (not_blocks_sound free _)
  | done opens produced touches cleared read =>
      cases downloads_of_run produced with
      | came failure => exact .inr ⟨rfl, fun _ => rfl⟩

end Writes

end DatasetDepot.Action
