import DatasetDepot.Proofs.Snapshot.Files

/-!
Snapshots are written once.

Calls on caches of one directory share a table: for each name and number of rows, it holds the
dataset of the first loader that gave one.  One call adds at most its own entry, and only where
there was none.  Main statement: along any run, a loader is consulted exactly if the entry of its
call is still missing, and every call is answered from the entry that is there afterwards.
-/

namespace DatasetDepot.Snapshot

/-- A call for a dataset. -/
structure Call where
  cache : Path
  name : String
  rows : Nat
  columns : Nat
  loader : Nat → Action Dataset

namespace Call

/-- What the loader gives, and the world it leaves. -/
def loaded (call : Call) (start : World) : Except Fault Dataset × World :=
  (call.loader call.rows).run.run start

/-- What is answered to the call, and the world it leaves. -/
def perform (call : Call) (tables : TableFormat) (start : World) : Except Fault Dataset × World :=
  (load call.cache call.name call.rows call.columns call.loader tables).run.run start

/-- Whether what comes of the call depends on what the loader does when told this number of
rows. -/
def Consults (call : Call) (tables : TableFormat) (start : World) (rows : Nat) : Prop :=
  ∃ loader : Nat → Action Dataset, (∀ other, other ≠ rows → loader other = call.loader other) ∧
    { call with loader := loader }.perform tables start ≠ call.perform tables start

/-- A loader that fails where that of the call is consulted. -/
def failing (call : Call) (reason : String) (rows : Nat) : Action Dataset :=
  if rows = call.rows then throw (.unknownDataset reason) else call.loader rows

/-- The dataset a loader gives for an entry of the table. -/
def gives? (call : Call) (name : String) (rows : Nat) (start : World) : Option Dataset :=
  if call.name = name ∧ call.rows = rows then (call.loaded start).1.toOption else none

end Call

/-- The world that calls leave, one after the other. -/
def run (tables : TableFormat) (calls : List Call) (start : World) : World :=
  calls.foldl (fun world call => (call.perform tables world).2) start

/-- The dataset of the first of these calls whose loader gave one for this name and number of
rows. -/
def firstLoaded? (tables : TableFormat) (name : String) (rows : Nat) :
    List Call → World → Option Dataset
  | [], _ => none
  | call :: calls, start =>
      match call.gives? name rows start with
      | some dataset => some dataset
      | none => firstLoaded? tables name rows calls (call.perform tables start).2

/-- What a loader leaves as it is: the snapshots in a directory, and the ways of these caches to
it. -/
structure Leaves (directory : Location) (caches : List Path) (before after : Store) : Prop where
  base : after.base = before.base
  reaches : before.Reaches before.base → after.Reaches before.base
  leads : ∀ cache ∈ caches, ∀ place, before.Leads cache.isAbsolute cache.steps place →
    after.Leads cache.isAbsolute cache.steps place
  snapshots : ∀ name rows, '/' ∉ String.toList name →
    after.lookup (directory ++ [fileName name rows]) =
      before.lookup (directory ++ [fileName name rows])

theorem Leaves.refl (directory : Location) (caches : List Path) (store : Store) :
    Leaves directory caches store store :=
  ⟨rfl, id, fun _ _ _ => id, fun _ _ _ => rfl⟩

/-- A call whose loader leaves snapshots alone and whose dataset can be written. -/
structure Call.IsFair (call : Call) (tables : TableFormat) (directory : Location)
    (caches : List Path) (start : World) : Prop where
  leaves : Leaves directory caches start.store (call.loaded start).2.store
  accepted : start.store.has (path call.cache call.name call.rows) = false →
    ∀ dataset loaded, call.loaded start = (.ok dataset, loaded) →
      ((write call.cache (path call.cache call.name call.rows) dataset tables).run.run loaded).1 =
        .ok ()

/-- A run of calls on caches of one directory, which has no snapshots at first. -/
structure Runs (tables : TableFormat) (directory : Location) (calls : List Call) (start : World) :
    Prop where
  reaches : start.store.Reaches start.store.base
  clean : ∀ name rows, '/' ∉ String.toList name →
    start.store.lookup (directory ++ [fileName name rows]) = none
  noSlash : ∀ call ∈ calls, '/' ∉ call.name.toList
  on : ∀ call ∈ calls, IsOn start.store directory call.cache
  fair : ∀ before call after, calls = before ++ call :: after →
    call.IsFair tables directory (calls.map Call.cache) (run tables before start)

/-- A call is served as from a table that is written once. -/
structure Serves (tables : TableFormat) (directory : Location) (before : List Call)
    (start : World) (call : Call) : Prop where
  /-- The loader is only consulted for an entry that is missing, and told the rows of the call. -/
  consults : ∀ rows, call.Consults tables (run tables before start) rows ↔
    rows = call.rows ∧ firstLoaded? tables call.name call.rows before start = none
  /-- A fault of the loader is the answer, and nothing else happens. -/
  failed : firstLoaded? tables call.name call.rows before start = none →
    ∀ fault loaded, call.loaded (run tables before start) = (.error fault, loaded) →
      call.perform tables (run tables before start) = (.error fault, loaded)
  /-- What is answered from an entry that is there changes nothing. -/
  recalled : firstLoaded? tables call.name call.rows before start ≠ none →
    (call.perform tables (run tables before start)).2 = run tables before start
  /-- The entry that is there afterwards is what is answered from, by this call too. -/
  answers : ∀ dataset,
    firstLoaded? tables call.name call.rows (before ++ [call]) start = some dataset →
    dataset.columns ≠ 0 ∨ dataset.labels? ≠ none →
      Answers call.name dataset call.rows call.columns
        (call.perform tables (run tables before start)).1
  /-- Entries are what is in the files. -/
  table : ∀ name rows, '/' ∉ String.toList name →
    (run tables (before ++ [call]) start).store.lookup (directory ++ [fileName name rows]) =
      (firstLoaded? tables name rows (before ++ [call]) start).map fun dataset =>
        .file (tables.write (tableOf dataset))

/-! Runs. -/

variable {tables : TableFormat}

theorem run_append (before after : List Call) (start : World) :
    run tables (before ++ after) start = run tables after (run tables before start) :=
  List.foldl_append

theorem run_concat (before : List Call) (call : Call) (start : World) :
    run tables (before ++ [call]) start = (call.perform tables (run tables before start)).2 :=
  run_append _ _ _

theorem firstLoaded?_concat (name : String) (rows : Nat) (before : List Call) (call : Call)
    (start : World) :
    firstLoaded? tables name rows (before ++ [call]) start =
      (firstLoaded? tables name rows before start).or
        (call.gives? name rows (run tables before start)) := by
  induction before generalizing start with
  | nil =>
      change _ = call.gives? name rows start
      simp only [List.nil_append, firstLoaded?]
      cases call.gives? name rows start <;> rfl
  | cons first before inductionHypothesis =>
      simp only [List.cons_append, firstLoaded?]
      cases first.gives? name rows start with
      | some dataset => rfl
      | none => exact inductionHypothesis _

theorem gives?_eq_none_of_ne {call : Call} {name : String} {rows : Nat}
    (other : ¬ (call.name = name ∧ call.rows = rows)) (start : World) :
    call.gives? name rows start = none := if_neg other

theorem gives?_self (call : Call) (start : World) :
    call.gives? call.name call.rows start = (call.loaded start).1.toOption := if_pos ⟨rfl, rfl⟩

theorem firstLoaded?_concat_of_stored {before : List Call} {call : Call} {start : World}
    (stored : firstLoaded? tables call.name call.rows before start ≠ none) (name : String)
    (rows : Nat) :
    firstLoaded? tables name rows (before ++ [call]) start =
      firstLoaded? tables name rows before start := by
  rw [firstLoaded?_concat]
  by_cases same : call.name = name ∧ call.rows = rows
  · obtain ⟨rfl, rfl⟩ := same
    obtain ⟨dataset, found⟩ := Option.ne_none_iff_exists'.mp stored
    rw [found]
    rfl
  · rw [gives?_eq_none_of_ne same, Option.or_none]

theorem firstLoaded?_concat_of_failed {before : List Call} {call : Call} {start after : World}
    {fault : Fault} (failed : call.loaded (run tables before start) = (.error fault, after))
    (name : String) (rows : Nat) :
    firstLoaded? tables name rows (before ++ [call]) start =
      firstLoaded? tables name rows before start := by
  rw [firstLoaded?_concat, Call.gives?, failed]
  exact (congrArg _ (ite_self none)).trans (Option.or_none)

/-! The table. -/

variable {directory : Location} {calls before : List Call} {start : World} {call : Call}

/-- What holds along a run. -/
structure Holds (tables : TableFormat) (directory : Location) (calls : List Call) (start : World)
    (done : List Call) (world : World) : Prop where
  reaches : world.store.Reaches world.store.base
  on : ∀ call ∈ calls, IsOn world.store directory call.cache
  table : ∀ name rows, '/' ∉ String.toList name →
    world.store.lookup (directory ++ [fileName name rows]) =
      (firstLoaded? tables name rows done start).map fun dataset =>
        .file (tables.write (tableOf dataset))
  opened : ∀ name rows, '/' ∉ String.toList name → firstLoaded? tables name rows done start ≠ none →
    world.store.Reaches directory ∧ (fileName name rows).Fits

namespace Holds

variable {world : World}

theorem read (holds : Holds tables directory calls start before world) (member : call ∈ calls)
    (noSlash : '/' ∉ call.name.toList) {dataset : Dataset}
    (stored : firstLoaded? tables call.name call.rows before start = some dataset) :
    world.store.read (path call.cache call.name call.rows) =
      .ok (tables.write (tableOf dataset)) := by
  obtain ⟨reaches, fits⟩ := holds.opened call.name call.rows noSlash (by simp [stored])
  have ends := Path.endsAt_join call.cache (isPlain_fileName noSlash call.rows)
  refine Store.read_eq_ok_iff.mpr ⟨_, (Store.resolve_of_endsAt ends).mpr
    ⟨directory, (holds.on call member).leads reaches, fits, rfl⟩, ?_⟩
  rw [holds.table call.name call.rows noSlash, stored]
  rfl

theorem has (holds : Holds tables directory calls start before world) (member : call ∈ calls)
    (noSlash : '/' ∉ call.name.toList)
    (missing : firstLoaded? tables call.name call.rows before start = none) :
    world.store.has (path call.cache call.name call.rows) = false := by
  apply Store.has_eq_false_of_lookup
  rw [(holds.on call member).place_path noSlash, holds.table call.name call.rows noSlash, missing]
  rfl

theorem of_leaves (holds : Holds tables directory calls start before world) {after : World}
    (member : call ∈ calls)
    (leaves : Leaves directory (calls.map Call.cache) world.store after.store) :
    Holds tables directory calls start before after where
  reaches := by
    rw [leaves.base]
    exact leaves.reaches holds.reaches
  on other member' := (holds.on other member').mono leaves.base
    (leaves.leads other.cache (List.mem_map_of_mem member'))
  table name rows noSlash :=
    (leaves.snapshots name rows noSlash).trans (holds.table name rows noSlash)
  opened name rows noSlash stored := by
    obtain ⟨reaches, fits⟩ := holds.opened name rows noSlash stored
    have leads := leaves.leads call.cache (List.mem_map_of_mem member) directory
      ((holds.on call member).leads reaches)
    refine ⟨leads.reaches ?_, fits⟩
    rw [leaves.base]
    exact leaves.reaches holds.reaches

theorem congr (holds : Holds tables directory calls start before world) {after : List Call}
    (same : ∀ name rows, firstLoaded? tables name rows after start =
      firstLoaded? tables name rows before start) :
    Holds tables directory calls start after world where
  reaches := holds.reaches
  on := holds.on
  table name rows := same name rows ▸ holds.table name rows
  opened name rows := same name rows ▸ holds.opened name rows

theorem of_puts (holds : Holds tables directory calls start before world) {after : List Call}
    {store : Store} {dataset : Dataset}
    (puts : Puts directory (fileName call.name call.rows) (tables.write (tableOf dataset))
      world.store store)
    (entry : firstLoaded? tables call.name call.rows after start = some dataset)
    (others : ∀ name rows, ¬ (call.name = name ∧ call.rows = rows) →
      firstLoaded? tables name rows after start = firstLoaded? tables name rows before start) :
    Holds tables directory calls start after { world with store := store } where
  reaches := by
    change store.Reaches store.base
    rw [puts.spares.base]
    exact holds.reaches.mono fun _ => puts.spares.directory
  on other member := (holds.on other member).mono puts.spares.base fun _ => puts.spares.leads
  table name rows noSlash := by
    by_cases same : call.name = name ∧ call.rows = rows
    · obtain ⟨rfl, rfl⟩ := same
      rw [entry]
      exact puts.stored
    · rw [others name rows same, ← holds.table name rows noSlash]
      apply puts.others
      · intro equal
        obtain ⟨rfl, rfl⟩ := fileName_inj.mp equal
        exact same ⟨rfl, rfl⟩
      · exact fileName_ne_unfinished name call.name rows call.rows
  opened name rows noSlash stored := by
    refine ⟨puts.reaches, ?_⟩
    by_cases same : call.name = name ∧ call.rows = rows
    · obtain ⟨rfl, rfl⟩ := same
      exact puts.fits
    · rw [others name rows same] at stored
      exact (holds.opened name rows noSlash stored).2

end Holds

/-! One call. -/

theorem perform_of_stored (faithful : tables.IsFaithful)
    (holds : Holds tables directory calls start before (run tables before start))
    (member : call ∈ calls) (noSlash : '/' ∉ call.name.toList) {dataset : Dataset}
    (stored : firstLoaded? tables call.name call.rows before start = some dataset)
    (loader : Nat → Action Dataset) :
    { call with loader := loader }.perform tables (run tables before start) =
      (crop call.name (kept dataset) call.rows call.columns, run tables before start) :=
  run_load_of_stored faithful (holds.read member noSlash stored) call.columns loader .sound

theorem perform_of_failed {world after : World} {loader : Nat → Action Dataset} {fault : Fault}
    (missing : world.store.has (path call.cache call.name call.rows) = false)
    (failed : (loader call.rows).run.run world = (.error fault, after)) :
    { call with loader := loader }.perform tables world = (.error fault, after) := by
  unfold Call.perform
  rw [run_load, if_neg (by simp [missing]), failed]

theorem perform_of_written {world middle after : World} {loader : Nat → Action Dataset}
    {dataset : Dataset} (missing : world.store.has (path call.cache call.name call.rows) = false)
    (loaded : (loader call.rows).run.run world = (.ok dataset, middle))
    (written : (write call.cache (path call.cache call.name call.rows) dataset
      tables).run.run middle = (.ok (), after)) :
    { call with loader := loader }.perform tables world =
      (crop call.name dataset call.rows call.columns, after) := by
  unfold Call.perform
  rw [run_load, if_neg (by simp [missing]), loaded]
  simp only [written]

/-- What comes of a call whose entry is missing. -/
inductive Loads (tables : TableFormat) (directory : Location) (call : Call) (world : World) :
    Prop where
  | failed {fault : Fault} {after : World} (loaded : call.loaded world = (.error fault, after))
      (performed : call.perform tables world = (.error fault, after))
  | stored {dataset : Dataset} {after : World} {store : Store}
      (loaded : call.loaded world = (.ok dataset, after))
      (puts : Puts directory (fileName call.name call.rows) (tables.write (tableOf dataset))
        after.store store)
      (performed : call.perform tables world =
        (crop call.name dataset call.rows call.columns, { after with store := store }))

theorem loads_of_missing {world : World} (holds : Holds tables directory calls start before world)
    (member : call ∈ calls) (noSlash : '/' ∉ call.name.toList)
    (missing : firstLoaded? tables call.name call.rows before start = none)
    (fair : call.IsFair tables directory (calls.map Call.cache) world) :
    Loads tables directory call world := by
  have has := holds.has member noSlash missing
  rcases loaded : call.loaded world with ⟨fault | dataset, after⟩
  · exact .failed loaded (perform_of_failed has loaded)
  · have accepted := fair.accepted has dataset after loaded
    have leaves := fair.leaves
    rw [loaded] at leaves
    have holds' : Holds tables directory calls start before after := holds.of_leaves member leaves
    rcases written : (write call.cache (path call.cache call.name call.rows) dataset
      tables).run.run after with ⟨fault | done, final⟩
    · rw [written] at accepted
      cases accepted
    · obtain ⟨store, rfl, puts⟩ :=
        puts_write noSlash (holds'.on call member) holds'.reaches written
      exact .stored loaded puts (perform_of_written has loaded written)

theorem Holds.step (faithful : tables.IsFaithful)
    (holds : Holds tables directory calls start before (run tables before start))
    (member : call ∈ calls) (noSlash : '/' ∉ call.name.toList)
    (fair : call.IsFair tables directory (calls.map Call.cache) (run tables before start)) :
    Holds tables directory calls start (before ++ [call])
      (run tables (before ++ [call]) start) := by
  rw [run_concat]
  cases entry : firstLoaded? tables call.name call.rows before start with
  | some dataset =>
      rw [perform_of_stored faithful holds member noSlash entry call.loader]
      exact holds.congr (firstLoaded?_concat_of_stored (by simp [entry]))
  | none =>
      have leaves := fair.leaves
      rcases loads_of_missing holds member noSlash entry fair with
        ⟨loaded, performed⟩ | ⟨loaded, puts, performed⟩
      · rw [loaded] at leaves
        rw [performed]
        exact (holds.of_leaves member leaves).congr (firstLoaded?_concat_of_failed loaded)
      · rw [loaded] at leaves
        rw [performed]
        refine (holds.of_leaves member leaves).of_puts puts ?_ fun name rows other => ?_
        · rw [firstLoaded?_concat, entry, gives?_self, loaded]
          rfl
        · rw [firstLoaded?_concat, gives?_eq_none_of_ne other, Option.or_none]

theorem holds_start (runs : Runs tables directory calls start) :
    Holds tables directory calls start [] start where
  reaches := runs.reaches
  on := runs.on
  table := runs.clean
  opened _ _ _ stored := absurd rfl stored

theorem holds_run (faithful : tables.IsFaithful) (runs : Runs tables directory calls start)
    {before after : List Call}
    (split : calls = before ++ after) :
    Holds tables directory calls start before (run tables before start) := by
  induction before using List.reverseRecOn generalizing after with
  | nil => exact holds_start runs
  | append_singleton before call inductionHypothesis =>
      rw [List.append_assoc, List.singleton_append] at split
      have member : call ∈ calls := by simp [split]
      exact (inductionHypothesis split).step faithful member (runs.noSlash call member)
        (runs.fair before call after split)

/-- The loader of a call is consulted exactly if its entry is missing, and told its rows. -/
theorem consults_iff (faithful : tables.IsFaithful)
    (holds : Holds tables directory calls start before (run tables before start))
    (member : call ∈ calls) (noSlash : '/' ∉ call.name.toList) (rows : Nat) :
    call.Consults tables (run tables before start) rows ↔
      rows = call.rows ∧ firstLoaded? tables call.name call.rows before start = none := by
  constructor
  · rintro ⟨loader, elsewhere, differs⟩
    refine ⟨?_, ?_⟩
    · by_contra other
      exact differs (run_load_congr (elsewhere call.rows (Ne.symm other)) _ _ _ _ _ _)
    · by_contra stored
      obtain ⟨dataset, entry⟩ := Option.ne_none_iff_exists'.mp stored
      exact differs ((perform_of_stored faithful holds member noSlash entry loader).trans
        (perform_of_stored faithful holds member noSlash entry call.loader).symm)
  · rintro ⟨rfl, missing⟩
    have has := holds.has member noSlash missing
    have elsewhere : ∀ reason other, other ≠ call.rows →
        call.failing reason other = call.loader other := fun reason other ne => if_neg ne
    have fails : ∀ reason,
        { call with loader := call.failing reason }.perform tables (run tables before start) =
          (.error (.unknownDataset reason), run tables before start) := by
      intro reason
      apply perform_of_failed has
      rw [show call.failing reason call.rows = throw (.unknownDataset reason) from if_pos rfl]
      rfl
    by_cases same : call.perform tables (run tables before start) =
        (.error (.unknownDataset ""), run tables before start)
    · refine ⟨call.failing "other", elsewhere _, ?_⟩
      rw [fails, same]
      simp
    · refine ⟨call.failing "", elsewhere _, ?_⟩
      rw [fails]
      exact Ne.symm same

theorem answers_perform (faithful : tables.IsFaithful)
    (holds : Holds tables directory calls start before (run tables before start))
    (member : call ∈ calls) (noSlash : '/' ∉ call.name.toList)
    (fair : call.IsFair tables directory (calls.map Call.cache) (run tables before start))
    {dataset : Dataset}
    (entry : firstLoaded? tables call.name call.rows (before ++ [call]) start = some dataset)
    (something : dataset.columns ≠ 0 ∨ dataset.labels? ≠ none) :
    Answers call.name dataset call.rows call.columns
      (call.perform tables (run tables before start)).1 := by
  cases former : firstLoaded? tables call.name call.rows before start with
  | some stored =>
      rw [firstLoaded?_concat_of_stored (by simp [former]), former, Option.some.injEq] at entry
      subst entry
      have whole : kept stored = stored := if_neg fun nothing =>
        something.elim (fun some => some nothing.1) fun some => some nothing.2
      rw [perform_of_stored faithful holds member noSlash former call.loader, whole]
      exact answers_crop _ _ _ _
  | none =>
      rw [firstLoaded?_concat, former, Option.none_or, gives?_self] at entry
      rcases loads_of_missing holds member noSlash former fair with
        ⟨loaded, performed⟩ | ⟨loaded, puts, performed⟩
      · rw [loaded] at entry
        cases entry
      · rw [loaded] at entry
        cases entry
        rw [performed]
        exact answers_crop _ _ _ _

/-- Along any run, every call is served as from a table that is written once, whatever the format
of the files. -/
theorem serves_of_runs (faithful : tables.IsFaithful) (runs : Runs tables directory calls start)
    {after : List Call} (split : calls = before ++ call :: after) :
    Serves tables directory before start call := by
  have member : call ∈ calls := by simp [split]
  have noSlash := runs.noSlash call member
  have fair := runs.fair before call after split
  have holds := holds_run faithful runs split
  refine ⟨consults_iff faithful holds member noSlash, fun missing fault loaded failed => ?_,
    fun stored => ?_, fun dataset => answers_perform faithful holds member noSlash fair,
    (holds.step faithful member noSlash fair).table⟩
  · exact perform_of_failed (holds.has member noSlash missing) failed
  · obtain ⟨dataset, entry⟩ := Option.ne_none_iff_exists'.mp stored
    rw [show call.perform tables (run tables before start) = _ from
      perform_of_stored faithful holds member noSlash entry call.loader]

/-- Two columns are asked for and there is only one, but the dataset is kept: a second call, on
the same directory by another path, is answered without its loader. -/
theorem serves_of_two_calls :
    let dataset := Dataset.ofRows 1 #[(0, #[1]), (1, #[2])]
    let loading : Call := ⟨.ofString "c", "a", 0, 2, fun _ => pure dataset⟩
    let again : Call := ⟨.ofString "./c", "a", 0, 1, fun _ => throw (.unknownDataset "a")⟩
    let start : World := ⟨⟨[], []⟩, []⟩
    TableFormat.packed.IsFaithful ∧ Runs .packed [['c']] [loading, again] start ∧
      firstLoaded? .packed "a" 0 [loading] start = some dataset ∧
      Serves .packed [['c']] [loading] start again := by
  intro dataset loading again start
  have cache : ∀ call ∈ [loading, again], '/' ∉ call.name.toList ∧
      IsOn start.store [['c']] call.cache := by
    intro call member
    have noDots : ∀ step ∈ call.cache.steps, step ≠ ['.', '.'] := by
      fin_cases member <;> decide
    fin_cases member
    · exact ⟨by decide, rfl, .inr noDots⟩
    · exact ⟨by decide, rfl, .inr noDots⟩
  have accepted : ∀ dataset,
      ((write (.ofString "c") (path (.ofString "c") "a" 0) dataset).run.run start).1 = .ok () := by
    intro dataset
    rw [run_write]
    rfl
  have fair : ∀ before call after, [loading, again] = before ++ call :: after →
      call.IsFair .packed [['c']] ([loading, again].map Call.cache) (run .packed before start) := by
    rintro (_ | ⟨first, _ | ⟨second, before⟩⟩) call after split
    · cases split
      refine ⟨Leaves.refl _ _ _, fun _ dataset _ loaded => ?_⟩
      cases loaded
      exact accepted dataset
    · cases split
      exact ⟨Leaves.refl _ _ _, fun _ _ _ loaded => nomatch loaded⟩
    · simp at split
  have runs : Runs .packed [['c']] [loading, again] start :=
    ⟨Store.Reaches.root _, fun _ _ _ => rfl, fun call member => (cache call member).1,
      fun call member => (cache call member).2, fair⟩
  exact ⟨TableFormat.isFaithful_packed, runs, rfl,
    serves_of_runs TableFormat.isFaithful_packed runs (show _ = [loading] ++ again :: [] from rfl)⟩

end DatasetDepot.Snapshot
