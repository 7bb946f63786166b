import DatasetDepot.Depot
import DatasetDepot.Proofs.Leading
import DatasetDepot.Proofs.Parsing
import DatasetDepot.Proofs.Published.Reading

/-!
Published datasets for different numbers of rows.

Every number of rows that is asked for has its own snapshot, made from what is read of the raw
files up to that number.  Main statement: whatever the raw files hold, as long as the dataset can
be loaded as a whole, a load of some rows gives the leading ones of it or says how many there are.
The second file of a dataset in two files only matters when the first has too few rows.
-/

namespace DatasetDepot.Published

open DatasetDepot.Action

/-- How a published dataset is loaded. -/
def loader? : Title → Option (Context → Nat → Action Dataset)
  | .bosch => some loadBosch
  | .covtype => some (fetchTable ⟨false, false, false⟩ Sources.covtype)
  | .epsilon => some loadEpsilon
  | .higgs => some (fetchTable ⟨false, false, true⟩ Sources.higgs)
  | .year => some (fetchTable ⟨false, false, true⟩ Sources.year)
  | .blobs | .zeros | .classification | .regression => none

theorem isSome_loader? (title : Title) : (loader? title).isSome = title.isPublished := by
  cases title <;> rfl

theorem standard_eq {title : Title} {loader : Context → Nat → Action Dataset}
    (published : loader? title = some loader) : Generator.standard title = keep title loader := by
  cases title <;> cases published <;> rfl

/-- What brings the raw files of a published dataset. -/
def rawFiles (title : Title) (context : Context) : List (Action Path) :=
  let fetch := Fetch.fetch context.services context.cache
  match title with
  | .bosch => [do Fetch.unpack (← boschArchive context)]
  | .covtype => [fetch context.sources.covtype]
  | .epsilon => [fetch context.sources.epsilonTrain, fetch context.sources.epsilonTest]
  | .higgs => [fetch context.sources.higgs]
  | .year => [fetch context.sources.year]
  | .blobs | .zeros | .classification | .regression => []

/-- Files with these contents are brought, one after the other. -/
inductive Brings : List (Action Path) → List Bytes → World → Prop where
  | nil {world : World} : Brings [] [] world
  | cons {bring : Action Path} {rest : List (Action Path)} {path : Path} {contents : Bytes}
      {more : List Bytes} {world next : World} (brought : bring.run.run world = (.ok path, next))
      (read : next.store.read path = .ok contents) (others : Brings rest more next) :
      Brings (bring :: rest) (contents :: more) world

theorem Brings.exists_singleton {bring : Action Path} {raw : List Bytes} {world : World}
    (brought : Brings [bring] raw world) : ∃ contents, raw = [contents] := by
  cases brought with
  | cons came read others =>
      cases others
      exact ⟨_, rfl⟩

theorem Brings.exists_pair {bring other : Action Path} {raw : List Bytes} {world : World}
    (brought : Brings [bring, other] raw world) : ∃ first second, raw = [first, second] := by
  cases brought with
  | cons came read others =>
      obtain ⟨second, rfl⟩ := others.exists_singleton
      exact ⟨_, second, rfl⟩

/-! Generators that keep snapshots. -/

section Keep

variable {title : Title} {loader : Context → Nat → Action Dataset} {demand : Demand}
  {context : Context} {start after loaded : World} {dataset whole part : Dataset}

theorem run_keep (title : Title) (loader : Context → Nat → Action Dataset) (demand : Demand)
    (context : Context) (start : World) :
    (keep title loader demand context).run.run start =
      match demand.parameters.check title with
      | .error fault => (.error fault, start)
      | .ok () => (Snapshot.load context.cache title.name demand.rows demand.columns
          (loader context) context.services.tables).run.run start := by
  unfold keep
  rw [run_bind, run_liftM]
  cases demand.parameters.check title <;> rfl

theorem exists_of_full (fresh : start.store.has (Snapshot.path context.cache title.name 0) = false)
    (rows : demand.rows = 0) (columns : demand.columns = 0)
    (full : (keep title loader demand context).run.run start = (.ok whole, after)) :
    demand.parameters.check title = .ok () ∧
      ∃ dataset loaded, (loader context 0).run.run start = (.ok dataset, loaded) ∧
        dataset.Agrees whole := by
  rw [run_keep] at full
  cases checked : demand.parameters.check title with
  | error fault =>
      rw [checked] at full
      cases full
  | ok done =>
      refine ⟨rfl, ?_⟩
      rw [checked, rows, columns] at full
      rcases given : (loader context 0).run.run start with ⟨fault | dataset, loaded⟩
      · simp only [Snapshot.run_load, fresh, Bool.false_eq_true, if_false, given] at full
        cases full
      · simp only [Snapshot.run_load_of_loaded fresh given] at full
        rcases written : (Snapshot.write context.cache
          (Snapshot.path context.cache title.name 0) dataset context.services.tables).run.run
          loaded with ⟨_ | _, last⟩
        · rw [written] at full
          cases full
        · rw [written] at full
          exact ⟨dataset, loaded, rfl, Snapshot.agrees_of_crop (Prod.mk.inj full).1⟩

theorem run_keep_of_loaded (checked : demand.parameters.check title = .ok ())
    (fresh : start.store.has (Snapshot.path context.cache title.name demand.rows) = false)
    (given : (loader context demand.rows).run.run start = (.ok part, loaded)) :
    (keep title loader demand context).run.run start =
      match (Snapshot.write context.cache (Snapshot.path context.cache title.name demand.rows)
        part context.services.tables).run.run loaded with
      | (.ok (), after) => (Snapshot.crop title.name part demand.rows demand.columns, after)
      | (.error fault, after) => (.error fault, after) := by
  rw [run_keep, checked]
  exact Snapshot.run_load_of_loaded fresh given demand.columns context.services.tables .sound

theorem run_keep_of_failed {fault : Fault} (checked : demand.parameters.check title = .ok ())
    (fresh : start.store.has (Snapshot.path context.cache title.name demand.rows) = false)
    (failed : (loader context demand.rows).run.run start = (.error fault, loaded)) :
    (keep title loader demand context).run.run start = (.error fault, loaded) := by
  rw [run_keep, checked]
  simp only [Snapshot.run_load, fresh, Bool.false_eq_true, if_false, failed]

end Keep

/-! Tables. -/

theorem begins_table (rows : List (Single × Array Single)) (width limit : Nat) :
    (Dataset.ofRows width (rows.take limit).toArray).Begins (Dataset.ofRows width rows.toArray)
      limit := by
  have begins := Dataset.begins_ofRows rows Prod.fst Prod.snd Prod.snd (Nat.le_refl width)
    (Nat.le_refl limit) fun row _ => (padded_of_size Array.size_ofFn).symm
  simpa using begins

theorem exists_run_table {bring : Action Path} {contents : Bytes} {start : World}
    (brought : Brings [bring] [contents] start) (columns : Csv.Columns) :
    ∃ (fault : Csv.Defect → Fault) (next : World), ∀ limit,
      (bring >>= readTable columns limit).run.run start =
        ((Csv.read columns limit contents).mapError fault, next) := by
  cases brought with
  | @cons _ _ path _ _ _ next brought read others =>
      refine ⟨tableFault path, next, fun limit => ?_⟩
      rw [run_bind, brought]
      exact run_readTable read columns limit

theorem exists_begins_of_table {columns : Csv.Columns} {bring bring' : Action Path}
    {contents : Bytes} {start start' loaded : World} {dataset : Dataset} {rows : Nat}
    (some : 1 ≤ rows) (brought : Brings [bring] [contents] start)
    (full : (bring >>= readTable columns 0).run.run start = (.ok dataset, loaded))
    (brought' : Brings [bring'] [contents] start') :
    ∃ part loaded', (bring' >>= readTable columns rows).run.run start' = (.ok part, loaded') ∧
      part.Begins dataset rows ∧ part.columns = dataset.columns := by
  obtain ⟨fault, next, run⟩ := exists_run_table brought columns
  obtain ⟨fault', next', run'⟩ := exists_run_table brought' columns
  rw [run] at full
  cases whole : Csv.read columns 0 contents with
  | error defect =>
      rw [whole] at full
      cases full
  | ok dataset' =>
      rw [whole] at full
      cases full
      obtain ⟨rows', rfl, limited⟩ := Csv.exists_read_limit some whole
      refine ⟨Dataset.ofRows _ (rows'.take rows).toArray, next', ?_, begins_table rows' _ rows, rfl⟩
      rw [run', limited]
      rfl

/-! Rows in two files. -/

section Epsilon

variable {context : Context} {limit : Nat} {start middle last : World}

def rowsAt (context : Context) (limit : Nat) (url : String) : Action (List Svmlight.Row) := do
  readRows limit (← Fetch.fetch context.services context.cache url)

/-- The dataset of rows, with labels that are zero unless they are positive. -/
def binary (rows : List Svmlight.Row) : Dataset :=
  Dataset.ofRows (Svmlight.width rows)
    (rows.map fun row => (toBinary row.label, row.dense (Svmlight.width rows))).toArray

theorem densify_eq_binary (parts : List (List Svmlight.Row)) :
    Svmlight.densify
      (parts.map fun part => part.map fun row => { row with label := toBinary row.label }) =
      binary parts.flatten := by
  have flat : (parts.map fun part => part.map fun row : Svmlight.Row =>
      { row with label := toBinary row.label }).flatten =
      parts.flatten.map fun row => { row with label := toBinary row.label } := by
    rw [List.map_flatten]
  have width : Svmlight.width (parts.flatten.map fun row : Svmlight.Row =>
      { row with label := toBinary row.label }) = Svmlight.width parts.flatten := by
    rw [Svmlight.width, List.map_map]
    rfl
  unfold Svmlight.densify binary
  simp only [flat, width, List.map_map]
  rfl

theorem run_loadEpsilon (context : Context) (limit : Nat) (start : World) :
    (loadEpsilon context limit).run.run start =
      match (rowsAt context limit context.sources.epsilonTrain).run.run start with
      | (.error fault, middle) => (.error fault, middle)
      | (.ok train, middle) =>
          if limit = 0 ∨ train.length < limit then
            match (rowsAt context limit context.sources.epsilonTest).run.run middle with
            | (.error fault, last) => (.error fault, last)
            | (.ok test, last) => (.ok (binary (train ++ test)), last)
          else (.ok (binary train), middle) := by
  unfold loadEpsilon
  simp only
  change ((rowsAt context limit context.sources.epsilonTrain) >>= _).run.run start = _
  rw [run_bind]
  rcases (rowsAt context limit context.sources.epsilonTrain).run.run start with
    ⟨fault | train, middle⟩
  · rfl
  · by_cases needed : limit = 0 ∨ train.length < limit
    · simp only [if_pos needed]
      change ((rowsAt context limit context.sources.epsilonTest) >>= _).run.run middle = _
      rw [run_bind]
      rcases (rowsAt context limit context.sources.epsilonTest).run.run middle with
        ⟨fault | test, last⟩
      · rfl
      · have both := densify_eq_binary [train, test]
        rw [List.flatten_cons, List.flatten_singleton] at both
        simp only [← both]
        rfl
    · have one := densify_eq_binary [train]
      rw [List.flatten_singleton] at one
      simp only [if_neg needed, ← one]
      rfl

theorem begins_binary {rows : List Svmlight.Row} (counted : ∀ row ∈ rows, row.IsCounted)
    {limit count : Nat} (enough : limit ≤ count) :
    (binary (rows.take count)).Begins (binary rows) limit := by
  have narrow : Svmlight.width (rows.take count) ≤ Svmlight.width rows :=
    Svmlight.width_mono (List.take_subset count rows)
  refine Dataset.begins_ofRows rows (fun row => toBinary row.label) _ _ narrow enough
    fun row member => ?_
  have fits := Svmlight.width_le_iff.mp (Nat.le_refl _) row member
  have whole : ∀ width, (Array.ofFn fun column : Fin width => (row.dense width).getD column 0) =
      row.dense width := by
    intro width
    apply Array.ext
    · rw [Array.size_ofFn, Svmlight.size_dense]
    · intro place inside inside'
      simp [inside']
  rw [whole, whole, padded, Svmlight.size_dense]
  exact Svmlight.Row.dense_eq_append (counted row (List.mem_of_mem_take member)) fits narrow

theorem exists_run_rowsAt {url : String} {contents : Bytes} {rest : List (Action Path)}
    {more : List Bytes}
    (brought : Brings (Fetch.fetch context.services context.cache url :: rest) (contents :: more)
      start) :
    ∃ (fault : Svmlight.Defect → Fault) (next : World), Brings rest more next ∧ ∀ limit,
      (rowsAt context limit url).run.run start =
        ((Svmlight.read limit contents).mapError fault, next) := by
  cases brought with
  | @cons _ _ path _ _ _ next brought read others =>
      refine ⟨rowsFault path, next, others, fun limit => ?_⟩
      unfold rowsAt
      rw [run_bind, brought]
      exact run_readRows read limit

theorem exists_rows_of_full {trainRaw testRaw : Bytes} {dataset : Dataset} {loaded : World}
    (brought : Brings (rawFiles .epsilon context) [trainRaw, testRaw] start)
    (full : (loadEpsilon context 0).run.run start = (.ok dataset, loaded)) :
    ∃ train test, Svmlight.read 0 trainRaw = .ok train ∧ Svmlight.read 0 testRaw = .ok test ∧
      dataset = binary (train ++ test) := by
  obtain ⟨fault, middle, rest, first⟩ := exists_run_rowsAt brought
  obtain ⟨fault', last, _, second⟩ := exists_run_rowsAt rest
  rw [run_loadEpsilon, first] at full
  cases trainRead : Svmlight.read 0 trainRaw with
  | error defect =>
      rw [trainRead] at full
      cases full
  | ok train =>
      simp only [trainRead, Except.mapError, true_or, if_true, second] at full
      cases testRead : Svmlight.read 0 testRaw with
      | error defect =>
          rw [testRead] at full
          cases full
      | ok test =>
          rw [testRead] at full
          cases full
          exact ⟨train, test, rfl, rfl, rfl⟩

/-- The same with the second file at another address. -/
def withTest (context : Context) (url : String) : Context :=
  { context with sources := { context.sources with epsilonTest := url } }

/-- Only where the first file has too few rows, the second one is gone to. -/
theorem exists_run_withTest {trainRaw testRaw : Bytes} {train : List Svmlight.Row} {rows : Nat}
    (some : 1 ≤ rows) (brought : Brings (rawFiles .epsilon context) [trainRaw, testRaw] start)
    (trainRead : Svmlight.read 0 trainRaw = .ok train) :
    ∃ middle, Brings [Fetch.fetch context.services context.cache context.sources.epsilonTest]
        [testRaw] middle ∧
      ∀ url, (loadEpsilon (withTest context url) rows).run.run start =
        if train.length < rows then
          match (rowsAt context rows url).run.run middle with
          | (.error fault, last) => (.error fault, last)
          | (.ok test, last) => (.ok (binary (train ++ test)), last)
        else (.ok (binary (train.take rows)), middle) := by
  obtain ⟨fault, middle, rest, first⟩ := exists_run_rowsAt brought
  refine ⟨middle, rest, fun url => ?_⟩
  have first' : (rowsAt (withTest context url) rows
      (withTest context url).sources.epsilonTrain).run.run start =
      (.ok (train.take rows), middle) := by
    have run := first rows
    rw [Svmlight.read_limit some trainRead] at run
    exact run
  rw [run_loadEpsilon, first']
  by_cases few : train.length < rows
  · have needed : rows = 0 ∨ train.length < rows := .inr few
    simp only [List.take_of_length_le few.le, if_pos needed, if_pos few]
    rfl
  · have enough : ¬ (rows = 0 ∨ (train.take rows).length < rows) := by
      rw [List.length_take]
      omega
    simp only [if_neg enough, if_neg few]

theorem exists_run_rows {trainRaw testRaw : Bytes} {train test : List Svmlight.Row} {rows : Nat}
    (some : 1 ≤ rows) (brought : Brings (rawFiles .epsilon context) [trainRaw, testRaw] start)
    (trainRead : Svmlight.read 0 trainRaw = .ok train)
    (testRead : Svmlight.read 0 testRaw = .ok test) :
    ∃ count loaded, rows ≤ count ∧ (loadEpsilon context rows).run.run start =
      (.ok (binary ((train ++ test).take count)), loaded) := by
  obtain ⟨middle, rest, run⟩ := exists_run_withTest some brought trainRead
  obtain ⟨fault, last, _, second⟩ := exists_run_rowsAt rest
  have run' := run context.sources.epsilonTest
  rw [second, Svmlight.read_limit some testRead] at run'
  by_cases few : train.length < rows
  · rw [if_pos few] at run'
    refine ⟨train.length + rows, last, Nat.le_add_left _ _, run'.trans ?_⟩
    rw [List.take_length_add_append]
    rfl
  · rw [if_neg few] at run'
    refine ⟨rows, middle, Nat.le_refl rows, run'.trans ?_⟩
    rw [List.take_append_of_le_length (Nat.le_of_not_lt few)]

theorem isCounted_append {trainRaw testRaw : Bytes} {train test : List Svmlight.Row}
    (trainRead : Svmlight.read 0 trainRaw = .ok train)
    (testRead : Svmlight.read 0 testRaw = .ok test) : ∀ row ∈ train ++ test, row.IsCounted := by
  intro row member
  rcases List.mem_append.mp member with first | second
  · exact Svmlight.isCounted_of_read trainRead row first
  · exact Svmlight.isCounted_of_read testRead row second

end Epsilon

/-! All published datasets. -/

theorem loadBosch_eq (context : Context) (limit : Nat) :
    loadBosch context limit =
      (do Fetch.unpack (← boschArchive context)) >>= readTable ⟨true, true, false⟩ limit := by
  unfold loadBosch
  rw [bind_assoc]

section Budgets

variable {title : Title} {loader : Context → Nat → Action Dataset} {context context' : Context}
  {start start' after loaded : World} {raw : List Bytes} {dataset whole : Dataset} {rows : Nat}
  {seed seed' : UInt64} {parameters : Parameters}

/-- Of a dataset that is loaded as a whole, the leading rows are loaded from files of the same
contents. -/
theorem exists_begins (published : loader? title = some loader) (some : 1 ≤ rows)
    (brought : Brings (rawFiles title context) raw start)
    (full : (loader context 0).run.run start = (.ok dataset, loaded))
    (brought' : Brings (rawFiles title context') raw start') :
    ∃ part loaded', (loader context' rows).run.run start' = (.ok part, loaded') ∧
      part.Begins dataset rows ∧ (title ≠ .epsilon → part.columns = dataset.columns) := by
  cases title with
  | blobs | zeros | classification | regression => cases published
  | covtype | higgs | year =>
      cases published
      obtain ⟨contents, rfl⟩ := brought.exists_singleton
      obtain ⟨part, loaded', run, begins, wide⟩ := exists_begins_of_table some brought full brought'
      exact ⟨part, loaded', run, begins, fun _ => wide⟩
  | bosch =>
      cases published
      obtain ⟨contents, rfl⟩ := brought.exists_singleton
      rw [loadBosch_eq] at full ⊢
      obtain ⟨part, loaded', run, begins, wide⟩ := exists_begins_of_table some brought full brought'
      exact ⟨part, loaded', run, begins, fun _ => wide⟩
  | epsilon =>
      cases published
      obtain ⟨trainRaw, testRaw, rfl⟩ := brought.exists_pair
      obtain ⟨train, test, trainRead, testRead, rfl⟩ := exists_rows_of_full brought full
      obtain ⟨count, loaded', enough, run⟩ := exists_run_rows some brought' trainRead testRead
      exact ⟨_, loaded', run, begins_binary (isCounted_append trainRead testRead) enough,
        fun other => absurd rfl other⟩

/-- When the second file of a dataset in two files counts, and which labels come. -/
structure ReadsTest (context : Context) (start : World) (demand : Demand)
    (train test : List Svmlight.Row) : Prop where
  needed : (∃ url, (Generator.standard .epsilon demand (withTest context url)).run.run start ≠
      (Generator.standard .epsilon demand context).run.run start) ↔ train.length < demand.rows
  labels : ∀ part, ((Generator.standard .epsilon demand context).run.run start).1 = .ok part →
    part.labels? = some (((train ++ test).take demand.rows).map fun row =>
      if 0 < row.label then row.label else 0).toArray

theorem run_rowsAt_unnamed (context : Context) (limit : Nat) (start : World) :
    (rowsAt context limit "").run.run start =
      (.error (.invalidParameter "url" "`` does not name a file"), start) := rfl

theorem labels?_binary (rows : List Svmlight.Row) :
    (binary rows).labels? = some (rows.map fun row => toBinary row.label).toArray := by
  rw [binary, Dataset.labels?_ofRows, List.map_map]
  rfl

theorem readsTest_of_budgeted {demand : Demand} {trainRaw testRaw : Bytes}
    {train test : List Svmlight.Row} (some : 1 ≤ demand.rows)
    (checked : demand.parameters.check .epsilon = .ok ())
    (agrees : (binary (train ++ test)).Agrees whole)
    (brought : Brings (rawFiles .epsilon context) [trainRaw, testRaw] start)
    (fresh : start.store.has (Snapshot.path context.cache Title.epsilon.name demand.rows) = false)
    (trainRead : Svmlight.read 0 trainRaw = .ok train)
    (budgeted : Budgeted .epsilon whole demand.rows
      ((Generator.standard .epsilon demand context).run.run start).1) :
    ReadsTest context start demand train test where
  needed := by
    obtain ⟨middle, _, run⟩ := exists_run_withTest some brought trainRead
    constructor
    · rintro ⟨url, other⟩
      by_contra enough
      have spared : ∀ url, (keep .epsilon loadEpsilon demand (withTest context url)).run.run start =
          match (Snapshot.write context.cache
            (Snapshot.path context.cache Title.epsilon.name demand.rows)
            (binary (train.take demand.rows)) context.services.tables).run.run middle with
          | (.ok (), after) => (Snapshot.crop Title.epsilon.name (binary (train.take demand.rows))
              demand.rows demand.columns, after)
          | (.error fault, after) => (.error fault, after) := by
        intro url
        have loads := run url
        rw [if_neg enough] at loads
        exact run_keep_of_loaded checked fresh loads
      exact other ((spared url).trans (spared context.sources.epsilonTest).symm)
    · intro few
      refine ⟨"", fun same => ?_⟩
      have failed := run ""
      rw [if_pos few, run_rowsAt_unnamed] at failed
      have stopped : (keep .epsilon loadEpsilon demand (withTest context "")).run.run start =
          (.error (.invalidParameter "url" "`` does not name a file"), middle) :=
        run_keep_of_failed checked fresh failed
      rw [← same, standard_eq rfl, stopped] at budgeted
      cases budgeted
  labels := by
    intro part given
    rw [given] at budgeted
    cases budgeted with
    | leading enough height narrow wide features labels =>
        rw [labels, ← agrees.labels, labels?_binary, Option.map_some, List.take_toArray,
          ← List.map_take]
        rfl

/-- The snapshot of what is loaded for some rows can be stored. -/
def CanStore (title : Title) (context : Context) (rows : Nat) (start : World) : Prop :=
  ∀ loader dataset loaded, loader? title = some loader →
    (loader context rows).run.run start = (.ok dataset, loaded) →
      ((Snapshot.write context.cache (Snapshot.path context.cache title.name rows)
        dataset context.services.tables).run.run loaded).1 = .ok ()

/-- Datasets that others have published are the same for every number of rows: as long as all of
one can be loaded from its raw files, some rows of it that are loaded from files of the same
contents are the leading ones, and if there are not as many this is what is said. -/
theorem budgeted_of_full (published : title.isPublished = true)
    (brought : Brings (rawFiles title context) raw start)
    (fresh : start.store.has (Snapshot.path context.cache title.name 0) = false)
    (full : (Generator.standard title ⟨0, 0, seed, parameters⟩ context).run.run start =
      (.ok whole, after))
    (some : 1 ≤ rows) (brought' : Brings (rawFiles title context') raw start')
    (fresh' : start'.store.has (Snapshot.path context'.cache title.name rows) = false)
    (stores : CanStore title context' rows start') :
    Budgeted title whole rows
        ((Generator.standard title ⟨rows, 0, seed', parameters⟩ context').run.run start').1 ∧
      (title = .epsilon → ∃ trainRaw testRaw train test, raw = [trainRaw, testRaw] ∧
        Svmlight.read 0 trainRaw = .ok train ∧ Svmlight.read 0 testRaw = .ok test ∧
        ReadsTest context' start' ⟨rows, 0, seed', parameters⟩ train test) := by
  rw [← isSome_loader?] at published
  obtain ⟨loader, published⟩ := Option.isSome_iff_exists.mp published
  rw [standard_eq published] at full
  obtain ⟨checked, dataset, loaded, given, agrees⟩ := exists_of_full fresh rfl rfl full
  obtain ⟨part, loaded', given', begins, wide⟩ :=
    exists_begins published some brought given brought'
  have columns : dataset.columns = whole.columns := Matrix.columns_eq_of_contents agrees.features
  have budgeted : Budgeted title whole rows
      ((Generator.standard title ⟨rows, 0, seed', parameters⟩ context').run.run start').1 := by
    have run : (keep title loader ⟨rows, 0, seed', parameters⟩ context').run.run start' = _ :=
      run_keep_of_loaded checked fresh' given'
    have stored := stores loader part loaded' published given'
    rw [standard_eq published, run]
    rcases written : (Snapshot.write context'.cache (Snapshot.path context'.cache title.name rows)
      part context'.services.tables).run.run loaded' with ⟨fault | done, last⟩
    · rw [written] at stored
      cases stored
    · exact budgeted_crop some (begins.congr agrees) fun table => (wide table).trans columns
  refine ⟨budgeted, ?_⟩
  rintro rfl
  cases published
  obtain ⟨trainRaw, testRaw, rfl⟩ := brought.exists_pair
  obtain ⟨train, test, trainRead, testRead, rfl⟩ := exists_rows_of_full brought given
  exact ⟨trainRaw, testRaw, train, test, rfl, trainRead, testRead,
    readsTest_of_budgeted some checked agrees brought' fresh' trainRead budgeted⟩

/-- A cache in which both files are there, with one row in each. -/
def twoFiles : World where
  store := ⟨[], [(["c".toList], .directory),
    (["c".toList, "epsilon_normalized.bz2".toList], .file []),
    (["c".toList, "epsilon_normalized".toList], .file [0x31, 0x20, 0x32, 0x3A, 0x35, 0x0A]),
    (["c".toList, "epsilon_normalized.t.bz2".toList], .file []),
    (["c".toList, "epsilon_normalized.t".toList], .file [0x30, 0x20, 0x31, 0x3A, 0x37, 0x0A])]⟩
  journal := []

/-- The standard addresses, where nothing is. -/
def offline : Context where
  cache := .ofString "c"
  sources := {}
  services := {
    download := fun _ => ⟨[], some "offline"⟩
    launch := fun _ store => (store, .exited 1) }

/-- For two rows the second file is needed. -/
theorem budgeted_of_full_two_files :
    ∃ whole after, (Generator.standard .epsilon ⟨0, 0, 0, {}⟩ offline).run.run twoFiles =
        (.ok whole, after) ∧ whole.rows = 2 ∧ whole.columns = 2 ∧
      Budgeted .epsilon whole 2
        ((Generator.standard .epsilon ⟨2, 0, 0, {}⟩ offline).run.run twoFiles).1 ∧
      ∃ train test, train.length = 1 ∧ test.length = 1 ∧
        ReadsTest offline twoFiles ⟨2, 0, 0, {}⟩ train test := by
  have first : (Fetch.fetch offline.services offline.cache offline.sources.epsilonTrain).run.run
      twoFiles = (.ok (.ofString "c/epsilon_normalized"), twoFiles) := by rfl
  have second : (Fetch.fetch offline.services offline.cache offline.sources.epsilonTest).run.run
      twoFiles = (.ok (.ofString "c/epsilon_normalized.t"), twoFiles) := by rfl
  have stores : CanStore .epsilon offline 2 twoFiles := by
    intro loader dataset loaded published given
    cases published
    have unmoved : ((loadEpsilon offline 2).run.run twoFiles).2 = twoFiles := rfl
    rw [given] at unmoved
    cases unmoved
    rfl
  obtain ⟨whole, after, full, rows, columns⟩ :
      ∃ whole after, (Generator.standard .epsilon ⟨0, 0, 0, {}⟩ offline).run.run twoFiles =
        (.ok whole, after) ∧ whole.rows = 2 ∧ whole.columns = 2 := ⟨_, _, rfl, rfl, rfl⟩
  have brought : Brings (rawFiles .epsilon offline) [_, _] twoFiles :=
    .cons first rfl (.cons second rfl .nil)
  obtain ⟨budgeted, reads⟩ := budgeted_of_full rfl brought (by decide) full
    (by decide : 1 ≤ 2) brought (by decide) stores
  obtain ⟨_, _, train, test, same, trainRead, testRead, readsTest⟩ := reads rfl
  cases same
  cases trainRead
  cases testRead
  exact ⟨whole, after, full, rows, columns, budgeted, _, _, rfl, rfl, readsTest⟩

end Budgets

end DatasetDepot.Published
