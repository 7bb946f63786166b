import DatasetDepot.Proofs.Csv.Record
import DatasetDepot.Proofs.Csv.Scan
import DatasetDepot.Proofs.Mismatch
import DatasetDepot.Proofs.Parsing
import DatasetDepot.Proofs.Published.Reading
import DatasetDepot.Proofs.RowMajor

/-!
Tables of numbers as datasets.

The features of all rows go to one buffer, behind one another, and the labels to another.  Main
statement: a table is a dataset exactly if each of its records is a row, and what is in a record
stands in the row of its own; otherwise the first record that is none is reported, and never a
buffer of the wrong size.
-/

namespace DatasetDepot.Csv

variable {columns : Columns} {width : Nat} {record : Record} {row : Single × Array Single}
  {rows : List (Single × Array Single)}

/-! Rows. -/

/-- How many features there are in a record of so many fields. -/
def Columns.features (columns : Columns) (width : Nat) : Nat :=
  width - columns.hasIndex.toNat - 1

theorem Columns.Spells.size_eq (spells : columns.Spells width record row) :
    row.2.size = columns.features width := by
  obtain ⟨equal, decoded, numbers⟩ := spells
  have left := numbers.length_eq
  rw [Columns.length_behindIndex, Columns.length_place, ← decoded.length_eq, equal] at left
  rw [Columns.features, left, Nat.add_sub_cancel]
  exact List.size_toArray

theorem Columns.Spells.size_le_weight (spells : columns.Spells width record row) :
    max row.2.size 1 ≤ record.weight := by
  have size := spells.size_eq
  have equal : record.fields.length = width := by
    obtain ⟨equal, _⟩ := spells
    exact equal
  rw [Columns.features] at size
  rw [Record.weight]
  omega

theorem size_eq_widthOf {records : List Record}
    (each : List.Forall₂ (columns.Spells width) records rows) :
    ∀ row ∈ rows, row.2.size = widthOf rows := by
  cases each with
  | nil => exact List.forall_mem_nil _
  | @cons _ first _ rest head others =>
      intro row member
      refine Eq.trans ?_ head.size_eq.symm
      obtain ⟨place, inside, rfl⟩ := List.getElem_of_mem member
      have each := List.Forall₂.cons head others
      exact (each.get (each.length_eq ▸ inside) inside).size_eq

/-- Rows as a dataset: their labels and their features in order.  Without rows there are no columns
either. -/
structure IsTable (rows : List (Single × Array Single)) (dataset : Dataset) : Prop where
  labels : dataset.labels? = some (rows.map Prod.fst).toArray
  features : dataset.features.rowList = rows.map Prod.snd
  columns : dataset.columns = widthOf rows

theorem isTable_ofRows (sized : ∀ row ∈ rows, row.2.size = widthOf rows) :
    IsTable rows (Dataset.ofRows (widthOf rows) rows.toArray) where
  labels := Dataset.labels?_ofRows _ rows
  features := by
    rw [Dataset.rowList_ofRows]
    exact List.map_congr_left fun row member => ofFn_getD (sized row member)
  columns := Dataset.columns_ofRows _ _

/-! Gathering. -/

/-- What has been gathered of a table. -/
structure Progress where
  values : Array Single
  labels : Array Single
  /-- The features of the first row. -/
  width? : Option Nat

namespace Progress

def start : Progress := ⟨#[], #[], none⟩

def add (progress : Progress) (row : Single × Array Single) : Progress :=
  ⟨progress.values ++ row.2, progress.labels.push row.1,
    some (progress.width?.getD row.2.size)⟩

/-- What has been gathered when these are the rows that were read. -/
def of (rows : List (Single × Array Single)) : Progress :=
  ⟨rowMajor rows, (rows.map Prod.fst).toArray, rows.head?.map fun row => row.2.size⟩

theorem add_of (rows : List (Single × Array Single)) (row : Single × Array Single) :
    (of rows).add row = of (rows ++ [row]) := by
  have width : (rows ++ [row]).head?.map (fun row => row.2.size) =
      some ((rows.head?.map fun row => row.2.size).getD row.2.size) := by
    cases rows <;> rfl
  unfold add of
  rw [width]
  simp [rowMajor]

theorem size_labels_of (rows : List (Single × Array Single)) :
    (of rows).labels.size = rows.length :=
  List.size_toArray.trans (List.length_map _)

theorem width?_of (rows : List (Single × Array Single)) :
    (of rows).width?.getD 0 = widthOf rows := by
  cases rows <;> rfl

end Progress

/-- Gathers the rows from here on, up to the limit. -/
def gather (path : Path) (columns : Columns) (limit width : Nat) (progress : Progress) :
    List Record → Except Fault Progress
  | [] => .ok progress
  | record :: rest =>
      if limit = 0 ∨ progress.labels.size < limit then
        match columns.row width record with
        | .error defect => .error (Published.tableFault path defect)
        | .ok row =>
            let expected := progress.width?.getD row.2.size
            if row.2.size = expected then gather path columns limit width (progress.add row) rest
            else
              .error (.parse path.text record.start.line
                s!"expected {expected} features, found {row.2.size}")
      else .ok progress

/-- The dataset in records, by way of a buffer of all values. -/
def assemble (path : Path) (columns : Columns) (limit : Nat) (records : List Record) :
    Except Fault Dataset := do
  let progress ←
    gather path columns limit (Csv.width records) .start (columns.dataRecords 0 records)
  Dataset.ofRowMajor progress.labels.size (progress.width?.getD 0) progress.values
    (some progress.labels)

/-- The records that are still to be read when so many rows have been. -/
def ahead (limit count : Nat) (records : List Record) : List Record :=
  if limit = 0 then records else records.take (limit - count)

theorem ahead_cons {limit count : Nat} (unspent : limit = 0 ∨ count < limit) (record : Record)
    (rest : List Record) :
    ahead limit count (record :: rest) = record :: ahead limit (count + 1) rest := by
  unfold ahead
  rcases unspent with none | more
  · rw [if_pos none, if_pos none]
  · have less : limit - count = limit - (count + 1) + 1 := by omega
    rw [if_neg (by omega), if_neg (by omega), less, List.take_succ_cons]

theorem ahead_of_spent {limit count : Nat} (spent : ¬ (limit = 0 ∨ count < limit))
    (records : List Record) : ahead limit count records = [] := by
  unfold ahead
  rw [if_neg (by omega), Nat.sub_eq_zero_of_le (by omega), List.take_zero]

theorem ahead_start (columns : Columns) (limit : Nat) (records : List Record) :
    ahead limit 0 (columns.dataRecords 0 records) = columns.dataRecords limit records := by
  unfold ahead Columns.dataRecords
  rw [if_pos rfl, Nat.sub_zero]

/-- All rows have as many features as the first one, so that this is never what stops. -/
theorem gather_of (path : Path) (limit : Nat) (records : List Record)
    (sized : ∀ row ∈ rows, row.2.size = columns.features width) :
    gather path columns limit width (.of rows) records =
      (((ahead limit rows.length records).mapM (columns.row width)).mapError
        (Published.tableFault path)).map fun more => .of (rows ++ more) := by
  induction records generalizing rows with
  | nil => simp [gather, ahead, pure, Except.pure, Except.mapError, Except.map]
  | cons record rest inductionHypothesis =>
      rw [gather, Progress.size_labels_of]
      by_cases unspent : limit = 0 ∨ rows.length < limit
      · rw [if_pos unspent, ahead_cons unspent, List.mapM_cons]
        cases run : columns.row width record with
        | error defect => rfl
        | ok row =>
            have size := (((columns.settles_row width record).ok_iff row).mp run).size_eq
            have expected : row.2.size = (Progress.of rows).width?.getD row.2.size := by
              cases rows with
              | nil => rfl
              | cons first rest => exact size.trans (sized first List.mem_cons_self).symm
            have sized' : ∀ other ∈ rows ++ [row], other.2.size = columns.features width :=
              List.forall_mem_append.mpr ⟨sized, List.forall_mem_singleton.mpr size⟩
            simp only [if_pos expected, Progress.add_of]
            rw [inductionHypothesis sized', List.length_append, List.length_singleton]
            simp only [List.append_assoc, List.singleton_append]
            generalize List.mapM (columns.row width) _ = outcome
            cases outcome <;> rfl
      · rw [if_neg unspent, ahead_of_spent unspent]
        simp [pure, Except.pure, Except.mapError, Except.map]

theorem dataRecords_sublist (columns : Columns) (limit : Nat) (records : List Record) :
    List.Sublist (columns.dataRecords limit records) records := by
  have below : List.Sublist (if columns.hasHeader then records.drop 1 else records) records := by
    split
    · exact List.drop_sublist 1 records
    · exact List.Sublist.refl records
  unfold Columns.dataRecords
  by_cases whole : limit = 0
  · rw [if_pos whole]
    exact below
  · rw [if_neg whole]
    exact (List.take_sublist limit _).trans below

/-- A table has no more cells than bytes. -/
theorem length_mul_le {records : List Record}
    (each : List.Forall₂ (columns.Spells width) records rows) :
    rows.length * max (widthOf rows) 1 ≤ (records.map Record.weight).sum := by
  have widths := size_eq_widthOf each
  generalize widthOf rows = size at widths
  induction each with
  | nil => exact Nat.le_of_eq (Nat.zero_mul _)
  | @cons record row records rows first _ inductionHypothesis =>
      obtain ⟨size, sizes⟩ := List.forall_mem_cons.mp widths
      have weight := first.size_le_weight
      rw [size] at weight
      rw [List.length_cons, Nat.succ_mul, List.map_cons, List.sum_cons, Nat.add_comm]
      exact Nat.add_le_add weight (inductionHypothesis sizes)

/-- The buffers of a file that can be held are as long as they may be. -/
theorem countable_of_spells {limit : Nat} {contents : Bytes} (held : contents.length < 2 ^ 63)
    (each : List.Forall₂ (columns.Spells width) (columns.dataRecords limit (records contents))
      rows) :
    max rows.length 1 * max (widthOf rows) 1 ≤ Dataset.maxEntries := by
  have cells : rows.length * max (widthOf rows) 1 < 2 ^ 63 := by
    refine Nat.lt_of_le_of_lt (length_mul_le each) (Nat.lt_of_le_of_lt ?_ held)
    refine Nat.le_trans (List.Sublist.sum_le_sum ?_ fun _ _ => Nat.zero_le _)
      (sum_weight_records contents)
    exact (dataRecords_sublist columns limit _).map Record.weight
  have height : rows.length < 2 ^ 63 := by
    refine Nat.lt_of_le_of_lt ?_ cells
    exact Nat.le_mul_of_pos_right _ (Nat.lt_of_lt_of_le Nat.one_pos (Nat.le_max_right _ _))
  have product : rows.length * widthOf rows < 2 ^ 63 :=
    Nat.lt_of_le_of_lt (Nat.mul_le_mul_left _ (Nat.le_max_left _ _)) cells
  refine Dataset.countable_of_product height product fun none => ?_
  rw [List.eq_nil_of_length_eq_zero none]
  rfl

theorem ofRecords_eq_map (columns : Columns) (limit : Nat) (records : List Record) :
    ofRecords columns limit records =
      ((columns.dataRecords limit records).mapM (columns.row (Csv.width records))).map
        fun rows => Dataset.ofRows (widthOf rows) rows.toArray := by
  unfold ofRecords
  cases (columns.dataRecords limit records).mapM (columns.row (Csv.width records)) <;> rfl

/-- The buffers have the sizes that they have to have. -/
theorem assemble_eq {contents : Bytes} (held : contents.length < 2 ^ 63) (path : Path)
    (columns : Columns) (limit : Nat) :
    assemble path columns limit (records contents) =
      (ofRecords columns limit (records contents)).mapError (Published.tableFault path) := by
  have start : Progress.start = .of [] := rfl
  rw [assemble, start, gather_of path limit _ (List.forall_mem_nil _), ofRecords_eq_map,
    List.length_nil, ahead_start]
  cases run : (columns.dataRecords limit (records contents)).mapM
      (columns.row (Csv.width (records contents))) with
  | error defect => rfl
  | ok rows =>
      have each := ((Settles.mapM (columns.settles_row _) _).ok_iff rows).mp run
      change Dataset.ofRowMajor (Progress.of rows).labels.size ((Progress.of rows).width?.getD 0)
        (rowMajor rows) (some (rows.map Prod.fst).toArray) = _
      rw [Progress.size_labels_of, Progress.width?_of]
      exact Dataset.ofRowMajor_rowMajor (size_eq_widthOf each) (countable_of_spells held each)

/-! Tables. -/

/-- What becomes of records: a dataset if all are rows, or else the fault of the first one that is
none. -/
inductive Tabulates (path : Path) (columns : Columns) (width : Nat) (records : List Record) :
    Except Fault Dataset → Prop where
  | rows {rows : List (Single × Array Single)} {dataset : Dataset}
      (each : List.Forall₂ (columns.Spells width) records rows) (isTable : IsTable rows dataset) :
      Tabulates path columns width records (.ok dataset)
  | slip {before after : List Record} {record : Record} {rows : List (Single × Array Single)}
      {defect : Defect} (parted : records = before ++ record :: after)
      (each : List.Forall₂ (columns.Spells width) before rows)
      (slips : columns.Slips width record defect) :
      Tabulates path columns width records (.error (.parse path.text defect.line defect.text))

theorem settles_ofRecords (columns : Columns) (limit : Nat) (records : List Record) :
    Settles (ofRecords columns limit records)
      (fun dataset => ∃ rows, List.Forall₂ (columns.Spells (Csv.width records))
          (columns.dataRecords limit records) rows ∧
        dataset = Dataset.ofRows (widthOf rows) rows.toArray)
      (FirstFails (columns.Spells (Csv.width records)) (columns.Slips (Csv.width records))
        (columns.dataRecords limit records)) := by
  rw [ofRecords_eq_map]
  exact (Settles.mapM (columns.settles_row _) _).image _

theorem tabulates_ofRecords (path : Path) (columns : Columns) (limit : Nat)
    (records : List Record) :
    Tabulates path columns (Csv.width records) (columns.dataRecords limit records)
      ((ofRecords columns limit records).mapError (Published.tableFault path)) := by
  have settles := settles_ofRecords columns limit records
  cases run : ofRecords columns limit records with
  | ok dataset =>
      obtain ⟨rows, each, rfl⟩ := (settles.ok_iff dataset).mp run
      exact .rows each (isTable_ofRows (size_eq_widthOf each))
  | error defect =>
      have fails := (settles.error_iff defect).mp run
      generalize columns.dataRecords limit records = used at fails
      cases fails with
      | intro each slips => exact .slip rfl each slips

theorem exists_ofRecords_iff (columns : Columns) (limit : Nat) (records : List Record) :
    (∃ dataset, ofRecords columns limit records = .ok dataset) ↔
      ∀ record ∈ columns.dataRecords limit records,
        ∃ row, columns.Spells (Csv.width records) record row := by
  rw [← Settles.exists_mapM_iff (columns.settles_row _), ofRecords_eq_map]
  cases (columns.dataRecords limit records).mapM (columns.row (Csv.width records)) <;>
    simp [Except.map]

/-! The index. -/

/-- Records that differ in their index. -/
inductive Renumbers : Record → Record → Prop where
  | index {start start' : Cursor} {index index' : Bytes} {text text' : List Char}
      (spelled : Spelled index text) (spelled' : Spelled index' text') (fields : List Bytes) :
      Renumbers ⟨start, index :: fields⟩ ⟨start', index' :: fields⟩

theorem Renumbers.symm {record record' : Record} (renumbers : Renumbers record record') :
    Renumbers record' record := by
  cases renumbers with
  | index spelled spelled' fields => exact .index spelled' spelled fields

theorem Renumbers.spells {record record' : Record} (renumbers : Renumbers record record')
    (hasIndex : columns.hasIndex = true) (spells : columns.Spells width record row) :
    columns.Spells width record' row := by
  cases renumbers with
  | index spelled spelled' fields =>
      obtain ⟨equal, decoded, numbers⟩ := spells
      cases decoded with
      | cons _ decoded =>
          refine .numbers equal (.cons spelled' decoded) ?_
          rw [Columns.behindIndex, if_pos hasIndex] at numbers ⊢
          exact numbers

theorem Renumbers.row_eq {record record' : Record} (renumbers : Renumbers record record')
    (hasIndex : columns.hasIndex = true) (start : record'.start = record.start) :
    columns.row width record' = columns.row width record := by
  cases renumbers with
  | @index start' _ index index' text text' spelled spelled' fields =>
      cases start
      rw [Spelled] at spelled spelled'
      have same : (index' :: fields).length = (index :: fields).length := rfl
      by_cases equal : (index :: fields).length = width
      · rw [Columns.row_eq columns equal, Columns.row_eq columns (same.trans equal)]
        simp only [texts, spelled, spelled', Columns.behindIndex, if_pos hasIndex,
          Columns.textStart]
        generalize texts _ _ fields = others
        cases others <;> rfl
      · unfold Columns.row
        rw [if_pos equal, if_pos (same ▸ equal)]
        rfl

theorem ofRecords_eq_ok_of_renumbers {limit : Nat} {records records' : List Record}
    (hasIndex : columns.hasIndex = true) (widths : Csv.width records' = Csv.width records)
    (renumbers : List.Forall₂ Renumbers (columns.dataRecords limit records)
      (columns.dataRecords limit records')) {dataset : Dataset}
    (run : ofRecords columns limit records = .ok dataset) :
    ofRecords columns limit records' = .ok dataset := by
  obtain ⟨rows, each, rfl⟩ := ((settles_ofRecords columns limit records).ok_iff dataset).mp run
  refine ((settles_ofRecords columns limit records').ok_iff _).mpr ⟨rows, ?_, rfl⟩
  rw [widths]
  generalize columns.dataRecords limit records = used at renumbers each
  generalize columns.dataRecords limit records' = used' at renumbers
  clear run
  induction renumbers generalizing rows with
  | nil => exact each
  | cons first _ inductionHypothesis =>
      cases each with
      | cons head tail => exact .cons (first.spells hasIndex head) (inductionHypothesis _ tail)

theorem ofRecords_eq_of_renumbers {limit : Nat} {records records' : List Record}
    (hasIndex : columns.hasIndex = true) (widths : Csv.width records' = Csv.width records)
    (renumbers : List.Forall₂ (fun record record' => Renumbers record record' ∧
        record'.start = record.start) (columns.dataRecords limit records)
      (columns.dataRecords limit records')) :
    ofRecords columns limit records' = ofRecords columns limit records := by
  rw [ofRecords_eq_map, ofRecords_eq_map, widths]
  congr 1
  apply mapM_congr_of_forall₂
  exact renumbers.imp fun record record' both => both.1.row_eq hasIndex both.2

/-- Exactly the tables whose records are rows can be read, and every cell of one stands in its own
row and column.  Whatever is wrong with another one is a fault of its text, and what stands in the
index does not count. -/
theorem reads_table {path : Path} {world : World} {contents : Bytes}
    (stored : world.store.read path = .ok contents) (columns : Columns) (limit : Nat) :
    let found := records contents
    let used := columns.dataRecords limit found
    let run := (Published.readTable columns limit path).run.run world
    ((∃ dataset, run.1 = .ok dataset) ↔
        ∀ record ∈ used, ∃ row, columns.Spells (Csv.width found) record row) ∧
      Tabulates path columns (Csv.width found) used run.1 ∧
      (used = [] → ∃ dataset, run.1 = .ok dataset ∧ dataset.rows = 0 ∧ dataset.columns = 0 ∧
        dataset.labels? = some #[]) ∧
      (contents.length < 2 ^ 63 → run = (assemble path columns limit found, world)) ∧
      (columns.hasIndex = true → ∀ world' contents', world'.store.read path = .ok contents' →
        let found' := records contents'
        let used' := columns.dataRecords limit found'
        let run' := (Published.readTable columns limit path).run.run world'
        Csv.width found' = Csv.width found →
          (List.Forall₂ Renumbers used used' →
            ∀ dataset, run.1 = .ok dataset ↔ run'.1 = .ok dataset) ∧
          (List.Forall₂ (fun record record' => Renumbers record record' ∧
            record'.start = record.start) used used' → run'.1 = run.1)) := by
  intro found used run
  have read : run =
      ((ofRecords columns limit found).mapError (Published.tableFault path), world) :=
    Published.run_readTable stored columns limit
  rw [read]
  refine ⟨?_, tabulates_ofRecords path columns limit found, ?_, ?_, ?_⟩
  · rw [← exists_ofRecords_iff]
    exact exists_congr fun _ => mapError_eq_ok_iff
  · intro none
    refine ⟨Dataset.ofRows 0 #[], ?_, rfl, rfl, rfl⟩
    rw [ofRecords_eq_map, show columns.dataRecords limit found = [] from none]
    rfl
  · intro held
    rw [assemble_eq held]
  · intro hasIndex world' contents' stored' found' used' run' widths
    have read' : run' =
        ((ofRecords columns limit found').mapError (Published.tableFault path), world') :=
      Published.run_readTable stored' columns limit
    rw [read']
    constructor
    · intro renumbers dataset
      rw [mapError_eq_ok_iff, mapError_eq_ok_iff]
      exact ⟨ofRecords_eq_ok_of_renumbers hasIndex widths renumbers,
        ofRecords_eq_ok_of_renumbers hasIndex widths.symm
          (renumbers.flip.imp fun _ _ => Renumbers.symm)⟩
    · intro renumbers
      rw [ofRecords_eq_of_renumbers hasIndex widths renumbers]

/-- The names "i", "a" and "y", and a record with an index, a blank and a number. -/
def numbered (index : UInt8) : Bytes :=
  [0x69, 0x2C, 0x61, 0x2C, 0x79, 0x0A, index, 0x2C, 0x2C, 0x32, 0x0A]

/-- An index that is no number does not matter, and a blank feature is not-a-number. -/
theorem reads_table_of_named_index :
    ∃ dataset,
      ((Published.readTable ⟨true, true, false⟩ 0 (.ofString "rows")).run.run
        (Published.holding (numbered 0x31))).1 = .ok dataset ∧
      ((Published.readTable ⟨true, true, false⟩ 0 (.ofString "rows")).run.run
        (Published.holding (numbered 0x78))).1 = .ok dataset ∧
      dataset.rows = 1 ∧ dataset.columns = 1 ∧
      dataset.features.rowList = [#[Single.ofBits 0x7FC00000]] ∧
      assemble (.ofString "rows") ⟨true, true, false⟩ 0 (records (numbered 0x31)) =
        .ok dataset := by
  obtain ⟨_, _, _, assembled, renumbered⟩ := reads_table
    (by rfl : (Published.holding (numbered 0x31)).store.read (.ofString "rows") =
      .ok (numbered 0x31))
    ⟨true, true, false⟩ 0
  have number : Spelled [0x31] ['1'] := rfl
  have name : Spelled [0x78] ['x'] := rfl
  have indices := (renumbered rfl (Published.holding (numbered 0x78)) (numbered 0x78) rfl rfl).1
    (.cons (.index number name _) .nil)
  obtain ⟨dataset, read, rows, columns, features⟩ : ∃ dataset,
      ((Published.readTable ⟨true, true, false⟩ 0 (.ofString "rows")).run.run
        (Published.holding (numbered 0x31))).1 = .ok dataset ∧
      dataset.rows = 1 ∧ dataset.columns = 1 ∧
      dataset.features.rowList = [#[Single.ofBits 0x7FC00000]] := ⟨_, rfl, rfl, rfl, rfl⟩
  refine ⟨dataset, read, (indices dataset).mp read, rows, columns, features, ?_⟩
  exact (congrArg Prod.fst (assembled (by decide))).symm.trans read

end DatasetDepot.Csv
