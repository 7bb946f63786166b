import DatasetDepot.Proofs.Outcome
import DatasetDepot.Proofs.Snapshot.Batches

/-!
Which tables are accepted.

A batch is only taken if its columns are plain, and each row of a table is in some batch.  Main
statement: a table with rows is accepted exactly if its columns are plain and its labels, if
there are other columns, are a single column; a table without rows is accepted whatever its
columns are.  Several columns of labels are taken for one, batch after batch.
-/

namespace DatasetDepot

namespace Snapshot

theorem isPlain_of_named_eq_ok {column : Column} {result : String × Array Single}
    (read : named column = .ok result) : column.IsPlain := by
  obtain ⟨values, found, _⟩ := exists_of_bind_eq_ok read
  exact ⟨values, numbers_eq_ok_iff.mp found⟩

/-- Gathering only gets past plain columns. -/
theorem isPlain_of_foldlM_eq_ok {batches : List Frame} {gathered after : Gathered}
    (run : batches.foldlM Gathered.append gathered = .ok after) :
    ∀ batch ∈ batches, ∀ column ∈ batch.columns, column.IsPlain := by
  induction batches generalizing gathered with
  | nil =>
      intro batch member
      cases member
  | cons first rest inductionHypothesis =>
      rw [List.foldlM_cons, Gathered.append_eq] at run
      obtain ⟨middle, taken, run⟩ := exists_of_bind_eq_ok run
      obtain ⟨results, read, _⟩ := exists_of_bind_eq_ok taken
      intro batch member column present
      rcases List.mem_cons.mp member with rfl | member
      · obtain ⟨result, named⟩ := exists_of_mapM_eq_ok read column present
        exact isPlain_of_named_eq_ok named
      · exact inductionHypothesis run batch member column present

theorem isPlain_of_slices {column : Column} (some : 0 < column.cells.size)
    (covered : ∀ row < column.cells.size, ∃ start count, start ≤ row ∧ row < start + count ∧
      ({ column with cells := column.cells.slice start count } : Column).IsPlain) :
    column.IsPlain := by
  obtain ⟨name, cells⟩ := column
  cases cells with
  | float32 series =>
      refine ⟨series.toValues, congrArg Cells.float32 (Series.ofValues_toValues ?_).symm⟩
      apply Array.any_eq_false.mpr
      intro row inside
      obtain ⟨start, count, above, below, values, same⟩ := covered row inside
      have whole : (series.extract start (start + count)).any Option.isNone = false := by
        rw [Cells.float32.inj same]
        exact Series.any_isNone_ofValues values
      have cell := Array.any_eq_false.mp whole (row - start) (by
        rw [Array.size_extract]
        omega)
      simpa only [Array.getElem_extract, Nat.add_sub_of_le above] using cell
  | float64 | int32 | utf8 | boolean | other =>
      obtain ⟨_, _, _, _, _, same⟩ := covered 0 some
      cases same

end Snapshot

open Snapshot

namespace Column

/-- The numbers of a column, none if it is not of single precision. -/
def values (column : Column) : Array Single :=
  (column.cells.series?.map Series.toValues).getD #[]

theorem size_values {column : Column} (readable : column.cells.size = 0 ∨ column.IsPlain) :
    column.values.size = column.cells.size := by
  obtain ⟨name, cells⟩ := column
  cases cells with
  | float32 series => simp [values, Cells.series?, Cells.size, Series.toValues]
  | float64 | int32 | utf8 | boolean | other =>
      rcases readable with none | ⟨_, same⟩
      · exact none.symm
      · cases same

theorem eq_plainColumn {column : Column} (plain : column.IsPlain) :
    column = Frame.plainColumn column.name column.values := by
  obtain ⟨name, cells⟩ := column
  obtain ⟨values, rfl : cells = _⟩ := plain
  simp [Frame.plainColumn, Column.values, Cells.series?]

end Column

namespace Frame

/-- The columns by name, with their numbers. -/
def numbered (table : Frame) : List (String × Array Single) :=
  table.columns.map fun column => (column.name, column.values)

theorem numbered_ofPlain (rows : Nat) (columns : List (String × Array Single))
    (sizes : ∀ column ∈ columns, column.2.size = rows) :
    (ofPlain rows columns sizes).numbered = columns := by
  simp [numbered, ofPlain, plainColumn, Column.values, Cells.series?, Function.comp_def]

/-- A table whose columns read as plain, be it only because no row shows that they are not. -/
def IsReadable (table : Frame) : Prop :=
  table.rows = 0 ∨ ∀ column ∈ table.columns, column.IsPlain

theorem IsReadable.size {table : Frame} (readable : table.IsReadable) :
    ∀ column ∈ table.numbered, column.2.size = table.rows := by
  intro column member
  obtain ⟨whole, present, rfl⟩ := List.mem_map.mp member
  have height := table.heights whole present
  refine (Column.size_values ?_).trans height
  rcases readable with none | plain
  · exact .inl (height.trans none)
  · exact .inr (plain whole present)

theorem columns_eq {table : Frame} (plain : ∀ column ∈ table.columns, column.IsPlain) :
    table.columns = table.numbered.map fun column => plainColumn column.1 column.2 := by
  rw [numbered, List.map_map]
  calc table.columns = table.columns.map id := (List.map_id _).symm
    _ = _ := List.map_congr_left fun column member => Column.eq_plainColumn (plain column member)

theorem eq_ofPlain {table : Frame} (plain : ∀ column ∈ table.columns, column.IsPlain) :
    ofPlain table.rows table.numbered (IsReadable.size (.inr plain)) = table :=
  eq_of_columns rfl (columns_eq plain).symm

theorem IsReadable.isCut {table : Frame} (readable : table.IsReadable) {batches : List Frame}
    (cut : table.IsCut batches) :
    (ofPlain table.rows table.numbered readable.size).IsCut batches := by
  rcases readable with none | plain
  · obtain ⟨counts, total, nothing, rfl⟩ := cut
    obtain rfl : counts = [] := nothing none
    exact ⟨[], total, fun _ => rfl, rfl⟩
  · rw [eq_ofPlain plain]
    exact cut

end Frame

namespace Snapshot

/-- How many columns are labels. -/
def labelCount (table : Frame) : Nat :=
  table.columns.countP fun column => column.name = labelName

theorem length_labelsOf_numbered (table : Frame) :
    (labelsOf table.numbered).length = labelCount table := by
  simp [labelsOf, Frame.numbered, labelCount, List.filter_map, List.countP_eq_length_filter,
    Function.comp_def]

theorem featuresOf_numbered_eq_nil_iff (table : Frame) :
    featuresOf table.numbered = [] ↔ ∀ column ∈ table.columns, column.name = labelName := by
  simp [featuresOf, Frame.numbered]

theorem names_numbered (table : Frame) :
    table.numbered.map Prod.fst = table.columns.map Column.name := by
  simp [Frame.numbered]

/-- Reading batch by batch only gets past tables that read as plain. -/
theorem isReadable_of_foldlM {table : Frame} {batches : List Frame} (cut : table.IsCut batches)
    {gathered after : Gathered} (run : batches.foldlM Gathered.append gathered = .ok after) :
    table.IsReadable := by
  by_cases none : table.rows = 0
  · exact .inl none
  · obtain ⟨counts, total, _, rfl⟩ := cut
    refine .inr fun column member => ?_
    have height := table.heights column member
    apply isPlain_of_slices (by omega)
    intro row inside
    have inside' : row < 0 + counts.sum := by omega
    obtain ⟨start, count, above, below, batch⟩ :=
      Frame.exists_batch_of_row table (Nat.zero_le row) inside'
    exact ⟨start, count, above, below,
      isPlain_of_foldlM_eq_ok run _ batch _ (List.mem_map_of_mem member)⟩

theorem isReadable_of_ofBatches {table : Frame} {batches : List Frame} (cut : table.IsCut batches)
    {names : List String} {dataset : Except Fault Dataset}
    (accepted : ofBatches names batches = .ok dataset) : table.IsReadable := by
  obtain ⟨gathered, run, _⟩ := exists_of_bind_eq_ok accepted
  exact isReadable_of_foldlM cut run

theorem exists_ofBatches_iff {table : Frame} {batches : List Frame} (cut : table.IsCut batches) :
    (∃ dataset, ofBatches (table.columns.map Column.name) batches = .ok (.ok dataset)) ↔
      table.rows = 0 ∨ (∀ column ∈ table.columns, column.IsPlain) ∧
        (labelCount table ≤ 1 ∨ ∀ column ∈ table.columns, column.name = labelName) := by
  rw [← names_numbered]
  constructor
  · rintro ⟨dataset, accepted⟩
    have readable := isReadable_of_ofBatches cut accepted
    have shape := (exists_ofBatches_ofPlain_iff readable.size (readable.isCut cut)).mp
      ⟨dataset, accepted⟩
    rw [length_labelsOf_numbered, featuresOf_numbered_eq_nil_iff] at shape
    rcases readable with none | plain
    · exact .inl none
    · exact shape.imp_right fun shape => ⟨plain, shape⟩
  · intro shape
    have readable : table.IsReadable := shape.imp_right And.left
    apply (exists_ofBatches_ofPlain_iff readable.size (readable.isCut cut)).mpr
    rw [length_labelsOf_numbered, featuresOf_numbered_eq_nil_iff]
    exact shape.imp_right And.right

theorem reads_of_ofBatches {table : Frame} {batches : List Frame} (some : table.columns ≠ [])
    (cut : table.IsCut batches) (few : labelCount table ≤ 1) {dataset : Dataset}
    (accepted : ofBatches (table.columns.map Column.name) batches = .ok (.ok dataset)) :
    Reads table.numbered table.rows dataset := by
  have readable := isReadable_of_ofBatches cut accepted
  have told : table.numbered = [] → table.rows = 0 := fun nothing =>
    absurd (List.map_eq_nil_iff.mp nothing) some
  obtain ⟨other, same, reads⟩ := reads_ofBatches_ofPlain readable.size (readable.isCut cut)
    (by rwa [length_labelsOf_numbered]) told
  rw [names_numbered, accepted] at same
  cases same
  exact reads

/-- The labels in batches: in each, one column of them behind another. -/
def piled (batches : List Frame) : Array Single :=
  (batches.flatMap fun batch => labelsOf batch.numbered).foldl (· ++ ·) #[]

theorem eq_of_named_eq_ok {column : Column} {result : String × Array Single}
    (read : named column = .ok result) : result = (column.name, column.values) := by
  rw [Column.eq_plainColumn (isPlain_of_named_eq_ok read), named_plainColumn] at read
  exact (Except.ok.inj read).symm

theorem eq_of_mapM_named_eq_ok {columns : List Column} {results : List (String × Array Single)}
    (read : columns.mapM named = .ok results) :
    results = columns.map fun column => (column.name, column.values) := by
  have each := (mapM_eq_ok_iff.mp read).imp fun _ _ named => (eq_of_named_eq_ok named).symm
  rw [← List.forall₂_map_left_iff, List.forall₂_eq_eq_eq] at each
  exact each.symm

theorem labels_of_foldlM {batches : List Frame} {gathered after : Gathered}
    (run : batches.foldlM Gathered.append gathered = .ok after) :
    after.labels =
      (batches.flatMap fun batch => labelsOf batch.numbered).foldl (· ++ ·) gathered.labels := by
  induction batches generalizing gathered with
  | nil =>
      obtain rfl := Except.ok.inj run
      rfl
  | cons first rest inductionHypothesis =>
      rw [List.foldlM_cons, Gathered.append_eq] at run
      obtain ⟨middle, taken, run⟩ := exists_of_bind_eq_ok run
      obtain ⟨results, read, made⟩ := exists_of_bind_eq_ok taken
      obtain rfl := eq_of_mapM_named_eq_ok read
      obtain rfl := Except.ok.inj made
      rw [inductionHypothesis run, List.flatMap_cons, List.foldl_append]
      rfl

/-- A dataset with these features and all columns of labels, which have its rows between them.  Next
to features there are none. -/
structure Piles (table : Frame) (batches : List Frame) (dataset : Dataset) : Prop where
  rows : dataset.rows = labelCount table * table.rows
  features : dataset.features.columnList = featuresOf table.numbered
  labels : dataset.labels? = some (piled batches)

theorem piles_of_ofBatches {table : Frame} {batches : List Frame} (cut : table.IsCut batches)
    (several : 2 ≤ labelCount table) {dataset : Dataset}
    (accepted : ofBatches (table.columns.map Column.name) batches = .ok (.ok dataset)) :
    Piles table batches dataset := by
  have readable := isReadable_of_ofBatches cut accepted
  have shape := (exists_ofBatches_iff cut).mp ⟨dataset, accepted⟩
  obtain ⟨whole, holds, same⟩ := ofBatches_ofPlain readable.size (readable.isCut cut)
  rw [names_numbered, accepted, Except.ok.injEq, eq_comm, Dataset.ofParts_eq_ok_iff] at same
  obtain ⟨gathered, run, paired⟩ := exists_of_bind_eq_ok accepted
  obtain ⟨-, labels⟩ := Dataset.ofParts_eq_ok_iff.mp (Except.ok.inj paired)
  have labelled : labelName ∈ table.columns.map Column.name := by
    rw [← names_numbered, labelName_mem_iff, ← List.length_pos_iff, length_labelsOf_numbered]
    exact Nat.zero_lt_of_lt several
  constructor
  · have height : dataset.rows = whole.rows := congrArg Matrix.rows same.1
    rw [height, holds.rows_eq readable.size, length_labelsOf_numbered]
    rcases shape with none | ⟨-, few | bare⟩
    · simp [none]
    · omega
    · rw [if_pos ((featuresOf_numbered_eq_nil_iff table).mpr bare)]
  · rw [same.1]
    exact holds.columnList_eq readable.size
  · rw [labels, if_pos labelled, labels_of_foldlM run]
    rfl

/-- Which tables are accepted, and as what.  A table without rows is accepted whatever its
columns are, and several columns of labels are where nothing else tells the number of rows. -/
theorem accepts_iff {table : Frame} {batches : List Frame} (some : table.columns ≠ [])
    (cut : table.IsCut batches) :
    ((∃ dataset, ofBatches (table.columns.map Column.name) batches = .ok (.ok dataset)) ↔
      table.rows = 0 ∨ (∀ column ∈ table.columns, column.IsPlain) ∧
        (labelCount table ≤ 1 ∨ ∀ column ∈ table.columns, column.name = labelName)) ∧
      ∀ dataset, ofBatches (table.columns.map Column.name) batches = .ok (.ok dataset) →
        (labelCount table ≤ 1 → Reads table.numbered table.rows dataset) ∧
        (2 ≤ labelCount table → Piles table batches dataset) :=
  ⟨exists_ofBatches_iff cut, fun _ accepted =>
    ⟨fun few => reads_of_ofBatches some cut few accepted,
      fun several => piles_of_ofBatches cut several accepted⟩⟩

/-- Two rows in two batches, with their labels in front. -/
theorem accepts_iff_two_rows :
    let table := Frame.ofPlain 2 [(labelName, #[1, 2]), ("f0", #[3, 4])] (by decide)
    table.columns ≠ [] ∧ table.IsCut (table.cut 0 [1, 1]) ∧
      ∃ dataset, ofBatches [labelName, "f0"] (table.cut 0 [1, 1]) = .ok (.ok dataset) ∧
        dataset.rows = 2 ∧ dataset.features.columnList = [#[3, 4]] ∧
        dataset.labels? = some #[1, 2] := by
  intro table
  have some : table.columns ≠ [] := List.cons_ne_nil _ _
  have cut : table.IsCut (table.cut 0 [1, 1]) :=
    ⟨[1, 1], rfl, fun none => absurd none (Nat.succ_ne_zero 1), rfl⟩
  have plain : ∀ column ∈ table.columns, column.IsPlain := by
    intro column member
    obtain ⟨named, _, rfl⟩ := List.mem_map.mp member
    exact ⟨named.2, rfl⟩
  have few : labelCount table ≤ 1 := by decide
  obtain ⟨accepted, reading⟩ := accepts_iff some cut
  obtain ⟨dataset, read⟩ := accepted.mpr (.inr ⟨plain, .inl few⟩)
  have reads := (reading dataset read).1 few
  refine ⟨some, cut, dataset, read, reads.rows, ?_, ?_⟩
  · rw [reads.features, Frame.numbered_ofPlain]
    decide
  · rw [reads.labels, Frame.numbered_ofPlain]
    decide

/-- A column of text without rows is accepted. -/
theorem accepts_text_without_rows :
    let table : Frame := ⟨0, [⟨"f0", .utf8 #[]⟩], by simp [Cells.size]⟩
    table.IsCut (batches table) ∧ (∃ dataset, ofTable table = .ok (.ok dataset)) ∧
      ¬ ∀ column ∈ table.columns, column.IsPlain := by
  intro table
  have cut := isCut_batches table
  refine ⟨cut, (exists_ofBatches_iff cut).mpr (.inl rfl), ?_⟩
  intro plain
  obtain ⟨_, same⟩ := plain _ List.mem_cons_self
  cases same

end Snapshot

end DatasetDepot
