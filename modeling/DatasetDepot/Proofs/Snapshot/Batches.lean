import DatasetDepot.Proofs.Contents
import DatasetDepot.Snapshot.Table
import Mathlib.Algebra.GroupWithZero.Nat

/-!
Tables read batch by batch.

Gathering keeps one invariant: after each batch, what was gathered are the leading rows of
every feature, and of the labels if there is one column of them.  It stops at the first
batch with a column that is not plain.  Main statement: a table of plain columns reads as its
features and its labels, however its rows are cut, exactly if the labels, where there are
features, are a single column.
-/

namespace DatasetDepot

/-- Single precision numbers, none of them missing. -/
def Column.IsPlain (column : Column) : Prop :=
  ∃ values, column.cells = .float32 (Series.ofValues values)

namespace Series

theorem ofValues_toValues {series : Series} (whole : series.any Option.isNone = false) :
    ofValues series.toValues = series := by
  apply Array.ext
  · simp [ofValues, toValues]
  · intro place _ inside
    have present : series[place] ≠ none := by
      have each := Array.any_eq_false.mp whole place inside
      simpa using each
    obtain ⟨value, found⟩ := Option.ne_none_iff_exists'.mp present
    simp [ofValues, toValues, found]

theorem any_isNone_ofValues (values : Array Single) :
    (ofValues values).any Option.isNone = false := by
  simp [ofValues]

end Series

namespace Frame

/-- The rows of a table in consecutive batches of these sizes, from a row on. -/
def cut (table : Frame) : Nat → List Nat → List Frame
  | _, [] => []
  | first, count :: counts => table.slice first count :: cut table (first + count) counts

/-- The batches a reader makes of a table: consecutive ones with all its rows, and none of a
table without rows. -/
def IsCut (table : Frame) (batches : List Frame) : Prop :=
  ∃ counts : List Nat, counts.sum = table.rows ∧ (table.rows = 0 → counts = []) ∧
    batches = table.cut 0 counts

theorem eq_of_columns {left right : Frame} (rows : left.rows = right.rows)
    (columns : left.columns = right.columns) : left = right := by
  obtain ⟨leftRows, leftColumns, _⟩ := left
  obtain ⟨rightRows, rightColumns, _⟩ := right
  obtain rfl : leftRows = rightRows := rows
  obtain rfl : leftColumns = rightColumns := columns
  rfl

theorem slice_congr {table : Frame} {first count other : Nat}
    (same : min count (table.rows - first) = min other (table.rows - first)) :
    table.slice first count = table.slice first other := by
  have cells : ∀ column ∈ table.columns,
      column.cells.slice first count = column.cells.slice first other := by
    intro column member
    have height := table.heights column member
    cases present : column.cells with
    | float32 | float64 | int32 | utf8 | boolean | other =>
        rw [present] at height
        simp only [Cells.slice]
        congr 1
        rw [Array.extract_eq_extract_right]
        simp only [Cells.size] at height
        omega
  apply eq_of_columns
  · simp only [slice]
    omega
  · apply List.map_congr_left
    intro column member
    rw [cells column member]

/-- The table of plain columns. -/
def ofPlain (rows : Nat) (columns : List (String × Array Single))
    (sizes : ∀ column ∈ columns, column.2.size = rows) : Frame where
  rows := rows
  columns := columns.map fun column => plainColumn column.1 column.2
  heights := by
    intro column present
    obtain ⟨plain, member, rfl⟩ := List.mem_map.mp present
    simpa [plainColumn, Cells.size, Series.ofValues] using sizes plain member

theorem exists_batch_of_row (table : Frame) {first : Nat} {counts : List Nat} {row : Nat}
    (above : first ≤ row) (below : row < first + counts.sum) :
    ∃ start count, start ≤ row ∧ row < start + count ∧
      table.slice start count ∈ table.cut first counts := by
  induction counts generalizing first with
  | nil =>
      simp only [List.sum_nil] at below
      omega
  | cons count counts inductionHypothesis =>
      by_cases inside : row < first + count
      · exact ⟨first, count, above, inside, List.mem_cons_self⟩
      · rw [List.sum_cons] at below
        obtain ⟨start, size, lower, upper, member⟩ :=
          inductionHypothesis (Nat.not_lt.mp inside) (by omega)
        exact ⟨start, size, lower, upper, List.mem_cons_of_mem _ member⟩

end Frame

theorem Dataset.ofParts_eq_ok_iff {features : Matrix} {labels? : Option (Array Single)}
    {dataset : Dataset} :
    ofParts features labels? = .ok dataset ↔
      dataset.features = features ∧ dataset.labels? = labels? := by
  obtain ⟨kept, keptLabels?, aligned⟩ := dataset
  cases labels? with
  | none => simp [ofParts, eq_comm]
  | some labels =>
      by_cases fits : labels.size = features.rows
      · simp [ofParts, fits, eq_comm]
      · simp only [ofParts, dif_neg fits, reduceCtorEq, false_iff, not_and]
        rintro rfl rfl
        exact fits (aligned labels rfl)

theorem Dataset.exists_ofParts_iff {features : Matrix} {labels : Array Single} :
    (∃ dataset, ofParts features (some labels) = .ok dataset) ↔ labels.size = features.rows := by
  constructor
  · rintro ⟨dataset, paired⟩
    obtain ⟨rfl, same⟩ := ofParts_eq_ok_iff.mp paired
    exact dataset.aligned labels same
  · intro fits
    exact ⟨_, dif_pos fits⟩

namespace Snapshot

/-- The sizes of full batches of a table, but for the end of the last one. -/
def batchSizes (rows : Nat) : Nat → Nat → List Nat
  | _, 0 => []
  | batch, more + 1 =>
      min batchRows (rows - batch * batchRows) :: batchSizes rows (batch + 1) more

theorem sum_batchSizes {rows batch more : Nat} (enough : rows ≤ (batch + more) * batchRows) :
    (batchSizes rows batch more).sum = rows - batch * batchRows := by
  induction more generalizing batch with
  | zero => exact (Nat.sub_eq_zero_of_le enough).symm
  | succ more inductionHypothesis =>
      rw [batchSizes, List.sum_cons, inductionHypothesis (by rwa [Nat.succ_add_eq_add_succ])]
      simp only [batchRows]
      omega

theorem cut_batchSizes {table : Frame} {batch more first : Nat}
    (tight : (batch + more) * batchRows < table.rows + batchRows)
    (start : more = 0 ∨ first = batch * batchRows) :
    table.cut first (batchSizes table.rows batch more) =
      (List.range' batch more).map fun batch => table.slice (batch * batchRows) batchRows := by
  induction more generalizing batch first with
  | zero => rfl
  | succ more inductionHypothesis =>
      obtain rfl : first = batch * batchRows := start.resolve_left (Nat.succ_ne_zero more)
      rw [batchSizes, Frame.cut, List.range'_succ, List.map_cons]
      congr 1
      · apply Frame.slice_congr
        omega
      · apply inductionHypothesis (by rwa [Nat.succ_add_eq_add_succ])
        simp only [batchRows] at tight ⊢
        omega

theorem isCut_batches (table : Frame) : table.IsCut (batches table) := by
  refine ⟨batchSizes table.rows 0 ((table.rows + batchRows - 1) / batchRows), ?_, ?_, ?_⟩
  · rw [sum_batchSizes, Nat.zero_mul, Nat.sub_zero]
    simp only [batchRows]
    omega
  · intro none
    rw [none]
    rfl
  · rw [batches, List.range_eq_range', cut_batchSizes]
    · simp only [batchRows]
      omega
    · exact .inr (Nat.zero_mul _).symm

theorem numbers_eq_ok_iff {column : Column} {values : Array Single} :
    numbers column = .ok values ↔ column.cells = .float32 (Series.ofValues values) := by
  obtain ⟨name, cells⟩ := column
  cases cells with
  | float32 series =>
      by_cases whole : series.any Option.isNone = true
      · have lost : Cells.float32 series ≠ .float32 (Series.ofValues values) := by
          intro same
          rw [Cells.float32.inj same, Series.any_isNone_ofValues] at whole
          cases whole
        simp [numbers, Cells.series?, Cells.hasMissing, whole, lost]
      · have read : numbers ⟨name, .float32 series⟩ = .ok series.toValues := by
          simp [numbers, Cells.series?, Cells.hasMissing, whole]
        have filled := Series.ofValues_toValues (Bool.eq_false_iff.mpr whole)
        rw [read, Except.ok.injEq, Cells.float32.injEq]
        constructor
        · rintro rfl
          exact filled.symm
        · rintro rfl
          exact Series.toValues_ofValues values
  | float64 | int32 | utf8 | boolean | other => simp [numbers, Cells.series?]

def named (column : Column) : Except Defect (String × Array Single) := do
  return (column.name, ← numbers column)

theorem named_plainColumn (name : String) (values : Array Single) :
    named (Frame.plainColumn name values) = .ok (name, values) := by
  have plain : numbers (Frame.plainColumn name values) = .ok values := numbers_eq_ok_iff.mpr rfl
  unfold named
  rw [plain]
  rfl

/-- The numbers of the columns that are no labels. -/
def featuresOf (columns : List (String × Array Single)) : List (Array Single) :=
  (columns.filter (·.1 ≠ labelName)).map Prod.snd

/-- The numbers of the columns that are labels. -/
def labelsOf (columns : List (String × Array Single)) : List (Array Single) :=
  (columns.filter (·.1 = labelName)).map Prod.snd

/-- The rows from `first` on, as many as `count`. -/
def part (first count : Nat) (values : Array Single) : Array Single :=
  values.extract first (first + count)

theorem mem_featuresOf_iff {columns : List (String × Array Single)} {values : Array Single} :
    values ∈ featuresOf columns ↔ ∃ name, name ≠ labelName ∧ (name, values) ∈ columns := by
  simp [featuresOf, and_comm]

theorem mem_labelsOf_iff {columns : List (String × Array Single)} {values : Array Single} :
    values ∈ labelsOf columns ↔ (labelName, values) ∈ columns := by
  simp [labelsOf]

theorem eq_nil_of_featuresOf_of_labelsOf {columns : List (String × Array Single)}
    (bare : featuresOf columns = []) (unlabelled : labelsOf columns = []) : columns = [] := by
  apply List.eq_nil_iff_forall_not_mem.mpr
  rintro ⟨name, values⟩ member
  by_cases label : name = labelName
  · have kept : values ∈ labelsOf columns := mem_labelsOf_iff.mpr (label ▸ member)
    simp [unlabelled] at kept
  · have kept : values ∈ featuresOf columns := mem_featuresOf_iff.mpr ⟨name, label, member⟩
    simp [bare] at kept

theorem featuresOf_part (columns : List (String × Array Single)) (first count : Nat) :
    featuresOf (columns.map fun column => (column.1, part first count column.2)) =
      (featuresOf columns).map (part first count) := by
  simp [featuresOf, List.filter_map, Function.comp_def]

theorem labelsOf_part (columns : List (String × Array Single)) (first count : Nat) :
    labelsOf (columns.map fun column => (column.1, part first count column.2)) =
      (labelsOf columns).map (part first count) := by
  simp [labelsOf, List.filter_map, Function.comp_def]

theorem part_append_part (values : Array Single) (first count : Nat) :
    part 0 first values ++ part first count values = part 0 (first + count) values := by
  simp [part, Array.extract_append_extract]

theorem part_whole {values : Array Single} {rows : Nat} (size : values.size = rows) :
    part 0 rows values = values := by
  rw [part, Nat.zero_add, ← size, Array.extract_size]

theorem size_part {values : Array Single} {rows first count : Nat} (size : values.size = rows)
    (inside : first + count ≤ rows) : (part first count values).size = count := by
  simp only [part, Array.size_extract]
  omega

section Gathering

variable {rows : Nat} {columns : List (String × Array Single)}
  (sizes : ∀ column ∈ columns, column.2.size = rows)

include sizes in
theorem size_of_mem_featuresOf {values : Array Single} (member : values ∈ featuresOf columns) :
    values.size = rows := by
  obtain ⟨name, _, present⟩ := mem_featuresOf_iff.mp member
  exact sizes (name, values) present

include sizes in
theorem size_of_mem_labelsOf {values : Array Single} (member : values ∈ labelsOf columns) :
    values.size = rows :=
  sizes (labelName, values) (mem_labelsOf_iff.mp member)

theorem columns_slice_ofPlain (first count : Nat) :
    ((Frame.ofPlain rows columns sizes).slice first count).columns =
      columns.map fun column => Frame.plainColumn column.1 (part first count column.2) := by
  simp [Frame.ofPlain, Frame.slice, Frame.plainColumn, Cells.slice, Series.ofValues, part,
    Function.comp_def]

namespace Gathered

/-- The leading rows of plain columns, as many as `count`. -/
structure Holds (columns : List (String × Array Single)) (count : Nat) (gathered : Gathered) :
    Prop where
  features : gathered.features = (featuresOf columns).map (part 0 count)
  size_labels : gathered.labels.size = (labelsOf columns).length * count
  labels : ∀ only, labelsOf columns = [only] → gathered.labels = part 0 count only

theorem holds_empty (columns : List (String × Array Single)) :
    Holds columns 0 (empty (columns.map Prod.fst)) where
  features := by
    simp [empty, featuresOf, part, List.filter_map, Function.comp_def]
  size_labels := rfl
  labels := by
    intro only _
    simp [empty, part]

theorem append_eq (gathered : Gathered) (batch : Frame) :
    gathered.append batch = (batch.columns.mapM named).bind fun columns =>
      .ok ⟨gathered.features.zipWith (· ++ ·) (featuresOf columns),
        (labelsOf columns).foldl (· ++ ·) gathered.labels⟩ := rfl

theorem append_ofPlain (gathered : Gathered) (first count : Nat) :
    gathered.append ((Frame.ofPlain rows columns sizes).slice first count) =
      .ok ⟨gathered.features.zipWith (· ++ ·) ((featuresOf columns).map (part first count)),
        ((labelsOf columns).map (part first count)).foldl (· ++ ·) gathered.labels⟩ := by
  have read : ((Frame.ofPlain rows columns sizes).slice first count).columns.mapM named =
      .ok (columns.map fun column => (column.1, part first count column.2)) := by
    rw [columns_slice_ofPlain, List.mapM_map]
    simp only [Function.comp_def, named_plainColumn]
    exact List.mapM_pure
  rw [append_eq, read, Except.bind, featuresOf_part, labelsOf_part]

theorem size_foldl_append {batches : List (Array Single)} {count : Nat}
    (each : ∀ values ∈ batches, values.size = count) (start : Array Single) :
    (batches.foldl (· ++ ·) start).size = start.size + batches.length * count := by
  induction batches generalizing start with
  | nil => simp
  | cons values batches inductionHypothesis =>
      rw [List.foldl_cons, inductionHypothesis
        (fun other member => each other (List.mem_cons_of_mem _ member)), Array.size_append,
        each values List.mem_cons_self, List.length_cons, Nat.succ_mul]
      omega

theorem Holds.append {first count : Nat} {gathered : Gathered}
    (holds : Holds columns first gathered) (inside : first + count ≤ rows) :
    ∃ after, gathered.append ((Frame.ofPlain rows columns sizes).slice first count) = .ok after ∧
      Holds columns (first + count) after := by
  refine ⟨_, append_ofPlain sizes gathered first count, ?_, ?_, ?_⟩
  · rw [holds.features, List.zipWith_map, List.zipWith_self]
    simp only [part_append_part]
  · have each : ∀ values ∈ (labelsOf columns).map (part first count), values.size = count := by
      intro values member
      obtain ⟨whole, present, rfl⟩ := List.mem_map.mp member
      exact size_part (size_of_mem_labelsOf sizes present) inside
    simp only [size_foldl_append each, holds.size_labels, List.length_map, Nat.mul_add]
  · intro only single
    simp [single, holds.labels only single, part_append_part]

theorem Holds.foldlM {first : Nat} {counts : List Nat} {gathered : Gathered}
    (holds : Holds columns first gathered) (inside : first + counts.sum ≤ rows) :
    ∃ after, ((Frame.ofPlain rows columns sizes).cut first counts).foldlM Gathered.append gathered =
      .ok after ∧ Holds columns (first + counts.sum) after := by
  induction counts generalizing first gathered with
  | nil => exact ⟨gathered, rfl, holds⟩
  | cons count counts inductionHypothesis =>
      rw [List.sum_cons] at inside
      have fits : first + count ≤ rows := by omega
      obtain ⟨next, appended, holdsNext⟩ := holds.append sizes fits
      obtain ⟨after, run, holdsAfter⟩ := inductionHypothesis holdsNext (by omega)
      refine ⟨after, ?_, ?_⟩
      · rw [Frame.cut, List.foldlM_cons, appended]
        exact run
      · rw [List.sum_cons, ← Nat.add_assoc]
        exact holdsAfter

theorem columnList_matrix {gathered : Gathered}
    (heights : ∀ values ∈ gathered.features, values.size = gathered.rows) :
    gathered.matrix.columnList = gathered.features := by
  unfold matrix
  rw [Matrix.columnList_ofFn]
  apply List.ext_getElem
  · simp
  · intro column _ inside
    have height := heights _ (List.getElem_mem inside)
    apply Array.ext
    · simp [height]
    · intro row _ below
      simp [below]

include sizes in
theorem Holds.features_eq {gathered : Gathered} (holds : Holds columns rows gathered) :
    gathered.features = featuresOf columns := by
  rw [holds.features]
  calc (featuresOf columns).map (part 0 rows) = (featuresOf columns).map id := by
        apply List.map_congr_left
        intro values member
        exact part_whole (size_of_mem_featuresOf sizes member)
    _ = featuresOf columns := List.map_id _

include sizes in
theorem Holds.rows_eq {gathered : Gathered} (holds : Holds columns rows gathered) :
    gathered.rows = if featuresOf columns = [] then (labelsOf columns).length * rows else rows := by
  have features := holds.features_eq sizes
  unfold Gathered.rows
  cases present : featuresOf columns with
  | nil =>
      rw [features, present]
      exact holds.size_labels
  | cons first rest =>
      rw [features, present]
      exact size_of_mem_featuresOf sizes (by rw [present]; exact List.mem_cons_self)

include sizes in
theorem Holds.columnList_eq {gathered : Gathered} (holds : Holds columns rows gathered) :
    gathered.matrix.columnList = featuresOf columns := by
  have features := holds.features_eq sizes
  rw [← features]
  apply columnList_matrix
  intro values member
  rw [features] at member
  rw [holds.rows_eq sizes, if_neg (List.ne_nil_of_mem member)]
  exact size_of_mem_featuresOf sizes member

end Gathered

/-- A dataset with these columns as its features, and the column of labels if there is one. -/
structure Reads (columns : List (String × Array Single)) (rows : Nat) (dataset : Dataset) :
    Prop where
  rows : dataset.rows = rows
  features : dataset.features.columnList = featuresOf columns
  labels : dataset.labels? = (labelsOf columns).head?

theorem labelName_mem_iff : labelName ∈ columns.map Prod.fst ↔ labelsOf columns ≠ [] := by
  rw [← List.length_pos_iff, List.length_pos_iff_exists_mem]
  simp [mem_labelsOf_iff]

theorem ofBatches_ofPlain {batches : List Frame}
    (cut : (Frame.ofPlain rows columns sizes).IsCut batches) :
    ∃ gathered, Gathered.Holds columns rows gathered ∧
      ofBatches (columns.map Prod.fst) batches =
        .ok (Dataset.ofParts gathered.matrix
          (if labelsOf columns = [] then none else some gathered.labels)) := by
  obtain ⟨counts, total, _, rfl⟩ := cut
  have inside : 0 + counts.sum ≤ rows := by
    rw [Nat.zero_add]
    exact Nat.le_of_eq total
  obtain ⟨gathered, run, holds⟩ := (Gathered.holds_empty columns).foldlM sizes inside
  rw [Nat.zero_add, total] at holds
  refine ⟨gathered, holds, ?_⟩
  unfold ofBatches
  rw [run]
  simp only [labelName_mem_iff, ne_eq, ite_not]
  rfl

/-- Plain columns are accepted unless several of labels meet one that is none. -/
theorem exists_ofBatches_ofPlain_iff {batches : List Frame}
    (cut : (Frame.ofPlain rows columns sizes).IsCut batches) :
    (∃ dataset, ofBatches (columns.map Prod.fst) batches = .ok (.ok dataset)) ↔
      rows = 0 ∨ (labelsOf columns).length ≤ 1 ∨ featuresOf columns = [] := by
  obtain ⟨gathered, holds, read⟩ := ofBatches_ofPlain sizes cut
  have height : gathered.matrix.rows = gathered.rows := rfl
  rw [read]
  by_cases unlabelled : labelsOf columns = []
  · simp only [unlabelled, if_true, Except.ok.injEq, Dataset.ofParts, List.length_nil,
      Nat.zero_le, true_or, or_true, iff_true]
    exact ⟨_, rfl⟩
  · have labelled : 0 < (labelsOf columns).length := List.length_pos_iff.mpr unlabelled
    simp only [if_neg unlabelled, Except.ok.injEq]
    rw [Dataset.exists_ofParts_iff, height, holds.size_labels, holds.rows_eq sizes]
    by_cases bare : featuresOf columns = []
    · simp [bare]
    · rw [if_neg bare]
      constructor
      · intro same
        by_cases none : rows = 0
        · exact .inl none
        · exact .inr (.inl (Nat.le_of_eq ((Nat.mul_eq_right none).mp same)))
      · rintro (none | few | bare')
        · rw [none, Nat.mul_zero]
        · rw [show (labelsOf columns).length = 1 by omega, Nat.one_mul]
        · exact absurd bare' bare

theorem reads_ofBatches_ofPlain {batches : List Frame}
    (cut : (Frame.ofPlain rows columns sizes).IsCut batches)
    (few : (labelsOf columns).length ≤ 1) (told : columns = [] → rows = 0) :
    ∃ dataset, ofBatches (columns.map Prod.fst) batches = .ok (.ok dataset) ∧
      Reads columns rows dataset := by
  obtain ⟨dataset, accepted⟩ := (exists_ofBatches_ofPlain_iff sizes cut).mpr (.inr (.inl few))
  obtain ⟨gathered, holds, read⟩ := ofBatches_ofPlain sizes cut
  rw [read, Except.ok.injEq, Dataset.ofParts_eq_ok_iff] at accepted
  obtain ⟨features, labels⟩ := accepted
  refine ⟨dataset, ?_, ?_, ?_, ?_⟩
  · rw [read, Except.ok.injEq, Dataset.ofParts_eq_ok_iff]
    exact ⟨features, labels⟩
  · have height : dataset.rows = gathered.rows := congrArg Matrix.rows features
    rw [height, holds.rows_eq sizes]
    split
    · rename_i bare
      rcases Nat.le_one_iff_eq_zero_or_eq_one.mp few with unlabelled | single
      · rw [told (eq_nil_of_featuresOf_of_labelsOf bare (List.length_eq_zero_iff.mp unlabelled)),
          Nat.mul_zero]
      · rw [single, Nat.one_mul]
    · rfl
  · rw [features]
    exact holds.columnList_eq sizes
  · rw [labels]
    cases present : labelsOf columns with
    | nil => rfl
    | cons only others =>
        rw [present] at few
        obtain rfl : others = [] := List.length_eq_zero_iff.mp (by simpa using few)
        have member : only ∈ labelsOf columns := by rw [present]; exact List.mem_cons_self
        rw [if_neg (List.cons_ne_nil _ _), holds.labels only present,
          part_whole (size_of_mem_labelsOf sizes member)]
        rfl

end Gathering

end Snapshot

end DatasetDepot
