import DatasetDepot.Value

/-!
What a value holds, apart from how it is represented.

`Value.contents?` reads a matrix, a frame, an array for a device or a compressed matrix
as a table of rows, and a vector or a series as a list.  Frames and series only read as
such when every cell is a single precision number that is there.  The main statements say
that neither the storage order of a matrix nor the step from a matrix to a frame shows in
the contents.
-/

namespace DatasetDepot

/-- A table by its rows, or a list of numbers.  A table keeps its width when it has no
rows. -/
inductive Contents where
  | table (columns : Nat) (rows : List (Array Single))
  | vector (entries : List Single)

namespace Contents

def rows? : Contents → Option (List (Array Single))
  | .table _ rows => some rows
  | .vector _ => none

def entries? : Contents → Option (List Single)
  | .table _ _ => none
  | .vector entries => some entries

end Contents

namespace Matrix

def rowList (matrix : Matrix) : List (Array Single) :=
  (List.finRange matrix.rows).map matrix.row

def columnList (matrix : Matrix) : List (Array Single) :=
  (List.finRange matrix.columns).map matrix.column

def contents (matrix : Matrix) : Contents :=
  .table matrix.columns matrix.rowList

@[simp]
theorem entry_reorder (order : Order) (matrix : Matrix) (row : Fin matrix.rows)
    (column : Fin matrix.columns) :
    (matrix.reorder order).entry row column = matrix.entry row column :=
  entry_ofFn order matrix.entry row column

theorem row_ofFn (order : Order) {rows columns : Nat}
    (entries : Fin rows → Fin columns → Single) (row : Fin rows) :
    (ofFn order rows columns entries).row row = Array.ofFn (entries row) := by
  unfold Matrix.row
  congr 1
  funext column
  exact entry_ofFn order entries row column

theorem contents_ofFn (order : Order) {rows columns : Nat}
    (entries : Fin rows → Fin columns → Single) :
    (ofFn order rows columns entries).contents =
      .table columns ((List.finRange rows).map fun row => Array.ofFn (entries row)) := by
  unfold contents rowList
  congr 1
  apply List.map_congr_left
  intro row _
  exact row_ofFn order entries row

theorem column_ofFn (order : Order) {rows columns : Nat}
    (entries : Fin rows → Fin columns → Single) (column : Fin columns) :
    (ofFn order rows columns entries).column column = Array.ofFn fun row => entries row column := by
  unfold Matrix.column
  congr 1
  funext row
  exact entry_ofFn order entries row column

theorem columnList_ofFn (order : Order) {rows columns : Nat}
    (entries : Fin rows → Fin columns → Single) :
    (ofFn order rows columns entries).columnList =
      (List.finRange columns).map fun column => Array.ofFn fun row => entries row column := by
  unfold columnList
  apply List.map_congr_left
  intro column _
  exact column_ofFn order entries column

/-- A matrix is told by its height and its columns, apart from how it is stored. -/
theorem contents_eq_of_columnList {left right : Matrix} (rows : left.rows = right.rows)
    (columns : left.columnList = right.columnList) : left.contents = right.contents := by
  obtain ⟨leftRows, width, leftOrder, leftBuffer, leftSize⟩ := left
  obtain ⟨height, rightColumns, rightOrder, rightBuffer, rightSize⟩ := right
  obtain rfl : leftRows = height := rows
  obtain rfl : width = rightColumns := by
    simpa [columnList] using congrArg List.length columns
  have each : ∀ column,
      (⟨leftRows, width, leftOrder, leftBuffer, leftSize⟩ : Matrix).column column =
      (⟨leftRows, width, rightOrder, rightBuffer, rightSize⟩ : Matrix).column column := by
    intro column
    exact List.map_inj_left.mp columns column (List.mem_finRange column)
  unfold contents rowList
  congr 1
  apply List.map_congr_left
  intro row _
  unfold Matrix.row
  congr 1
  funext column
  have entry := congrArg (fun values : Array Single => values[row.val]?) (each column)
  simpa [Matrix.column] using entry

/-- The storage order does not show in the contents. -/
@[simp]
theorem contents_reorder (order : Order) (matrix : Matrix) :
    (matrix.reorder order).contents = matrix.contents :=
  contents_ofFn order matrix.entry

/-- The leading rows and columns, as many as there are. -/
theorem contents_crop (matrix : Matrix) (rows columns : Nat) :
    (matrix.crop rows columns).contents =
      .table (min columns matrix.columns)
        ((matrix.rowList.take rows).map fun row => row.take columns) := by
  unfold crop
  rw [contents_ofFn]
  congr 1
  apply List.ext_getElem
  · simp [rowList]
  · intro place inside inside'
    apply Array.ext
    · simp [rowList, Matrix.row]
    · intro column _ _
      simp [rowList, Matrix.row]

theorem columns_eq_of_contents {left right : Matrix} (same : left.contents = right.contents) :
    left.columns = right.columns := by
  injection same

theorem rows_eq_of_contents {left right : Matrix} (same : left.contents = right.contents) :
    left.rows = right.rows := by
  injection same with _ each
  simpa [rowList] using congrArg List.length each

/-- What is made of the entries of a matrix is made of its contents. -/
theorem congr_of_contents {Result : Type}
    (make : (rows columns : Nat) → (Fin rows → Fin columns → Single) → Result)
    {left right : Matrix} (same : left.contents = right.contents) :
    make left.rows left.columns left.entry = make right.rows right.columns right.entry := by
  have sameRows := rows_eq_of_contents same
  have sameColumns := columns_eq_of_contents same
  obtain ⟨height, width, leftOrder, leftBuffer, leftSize⟩ := left
  obtain ⟨rightRows, rightColumns, rightOrder, rightBuffer, rightSize⟩ := right
  obtain rfl : height = rightRows := sameRows
  obtain rfl : width = rightColumns := sameColumns
  injection same with _ each
  have entries : (⟨height, width, leftOrder, leftBuffer, leftSize⟩ : Matrix).entry =
      (⟨height, width, rightOrder, rightBuffer, rightSize⟩ : Matrix).entry := by
    funext row column
    have rows := List.map_inj_left.mp each row (List.mem_finRange row)
    have entry := congrArg (fun values : Array Single => values[column.val]?) rows
    simpa [Matrix.row] using entry
  rw [entries]

theorem crop_eq_of_contents {left right : Matrix} (same : left.contents = right.contents)
    (rows columns : Nat) : left.crop rows columns = right.crop rows columns :=
  congr_of_contents (fun height width entry =>
    ofFn .rowMajor (min rows height) (min columns width) fun row column =>
      entry ⟨row, by omega⟩ ⟨column, by omega⟩) same

theorem contents_selectRows (matrix : Matrix) (chosen : Array (Fin matrix.rows)) :
    (matrix.selectRows chosen).contents =
      .table matrix.columns (chosen.toList.map matrix.row) := by
  unfold selectRows
  rw [contents_ofFn]
  congr 1
  apply List.ext_getElem
  · simp
  · intro place _ _
    simp [Matrix.row]

end Matrix

/-- The numbers of a column, if all cells are single precision and none is missing. -/
def Cells.numbers? (cells : Cells) : Option (Array Single) :=
  if cells.hasMissing then none else cells.series?.map Series.toValues

/-- The rows of a frame, if every column consists of numbers. -/
def Frame.contents? (frame : Frame) : Option Contents :=
  (frame.columns.mapM fun (column : Column) => column.cells.numbers?).map fun columns =>
    .table columns.length ((List.range frame.rows).map fun row =>
      (columns.map fun column => column.getD row 0).toArray)

namespace Value

/-- What a value holds.  A frame or a series with missing cells does not read as numbers. -/
def contents? : Value → Option Contents
  | .matrix dense => some dense.contents
  | .vector entries => some (.vector entries.toList)
  | .frame table => table.contents?
  | .series cells => (Cells.float32 cells).numbers?.map fun entries => .vector entries.toList
  | .device (.matrix dense) => some dense.contents
  | .device (.vector entries) => some (.vector entries.toList)
  | .sparse packed => some packed.toDense.contents

end Value

@[simp]
theorem Series.toValues_ofValues (values : Array Single) :
    Series.toValues (Series.ofValues values) = values := by
  simp [toValues, ofValues, Function.comp_def]

@[simp]
theorem Cells.numbers?_ofValues (values : Array Single) :
    (Cells.float32 (Series.ofValues values)).numbers? = some values := by
  have present : (Cells.float32 (Series.ofValues values)).hasMissing = false := by
    simp [Cells.hasMissing, Series.ofValues]
  simp [numbers?, present, series?]

/-- A frame made of a matrix reads as that matrix. -/
theorem Frame.contents?_ofMatrix (matrix : Matrix) (name : Nat → String) :
    (Frame.ofMatrix matrix name).contents? = some matrix.contents := by
  have columns : (Frame.ofMatrix matrix name).columns.mapM
      (fun (column : Column) => column.cells.numbers?) =
      some ((List.finRange matrix.columns).map matrix.column) := by
    simp only [Frame.ofMatrix, List.mapM_map, plainColumn, Function.comp_def,
      Cells.numbers?_ofValues]
    exact List.mapM_pure
  unfold contents? Matrix.contents
  rw [columns, Option.map_some, List.length_map, List.length_finRange]
  congr 2
  apply List.ext_getElem
  · simp [Matrix.rowList, Frame.ofMatrix]
  · intro row _ inside
    have below : row < matrix.rows := by simpa [Matrix.rowList] using inside
    apply Array.ext
    · simp [Matrix.rowList, Matrix.row]
    · intro column _ _
      simp [Matrix.rowList, Matrix.row, Matrix.column, below]

end DatasetDepot
