import DatasetDepot.Numeric.Single

/-!
Dense matrices of single precision numbers.

A matrix keeps its entries in one buffer, row by row or column by column.
`Matrix.entry` is the view every operation goes through, so that the storage order
never shows in a result; `Matrix.ofFn` builds a matrix from its entries in either
order.
-/

namespace DatasetDepot

/-- How entries follow one another in memory. -/
inductive Order where
  | rowMajor
  | columnMajor
  deriving DecidableEq, Repr

namespace Order

/-- The place of an entry in the buffer. -/
def place (order : Order) (rows columns row column : Nat) : Nat :=
  match order with
  | .rowMajor => row * columns + column
  | .columnMajor => column * rows + row

theorem place_lt (order : Order) {rows columns row column : Nat}
    (rowInside : row < rows) (columnInside : column < columns) :
    order.place rows columns row column < rows * columns := by
  cases order with
  | rowMajor =>
      calc row * columns + column < row * columns + columns := by omega
        _ = (row + 1) * columns := by rw [Nat.succ_mul]
        _ ≤ rows * columns := Nat.mul_le_mul_right _ rowInside
  | columnMajor =>
      calc column * rows + row < column * rows + rows := by omega
        _ = (column + 1) * rows := by rw [Nat.succ_mul]
        _ ≤ columns * rows := Nat.mul_le_mul_right _ columnInside
        _ = rows * columns := Nat.mul_comm _ _

/-- The lane and the place within it: entries of one lane are neighbours. -/
def lane {lanes width : Nat} (place : Fin (lanes * width)) : Fin lanes :=
  ⟨place.val / width, Nat.div_lt_of_lt_mul (Nat.mul_comm lanes width ▸ place.isLt)⟩

def within {lanes width : Nat} (place : Fin (lanes * width)) : Fin width :=
  ⟨place.val % width, Nat.mod_lt _ (Nat.pos_of_ne_zero fun empty => by
    have inside := place.isLt
    simp [empty] at inside)⟩

end Order

/-- A dense matrix. -/
structure Matrix where
  rows : Nat
  columns : Nat
  order : Order
  buffer : Array Single
  size_buffer : buffer.size = rows * columns

namespace Matrix

/-- The entry in a row and a column. -/
def entry (matrix : Matrix) (row : Fin matrix.rows) (column : Fin matrix.columns) : Single :=
  getElem matrix.buffer (matrix.order.place matrix.rows matrix.columns row column) (by
    rw [matrix.size_buffer]
    exact matrix.order.place_lt row.isLt column.isLt)

/-- The matrix with these entries. -/
def ofFn (order : Order) (rows columns : Nat) (entry : Fin rows → Fin columns → Single) :
    Matrix where
  rows := rows
  columns := columns
  order := order
  buffer :=
    match order with
    | .rowMajor =>
        Array.ofFn fun place : Fin (rows * columns) => entry (Order.lane place) (Order.within place)
    | .columnMajor =>
        Array.ofFn fun place : Fin (columns * rows) => entry (Order.within place) (Order.lane place)
  size_buffer := by
    cases order with
    | rowMajor => simp
    | columnMajor => simp [Nat.mul_comm]

@[simp]
theorem rows_ofFn (order : Order) (rows columns : Nat) (entry : Fin rows → Fin columns → Single) :
    (ofFn order rows columns entry).rows = rows := rfl

@[simp]
theorem columns_ofFn (order : Order) (rows columns : Nat)
    (entry : Fin rows → Fin columns → Single) :
    (ofFn order rows columns entry).columns = columns := rfl

@[simp]
theorem order_ofFn (order : Order) (rows columns : Nat)
    (entry : Fin rows → Fin columns → Single) :
    (ofFn order rows columns entry).order = order := rfl

/-- A matrix reads back the entries it was built from. -/
@[simp]
theorem entry_ofFn (order : Order) {rows columns : Nat}
    (entries : Fin rows → Fin columns → Single) (row : Fin rows) (column : Fin columns) :
    (ofFn order rows columns entries).entry row column = entries row column := by
  have columnsPositive : 0 < columns := Nat.lt_of_le_of_lt (Nat.zero_le _) column.isLt
  have rowsPositive : 0 < rows := Nat.lt_of_le_of_lt (Nat.zero_le _) row.isLt
  cases order with
  | rowMajor =>
      simp only [entry, ofFn, Order.place, Array.getElem_ofFn]
      congr 1
      · apply Fin.ext
        simp only [Order.lane]
        rw [Nat.mul_comm, Nat.mul_add_div columnsPositive, Nat.div_eq_of_lt column.isLt,
          Nat.add_zero]
      · apply Fin.ext
        simp only [Order.within]
        rw [Nat.mul_comm, Nat.mul_add_mod, Nat.mod_eq_of_lt column.isLt]
  | columnMajor =>
      simp only [entry, ofFn, Order.place, Array.getElem_ofFn]
      congr 1
      · apply Fin.ext
        simp only [Order.within]
        rw [Nat.mul_comm, Nat.mul_add_mod, Nat.mod_eq_of_lt row.isLt]
      · apply Fin.ext
        simp only [Order.lane]
        rw [Nat.mul_comm, Nat.mul_add_div rowsPositive, Nat.div_eq_of_lt row.isLt, Nat.add_zero]

/-- A matrix over a buffer that already has the right size. -/
def ofBuffer? (order : Order) (rows columns : Nat) (buffer : Array Single) : Option Matrix :=
  if size : buffer.size = rows * columns then some ⟨rows, columns, order, buffer, size⟩ else none

/-- The same entries, stored in this order. -/
def reorder (order : Order) (matrix : Matrix) : Matrix :=
  ofFn order matrix.rows matrix.columns matrix.entry

/-- All entries, row by row. -/
def entries (matrix : Matrix) : Array Single :=
  (matrix.reorder .rowMajor).buffer

/-- The entries of one row. -/
def row (matrix : Matrix) (row : Fin matrix.rows) : Array Single :=
  Array.ofFn (matrix.entry row)

/-- The entries of one column. -/
def column (matrix : Matrix) (column : Fin matrix.columns) : Array Single :=
  Array.ofFn fun row => matrix.entry row column

/-- Rows become columns. -/
def transpose (matrix : Matrix) : Matrix :=
  ofFn matrix.order matrix.columns matrix.rows fun row column => matrix.entry column row

/-- These rows, in this order. -/
def selectRows (matrix : Matrix) (chosen : Array (Fin matrix.rows)) : Matrix :=
  ofFn .rowMajor chosen.size matrix.columns fun row column => matrix.entry chosen[row] column

/-- The leading rows and columns, as many as there are. -/
def crop (matrix : Matrix) (rows columns : Nat) : Matrix :=
  ofFn .rowMajor (min rows matrix.rows) (min columns matrix.columns) fun row column =>
    matrix.entry ⟨row, by omega⟩ ⟨column, by omega⟩

/-- A vector as the only row. -/
def ofRow (values : Array Single) : Matrix :=
  ofFn .rowMajor 1 values.size fun _ column => values[column]

/-- Columns of one height, side by side. -/
def ofColumns (rows : Nat) (columns : Array (Array Single))
    (heights : ∀ column ∈ columns, column.size = rows) : Matrix :=
  ofFn .rowMajor rows columns.size fun row column =>
    getElem columns[column] row.val (by
      have height := heights columns[column] (Array.getElem_mem column.isLt)
      exact Nat.lt_of_lt_of_eq row.isLt height.symm)

end Matrix

end DatasetDepot
