import DatasetDepot.Matrix
import DatasetDepot.Numeric.Double

/-!
Series and frames: typed columns whose cells may be missing.

A frame has a number of rows of its own, so that one without columns still has
rows.  A frame whose columns are all single precision reads as a matrix, missing
cells as not-a-number.
-/

namespace DatasetDepot

/-- What single precision cells hold, by the name of their type. -/
abbrev Float32 := Single

/-- Single precision cells, `none` where one is missing. -/
abbrev Series := Array (Option Float32)

/-- What a missing cell reads as. -/
def missing : Single := Single.ofBits 0x7FC00000

namespace Series

/-- A series without missing cells. -/
def ofValues (values : Array Single) : Series :=
  values.map some

/-- The cells, missing ones filled. -/
def toValues (series : Series) : Array Single :=
  series.map fun cell => cell.getD missing

end Series

/-- The cells of a column, all of one type. -/
inductive Cells where
  | float32 (cells : Series)
  | float64 (cells : Array (Option Double))
  | int32 (cells : Array (Option Int32))
  | utf8 (cells : Array (Option String))
  | boolean (cells : Array (Option Bool))
  /-- Of a type that nothing is done with: its name, and which cells are missing. -/
  | other (type : String) (missing : Array Bool)

namespace Cells

/-- The name of the cells' type. -/
def typeName : Cells → String
  | .float32 _ => "Float32"
  | .float64 _ => "Float64"
  | .int32 _ => "Int32"
  | .utf8 _ => "Utf8"
  | .boolean _ => "Boolean"
  | .other type _ => type

def size : Cells → Nat
  | .float32 cells => cells.size
  | .float64 cells => cells.size
  | .int32 cells => cells.size
  | .utf8 cells => cells.size
  | .boolean cells => cells.size
  | .other _ missing => missing.size

/-- Whether a cell is missing. -/
def hasMissing : Cells → Bool
  | .float32 cells => cells.any Option.isNone
  | .float64 cells => cells.any Option.isNone
  | .int32 cells => cells.any Option.isNone
  | .utf8 cells => cells.any Option.isNone
  | .boolean cells => cells.any Option.isNone
  | .other _ missing => missing.any id

/-- The single precision cells, if that is their type. -/
def series? : Cells → Option Series
  | .float32 cells => some cells
  | _ => none

/-- The cells from `first` on, as many as `count` or as there are. -/
def slice (cells : Cells) (first count : Nat) : Cells :=
  match cells with
  | .float32 cells => .float32 (cells.extract first (first + count))
  | .float64 cells => .float64 (cells.extract first (first + count))
  | .int32 cells => .int32 (cells.extract first (first + count))
  | .utf8 cells => .utf8 (cells.extract first (first + count))
  | .boolean cells => .boolean (cells.extract first (first + count))
  | .other type missing => .other type (missing.extract first (first + count))

theorem size_slice (cells : Cells) (first count : Nat) :
    (cells.slice first count).size = min (first + count) cells.size - first := by
  cases cells <;> simp [slice, size]

end Cells

/-- A named column. -/
structure Column where
  name : String
  cells : Cells

/-- Columns of one height, side by side. -/
structure Frame where
  rows : Nat
  columns : List Column
  heights : ∀ column ∈ columns, column.cells.size = rows

namespace Frame

/-- A frame over columns that already have one height. -/
def ofColumns? (rows : Nat) (columns : List Column) : Option Frame :=
  if heights : ∀ column ∈ columns, column.cells.size = rows then
    some ⟨rows, columns, heights⟩
  else none

/-- A column without missing cells. -/
def plainColumn (name : String) (values : Array Single) : Column :=
  ⟨name, .float32 (Series.ofValues values)⟩

/-- The columns of a matrix under these names. -/
def ofMatrix (matrix : Matrix) (name : Nat → String) : Frame where
  rows := matrix.rows
  columns := (List.finRange matrix.columns).map fun (column : Fin matrix.columns) =>
    plainColumn (name column) (matrix.column column)
  heights := by
    intro column present
    obtain ⟨place, _, rfl⟩ := List.mem_map.mp present
    simp [plainColumn, Cells.size, Series.ofValues, Matrix.column]

/-- A frame and one more column at its end. -/
def addColumn (frame : Frame) (name : String) (values : Array Single)
    (height : values.size = frame.rows) : Frame where
  rows := frame.rows
  columns := frame.columns ++ [plainColumn name values]
  heights := by
    intro column present
    rcases List.mem_append.mp present with present | present
    · exact frame.heights column present
    · rw [List.mem_singleton.mp present]
      simpa [plainColumn, Cells.size, Series.ofValues] using height

/-- The values of the columns, if all are single precision. -/
def values? (frame : Frame) : Option (List (Array Single)) :=
  frame.columns.mapM fun column => column.cells.series?.map Series.toValues

theorem height_of_values {columns : List Column} {values : List (Array Single)} {rows : Nat}
    (heights : ∀ column ∈ columns, column.cells.size = rows)
    (found : columns.mapM (fun column => column.cells.series?.map Series.toValues) = some values) :
    ∀ column ∈ values, column.size = rows := by
  induction columns generalizing values with
  | nil =>
      simp only [List.mapM_nil, Option.pure_def, Option.some.injEq] at found
      subst found
      simp
  | cons first rest inductionHypothesis =>
      simp only [List.mapM_cons, Option.pure_def, Option.bind_eq_bind, Option.bind_eq_some_iff,
        Option.map_eq_some_iff, Option.some.injEq] at found
      obtain ⟨_, ⟨series, isSeries, rfl⟩, others, othersFound, rfl⟩ := found
      intro column present
      rcases List.mem_cons.mp present with rfl | present
      · have height := heights first List.mem_cons_self
        cases cells : first.cells with
        | float32 plain =>
            rw [cells] at isSeries height
            simp only [Cells.series?, Option.some.injEq] at isSeries
            subst isSeries
            simpa [Series.toValues, Cells.size] using height
        | float64 | int32 | utf8 | boolean | other =>
            rw [cells] at isSeries
            simp [Cells.series?] at isSeries
      · exact inductionHypothesis
          (fun column member => heights column (List.mem_cons_of_mem _ member)) othersFound column
          present

/-- The frame as a matrix, if all its columns are single precision. -/
def toMatrix? (frame : Frame) : Option Matrix :=
  match found : frame.values? with
  | none => none
  | some values =>
      some (Matrix.ofColumns frame.rows values.toArray (by
        intro column present
        exact height_of_values frame.heights found column (by simpa using present)))

/-- The rows from `first` on, as many as `count` or as there are. -/
def slice (frame : Frame) (first count : Nat) : Frame where
  rows := min (first + count) frame.rows - first
  columns := frame.columns.map fun column => { column with cells := column.cells.slice first count }
  heights := by
    intro column present
    obtain ⟨whole, member, rfl⟩ := List.mem_map.mp present
    rw [Cells.size_slice, frame.heights whole member]

end Frame

end DatasetDepot
