import DatasetDepot.Compressed
import DatasetDepot.Frame

/-!
The values a format can hand out, whatever their representation.
-/

namespace DatasetDepot

/-- An array laid out for a device. -/
inductive Device where
  | matrix (matrix : Matrix)
  | vector (values : Array Single)

namespace Device

/-- The layout of a matrix; a vector has none. -/
def order? : Device → Option Order
  | .matrix dense => some dense.order
  | .vector _ => none

/-- The numbers as they follow one another in memory. -/
def buffer : Device → Array Single
  | .matrix dense => dense.buffer
  | .vector entries => entries

end Device

inductive Value where
  | matrix (matrix : Matrix)
  | vector (values : Array Single)
  | frame (frame : Frame)
  | series (series : Series)
  | device (device : Device)
  | sparse (compressed : Compressed)

namespace Value

/-- The name of the representation. -/
def kind : Value → String
  | .matrix _ => "dense-matrix"
  | .vector _ => "dense-vector"
  | .frame _ => "frame"
  | .series _ => "series"
  | .device _ => "device-array"
  | .sparse packed =>
      match packed.layout with
      | .csr => "sparse-csr"
      | .csc => "sparse-csc"

/-- The rows of a table, or the length of a vector. -/
def rows : Value → Nat
  | .matrix dense => dense.rows
  | .vector entries => entries.size
  | .frame table => table.rows
  | .series cells => cells.size
  | .device (.matrix dense) => dense.rows
  | .device (.vector entries) => entries.size
  | .sparse packed => packed.rows

/-- The columns of a table; a vector has none. -/
def columns? : Value → Option Nat
  | .matrix dense => some dense.columns
  | .vector _ => none
  | .frame table => some table.columns.length
  | .series _ => none
  | .device (.matrix dense) => some dense.columns
  | .device (.vector _) => none
  | .sparse packed => some packed.columns

/-- The representation and the shape. -/
def display (value : Value) : String :=
  match value.columns? with
  | some columns => s!"{value.kind} {value.rows}x{columns}"
  | none => s!"{value.kind} {value.rows}"

end Value

end DatasetDepot
