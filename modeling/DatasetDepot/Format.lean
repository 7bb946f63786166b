import DatasetDepot.Fault

/-!
The formats data can be asked for in.
-/

namespace DatasetDepot

inductive Format where
  | numpy
  | cudf
  | pandas
  | gpuarray
  | gpuarrayC
  | sparseCsr
  | sparseCsc
  deriving DecidableEq, Repr

namespace Format

/-- Every format, in the order they are listed. -/
def all : List Format :=
  [.numpy, .cudf, .pandas, .gpuarray, .gpuarrayC, .sparseCsr, .sparseCsc]

theorem mem_all (format : Format) : format ∈ all := by
  cases format <;> decide

/-- The name a format is asked for by. -/
def name : Format → String
  | .numpy => "numpy"
  | .cudf => "cudf"
  | .pandas => "pandas"
  | .gpuarray => "gpuarray"
  | .gpuarrayC => "gpuarray-c"
  | .sparseCsr => "scipy-sparse-csr"
  | .sparseCsc => "scipy-sparse-csc"

/-- The format with this name. -/
def ofName (name : String) : Except Fault Format :=
  match all.find? fun format => format.name = name with
  | some format => .ok format
  | none => .error (.unknownFormat name)

end Format

end DatasetDepot
