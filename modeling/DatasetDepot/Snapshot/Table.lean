import DatasetDepot.Dataset
import DatasetDepot.Snapshot.Format

/-!
Datasets as tables.

A table has a column of single precision numbers per feature and, for labels, one more
at its end.  It is read back batch by batch, and how its rows are cut into batches does
not show; only that a table without rows may have no batch at all, so that nothing is wrong
with its columns.
-/

namespace DatasetDepot.Snapshot

/-- The name of the column that holds labels. -/
def labelName : String := "label"

/-- Why a file is no snapshot. -/
inductive Defect where
  | unreadable (reason : String)
  | wrongType (column type : String)
  | missingCells (column : String)
  deriving DecidableEq, Repr

def Defect.text : Defect → String
  | .unreadable reason => reason
  | .wrongType column type => s!"column `{column}` has type {type}"
  | .missingCells column => s!"column `{column}` contains nulls"

/-- The table of a dataset. -/
def tableOf (dataset : Dataset) : Frame :=
  let features := Frame.ofMatrix dataset.features fun column => s!"f{column}"
  match labelled : dataset.labels? with
  | none => features
  | some labels => features.addColumn labelName labels (dataset.aligned labels labelled)

/-- The numbers in a column, none of which may be missing. -/
def numbers (column : Column) : Except Defect (Array Single) :=
  match column.cells.series? with
  | none => .error (.wrongType column.name column.cells.typeName)
  | some series =>
      if column.cells.hasMissing then .error (.missingCells column.name)
      else .ok series.toValues

/-- Features, column by column, and labels. -/
structure Gathered where
  features : List (Array Single)
  labels : Array Single

namespace Gathered

/-- Nothing yet, for columns of these names. -/
def empty (names : List String) : Gathered :=
  ⟨(names.filter (· ≠ labelName)).map fun _ => #[], #[]⟩

/-- Adds the rows of a batch at the end. -/
def append (gathered : Gathered) (batch : Frame) : Except Defect Gathered := do
  let columns ← batch.columns.mapM fun column => do return (column.name, ← numbers column)
  let features := (columns.filter (·.1 ≠ labelName)).map Prod.snd
  let labels := (columns.filter (·.1 = labelName)).map Prod.snd
  return ⟨gathered.features.zipWith (· ++ ·) features, labels.foldl (· ++ ·) gathered.labels⟩

/-- The rows: those of the first feature, or of the labels where there is none. -/
def rows (gathered : Gathered) : Nat :=
  match gathered.features with
  | [] => gathered.labels.size
  | first :: _ => first.size

def matrix (gathered : Gathered) : Matrix :=
  let features := gathered.features.toArray
  Matrix.ofFn .rowMajor gathered.rows features.size fun row column =>
    features[column].getD row 0

end Gathered

/-- The dataset in the batches of a table whose columns have these names. -/
def ofBatches (names : List String) (batches : List Frame) :
    Except Defect (Except Fault Dataset) := do
  let gathered ← batches.foldlM Gathered.append (Gathered.empty names)
  return Dataset.ofParts gathered.matrix
    (if labelName ∈ names then some gathered.labels else none)

/-- The dataset in what a file reads as.  Where reading breaks off, there is none. -/
def ofReading (reading : TableReading) : Except Defect (Except Fault Dataset) :=
  match reading.failure? with
  | none => ofBatches reading.names reading.batches
  | some reason => do
      let _ ← reading.batches.foldlM Gathered.append (Gathered.empty reading.names)
      throw (.unreadable reason)

/-- The dataset in a table. -/
def ofTable (table : Frame) : Except Defect (Except Fault Dataset) :=
  ofReading (.ofTable table)

end DatasetDepot.Snapshot
