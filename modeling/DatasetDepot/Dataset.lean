import DatasetDepot.Fault
import DatasetDepot.Matrix
import DatasetDepot.Numeric.Literal

/-!
Datasets: a feature matrix, one row per sample, and perhaps one label per row.
-/

namespace DatasetDepot

structure Dataset where
  features : Matrix
  labels? : Option (Array Single)
  aligned : ∀ labels ∈ labels?, labels.size = features.rows

namespace Dataset

def rows (dataset : Dataset) : Nat := dataset.features.rows

def columns (dataset : Dataset) : Nat := dataset.features.columns

/-- Pairs features with labels; there has to be one label per row. -/
def ofParts (features : Matrix) (labels? : Option (Array Single)) : Except Fault Dataset :=
  match labels? with
  | none => .ok ⟨features, none, by simp⟩
  | some labels =>
      if aligned : labels.size = features.rows then
        .ok ⟨features, some labels, by simpa using aligned⟩
      else .error (.shapeMismatch features.rows labels.size)

/-- The greatest number of entries a buffer can have. -/
def maxEntries : Nat := Nat.pow 2 63 - 1

/-- A dataset from values that run row by row.  A side of length zero does not make
the other side free: the product of the sides that are not zero is bounded. -/
def ofRowMajor (rows columns : Nat) (values : Array Single)
    (labels? : Option (Array Single)) : Except Fault Dataset :=
  if max rows 1 * max columns 1 ≤ maxEntries then
    match Matrix.ofBuffer? .rowMajor rows columns values with
    | some features => ofParts features labels?
    | none => .error (.shapeMismatch (min (rows * columns) Numeric.maxCount) values.size)
  else .error (.shapeMismatch (min (rows * columns) Numeric.maxCount) values.size)

/-- A dataset with one label per row. -/
def labelled (features : Matrix) (label : Fin features.rows → Single) : Dataset where
  features := features
  labels? := some (Array.ofFn label)
  aligned := by
    intro labels present
    rw [← Option.mem_some.mp present, Array.size_ofFn]

/-- A dataset from rows with their labels; entries past the end of a row are zero. -/
def ofRows (width : Nat) (rows : Array (Single × Array Single)) : Dataset :=
  labelled
    (Matrix.ofFn .rowMajor rows.size width fun row column => rows[row].2.getD column 0)
    fun row => rows[row].1

/-- The leading rows and columns, as many as there are, with their labels. -/
def crop (dataset : Dataset) (rows columns : Nat) : Dataset where
  features := dataset.features.crop rows columns
  labels? := dataset.labels?.map fun labels => labels.extract 0 (min rows dataset.rows)
  aligned := by
    intro labels present
    obtain ⟨whole, member, rfl⟩ := Option.map_eq_some_iff.mp present
    have size := dataset.aligned whole member
    simp only [Array.size_extract, size, Matrix.crop, Matrix.rows_ofFn, Dataset.rows]
    omega

end Dataset

end DatasetDepot
