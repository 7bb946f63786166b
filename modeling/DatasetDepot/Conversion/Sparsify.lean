import DatasetDepot.Random.Sample
import DatasetDepot.Share
import DatasetDepot.Value

/-!
Sparse representations of dense data.

A random share of the entries is overwritten with zero before the rest is
compressed.  The places are chosen row by row from the number of entries alone.
-/

namespace DatasetDepot.Sparsify

/-- The places of `size` entries that are overwritten. -/
def places (size : Nat) (ratio : Double) : Drawing (List (Fin size)) :=
  Drawing.selection size (Share.ofSize Rounding.toNearest size ratio.shareValue)
    (Nat.min_le_right _ _)

/-- The entries with zero at these places. -/
def erase (entries : Array Single) (places : List (Fin entries.size)) : Array Single :=
  let marks := places.foldl (fun marks place => marks.setIfInBounds place.val true)
    (Array.replicate entries.size false)
  entries.mapIdx fun place entry => if marks.getD place false then 0 else entry

theorem size_erase (entries : Array Single) (places : List (Fin entries.size)) :
    (erase entries places).size = entries.size := by
  simp [erase]

/-- A matrix with the entries at these places of its rows, one after the other, erased. -/
def erased (dense : Matrix) (places : List (Fin (dense.reorder .rowMajor).buffer.size)) :
    Matrix where
  rows := dense.rows
  columns := dense.columns
  order := .rowMajor
  buffer := erase (dense.reorder .rowMajor).buffer places
  size_buffer := by
    rw [size_erase]
    exact (dense.reorder .rowMajor).size_buffer

/-- A matrix with a random share of its entries overwritten. -/
def matrix (dense : Matrix) (ratio : Double) : Drawing Matrix := do
  return erased dense (← places (dense.reorder .rowMajor).buffer.size ratio)

/-- The sparse representation of a matrix. -/
def compress (layout : Layout) (ratio : Double) (dense : Matrix) : Drawing Value := do
  return .sparse (Compressed.ofDense layout (← matrix dense ratio))

end DatasetDepot.Sparsify
