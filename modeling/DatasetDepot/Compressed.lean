import DatasetDepot.Matrix

/-!
Compressed matrices: only the entries that are not zero are stored.

The entries of one lane, a row or a column, are stored next to each other with
their place in the lane; `indptr` says where each lane starts and ends.
-/

namespace DatasetDepot

/-- Whether the lanes are rows or columns. -/
inductive Layout where
  | csr
  | csc
  deriving DecidableEq, Repr

structure Compressed where
  layout : Layout
  rows : Nat
  columns : Nat
  indptr : Array Nat
  indices : Array Nat
  data : Array Single

namespace Compressed

/-- How many entries are stored. -/
def stored (compressed : Compressed) : Nat := compressed.data.size

/-- What is stored of a lane: the entries that are not zero, with their places. -/
def laneEntries {width : Nat} (lane : Fin width → Single) : List (Nat × Single) :=
  (List.finRange width).filterMap fun place =>
    if lane place != 0 then some (place.val, lane place) else none

/-- Where lanes of these lengths start, and at last where the last one ends. -/
def bounds (lengths : List Nat) : Array Nat :=
  (lengths.foldl (fun (bounds, total) length => (bounds.push (total + length), total + length))
    ((#[0] : Array Nat), 0)).1

/-- Packs lanes one after the other. -/
def ofLanes (layout : Layout) (rows columns : Nat) (lanes : List (List (Nat × Single))) :
    Compressed where
  layout := layout
  rows := rows
  columns := columns
  indptr := bounds (lanes.map List.length)
  indices := (lanes.flatMap fun lane => lane.map Prod.fst).toArray
  data := (lanes.flatMap fun lane => lane.map Prod.snd).toArray

def ofDense (layout : Layout) (dense : Matrix) : Compressed :=
  ofLanes layout dense.rows dense.columns
    (match layout with
    | .csr => (List.finRange dense.rows).map fun row => laneEntries fun column =>
        dense.entry row column
    | .csc => (List.finRange dense.columns).map fun column => laneEntries fun row =>
        dense.entry row column)

/-- The entries of a lane of this width, zero where nothing is stored. -/
def lane (compressed : Compressed) (width : Nat) (place : Nat) : Array Single :=
  let first := (compressed.indptr[place]?).getD 0
  let past := (compressed.indptr[place + 1]?).getD 0
  ((compressed.indices.extract first past).zip (compressed.data.extract first past)).foldl
    (fun entries stored => entries.setIfInBounds stored.1 stored.2)
    (Array.replicate width (0 : Single))

/-- All entries, zeros included. -/
def toDense (compressed : Compressed) : Matrix :=
  match compressed.layout with
  | .csr =>
      let lanes := Array.ofFn fun row : Fin compressed.rows =>
        compressed.lane compressed.columns row
      Matrix.ofFn .rowMajor compressed.rows compressed.columns fun row column =>
        ((lanes[row.val]?).bind fun lane => lane[column.val]?).getD 0
  | .csc =>
      let lanes := Array.ofFn fun column : Fin compressed.columns =>
        compressed.lane compressed.rows column
      Matrix.ofFn .rowMajor compressed.rows compressed.columns fun row column =>
        ((lanes[column.val]?).bind fun lane => lane[row.val]?).getD 0

end Compressed

end DatasetDepot
