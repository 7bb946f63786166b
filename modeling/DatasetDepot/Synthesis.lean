import DatasetDepot.Generator
import DatasetDepot.Random.Normal

/-!
Datasets that are drawn from a seed.

Labels go round the classes row by row.  All draws of one dataset come from one
stream, row by row, so that asking for more rows only adds rows at the end.
-/

namespace DatasetDepot.Synthesis

/-- Rows of a dataset that is asked for without a size. -/
def defaultRows : Nat := 1000000

def defaultColumns : Nat := 100

def defaultCenters : Nat := 3

def defaultClasses : Nat := 2

/-- Centers of clusters are drawn within this distance of zero in each coordinate. -/
def reach : Single := 10.0

/-- How far each class is from zero in each of its coordinates. -/
def separation : Single := 1.0

/-- How many features a target depends on at most. -/
def maxRegressors : Nat := 10

/-- Coefficients of a target are drawn below this one. -/
def maxCoefficient : Single := 100.0

def orDefault (size default : Nat) : Nat :=
  if size = 0 then default else size

/-- A count as a number. -/
def single (count : Nat) : Single := .ofFloat32 count.toUInt64.toFloat32

/-- The matrix whose entries were drawn row by row. -/
def grid (rows columns : Nat) (drawn : Array Single) : Matrix :=
  Matrix.ofFn .rowMajor rows columns fun row column =>
    drawn.getD (row * columns + column) 0

def draw {Result : Type} (seed : UInt64) (drawing : Drawing Result) : Result :=
  (drawing.run (Stream.ofSeed seed)).1

/-- Clusters of points: each coordinate is that of a center plus normal noise.  The
centers are drawn first. -/
def clusters (rows columns centers : Nat) : Drawing Dataset := do
  let middles ← Drawing.array (Drawing.between (-reach) reach) (centers * columns)
  let noise ← Drawing.array Drawing.standardNormal (rows * columns)
  let features := Matrix.ofFn .rowMajor rows columns fun row column =>
    middles.getD (row % centers * columns + column) 0 + noise.getD (row * columns + column) 0
  return Dataset.labelled features fun row => single (row % centers)

def blobs (demand : Demand) : Except Fault Dataset := do
  demand.parameters.check .blobs
  let centers := demand.parameters.centers?.getD defaultCenters
  if centers = 0 then throw (.invalidParameter "centers" "must be at least one")
  return draw demand.seed
    (clusters (orDefault demand.rows defaultRows) (orDefault demand.columns defaultColumns)
      centers)

/-- Sizes of zero are taken as they are. -/
def zeros (demand : Demand) : Except Fault Dataset := do
  demand.parameters.check .zeros
  return Dataset.labelled (Matrix.ofFn .rowMajor demand.rows demand.columns fun _ _ => 0)
    fun _ => 0

/-- How many coordinates it takes to give every class a corner of its own, at least
two. -/
def dimensions (classes : Nat) : Nat :=
  max ((classes - 1).log2 + 1) 2

/-- The coordinate of a corner: the bits of a label say on which side of zero it is. -/
def corner (label dimension : Nat) : Single :=
  if label.testBit dimension then separation else -separation

/-- Classes of points: normal noise around the corners of a cube in the leading
coordinates. -/
def classes (rows columns classes informative : Nat) : Drawing Dataset := do
  let noise ← Drawing.array Drawing.standardNormal (rows * columns)
  let features := Matrix.ofFn .rowMajor rows columns fun row column =>
    let centered := noise.getD (row * columns + column) 0
    if column.val < informative then centered + corner (row % classes) column else centered
  return Dataset.labelled features fun row => single (row % classes)

def classification (demand : Demand) : Except Fault Dataset := do
  demand.parameters.check .classification
  let columns := orDefault demand.columns defaultColumns
  let count := demand.parameters.classes?.getD defaultClasses
  if count < 2 then
    throw (.invalidParameter "n_classes" s!"{count} classes requested, need at least two")
  let informative := min (dimensions count) columns
  if Nat.pow 2 informative < count then
    throw (.invalidParameter "n_classes"
      s!"{count} classes do not fit on the vertices of a {informative}-dimensional hypercube")
  return draw demand.seed (classes (orDefault demand.rows defaultRows) columns count informative)

/-- Products are added up in eight interleaved sums over whole blocks of eight, which
are then added in pairs; what is left over is added at the end. -/
def innerProduct (left right : Array Single) : Single :=
  let product (place : Nat) : Single := left.getD place 0 * right.getD place 0
  let blocks := left.size / 8
  let partialSum (lane : Nat) : Single :=
    (List.range blocks).foldl (fun sum block => sum + product (8 * block + lane)) 0
  let paired :=
    (List.range 4).foldl (fun sum lane => sum + (partialSum lane + partialSum (lane + 4))) 0
  (List.range (left.size % 8)).foldl (fun sum rest => sum + product (8 * blocks + rest)) paired

/-- Targets that are linear in the leading features.  The coefficients are drawn after
the features. -/
def targets (rows columns : Nat) : Drawing Dataset := do
  let regressors := min columns maxRegressors
  let noise ← Drawing.array Drawing.standardNormal (rows * columns)
  let coefficients ← Drawing.array (do return (← Drawing.between 0 1) * maxCoefficient) regressors
  return Dataset.labelled (grid rows columns noise) fun row =>
    innerProduct (noise.extract (row * columns) (row * columns + regressors)) coefficients

def regression (demand : Demand) : Except Fault Dataset := do
  demand.parameters.check .regression
  return draw demand.seed
    (targets (orDefault demand.rows defaultRows) (orDefault demand.columns defaultColumns))

end DatasetDepot.Synthesis
