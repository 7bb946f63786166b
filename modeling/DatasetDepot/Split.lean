import DatasetDepot.Dataset
import DatasetDepot.Random.Shuffle
import DatasetDepot.Value

/-!
Splits of a dataset into rows to train on and rows to test on.

One random order of the rows is cut in two: the rows before the cut train, the
others test, and labels stay with their rows.
-/

namespace DatasetDepot

/-- Test parts are missing when no split was asked for, which differs from a split
that left no rows to test on. -/
structure Split where
  trainX : Value
  trainY? : Option Value
  testX? : Option Value
  testY? : Option Value

namespace Split

/-- All rows train, in their order. -/
def ofDataset (dataset : Dataset) : Split where
  trainX := .matrix dataset.features
  trainY? := dataset.labels?.map .vector
  testX? := none
  testY? := none

def hasTest (split : Split) : Bool := split.testX?.isSome

/-- The parts by name. -/
def parts (split : Split) : List (String × Option Value) :=
  [("train_x", some split.trainX), ("train_y", split.trainY?), ("test_x", split.testX?),
    ("test_y", split.testY?)]

end Split

namespace Dataset

/-- The features of these rows. -/
def featuresOf (dataset : Dataset) (chosen : Array (Fin dataset.rows)) : Value :=
  .matrix (dataset.features.selectRows chosen)

/-- The labels of these rows. -/
def labelsOf? (dataset : Dataset) (chosen : Array (Fin dataset.rows)) : Option Value :=
  dataset.labels?.map fun labels => .vector (chosen.map fun row => labels.getD row 0)

/-- Cuts an order of the rows in two. -/
def cut (dataset : Dataset) (order : Array (Fin dataset.rows)) (trainSize : Nat) : Split :=
  let training := order.extract 0 trainSize
  let testing := order.extract trainSize order.size
  { trainX := dataset.featuresOf training
    trainY? := dataset.labelsOf? training
    testX? := some (dataset.featuresOf testing)
    testY? := dataset.labelsOf? testing }

/-- The random order of the rows that a seed stands for. -/
def order (dataset : Dataset) (seed : UInt64) : Array (Fin dataset.rows) :=
  ((Drawing.permutation dataset.rows).run (Stream.ofSeed seed)).1

/-- Splits a dataset at random, `trainSize` rows to train on. -/
def divide (dataset : Dataset) (trainSize : Nat) (seed : UInt64) : Except Fault Split :=
  if trainSize ≤ dataset.rows then .ok (dataset.cut (dataset.order seed) trainSize)
  else .error (.split trainSize dataset.rows)

end Dataset

end DatasetDepot
