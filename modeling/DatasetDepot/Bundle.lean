import DatasetDepot.Fault
import DatasetDepot.Split

/-!
Bundles: trees of values, the shape in which data passes through a conversion.

A split becomes a tuple of four, and only a tuple of that shape becomes a split
again.  `Bundle.traverse` visits the values of a bundle from left to right.
-/

namespace DatasetDepot

inductive Bundle where
  | absent
  | value (value : Value)
  | tuple (items : List Bundle)

namespace Bundle

def ofOption : Option Value → Bundle
  | none => .absent
  | some leaf => .value leaf

/-- The parts of a split, missing parts being absent. -/
def ofSplit (split : Split) : Bundle :=
  .tuple
    [.value split.trainX, ofOption split.trainY?, ofOption split.testX?, ofOption split.testY?]

/-- A part of a split: a value or nothing. -/
def toOption : Bundle → Except Fault (Option Value)
  | .absent => .ok none
  | .value leaf => .ok (some leaf)
  | .tuple items => .error (.shapeMismatch 1 items.length)

/-- A bundle as a split. -/
def toSplit : Bundle → Except Fault Split
  | .tuple [trainX, trainY, testX, testY] => do
      match ← trainX.toOption with
      | none => throw (.shapeMismatch 1 0)
      | some trainX =>
          return {
            trainX
            trainY? := ← trainY.toOption
            testX? := ← testX.toOption
            testY? := ← testY.toOption }
  | .tuple items => .error (.shapeMismatch 4 items.length)
  | .absent | .value _ => .error (.shapeMismatch 4 1)

variable {m : Type → Type} [Monad m]

mutual

/-- Acts on every value from left to right and keeps the shape. -/
def traverse (act : Value → m Value) : Bundle → m Bundle
  | .absent => pure .absent
  | .value leaf => do return .value (← act leaf)
  | .tuple items => do return .tuple (← traverseAll act items)

def traverseAll (act : Value → m Value) : List Bundle → m (List Bundle)
  | [] => pure []
  | item :: rest => do
      let item ← traverse act item
      let rest ← traverseAll act rest
      return item :: rest

end

mutual

/-- The values from left to right. -/
def values : Bundle → List Value
  | .absent => []
  | .value leaf => [leaf]
  | .tuple items => valuesOfAll items

def valuesOfAll : List Bundle → List Value
  | [] => []
  | item :: rest => values item ++ valuesOfAll rest

end

end Bundle

end DatasetDepot
