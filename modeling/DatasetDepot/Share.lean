import DatasetDepot.Fault
import DatasetDepot.Numeric.Literal
import DatasetDepot.Numeric.Shortest

/-!
Shares of counts.

A share is a number from zero to one; the share of a count is worked out in double
precision and rounded down.  Every step is an exact result followed by a
`Rounding`, so that the same formulas serve with the rounding of double precision
and with any other.
-/

namespace DatasetDepot

namespace Double

/-- From zero to one, both included. -/
def isShare (number : Double) : Bool :=
  match number.rational? with
  | some value => 0 ≤ value && value ≤ 1
  | none => false

/-- From zero up to but excluding one. -/
def isProperShare (number : Double) : Bool :=
  match number.rational? with
  | some value => 0 ≤ value && value < 1
  | none => false

/-- The value of a share, and zero for what is not finite. -/
def shareValue (number : Double) : Rat :=
  number.rational?.getD 0

end Double

namespace Share

/-- A whole count from a result: rounded down, at most the greatest count. -/
def toCount (value : Rat) : Nat :=
  min value.floor.toNat Numeric.maxCount

/-- How many of `size` entries make up a share; never more than there are. -/
def ofSize (rounding : Rounding) (size : Nat) (share : Rat) : Nat :=
  min (toCount (rounding (rounding size * share))) size

/-- How many rows to ask for so that `rows` of them are left when the tested share
is taken away. -/
def inflate (rounding : Rounding) (rows : Nat) (tested : Rat) : Nat :=
  toCount (rounding (rounding rows / rounding (1 - tested)))

/-- How many of `rows` rows are left when the tested share is taken away. -/
def remaining (rounding : Rounding) (rows : Nat) (tested : Rat) : Nat :=
  toCount (rounding (rounding rows * rounding (1 - tested)))

/-- Accepts a sparsity ratio. -/
def checkSparsity (ratio : Double) : Except Fault Unit :=
  if ratio.isShare then .ok ()
  else .error (.invalidParameter "sparsity_ratio" s!"{ratio.text} is not within [0, 1]")

/-- Accepts a test fraction. -/
def checkTested (fraction : Double) : Except Fault Unit :=
  if fraction.isProperShare then .ok ()
  else .error (.invalidParameter "test_fraction" s!"{fraction.text} is not within [0, 1)")

end Share

end DatasetDepot
