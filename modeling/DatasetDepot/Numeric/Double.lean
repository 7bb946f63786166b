import DatasetDepot.Numeric.Rounding

/-!
Double precision numbers and their exact values.

A double is its bit pattern.  `Double.parts?` splits a finite one into a sign, a
whole mantissa and a power of two; `Double.rational?` is the rational it stands for.
-/

namespace DatasetDepot

/-- A double precision number, by its bits. -/
structure Double where
  bits : UInt64
  deriving DecidableEq, Repr

namespace Double

/-- A finite number is a signed whole multiple of a power of two. -/
structure Parts where
  negative : Bool
  mantissa : Nat
  exponent : Int
  deriving DecidableEq, Repr

def isNegative (number : Double) : Bool :=
  decide (Nat.pow 2 63 ≤ number.bits.toNat)

/-- The eleven exponent bits. -/
def biasedExponent (number : Double) : Nat :=
  number.bits.toNat / Nat.pow 2 52 % Nat.pow 2 11

/-- The bits below the exponent. -/
def fraction (number : Double) : Nat :=
  number.bits.toNat % Nat.pow 2 52

def isNaN (number : Double) : Bool :=
  number.biasedExponent = 2047 && number.fraction ≠ 0

/-- The parts of a finite number; infinities and not-a-number have none. -/
def parts? (number : Double) : Option Parts :=
  if number.biasedExponent = 2047 then none
  else if number.biasedExponent = 0 then some ⟨number.isNegative, number.fraction, -1074⟩
  else
    some ⟨number.isNegative, Nat.pow 2 52 + number.fraction, (number.biasedExponent : Int) - 1075⟩

/-- The absolute value of the number with these parts. -/
def Parts.magnitude (parts : Parts) : Rat :=
  (parts.mantissa : Rat) * Rounding.powerOfTwo parts.exponent

def Parts.value (parts : Parts) : Rat :=
  if parts.negative then -parts.magnitude else parts.magnitude

/-- The rational a number stands for, if it is finite. -/
def rational? (number : Double) : Option Rat :=
  number.parts?.map Parts.value

/-- Equality of values: the two zeros are equal, and not-a-number equals
nothing. -/
def sameValue (left right : Double) : Bool :=
  if left.isNaN || right.isNaN then false
  else
    match left.rational?, right.rational? with
    | some leftValue, some rightValue => leftValue = rightValue
    | _, _ => left.bits = right.bits

end Double

end DatasetDepot
