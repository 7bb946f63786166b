import DatasetDepot.Numeric.Double

/-!
Shortest decimal text of a double precision number.

Of all decimals that read back as the number, the text shows one with the fewest
digits and among those the nearest.  Digits are always written positionally.
-/

namespace DatasetDepot.Double

/-- A decimal: whole digits times a power of ten. -/
structure Decimal where
  digits : Nat
  exponent : Int
  deriving DecidableEq, Repr

namespace Decimal

def powerOfTen (exponent : Int) : Rat :=
  if 0 ≤ exponent then
    (Nat.pow 10 exponent.toNat : Rat)
  else
    mkRat 1 (Nat.pow 10 (-exponent).toNat)

def value (decimal : Decimal) : Rat :=
  (decimal.digits : Rat) * powerOfTen decimal.exponent

/-- The exponent of the greatest power of ten that is at most a positive
rational. -/
def decade (value : Rat) : Int :=
  let guess : Int :=
    ((Nat.toDigits 10 value.num.toNat).length : Int) - (Nat.toDigits 10 value.den).length
  if value < powerOfTen guess then guess - 1 else guess

/-- Digits with the point where the exponent puts it. -/
def positional (decimal : Decimal) : List Char :=
  let digits := Nat.toDigits 10 decimal.digits
  if 0 ≤ decimal.exponent then
    digits ++ List.replicate decimal.exponent.toNat '0'
  else
    let places := (-decimal.exponent).toNat
    let padded := List.replicate (places + 1 - digits.length) '0' ++ digits
    padded.take (padded.length - places) ++ '.' :: padded.drop (padded.length - places)

end Decimal

/-- The rationals that round to a number: between the midpoints to its two
neighbours, which belong to it when its mantissa is even. -/
structure Basin where
  low : Rat
  high : Rat
  closed : Bool

/-- The neighbour below is half as far when the mantissa is the least of its
binade. -/
def Parts.basin (parts : Parts) : Basin :=
  let unit := Rounding.powerOfTwo parts.exponent
  let below :=
    if parts.mantissa = Nat.pow 2 52 ∧ -1074 < parts.exponent then mkRat 1 4 else mkRat 1 2
  { low := parts.magnitude - below * unit
    high := parts.magnitude + mkRat 1 2 * unit
    closed := parts.mantissa % 2 = 0 }

def Basin.contains (basin : Basin) (value : Rat) : Bool :=
  if basin.closed then basin.low ≤ value ∧ value ≤ basin.high
  else basin.low < value ∧ value < basin.high

/-- The best decimal with this exponent: of the two neighbours on that grid the
nearer one that reads back, the upper one in a tie. -/
def Parts.onGrid? (parts : Parts) (exponent : Int) : Option Decimal :=
  let magnitude := parts.magnitude
  let below : Decimal := ⟨(magnitude / Decimal.powerOfTen exponent).floor.toNat, exponent⟩
  let above : Decimal := ⟨below.digits + 1, exponent⟩
  match parts.basin.contains below.value, parts.basin.contains above.value with
  | true, true =>
      if magnitude - below.value < above.value - magnitude then some below else some above
  | true, false => some below
  | false, true => some above
  | false, false => none

/-- Grids from coarse to fine.  The first is coarser than the number, for one that
reads back from the next power of ten.  Seventeen digits always suffice, so that a
grid with a decimal is among the first eighteen. -/
def Parts.shortest (parts : Parts) : Decimal :=
  let decade := Decimal.decade parts.magnitude
  ((List.range 18).findSome? fun (extra : Nat) => parts.onGrid? (decade + 1 - extra)).getD
    ⟨(parts.magnitude / Decimal.powerOfTen (decade - 17)).floor.toNat, decade - 17⟩

/-- The shortest positional text of a number. -/
def text (number : Double) : String :=
  match number.parts? with
  | none =>
      if number.isNaN then "NaN" else if number.isNegative then "-inf" else "inf"
  | some parts =>
      let digits := if parts.mantissa = 0 then ['0'] else parts.shortest.positional
      String.ofList (if parts.negative then '-' :: digits else digits)

end DatasetDepot.Double
