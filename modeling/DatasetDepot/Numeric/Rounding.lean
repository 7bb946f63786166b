/-!
Rounding of exact results to double precision.

A `Rounding` maps an exact rational to the number that is stored for it.
`toNearest` is the rounding of double precision: the nearest multiple of the
unit in the last place, a tie going to the even multiple.  Results that overflow
the format are out of reach of the counts this is used for.
-/

namespace DatasetDepot

/-- What is stored in place of an exact result. -/
abbrev Rounding := Rat → Rat

namespace Rounding

/-- The power of two with an integer exponent. -/
def powerOfTwo (exponent : Int) : Rat :=
  if 0 ≤ exponent then
    (Nat.pow 2 exponent.toNat : Rat)
  else
    mkRat 1 (Nat.pow 2 (-exponent).toNat)

/-- The exponent of the greatest power of two that is at most a positive
rational. -/
def binade (value : Rat) : Int :=
  let guess : Int := (value.num.toNat.log2 : Int) - (value.den.log2 : Int)
  if value < powerOfTwo guess then guess - 1 else guess

/-- The nearest integer, a half going to the even neighbour. -/
def nearestInteger (value : Rat) : Int :=
  let below := value.floor
  let rest := value - below
  if rest < mkRat 1 2 then below
  else if mkRat 1 2 < rest then below + 1
  else if below % 2 = 0 then below
  else below + 1

/-- Doubles have 53 significant bits, fewer below the exponent -1022. -/
def toNearest : Rounding := fun value =>
  if value = 0 then 0
  else
    let unit := powerOfTwo (max (binade (if value < 0 then -value else value)) (-1022) - 52)
    (nearestInteger (value / unit) : Rat) * unit

end Rounding

end DatasetDepot
