import DatasetDepot.Numeric.Single
import DatasetDepot.Random.Stream

/-!
Uniform draws below a bound.

A half word is scaled to the bound; the few words that would make some results
more likely than others are rejected and drawn again.  Whether or not a word is
rejected, its result is below the bound, so that giving up after `patience`
rejections in a row costs evenness and nothing else.
-/

namespace DatasetDepot.Drawing

/-- Rejections in a row before a word is taken as it is.  Each has a chance below
one half. -/
def patience : Nat := 256

/-- A half word scaled to a bound. -/
def scaled (word : UInt32) {bound : Nat} (positive : 0 < bound) : Fin bound :=
  ⟨word.toNat * bound / Nat.pow 2 32, by
    rw [Nat.div_lt_iff_lt_mul (by decide), Nat.mul_comm bound]
    exact Nat.mul_lt_mul_of_pos_right word.toNat_lt positive⟩

/-- What scaling a half word leaves over. -/
def leftover (word : UInt32) (bound : Nat) : Nat :=
  word.toNat * bound % Nat.pow 2 32

/-- Draws until what is left over is at most `zone`. -/
def within (zone : Nat) {bound : Nat} (positive : 0 < bound) : Nat → Drawing (Fin bound)
  | 0 => do return scaled (← word) positive
  | tries + 1 => do
      let drawn ← word
      if leftover drawn bound ≤ zone then return scaled drawn positive
      else within zone positive tries

/-- A single draw below a bound.  Its zone is the greatest multiple of the bound
by a power of two that fits a half word. -/
def below (bound : Nat) (positive : 0 < bound) : Drawing (Fin bound) :=
  within (bound * Nat.pow 2 (31 - bound.log2) - 1) positive patience

/-- One of many draws below the same bound.  Its zone is the greatest multiple of
the bound that fits a half word. -/
def belowRepeated {bound : Nat} (positive : 0 < bound) : Drawing (Fin bound) :=
  within (Nat.pow 2 32 - 1 - (Nat.pow 2 32 - bound) % bound) positive patience

/-- A single precision number from `low` up to but excluding `high`: 23 random
bits of a mantissa, scaled and moved; a result that rounds up to `high` is drawn
again. -/
def between (low high : Single) : Drawing Single :=
  go patience
where
  place (drawn : UInt32) : Single :=
    (Single.ofBits ((0x3F800000 : UInt32) ||| (drawn >>> 9)) - 1.0) * (high - low) + low
  go : Nat → Drawing Single
    | 0 => do return place (← word)
    | tries + 1 => do
        let drawn := place (← word)
        if high ≤ drawn then go tries else return drawn

end DatasetDepot.Drawing
