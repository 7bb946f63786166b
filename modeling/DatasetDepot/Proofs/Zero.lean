import DatasetDepot.Numeric.Single
import Mathlib.Logic.Basic

/-!
Numbers that count as zero.

Single precision has a zero of either sign.  Main statement: a number equals zero if it is one of
these two and not otherwise, so that what leaves out zeros keeps everything else, infinities and
what is no number included.
-/

namespace DatasetDepot

def negativeZero : Single := .ofBits 0x80000000

/-- The number itself, or the positive zero in place of the negative one. -/
def unsignZero (number : Single) : Single :=
  if number = negativeZero then 0 else number

/-- Only the sign is set in the bits of a zero. -/
theorem magnitude_eq_zero_iff (number : Single) :
    number.magnitude = 0 ↔ number = 0 ∨ number = negativeZero := by
  constructor
  · intro none
    have lower : number.toBits.toNat % 2 ^ 31 = 0 := by
      rw [← Nat.and_two_pow_sub_one_eq_mod]
      exact congrArg UInt32.toNat none
    have below : number.toBits.toNat < 2 ^ 32 := number.toBits.toNat_lt
    have bits : number.toBits.toNat = 0 ∨ number.toBits.toNat = 2 ^ 31 := by omega
    rcases bits with bits | bits
    · exact .inl (congrArg Single.ofBits (UInt32.toNat_inj.mp bits))
    · exact .inr (congrArg Single.ofBits (UInt32.toNat_inj.mp bits))
  · rintro (rfl | rfl) <;> decide

theorem beq_zero_iff (number : Single) :
    (number == 0) = true ↔ number = 0 ∨ number = negativeZero := by
  constructor
  · intro equal
    obtain ⟨-, same⟩ := Bool.and_eq_true_iff.mp equal
    rcases Bool.or_eq_true_iff.mp same with same | zeros
    · exact .inl (of_decide_eq_true same)
    · exact (magnitude_eq_zero_iff number).mp (of_decide_eq_true zeros).1
  · rintro (rfl | rfl) <;> decide

theorem bne_zero_iff (number : Single) :
    (number != 0) = true ↔ number ≠ 0 ∧ number ≠ negativeZero := by
  rw [bne, Bool.not_eq_true', ← Bool.not_eq_true, beq_zero_iff, not_or]

theorem bne_zero_of_isNaN {number : Single} (undefined : number.isNaN = true) :
    (number != 0) = true := by
  rw [bne_zero_iff]
  constructor
  · rintro rfl
    exact absurd undefined (by decide)
  · rintro rfl
    exact absurd undefined (by decide)

theorem ite_bne_zero (number : Single) :
    (if (number != 0) = true then number else 0) = unsignZero number := by
  unfold unsignZero
  by_cases stored : (number != 0) = true
  · rw [if_pos stored, if_neg ((bne_zero_iff number).mp stored).2]
  · rw [if_neg stored]
    rw [bne_zero_iff, not_and_or, not_not, not_not] at stored
    rcases stored with rfl | rfl
    · exact (ite_self 0).symm
    · exact (if_pos rfl).symm

end DatasetDepot
