import DatasetDepot.Synthesis
import Mathlib

/-!
Counts as numbers of single precision.

Main statement: a count of at most twenty-four binary digits is read back from the number it is
written as, so that different counts are different numbers.
-/

namespace DatasetDepot.Single

open Float.Model UnpackedFloat

variable {count : Nat}

/-- The mantissa of a count: its digits, moved up until they fill all places. -/
def mantissa (count : Nat) : Nat := count <<< (23 - count.log2)

def exponent (count : Nat) : Int := count.log2 - 23

theorem log2_le (positive : count ≠ 0) (small : count < 2 ^ 24) : count.log2 ≤ 23 :=
  Nat.le_of_lt_succ ((Nat.log2_lt positive).mpr small)

theorem mantissa_bounds (positive : count ≠ 0) (small : count < 2 ^ 24) :
    2 ^ 23 ≤ mantissa count ∧ mantissa count < 2 ^ 24 := by
  have digits := (Nat.log2_eq_iff positive).mp rfl
  have places : count.log2 + (23 - count.log2) = 23 := by
    have most := log2_le positive small
    omega
  rw [mantissa, Nat.shiftLeft_eq]
  constructor
  · calc
      2 ^ 23 = 2 ^ count.log2 * 2 ^ (23 - count.log2) := by rw [← Nat.pow_add, places]
      _ ≤ count * 2 ^ (23 - count.log2) := Nat.mul_le_mul_right _ digits.1
  · calc
      count * 2 ^ (23 - count.log2) < 2 ^ (count.log2 + 1) * 2 ^ (23 - count.log2) :=
        Nat.mul_lt_mul_of_pos_right digits.2 (Nat.two_pow_pos _)
      _ = 2 ^ 24 := by rw [← Nat.pow_add, Nat.add_right_comm, places]

theorem log2_mantissa (positive : count ≠ 0) (small : count < 2 ^ 24) :
    (mantissa count).log2 = 23 := by
  have bounds := mantissa_bounds positive small
  exact (Nat.log2_eq_iff (by omega)).mpr bounds

/-- Digits that fill all places stay where they are. -/
theorem shiftToTargetExponent_of_full {digits : Nat} (full : digits.log2 = 23) {place : Int}
    (least : -149 ≤ place) :
    shiftToTargetExponent Format.binary32 digits place .exact =
      (⟨digits, false, false⟩, place) := by
  have target : Format.binary32.targetExponent (totalExponent digits place) = place := by
    simp only [Format.targetExponent, totalExponent, full, Format.mantissaBits,
      Format.minExponent]
    omega
  unfold shiftToTargetExponent
  rw [target]
  simp [shiftToExponent, ExtendedMantissa.ofMantissaAndAccuracy, HShiftRight.hShiftRight,
    Nat.repeat]

theorem ofNat_eq (positive : count ≠ 0) (small : count < 2 ^ 24) :
    ∃ nonzero, UnpackedFloat.ofNat Format.binary32 count =
      .finite .positive (mantissa count) (exponent count) nonzero := by
  have most := log2_le positive small
  have target : Format.binary32.targetExponent (totalExponent count 0) = exponent count := by
    simp only [Format.targetExponent, totalExponent, Format.mantissaBits, Format.minExponent,
      exponent]
    omega
  have moved : decreaseExponent count 0 (exponent count) = (mantissa count, exponent count) := by
    have places : (0 - exponent count).toNat = 23 - count.log2 := by
      unfold exponent
      omega
    have place : 0 - ((23 - count.log2 : Nat) : Int) = exponent count := by
      unfold exponent
      omega
    simp only [decreaseExponent, places, place, mantissa]
  have kept := shiftToTargetExponent_of_full (log2_mantissa positive small)
    (show -149 ≤ exponent count by unfold exponent; omega)
  have above : compare (count : Int) 0 = .gt := by
    rw [Int.compare_eq_gt]
    omega
  have nonzero : mantissa count ≠ 0 := by
    have bounds := mantissa_bounds positive small
    omega
  have rounded : (ExtendedMantissa.mk (mantissa count) false false).roundedMantissa =
      mantissa count := rfl
  refine ⟨Nat.pos_of_ne_zero nonzero, ?_⟩
  simp only [UnpackedFloat.ofNat, UnpackedFloat.ofInt, UnpackedFloat.normalize, above,
    Int.toNat_natCast, UnpackedFloat.round, target, moved, roundWithAccuracy, kept, rounded,
    dif_neg nonzero]

/-- The exponent of a count as it is written, which is neither the least nor the greatest code. -/
def code (count : Nat) : BitVec 8 := BitVec.ofNat 8 (count.log2 + 127)

theorem toNat_code (positive : count ≠ 0) (small : count < 2 ^ 24) :
    (code count).toNat = count.log2 + 127 := by
  have most := log2_le positive small
  rw [code, BitVec.toNat_ofNat]
  omega

theorem code_ne (positive : count ≠ 0) (small : count < 2 ^ 24) {other : BitVec 8}
    (outside : other.toNat < 127 ∨ 150 < other.toNat) : code count ≠ other := by
  rintro rfl
  have most := log2_le positive small
  rw [toNat_code positive small] at outside
  omega

theorem pack_eq (positive : count ≠ 0) (small : count < 2 ^ 24) (nonzero : 0 < mantissa count) :
    UnpackedFloat.pack Format.binary32
        (.finite .positive (mantissa count) (exponent count) nonzero) =
      packComponents Format.binary32 .positive (code count) (BitVec.ofNat 23 (mantissa count)) := by
  have most := log2_le positive small
  have biased : (exponent count + Format.binary32.exponentBias +
      Format.binary32.mantissaBitsWithoutImplicit).toNat = count.log2 + 127 := by
    simp only [exponent, Format.exponentBias]
    omega
  simp only [UnpackedFloat.pack, biased, log2_mantissa positive small]
  rw [if_neg (by simp; omega)]
  exact if_pos rfl

/-- The leading digit, which is not written, in front of those that are. -/
theorem toNat_digits (positive : count ≠ 0) (small : count < 2 ^ 24) :
    (1#1 ++ BitVec.ofNat 23 (mantissa count)).toNat = mantissa count := by
  have bounds := mantissa_bounds positive small
  rw [BitVec.toNat_append, ← Nat.shiftLeft_add_eq_or_of_lt (BitVec.isLt _),
    BitVec.toNat_ofNat, Nat.shiftLeft_eq]
  change 1 * 2 ^ 23 + mantissa count % 2 ^ 23 = mantissa count
  omega

/-- What was packed with a leading digit in place is unpacked as it was. -/
theorem unpack_pack (positive : count ≠ 0) (small : count < 2 ^ 24)
    (nonzero : 0 < mantissa count) :
    UnpackedFloat.unpack Format.binary32 (UnpackedFloat.pack Format.binary32
        (.finite .positive (mantissa count) (exponent count) nonzero)) =
      .finite .positive (mantissa count) (exponent count) nonzero := by
  have place : ((code count).toNat : Int) - (Format.binary32.exponentBias + (23 : Nat)) =
      exponent count := by
    rw [toNat_code positive small]
    simp only [exponent, Format.exponentBias]
    omega
  have digits := toNat_digits positive small
  have finite : code count ≠ -1#8 := code_ne positive small (by decide)
  have normal : code count ≠ 0#8 := code_ne positive small (by decide)
  rw [pack_eq positive small]
  simp only [UnpackedFloat.unpack, unpackExponent_packComponents, unpackMantissa_packComponents,
    unpackSign_packComponents, if_neg finite, if_neg normal, digits, place]
  rfl

theorem mantissa_shiftRight (extended : ExtendedMantissa) (places : Nat) :
    (extended >>> places).mantissa = extended.mantissa / 2 ^ places := by
  change (places.repeat ExtendedMantissa.shiftRightOne extended).mantissa = _
  induction places with
  | zero => rw [Nat.pow_zero, Nat.div_one, Nat.repeat]
  | succ places inductionHypothesis =>
      rw [Nat.repeat, ExtendedMantissa.shiftRightOne, inductionHypothesis, Nat.div_div_eq_div_mul,
        Nat.pow_succ]

/-- Moving the digits back gives the count. -/
theorem roundToInt_eq (positive : count ≠ 0) (small : count < 2 ^ 24) :
    roundToInt .positive (mantissa count) (exponent count) = count := by
  have most := log2_le positive small
  have whole : (exponent count - 0).toNat = 0 := by
    unfold exponent
    omega
  have moved : (0 - (exponent count - ((0 : Nat) : Int))).toNat = 23 - count.log2 := by
    unfold exponent
    omega
  simp only [roundToInt, decreaseExponent, shiftToExponent, whole, moved, mantissa_shiftRight,
    ExtendedMantissa.ofMantissaAndAccuracy, Nat.shiftLeft_zero]
  change ((mantissa count / 2 ^ (23 - count.log2) : Nat) : Int) = count
  rw [mantissa, Nat.shiftLeft_eq, Nat.mul_div_cancel _ (Nat.two_pow_pos _)]

theorem toFloat32_single (count : Nat) :
    (Synthesis.single count).toFloat32 = count.toUInt64.toFloat32 :=
  Float32.ofBits_toBits _

/-- A count that fits the digits of a number is read back from it. -/
theorem toNat_toUInt64 (small : count < 2 ^ 24) :
    (Synthesis.single count).toUInt64.toNat = count := by
  by_cases none : count = 0
  · subst none
    decide
  have word : count.toUInt64.toNat = count := by
    rw [Nat.toUInt64_eq, UInt64.toNat_ofNat']
    omega
  obtain ⟨nonzero, written⟩ := ofNat_eq none small
  have read : count.toUInt64.toFloat32.toModel.unpack =
      .finite .positive (mantissa count) (exponent count) nonzero := by
    change UnpackedFloat.unpack Format.binary32 (UnpackedFloat.pack Format.binary32
      (UnpackedFloat.ofNat Format.binary32 count.toUInt64.toNat)) = _
    rw [word, written]
    exact unpack_pack none small nonzero
  rw [toUInt64, toFloat32_single]
  change (count.toUInt64.toFloat32.toModel.unpack.toUInt64).toNat = count
  rw [read]
  change (UInt64.ofNatClamp (roundToInt .positive (mantissa count) (exponent count)).toNat).toNat =
    count
  have inside : count < UInt64.size := Nat.lt_trans small (by decide)
  rw [roundToInt_eq none small, Int.toNat_natCast, UInt64.ofNatClamp, dif_pos inside]
  rfl

/-- Different counts are different numbers. -/
theorem single_eq_iff {other : Nat} (small : count < 2 ^ 24) (small' : other < 2 ^ 24) :
    Synthesis.single count = Synthesis.single other ↔ count = other := by
  constructor
  · intro same
    rw [← toNat_toUInt64 small, same, toNat_toUInt64 small']
  · intro same
    rw [same]

end DatasetDepot.Single
