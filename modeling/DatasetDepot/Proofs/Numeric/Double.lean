import DatasetDepot.Numeric.Double
import DatasetDepot.Proofs.Numeric.Rounding

/-!
The values of doubles.

Every whole number up to 2^53 is the value of a double, and so is every power of two that does not
leave the format; no double lies between one and the greatest number below it.  Main statement:
rounding to the nearest double keeps the order of numbers and leaves every double where it is.
-/

namespace DatasetDepot

namespace Double

/-- A value that a double stands for. -/
def IsValue (value : Rat) : Prop := ∃ number : Double, number.rational? = some value

open Rounding

/-- The parts of a double fit its format. -/
structure Parts.Fits (parts : Parts) : Prop where
  mantissa_lt : parts.mantissa < 2 ^ 53
  le_exponent : -1074 ≤ parts.exponent

theorem fits_of_parts? {number : Double} {parts : Parts} (found : number.parts? = some parts) :
    parts.Fits := by
  have fraction : number.fraction < 2 ^ 52 := Nat.mod_lt _ (by decide)
  unfold parts? at found
  by_cases special : number.biasedExponent = 2047
  · rw [if_pos special] at found
    cases found
  · rw [if_neg special] at found
    by_cases least : number.biasedExponent = 0
    · rw [if_pos least] at found
      cases found
      exact ⟨by simp only; omega, by simp only; omega⟩
    · rw [if_neg least] at found
      cases found
      exact ⟨by simp only [Nat.pow_eq]; omega, by simp only; omega⟩

theorem exists_parts_of_rational? {number : Double} {value : Rat}
    (finite : number.rational? = some value) :
    ∃ parts : Parts, parts.Fits ∧ value = parts.value := by
  obtain ⟨parts, found, rfl⟩ := Option.map_eq_some_iff.mp finite
  exact ⟨parts, fits_of_parts? found, rfl⟩

theorem Parts.magnitude_nonneg (parts : Parts) : 0 ≤ parts.magnitude :=
  mul_nonneg (Nat.cast_nonneg _) (powerOfTwo_pos _).le

theorem Parts.value_le_magnitude (parts : Parts) : parts.value ≤ parts.magnitude := by
  have nonneg := parts.magnitude_nonneg
  unfold value
  split <;> linarith

theorem Parts.Fits.magnitude_lt {parts : Parts} (fits : parts.Fits) :
    parts.magnitude < powerOfTwo (parts.exponent + 53) := by
  have mantissa : (parts.mantissa : Rat) < ((2 ^ 53 : Nat) : Rat) :=
    Nat.cast_lt.mpr fits.mantissa_lt
  have units := units_mul (parts.exponent + 53) 53
  rw [show parts.exponent + 53 - (53 : Nat) = parts.exponent by simp] at units
  rw [← units]
  exact mul_lt_mul_of_pos_right mantissa (powerOfTwo_pos _)

/-- A double is a whole number of any unit that is not greater than its own. -/
theorem Parts.exists_multiple (parts : Parts) {exponent : Int} (le : exponent ≤ parts.exponent) :
    ∃ whole : Nat, parts.magnitude = whole * powerOfTwo exponent := by
  obtain ⟨more, equal⟩ := Int.eq_ofNat_of_zero_le (sub_nonneg.mpr le)
  have units := units_mul parts.exponent more
  rw [show parts.exponent - (more : Int) = exponent by omega] at units
  refine ⟨parts.mantissa * 2 ^ more, ?_⟩
  rw [magnitude, ← units, Nat.cast_mul, mul_assoc]

theorem Parts.Fits.toNearest_magnitude {parts : Parts} (fits : parts.Fits) :
    toNearest parts.magnitude = parts.magnitude := by
  rcases parts.magnitude_nonneg.eq_or_lt with zero | positive
  · rw [← zero, toNearest_zero]
  · have lowest := fits.le_exponent
    have level : level parts.magnitude ≤ parts.exponent + 52 :=
      level_le positive (by omega) (by rw [add_assoc]; exact fits.magnitude_lt)
    obtain ⟨whole, multiple⟩ := parts.exists_multiple (sub_le_iff_le_add.mpr level)
    exact toNearest_of_multiple positive whole multiple

theorem IsValue.toNearest_eq {value : Rat} (isValue : IsValue value) : toNearest value = value := by
  obtain ⟨number, finite⟩ := isValue
  obtain ⟨parts, fits, rfl⟩ := exists_parts_of_rational? finite
  unfold Parts.value
  split
  · rw [toNearest_neg, fits.toNearest_magnitude]
  · exact fits.toNearest_magnitude

/-! Doubles that are there. -/

theorem isValue_zero : IsValue 0 := ⟨⟨0⟩, by decide +kernel⟩

/-- A mantissa with its leading bit is stored without it. -/
theorem isValue_of_normal {mantissa : Nat} {exponent : Int} (leading : 2 ^ 52 ≤ mantissa)
    (mantissaFits : mantissa < 2 ^ 53) (lowest : -1074 ≤ exponent) (greatest : exponent ≤ 971) :
    IsValue (mantissa * powerOfTwo exponent) := by
  obtain ⟨biased, equal⟩ := Int.eq_ofNat_of_zero_le (show 0 ≤ exponent + 1075 by omega)
  obtain ⟨fraction, rfl⟩ := Nat.exists_eq_add_of_le leading
  let bits := biased * 2 ^ 52 + fraction
  have stored : (UInt64.ofNat bits).toNat = bits := by
    rw [UInt64.toNat_ofNat', Nat.mod_eq_of_lt]
    simp only [bits]
    omega
  refine ⟨⟨UInt64.ofNat bits⟩, ?_⟩
  have biasedExponent : (Double.mk (UInt64.ofNat bits)).biasedExponent = biased := by
    simp only [Double.biasedExponent, stored, bits, Nat.pow_eq]
    omega
  have fractionBits : (Double.mk (UInt64.ofNat bits)).fraction = fraction := by
    simp only [Double.fraction, stored, bits, Nat.pow_eq]
    omega
  have unsigned : (Double.mk (UInt64.ofNat bits)).isNegative = false := by
    simp only [Double.isNegative, stored, bits, Nat.pow_eq, decide_eq_false_iff_not]
    omega
  unfold rational? parts?
  rw [biasedExponent, fractionBits, unsigned, if_neg (by omega), if_neg (by omega)]
  have exponents : (biased : Int) - 1075 = exponent := by omega
  rw [exponents]
  rfl

theorem isValue_powerOfTwo {exponent : Int} (lowest : -1022 ≤ exponent)
    (greatest : exponent ≤ 1023) : IsValue (powerOfTwo exponent) := by
  rw [← units_mul exponent 52]
  exact isValue_of_normal le_rfl (by decide) (by omega) (by omega)

theorem isValue_natCast {count : Nat} (le : count ≤ 2 ^ 53) : IsValue (count : Rat) := by
  rcases le.eq_or_lt with rfl | less
  · rw [← powerOfTwo_natCast]
    exact isValue_powerOfTwo (by decide) (by decide)
  rcases Nat.eq_zero_or_pos count with rfl | positive
  · exact isValue_zero
  have top : count.log2 < 53 := (Nat.log2_lt positive.ne').mpr less
  obtain ⟨places, equal⟩ := Nat.exists_eq_add_of_le (Nat.le_of_lt_succ top)
  have leading : 2 ^ 52 ≤ count * 2 ^ places := by
    rw [equal, Nat.pow_add]
    exact Nat.mul_le_mul_right _ (Nat.log2_self_le positive.ne')
  have fits : count * 2 ^ places < 2 ^ 53 := by
    have parted : 53 = count.log2 + 1 + places := by omega
    rw [parted, Nat.pow_add]
    exact Nat.mul_lt_mul_of_pos_right Nat.lt_log2_self (Nat.two_pow_pos places)
  have isValue := isValue_of_normal leading fits (show -1074 ≤ 0 - (places : Int) by omega)
    (by omega)
  rw [Nat.cast_mul, mul_assoc, units_mul, powerOfTwo_eq, zpow_zero, mul_one] at isValue
  exact isValue

/-- No double lies between one and this far below it: a double is a whole number of these steps
unless it is less than a half. -/
theorem IsValue.le_of_lt_one {value : Rat} (isValue : IsValue value) (less : value < 1) :
    value ≤ 1 - powerOfTwo (-53) := by
  obtain ⟨number, finite⟩ := isValue
  obtain ⟨parts, fits, rfl⟩ := exists_parts_of_rational? finite
  have step := powerOfTwo_pos (-53)
  have small : powerOfTwo (-53) ≤ 1 / 2 := by norm_num [powerOfTwo_eq]
  rcases le_or_gt (-53) parts.exponent with coarse | fine
  · by_cases negative : parts.negative = true
    · have value : parts.value = -parts.magnitude := if_pos negative
      have nonneg := parts.magnitude_nonneg
      linarith
    · have value : parts.value = parts.magnitude := if_neg negative
      obtain ⟨whole, multiple⟩ := parts.exists_multiple coarse
      have steps : ((2 ^ 53 : Nat) : Rat) * powerOfTwo (-53) = 1 := by
        rw [show (-53 : Int) = 0 - (53 : Nat) from rfl, units_mul, powerOfTwo_eq, zpow_zero]
      rw [value, multiple, ← steps] at less
      have fewer : (whole : Rat) + 1 ≤ ((2 ^ 53 : Nat) : Rat) := by
        exact_mod_cast lt_of_mul_lt_mul_right less step.le
      have bound := mul_le_mul_of_nonneg_right fewer step.le
      rw [add_mul, one_mul, steps] at bound
      rw [value, multiple]
      linarith
  · have below : parts.magnitude < powerOfTwo (-1) :=
      fits.magnitude_lt.trans_le (powerOfTwo_le_iff.mpr (by omega))
    have half : powerOfTwo (-1) = 1 / 2 := by norm_num [powerOfTwo_eq]
    have le := parts.value_le_magnitude
    linarith

end Double

/-- Rounding that keeps the order of numbers and leaves every double where it is. -/
structure Rounding.IsOrderly (rounding : Rounding) : Prop where
  monotone : Monotone rounding
  fixes : ∀ value, Double.IsValue value → rounding value = value

theorem Rounding.isOrderly_toNearest : toNearest.IsOrderly where
  monotone := monotone_toNearest
  fixes := fun _ isValue => isValue.toNearest_eq

end DatasetDepot
