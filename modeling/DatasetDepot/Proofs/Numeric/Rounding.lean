import DatasetDepot.Numeric.Rounding
import Mathlib.Algebra.Order.Field.Power
import Mathlib.Data.Rat.Floor
import Mathlib.Tactic.Linarith
import Mathlib.Tactic.NormNum
import Mathlib.Tactic.Positivity
import Mathlib.Tactic.Ring

/-!
Rounding to the nearest double.

From one power of two to the next all doubles are multiples of one unit, and so are both powers.
Main statement: rounding keeps the order of numbers, and leaves whole numbers of units where they
are.
-/

namespace DatasetDepot

namespace Rounding

/-! Powers of two. -/

theorem powerOfTwo_eq (exponent : Int) : powerOfTwo exponent = (2 : Rat) ^ exponent := by
  unfold powerOfTwo
  by_cases whole : 0 ≤ exponent
  · rw [if_pos whole]
    obtain ⟨count, rfl⟩ := Int.eq_ofNat_of_zero_le whole
    simp
  · rw [if_neg whole, Rat.mkRat_eq_div]
    obtain ⟨count, rfl⟩ : ∃ count : Nat, exponent = -(count : Int) :=
      ⟨exponent.natAbs, by omega⟩
    simp

theorem powerOfTwo_pos (exponent : Int) : 0 < powerOfTwo exponent := by
  rw [powerOfTwo_eq]
  positivity

theorem powerOfTwo_add (left right : Int) :
    powerOfTwo (left + right) = powerOfTwo left * powerOfTwo right := by
  simp only [powerOfTwo_eq]
  exact zpow_add₀ two_ne_zero left right

theorem powerOfTwo_natCast (exponent : Nat) :
    powerOfTwo exponent = ((2 ^ exponent : Nat) : Rat) := by
  rw [powerOfTwo_eq, zpow_natCast, Nat.cast_pow, Nat.cast_ofNat]

theorem powerOfTwo_le_iff {left right : Int} :
    powerOfTwo left ≤ powerOfTwo right ↔ left ≤ right := by
  simp only [powerOfTwo_eq]
  exact zpow_le_zpow_iff_right₀ one_lt_two

theorem powerOfTwo_lt_iff {left right : Int} :
    powerOfTwo left < powerOfTwo right ↔ left < right := by
  simp only [powerOfTwo_eq]
  exact zpow_lt_zpow_iff_right₀ one_lt_two

/-! Whole numbers. -/

/-- A whole number that is no further away than a half, and is even if it is just that far. -/
structure IsNearest (value : Rat) (whole : Int) : Prop where
  lower : value - 1 / 2 ≤ whole
  upper : whole ≤ value + 1 / 2
  even : (whole : Rat) = value - 1 / 2 ∨ (whole : Rat) = value + 1 / 2 → whole % 2 = 0

theorem isNearest_nearestInteger (value : Rat) : IsNearest value (nearestInteger value) := by
  have lower : (value.floor : Rat) ≤ value := Int.floor_le value
  have upper : value < (value.floor : Rat) + 1 := Int.lt_floor_add_one value
  have half : mkRat 1 2 = 1 / 2 := by norm_num [Rat.mkRat_eq_div]
  unfold nearestInteger
  simp only [half]
  generalize value.floor = below at lower upper
  by_cases small : value - below < 1 / 2
  · rw [if_pos small]
    refine ⟨by linarith, by linarith, ?_⟩
    rintro (tie | tie) <;> exact absurd tie (by linarith)
  rw [if_neg small]
  by_cases great : 1 / 2 < value - below
  · rw [if_pos great]
    refine ⟨by push_cast; linarith, by push_cast; linarith, ?_⟩
    push_cast
    rintro (tie | tie) <;> exact absurd tie (by linarith)
  rw [if_neg great]
  by_cases even : below % 2 = 0
  · rw [if_pos even]
    exact ⟨by linarith, by linarith, fun _ => even⟩
  · rw [if_neg even]
    exact ⟨by push_cast; linarith, by push_cast; linarith, fun _ => by omega⟩

/-- Of two nearest whole numbers that differ the one is next to the other, and both are even. -/
theorem IsNearest.le {left right : Rat} {whole whole' : Int} (nearest : IsNearest left whole)
    (nearest' : IsNearest right whole') (le : left ≤ right) : whole ≤ whole' := by
  by_contra! greater
  have next : (whole' : Rat) + 1 ≤ whole := by exact_mod_cast greater
  have upper := nearest.upper
  have lower := nearest'.lower
  have even := nearest.even (.inr (by linarith))
  have even' := nearest'.even (.inl (by linarith))
  have beside : whole = whole' + 1 := by
    have equal : (whole : Rat) = whole' + 1 := by linarith
    exact_mod_cast equal
  omega

theorem IsNearest.nearestInteger_eq {value : Rat} {whole : Int} (nearest : IsNearest value whole) :
    nearestInteger value = whole :=
  le_antisymm ((isNearest_nearestInteger value).le nearest le_rfl)
    (nearest.le (isNearest_nearestInteger value) le_rfl)

theorem nearestInteger_mono {left right : Rat} (le : left ≤ right) :
    nearestInteger left ≤ nearestInteger right :=
  (isNearest_nearestInteger left).le (isNearest_nearestInteger right) le

theorem nearestInteger_neg (value : Rat) : nearestInteger (-value) = -nearestInteger value := by
  obtain ⟨lower, upper, even⟩ := isNearest_nearestInteger value
  apply IsNearest.nearestInteger_eq
  refine ⟨by push_cast; linarith, by push_cast; linarith, ?_⟩
  push_cast
  intro tie
  have mirrored : nearestInteger value % 2 = 0 := by
    apply even
    rcases tie with tie | tie
    · exact .inr (by linarith)
    · exact .inl (by linarith)
  omega

theorem nearestInteger_intCast (whole : Int) : nearestInteger whole = whole := by
  apply IsNearest.nearestInteger_eq
  refine ⟨by linarith, by linarith, ?_⟩
  rintro (tie | tie) <;> exact absurd tie (by linarith)

/-! Units. -/

theorem log2_spec {count : Nat} (some : count ≠ 0) :
    powerOfTwo count.log2 ≤ count ∧ (count : Rat) < powerOfTwo (count.log2 + 1) := by
  constructor
  · rw [powerOfTwo_natCast]
    exact_mod_cast Nat.log2_self_le some
  · have next : ((count.log2 : Int) + 1) = (count.log2 + 1 : Nat) := rfl
    rw [next, powerOfTwo_natCast]
    exact_mod_cast Nat.lt_log2_self

/-- The digits of a product and of one of its factors leave two powers of two for the other. -/
theorem factor_bounds {value factor : Rat} {top bottom : Int} (positive : 0 < factor)
    (product : powerOfTwo top ≤ value * factor ∧ value * factor < powerOfTwo (top + 1))
    (known : powerOfTwo bottom ≤ factor ∧ factor < powerOfTwo (bottom + 1)) :
    powerOfTwo (top - bottom - 1) ≤ value ∧ value < powerOfTwo (top - bottom + 1) := by
  constructor
  · refine le_of_mul_le_mul_right (le_trans ?_ product.1) positive
    calc powerOfTwo (top - bottom - 1) * factor
        ≤ powerOfTwo (top - bottom - 1) * powerOfTwo (bottom + 1) :=
          mul_le_mul_of_nonneg_left known.2.le (powerOfTwo_pos _).le
      _ = powerOfTwo top := by
          rw [← powerOfTwo_add]
          congr 1
          ring
  · refine lt_of_mul_lt_mul_right (product.2.trans_le ?_) positive.le
    calc powerOfTwo (top + 1) = powerOfTwo (top - bottom + 1) * powerOfTwo bottom := by
          rw [← powerOfTwo_add]
          congr 1
          ring
      _ ≤ powerOfTwo (top - bottom + 1) * factor :=
          mul_le_mul_of_nonneg_left known.1 (powerOfTwo_pos _).le

/-- A positive number lies between its power of two and the next one. -/
theorem binade_spec {value : Rat} (positive : 0 < value) :
    powerOfTwo (binade value) ≤ value ∧ value < powerOfTwo (binade value + 1) := by
  have numerator : 0 < value.num := Rat.num_pos.mpr positive
  have product := log2_spec (show value.num.toNat ≠ 0 by omega)
  have quotient : (value.num.toNat : Rat) = value * value.den := by
    rw [Rat.mul_den_eq_num]
    exact_mod_cast Int.toNat_of_nonneg numerator.le
  rw [quotient] at product
  obtain ⟨lower, upper⟩ :=
    factor_bounds (Nat.cast_pos.mpr value.den_pos) product (log2_spec value.den_nz)
  unfold binade
  simp only
  split
  · rename_i below
    rw [sub_add_cancel]
    exact ⟨lower, below⟩
  · rename_i above
    exact ⟨not_lt.mp above, upper⟩

/-- The exponent of the power of two from which on a positive number is a multiple of its unit. -/
def level (value : Rat) : Int := max (binade value) (-1022)

theorem lt_level {value : Rat} (positive : 0 < value) : value < powerOfTwo (level value + 1) := by
  refine (binade_spec positive).2.trans_le (powerOfTwo_le_iff.mpr ?_)
  exact add_le_add_left (le_max_left _ _) 1

theorem level_le {value : Rat} (positive : 0 < value) {exponent : Int}
    (lowest : -1022 ≤ exponent) (below : value < powerOfTwo (exponent + 1)) :
    level value ≤ exponent := by
  refine max_le ?_ lowest
  have between := (binade_spec positive).1.trans_lt below
  have less := powerOfTwo_lt_iff.mp between
  omega

theorem powerOfTwo_level_le {value : Rat} (positive : 0 < value) (above : -1022 < level value) :
    powerOfTwo (level value) ≤ value := by
  have equal : level value = binade value := by
    unfold level at above ⊢
    omega
  rw [equal]
  exact (binade_spec positive).1

theorem toNearest_of_pos {value : Rat} (positive : 0 < value) :
    toNearest value =
      nearestInteger (value / powerOfTwo (level value - 52)) * powerOfTwo (level value - 52) := by
  unfold toNearest
  rw [if_neg positive.ne', if_neg (not_lt.mpr positive.le)]
  rfl

@[simp]
theorem toNearest_zero : toNearest 0 = 0 := if_pos rfl

theorem toNearest_neg (value : Rat) : toNearest (-value) = -toNearest value := by
  have mirrored : ∀ value : Rat, 0 < value → toNearest (-value) = -toNearest value := by
    intro value positive
    rw [toNearest_of_pos positive]
    unfold toNearest
    have negative : -value < 0 := neg_lt_zero.mpr positive
    rw [if_neg negative.ne, if_pos negative, neg_neg]
    change (nearestInteger (-value / powerOfTwo (level value - 52)) : Rat) *
      powerOfTwo (level value - 52) = _
    rw [neg_div, nearestInteger_neg, Int.cast_neg, neg_mul]
  rcases lt_trichotomy value 0 with negative | rfl | positive
  · have opposite := mirrored (-value) (neg_pos.mpr negative)
    rw [neg_neg] at opposite
    rw [opposite, neg_neg]
  · simp
  · exact mirrored value positive

/-- A whole number of units that is no less stays no less. -/
theorem toNearest_le_of_le {value : Rat} (positive : 0 < value) (whole : Int)
    (le : value ≤ whole * powerOfTwo (level value - 52)) :
    toNearest value ≤ whole * powerOfTwo (level value - 52) := by
  have unit := powerOfTwo_pos (level value - 52)
  have rounded := nearestInteger_mono ((div_le_iff₀ unit).mpr le)
  rw [nearestInteger_intCast] at rounded
  rw [toNearest_of_pos positive]
  exact mul_le_mul_of_nonneg_right (Int.cast_le.mpr rounded) unit.le

theorem le_toNearest_of_le {value : Rat} (positive : 0 < value) (whole : Int)
    (le : whole * powerOfTwo (level value - 52) ≤ value) :
    whole * powerOfTwo (level value - 52) ≤ toNearest value := by
  have unit := powerOfTwo_pos (level value - 52)
  have rounded := nearestInteger_mono ((le_div_iff₀ unit).mpr le)
  rw [nearestInteger_intCast] at rounded
  rw [toNearest_of_pos positive]
  exact mul_le_mul_of_nonneg_right (Int.cast_le.mpr rounded) unit.le

theorem toNearest_of_multiple {value : Rat} (positive : 0 < value) (whole : Int)
    (multiple : value = whole * powerOfTwo (level value - 52)) : toNearest value = value := by
  apply le_antisymm
  · exact (toNearest_le_of_le positive whole multiple.le).trans multiple.ge
  · exact multiple.le.trans (le_toNearest_of_le positive whole multiple.ge)

/-- A power of two in units. -/
theorem units_mul (exponent : Int) (count : Nat) :
    ((2 ^ count : Nat) : Rat) * powerOfTwo (exponent - count) = powerOfTwo exponent := by
  rw [← powerOfTwo_natCast, ← powerOfTwo_add]
  congr 1
  ring

theorem toNearest_le_level {value : Rat} (positive : 0 < value) :
    toNearest value ≤ powerOfTwo (level value + 1) := by
  have units : ((2 ^ 53 : Nat) : Int) * powerOfTwo (level value - 52) =
      powerOfTwo (level value + 1) := by
    rw [← units_mul (level value + 1) 53]
    congr 2
    ring
  rw [← units]
  apply toNearest_le_of_le positive
  rw [units]
  exact (lt_level positive).le

theorem level_le_toNearest {value : Rat} (positive : 0 < value) (above : -1022 < level value) :
    powerOfTwo (level value) ≤ toNearest value := by
  have units : ((2 ^ 52 : Nat) : Int) * powerOfTwo (level value - 52) = powerOfTwo (level value) :=
    units_mul (level value) 52
  rw [← units]
  apply le_toNearest_of_le positive
  rw [units]
  exact powerOfTwo_level_le positive above

theorem toNearest_nonneg {value : Rat} (nonneg : 0 ≤ value) : 0 ≤ toNearest value := by
  rcases nonneg.eq_or_lt with rfl | positive
  · exact le_of_eq toNearest_zero.symm
  · have bound := le_toNearest_of_le positive 0 (by simpa using nonneg)
    simpa using bound

/-- Numbers of one level are rounded to multiples of one unit; otherwise a power of two is
between them. -/
theorem toNearest_le_of_pos {left right : Rat} (positive : 0 < left) (le : left ≤ right) :
    toNearest left ≤ toNearest right := by
  have positive' := positive.trans_le le
  have levels : level left ≤ level right :=
    level_le positive (le_max_right _ _) (le.trans_lt (lt_level positive'))
  rcases levels.eq_or_lt with same | less
  · rw [toNearest_of_pos positive, toNearest_of_pos positive', same]
    have unit := powerOfTwo_pos (level right - 52)
    have rounded := nearestInteger_mono (div_le_div_of_nonneg_right le unit.le)
    exact mul_le_mul_of_nonneg_right (Int.cast_le.mpr rounded) unit.le
  · have lowest : -1022 ≤ level left := le_max_right _ _
    calc toNearest left ≤ powerOfTwo (level left + 1) := toNearest_le_level positive
      _ ≤ powerOfTwo (level right) := powerOfTwo_le_iff.mpr less
      _ ≤ toNearest right := level_le_toNearest positive' (lowest.trans_lt less)

theorem monotone_toNearest : Monotone toNearest := by
  intro left right le
  rcases lt_trichotomy left 0 with negative | rfl | positive
  · rcases lt_or_ge right 0 with negative' | nonneg
    · have mirrored := toNearest_le_of_pos (neg_pos.mpr negative') (neg_le_neg le)
      rw [toNearest_neg, toNearest_neg] at mirrored
      exact neg_le_neg_iff.mp mirrored
    · have opposite := toNearest_nonneg (neg_nonneg.mpr negative.le)
      rw [toNearest_neg] at opposite
      exact (neg_nonneg.mp opposite).trans (toNearest_nonneg nonneg)
  · rw [toNearest_zero]
    exact toNearest_nonneg le
  · exact toNearest_le_of_pos positive le

end Rounding

end DatasetDepot
