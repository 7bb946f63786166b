import DatasetDepot.Proofs.Numeric.Double
import DatasetDepot.Share

/-!
Shares of rows.

What is left of a whole when a proper share of it is taken away is a double between zero and one,
whatever the rounding, and never zero.  Main statements: as many rows are asked for as are to be
left, at least, and no more rows are left than there were.
-/

namespace DatasetDepot

namespace Double

theorem isProperShare_iff {number : Double} :
    number.isProperShare = true ↔
      ∃ value, number.rational? = some value ∧ 0 ≤ value ∧ value < 1 := by
  unfold isProperShare
  cases finite : number.rational? with
  | none => simp
  | some value => simp

theorem shareValue_of_rational? {number : Double} {value : Rat}
    (finite : number.rational? = some value) : number.shareValue = value := by
  unfold shareValue
  rw [finite]
  rfl

end Double

namespace Share

open Rounding

variable {rounding : Rounding} {tested : Double}

theorem rounding_natCast (orderly : rounding.IsOrderly) {count : Nat} (exact : count ≤ 2 ^ 53) :
    rounding (count : Rat) = count :=
  orderly.fixes _ (Double.isValue_natCast exact)

theorem rounding_one (orderly : rounding.IsOrderly) : rounding 1 = 1 := by
  have fixed := rounding_natCast orderly (show 1 ≤ 2 ^ 53 by decide)
  rwa [Nat.cast_one] at fixed

/-- A part of the whole, more than none and perhaps all of it. -/
structure IsPart (part : Rat) : Prop where
  positive : 0 < part
  le_one : part ≤ 1

theorem isPart_rest (orderly : rounding.IsOrderly) (proper : tested.isProperShare = true) :
    IsPart (rounding (1 - tested.shareValue)) := by
  obtain ⟨value, finite, nonneg, less⟩ := Double.isProperShare_iff.mp proper
  rw [Double.shareValue_of_rational? finite]
  have gap : powerOfTwo (-53) ≤ 1 - value := by
    have below := Double.IsValue.le_of_lt_one ⟨tested, finite⟩ less
    linarith
  constructor
  · calc 0 < powerOfTwo (-53) := powerOfTwo_pos _
      _ = rounding (powerOfTwo (-53)) :=
        (orderly.fixes _ (Double.isValue_powerOfTwo (by decide) (by decide))).symm
      _ ≤ rounding (1 - value) := orderly.monotone gap
  · calc rounding (1 - value) ≤ rounding 1 := orderly.monotone (by linarith)
      _ = 1 := rounding_one orderly

theorem toCount_natCast {count : Nat} (exact : count ≤ 2 ^ 53) : toCount (count : Rat) = count := by
  change min ⌊(count : Rat)⌋.toNat Numeric.maxCount = count
  rw [Int.floor_natCast, Int.toNat_natCast]
  exact min_eq_left (exact.trans (by decide))

theorem toCount_mono {less more : Rat} (le : less ≤ more) : toCount less ≤ toCount more :=
  min_le_min_right _ (Int.toNat_le_toNat (Int.floor_le_floor le))

/-- Dividing by a part does not make less. -/
theorem le_inflate (orderly : rounding.IsOrderly) (proper : tested.isProperShare = true)
    {count : Nat} (exact : count ≤ 2 ^ 53) : count ≤ inflate rounding count tested.shareValue := by
  have part := isPart_rest orderly proper
  have more : (count : Rat) ≤ count / rounding (1 - tested.shareValue) :=
    le_div_self (Nat.cast_nonneg _) part.positive part.le_one
  unfold inflate
  rw [rounding_natCast orderly exact]
  calc count = toCount (rounding count) := by
        rw [rounding_natCast orderly exact, toCount_natCast exact]
    _ ≤ toCount (rounding (count / rounding (1 - tested.shareValue))) :=
        toCount_mono (orderly.monotone more)

/-- Multiplying by a part does not make more. -/
theorem remaining_le (orderly : rounding.IsOrderly) (proper : tested.isProperShare = true)
    {count : Nat} (exact : count ≤ 2 ^ 53) :
    remaining rounding count tested.shareValue ≤ count := by
  have part := isPart_rest orderly proper
  have less : (count : Rat) * rounding (1 - tested.shareValue) ≤ count :=
    mul_le_of_le_one_right (Nat.cast_nonneg _) part.le_one
  unfold remaining
  rw [rounding_natCast orderly exact]
  calc toCount (rounding (count * rounding (1 - tested.shareValue)))
      ≤ toCount (rounding count) := toCount_mono (orderly.monotone less)
    _ = count := by rw [rounding_natCast orderly exact, toCount_natCast exact]

theorem inflate_of_zero (orderly : rounding.IsOrderly) {count : Nat} (exact : count ≤ 2 ^ 53) :
    inflate rounding count 0 = count := by
  unfold inflate
  rw [sub_zero, rounding_one orderly, div_one, rounding_natCast orderly exact,
    rounding_natCast orderly exact, toCount_natCast exact]

end Share

end DatasetDepot
