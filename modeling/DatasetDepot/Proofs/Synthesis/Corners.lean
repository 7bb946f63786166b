import DatasetDepot.Proofs.Synthesis
import Mathlib.Data.Nat.Bitwise

/-!
Classes at the corners of a cube.

Main statements: a request is taken exactly when the columns have a corner for every class; no two
classes are then at one corner; and counting in words of 64 bits comes to the same.
-/

namespace DatasetDepot.Synthesis

/-- On different sides of zero. -/
def AreOpposite (left right : Single) : Prop :=
  left < 0 ∧ 0 < right ∨ 0 < left ∧ right < 0

theorem areOpposite_corner {label other dimension : Nat}
    (different : label.testBit dimension ≠ other.testBit dimension) :
    AreOpposite (corner label dimension) (corner other dimension) := by
  unfold corner
  cases first : label.testBit dimension <;> cases second : other.testBit dimension
  · exact absurd (first.trans second.symm) different
  · exact .inl (by decide)
  · exact .inr (by decide)
  · exact absurd (first.trans second.symm) different

/-- A cube has so many dimensions that each class can have a corner. -/
theorem le_dimensions (count : Nat) : count ≤ 2 ^ dimensions count := by
  have digits : count - 1 < 2 ^ ((count - 1).log2 + 1) := Nat.lt_log2_self
  have least : 2 ^ ((count - 1).log2 + 1) ≤ 2 ^ dimensions count :=
    Nat.pow_le_pow_right (by decide) (Nat.le_max_left _ _)
  omega

theorem dimensions_le {count length : Nat} (two : 2 ≤ length) (fit : count ≤ 2 ^ length) :
    dimensions count ≤ length := by
  apply Nat.max_le.mpr ⟨?_, two⟩
  by_cases single : count - 1 = 0
  · rw [single]
    exact Nat.le_of_succ_le two
  · exact (Nat.log2_lt single).mpr (by omega)

theorem informative_le (count columns : Nat) : informative count columns ≤ columns :=
  Nat.min_le_right _ _

/-- Leaving coordinates out that classes do not need takes no corner away from them. -/
theorem le_corners_iff (count columns : Nat) :
    count ≤ 2 ^ informative count columns ↔ count ≤ 2 ^ columns := by
  constructor
  · intro fit
    exact fit.trans (Nat.pow_le_pow_right (by decide) (informative_le count columns))
  · intro fit
    rcases Nat.le_total (dimensions count) columns with enough | short
    · rw [informative, Nat.min_eq_left enough]
      exact le_dimensions count
    · rw [informative, Nat.min_eq_right short]
      exact fit

theorem exists_bit_of_ne {label other length : Nat} (fits : label < 2 ^ length)
    (fits' : other < 2 ^ length) (different : label ≠ other) :
    ∃ bit < length, label.testBit bit ≠ other.testBit bit := by
  by_contra none
  apply different
  apply Nat.eq_of_testBit_eq
  intro bit
  rcases Nat.lt_or_ge bit length with inside | outside
  · by_contra differs
    exact none ⟨bit, inside, differs⟩
  · have grown : 2 ^ length ≤ 2 ^ bit := Nat.pow_le_pow_right (by decide) outside
    rw [Nat.testBit_lt_two_pow (Nat.lt_of_lt_of_le fits grown),
      Nat.testBit_lt_two_pow (Nat.lt_of_lt_of_le fits' grown)]

/-- A label that is one word is moved by fewer places than a word has. -/
theorem shift_lt {count columns bit : Nat} (word : count < UInt64.size)
    (inside : bit < informative count columns) : bit < 64 := by
  have short : dimensions count ≤ 64 := dimensions_le (by decide) (Nat.le_of_lt word)
  exact Nat.lt_of_lt_of_le inside ((Nat.min_le_left _ _).trans short)

/-- Every class is at a corner of its own in the leading columns. -/
structure IsPlaced (count columns : Nat) : Prop where
  within : informative count columns ≤ columns
  shifts : count < UInt64.size → ∀ bit < informative count columns, bit < 64
  apart : ∀ label < count, ∀ other < count, label ≠ other →
    ∃ bit < informative count columns, AreOpposite (corner label bit) (corner other bit)

theorem isPlaced_of_le {count columns : Nat} (fit : count ≤ 2 ^ columns) :
    IsPlaced count columns where
  within := informative_le count columns
  shifts := fun word _ => shift_lt word
  apart := by
    intro label inside other inside' different
    have corners := (le_corners_iff count columns).mpr fit
    obtain ⟨bit, below, differs⟩ := exists_bit_of_ne (Nat.lt_of_lt_of_le inside corners)
      (Nat.lt_of_lt_of_le inside' corners) different
    exact ⟨bit, below, areOpposite_corner differs⟩

/-!
Counting in words of 64 bits.
-/

namespace Word

/-- Binary digits of a word without the zeros in front. -/
def length (word : UInt64) : Nat := 64 - word.toBitVec.clz.toNat

/-- One less, unless there is nothing to take it from. -/
def predecessor (word : UInt64) : UInt64 := if word = 0 then 0 else word - 1

def dimensions (count : UInt64) : Nat := max (length (predecessor count)) 2

/-- The corners of a cube; nothing when a word cannot count them. -/
def corners? (dimensions : Nat) : Option UInt64 :=
  if dimensions < 64 then some (1 <<< UInt64.ofNat dimensions) else none

def fits (count : UInt64) (dimensions : Nat) : Bool :=
  match corners? dimensions with
  | none => true
  | some corners => count ≤ corners

def corner (label : UInt64) (dimension : Nat) : Single :=
  if (label >>> UInt64.ofNat dimension) &&& 1 = 1 then separation else -separation

theorem length_eq {word : UInt64} (positive : word ≠ 0) : length word = word.toNat.log2 + 1 := by
  have nonzero : word.toBitVec ≠ 0 := fun none => positive (UInt64.toBitVec_inj.mp none)
  have zeros : word.toBitVec.clz.toNat < 64 := BitVec.clz_lt_iff_ne_zero.mpr nonzero
  have least := BitVec.two_pow_sub_clz_le_toNat_of_ne_zero (by decide) nonzero
  have most : word.toNat < 2 ^ (64 - word.toBitVec.clz.toNat) := BitVec.toNat_lt_two_pow_sub_clz
  have digits : word.toNat.log2 = 64 - 1 - word.toBitVec.clz.toNat := by
    apply (Nat.log2_eq_iff fun none => positive (UInt64.toNat_inj.mp none)).mpr ⟨least, ?_⟩
    rw [show 64 - 1 - word.toBitVec.clz.toNat + 1 = 64 - word.toBitVec.clz.toNat by omega]
    exact most
  unfold length
  omega

theorem toNat_predecessor (word : UInt64) : (predecessor word).toNat = word.toNat - 1 := by
  unfold predecessor
  by_cases none : word = 0
  · subst none
    rfl
  · have one : (1 : UInt64) ≤ word :=
      UInt64.le_iff_toNat_le.mpr (Nat.pos_of_ne_zero fun zero => none (UInt64.toNat_inj.mp zero))
    rw [if_neg none]
    exact UInt64.toNat_sub_of_le _ _ one

theorem dimensions_eq (count : UInt64) :
    dimensions count = Synthesis.dimensions count.toNat := by
  unfold dimensions Synthesis.dimensions
  rw [← toNat_predecessor]
  by_cases none : predecessor count = 0
  · rw [none]
    decide
  · rw [length_eq none]

theorem toNat_ofNat {dimension : Nat} (short : dimension < 64) :
    (UInt64.ofNat dimension).toNat % 64 = dimension := by
  rw [UInt64.toNat_ofNat_of_lt' (Nat.lt_trans short (by decide)), Nat.mod_eq_of_lt short]

theorem toNat_corners {dimensions : Nat} (short : dimensions < 64) :
    ((1 : UInt64) <<< UInt64.ofNat dimensions).toNat = 2 ^ dimensions := by
  rw [UInt64.toNat_shiftLeft, toNat_ofNat short, UInt64.toNat_one, Nat.one_shiftLeft]
  exact Nat.mod_eq_of_lt (Nat.pow_lt_pow_right (by decide) short)

/-- What a word cannot count is more than any word. -/
theorem fits_iff (count : UInt64) (dimensions : Nat) :
    fits count dimensions = true ↔ count.toNat ≤ 2 ^ dimensions := by
  unfold fits corners?
  by_cases short : dimensions < 64
  · rw [if_pos short, ← toNat_corners short]
    exact decide_eq_true_iff.trans UInt64.le_iff_toNat_le
  · rw [if_neg short]
    have grown : 2 ^ 64 ≤ 2 ^ dimensions :=
      Nat.pow_le_pow_right (by decide) (Nat.not_lt.mp short)
    exact ⟨fun _ => Nat.le_of_lt (Nat.lt_of_lt_of_le count.toNat_lt grown), fun _ => rfl⟩

theorem corner_eq (label : UInt64) {dimension : Nat} (short : dimension < 64) :
    corner label dimension = Synthesis.corner label.toNat dimension := by
  have bit : (label >>> UInt64.ofNat dimension) &&& 1 = 1 ↔
      label.toNat.testBit dimension = true := by
    rw [← UInt64.toNat_inj, UInt64.toNat_and, UInt64.toNat_shiftRight, toNat_ofNat short,
      UInt64.toNat_one, Nat.and_one_is_mod, Nat.shiftRight_eq_div_pow,
      Nat.testBit_eq_decide_div_mod_eq, decide_eq_true_iff]
  exact if_congr bit rfl rfl

/-- A number of classes that is one word is counted and placed as words are. -/
structure Counts (count : UInt64) (columns : Nat) : Prop where
  dimensions : min (dimensions count) columns = informative count.toNat columns
  fits : Word.fits count (informative count.toNat columns) = true ↔ count.toNat ≤ 2 ^ columns
  corners : ∀ label : UInt64, ∀ bit < informative count.toNat columns,
    corner label bit = Synthesis.corner label.toNat bit

theorem counts (count : UInt64) (columns : Nat) : Counts count columns where
  dimensions := by
    rw [dimensions_eq]
    rfl
  fits := (fits_iff _ _).trans (le_corners_iff _ _)
  corners := by
    intro label bit inside
    exact corner_eq label (shift_lt count.toNat_lt inside)

end Word

/-- Classes are taken if and only if the columns have a corner for each; every row is then drawn
around the corner of its class, and no two classes have one corner. -/
theorem places_classes (demand : Demand)
    (taken : demand.parameters.check .classification = .ok ()) :
    ((∃ dataset, classification demand = .ok dataset) ↔
        2 ≤ demand.classes ∧ demand.classes ≤ 2 ^ demand.width) ∧
      (∀ fault, classification demand = .error fault →
        ∃ message, fault = .invalidParameter "n_classes" message) ∧
      (∀ dataset, classification demand = .ok dataset →
        IsPlaced demand.classes demand.width ∧
          ∀ (row : Fin dataset.features.rows) (column : Fin dataset.features.columns),
            column < informative demand.classes demand.width →
              dataset.features.entry row column =
                noise (Stream.ofSeed demand.seed) demand.width row column +
                  corner (row % demand.classes) column) ∧
      ∀ count : UInt64, Word.Counts count demand.width := by
  have corners := le_corners_iff demand.classes demand.width
  refine ⟨⟨?_, ?_⟩, ?_, ?_, fun count => Word.counts count demand.width⟩
  · rintro ⟨dataset, made⟩
    obtain ⟨-, fit, -⟩ := classification_eq_ok_iff.mp made
    exact ⟨fit.1, corners.mp fit.2⟩
  · rintro ⟨enough, fit⟩
    exact ⟨_, classification_eq_ok_iff.mpr ⟨taken, ⟨enough, corners.mpr fit⟩, rfl⟩⟩
  · intro fault refused
    obtain ⟨checked, screens, run⟩ := exists_screens demand
    have made := refused.symm.trans (run demand.rows)
    cases screens with
    | untaken untaken => cases taken.symm.trans untaken
    | misfit _ _ message =>
        cases made
        exact ⟨message, rfl⟩
    | fit => cases made
  · intro dataset made
    obtain ⟨-, fit, rfl⟩ := classification_eq_ok_iff.mp made
    refine ⟨isPlaced_of_le (corners.mp fit.2), ?_⟩
    rw [draw_classes]
    intro row column inside
    exact (Matrix.entry_tabulated _ _ _ row column).trans (if_pos inside)

theorem places_four_classes :
    ∃ dataset, classification ⟨8, 2, 42, { classes? := some 4 }⟩ = .ok dataset :=
  (places_classes ⟨8, 2, 42, { classes? := some 4 }⟩ rfl).1.mpr ⟨by decide, by decide⟩

end DatasetDepot.Synthesis
