import DatasetDepot.Exercise
import DatasetDepot.Proofs.Conversion.Reassembly

/-!
Sizes that are reported as a mismatch.

Main statement: datasets, query groups and bundles that are refused for their sizes are refused with
two sizes that differ, with one exception.  Where a split should have a value and a bundle of a
single item stands instead, one value is expected and one item is counted.
-/

namespace DatasetDepot

variable {Input Output : Type}

/-- If the outcome is that sizes do not match, the two sizes are not the same. -/
def TellsSizesApart (outcome : Except Fault Output) : Prop :=
  ∀ expected actual, outcome = .error (.shapeMismatch expected actual) → expected ≠ actual

namespace TellsSizesApart

theorem ok (result : Output) : TellsSizesApart (.ok result) := by
  intro expected actual impossible
  cases impossible

theorem shapeMismatch_iff (expected actual : Nat) :
    TellsSizesApart (.error (.shapeMismatch expected actual) : Except Fault Output) ↔
      expected ≠ actual := by
  constructor
  · intro tells
    exact tells expected actual rfl
  · rintro apart _ _ same
    cases same
    exact apart

theorem invalidParameter (name reason : String) :
    TellsSizesApart (.error (.invalidParameter name reason) : Except Fault Output) := by
  intro expected actual impossible
  cases impossible

theorem bind_iff {outcome : Except Fault Input} {next : Input → Except Fault Output} :
    TellsSizesApart (outcome >>= next) ↔
      TellsSizesApart outcome ∧ ∀ input, outcome = .ok input → TellsSizesApart (next input) := by
  cases outcome with
  | ok input =>
      constructor
      · intro tells
        refine ⟨.ok input, ?_⟩
        rintro _ ⟨⟩
        exact tells
      · intro tells
        exact tells.2 input rfl
  | error fault =>
      constructor
      · intro tells
        refine ⟨?_, fun _ impossible => by cases impossible⟩
        rintro expected actual ⟨⟩
        exact tells expected actual rfl
      · rintro ⟨tells, _⟩ expected actual failed
        cases failed
        exact tells expected actual rfl

theorem bind {outcome : Except Fault Input} {next : Input → Except Fault Output}
    (first : TellsSizesApart outcome) (rest : ∀ input, TellsSizesApart (next input)) :
    TellsSizesApart (outcome >>= next) :=
  bind_iff.mpr ⟨first, fun input _ => rest input⟩

end TellsSizesApart

namespace Dataset

theorem tellsSizesApart_ofParts (features : Matrix) (labels? : Option (Array Single)) :
    TellsSizesApart (ofParts features labels?) := by
  unfold ofParts
  cases labels? with
  | none => exact .ok _
  | some labels =>
      simp only
      by_cases aligned : labels.size = features.rows
      · rw [dif_pos aligned]
        exact .ok _
      · rw [dif_neg aligned, TellsSizesApart.shapeMismatch_iff]
        exact Ne.symm aligned

/-- A side of zero counts as one here, so that the other side has to be countable by itself. -/
theorem countable_of_lt {rows columns : Nat} (rowsBound : rows < 2 ^ 63)
    (columnsBound : columns < 2 ^ 63) (bound : rows * columns < 2 ^ 63) :
    max rows 1 * max columns 1 ≤ maxEntries := by
  have least : maxEntries = 2 ^ 63 - 1 := rfl
  rcases Nat.eq_zero_or_pos rows with rfl | someRows
  · rw [Nat.zero_max, Nat.one_mul]
    omega
  · rcases Nat.eq_zero_or_pos columns with rfl | someColumns
    · rw [Nat.zero_max, Nat.mul_one]
      omega
    · rw [Nat.max_eq_left someRows, Nat.max_eq_left someColumns]
      omega

/-- A table that has no columns without rows is countable if its entries and its rows are. -/
theorem countable_of_product {rows columns : Nat} (rowsBound : rows < 2 ^ 63)
    (bound : rows * columns < 2 ^ 63) (bare : rows = 0 → columns = 0) :
    max rows 1 * max columns 1 ≤ maxEntries := by
  refine countable_of_lt rowsBound ?_ bound
  rcases Nat.eq_zero_or_pos rows with none | some
  · rw [bare none]
    decide
  · exact Nat.lt_of_le_of_lt (Nat.le_mul_of_pos_left columns some) bound

/-- Sides whose product can be counted are only refused if the values do not fill them. -/
theorem tellsSizesApart_ofRowMajor {rows columns : Nat} (rowsBound : rows < 2 ^ 63)
    (columnsBound : columns < 2 ^ 63) (bound : rows * columns < 2 ^ 63) (values : Array Single)
    (labels? : Option (Array Single)) :
    TellsSizesApart (ofRowMajor rows columns values labels?) := by
  have counted : min (rows * columns) Numeric.maxCount = rows * columns := by
    have greatest : Numeric.maxCount = 2 ^ 64 - 1 := rfl
    omega
  unfold ofRowMajor
  rw [if_pos (countable_of_lt rowsBound columnsBound bound), counted]
  unfold Matrix.ofBuffer?
  by_cases fills : values.size = rows * columns
  · rw [dif_pos fills]
    exact tellsSizesApart_ofParts _ labels?
  · rw [dif_neg fills]
    exact (TellsSizesApart.shapeMismatch_iff _ _).mpr (Ne.symm fills)

end Dataset

namespace Exercise

theorem tellsSizesApart_checkQueries (rows : Nat) (queries : List Int) :
    TellsSizesApart (checkQueries rows queries) := by
  unfold checkQueries
  by_cases same : queries.length = rows
  · rw [if_pos same]
    exact .ok ()
  · rw [if_neg same, TellsSizesApart.shapeMismatch_iff]
    exact Ne.symm same

theorem tellsSizesApart_withQueries (exercise : Exercise) (train? test? : Option (List Int)) :
    TellsSizesApart (exercise.withQueries train? test?) := by
  unfold withQueries
  cases test? with
  | none =>
      cases train? with
      | none => exact .ok _
      | some queries => exact (tellsSizesApart_checkQueries _ _).bind fun _ => .ok _
  | some tested =>
      cases exercise.split.testX? with
      | none =>
          cases train? with
          | none => exact .invalidParameter _ _
          | some queries =>
              exact (tellsSizesApart_checkQueries _ _).bind fun _ => .invalidParameter _ _
      | some features =>
          have rest {annotated : Exercise} : TellsSizesApart
              (checkQueries features.rows tested >>= fun _ => .ok annotated) :=
            (tellsSizesApart_checkQueries _ _).bind fun _ => .ok _
          cases train? with
          | none => exact rest
          | some queries => exact (tellsSizesApart_checkQueries _ _).bind fun _ => rest

end Exercise

namespace Bundle

/-- The first part of a would-be split that is none is a bundle of a single item. -/
inductive WrapsOne : Bundle → Prop
  | trainX (item trainY testX testY : Bundle) :
      WrapsOne (.tuple [.tuple [item], trainY, testX, testY])
  | trainY (trainX : Value) (item testX testY : Bundle) :
      WrapsOne (.tuple [.value trainX, .tuple [item], testX, testY])
  | testX (trainX : Value) (trainY? : Option Value) (item testY : Bundle) :
      WrapsOne (.tuple [.value trainX, ofOption trainY?, .tuple [item], testY])
  | testY (trainX : Value) (trainY? testX? : Option Value) (item : Bundle) :
      WrapsOne (.tuple [.value trainX, ofOption trainY?, ofOption testX?, .tuple [item]])

theorem misfits_of_wrapsOne {bundle : Bundle} (wraps : bundle.WrapsOne) : bundle.Misfits 1 1 := by
  cases wraps with
  | trainX item trainY testX testY => exact .trainX [item] trainY testX testY
  | trainY trainX item testX testY => exact .trainY trainX [item] testX testY
  | testX trainX trainY? item testY => exact .testX trainX trainY? [item] testY
  | testY trainX trainY? testX? item => exact .testY trainX trainY? testX? [item]

/-- Of all misfits, only a bundle of a single item is counted as what is expected. -/
theorem wrapsOne_of_misfits {bundle : Bundle} {expected actual : Nat}
    (misfits : bundle.Misfits expected actual) (same : expected = actual) : bundle.WrapsOne := by
  have single {items : List Bundle} (one : 1 = items.length) : ∃ item, items = [item] :=
    List.length_eq_one_iff.mp one.symm
  cases misfits with
  | absent | value | untrained => cases same
  | tuple other => exact absurd same.symm other
  | trainX items trainY testX testY =>
      obtain ⟨item, rfl⟩ := single same
      exact .trainX item trainY testX testY
  | trainY trainX items testX testY =>
      obtain ⟨item, rfl⟩ := single same
      exact .trainY trainX item testX testY
  | testX trainX trainY? items testY =>
      obtain ⟨item, rfl⟩ := single same
      exact .testX trainX trainY? item testY
  | testY trainX trainY? testX? items =>
      obtain ⟨item, rfl⟩ := single same
      exact .testY trainX trainY? testX? item

/-- A bundle that is no split is refused with two sizes that differ unless it wraps one item. -/
theorem tellsSizesApart_toSplit_iff (bundle : Bundle) :
    TellsSizesApart bundle.toSplit ↔ ¬ bundle.WrapsOne := by
  constructor
  · intro tells wraps
    exact tells 1 1 (toSplit_of_misfits (misfits_of_wrapsOne wraps)) rfl
  · rintro plain expected actual failed same
    obtain ⟨_, _, misfits, ⟨⟩⟩ := toSplit_eq_error_iff.mp failed
    exact plain (wrapsOne_of_misfits misfits same)

end Bundle

namespace ConverterSet

theorem convertSplit_eq_bind (converters : ConverterSet) (format : Format) (split : Split)
    (stream : Stream) :
    ((converters.convertSplit format split).run.run stream).1 =
      (((converters.find format).convert (.ofSplit split)).run.run stream).1 >>=
        Bundle.toSplit := by
  rw [run_convertSplit]
  rcases ((converters.find format).convert (.ofSplit split)).run.run stream with
    ⟨fault | parts, after⟩
  · rfl
  · rfl

/-- A standard conversion keeps the shape of a split and is never refused for it. -/
theorem tellsSizesApart_standard (ratio : Double) (format : Format) (split : Split)
    (stream : Stream) :
    TellsSizesApart (((standard ratio).convertSplit format split).run.run stream).1 := by
  have converts := split.converts ratio format stream
  generalize ((standard ratio).convertSplit format split).run.run stream = result at converts
  cases converts with
  | done parts => exact .ok _
  | refused parts =>
      intro expected actual failed
      cases failed
      cases parts

end ConverterSet

/-- Reading a split back and converting one tell the sizes of a mismatch apart unless a bundle wraps
a single item in place of a value; what a replaced converter reports is passed on as it is.  All
other checks of sizes tell them apart in any case. -/
theorem tells_sizes_apart (bundle : Bundle) (converters : ConverterSet) (format : Format)
    (split : Split) (stream : Stream) :
    let converted := (((converters.find format).convert (.ofSplit split)).run.run stream).1
    (TellsSizesApart bundle.toSplit ↔ ¬ bundle.WrapsOne) ∧
    (TellsSizesApart ((converters.convertSplit format split).run.run stream).1 ↔
      TellsSizesApart converted ∧ ∀ parts, converted = .ok parts → ¬ parts.WrapsOne) ∧
    (∀ ratio, TellsSizesApart
      (((ConverterSet.standard ratio).convertSplit format split).run.run stream).1) ∧
    (∀ features labels?, TellsSizesApart (Dataset.ofParts features labels?)) ∧
    (∀ rows columns values labels?, rows < 2 ^ 63 → columns < 2 ^ 63 → rows * columns < 2 ^ 63 →
      TellsSizesApart (Dataset.ofRowMajor rows columns values labels?)) ∧
    ∀ (exercise : Exercise) train? test?, TellsSizesApart (exercise.withQueries train? test?) := by
  intro converted
  refine ⟨bundle.tellsSizesApart_toSplit_iff, ?_, ?_, Dataset.tellsSizesApart_ofParts, ?_,
    Exercise.tellsSizesApart_withQueries⟩
  · rw [converters.convertSplit_eq_bind, TellsSizesApart.bind_iff]
    simp only [Bundle.tellsSizesApart_toSplit_iff, converted]
  · intro ratio
    exact ConverterSet.tellsSizesApart_standard ratio format split stream
  · intro rows columns values labels? rowsBound columnsBound bound
    exact Dataset.tellsSizesApart_ofRowMajor rowsBound columnsBound bound values labels?

/-- Two items in place of a value, and one number in place of two. -/
theorem tells_sizes_apart_of_two_items :
    let pair : Bundle := .tuple [.tuple [.absent, .absent], .absent, .absent, .absent]
    let plain : Split := ⟨.vector #[1], none, none, none⟩
    let ratio := ConverterSet.defaultRatio
    pair.toSplit = .error (.shapeMismatch 1 2) ∧ ¬ pair.WrapsOne ∧
      Dataset.ofRowMajor 2 1 #[5] none = .error (.shapeMismatch 2 1) ∧
      TellsSizesApart (Dataset.ofRowMajor 2 1 #[5] none) ∧
      TellsSizesApart
        (((ConverterSet.standard ratio).convertSplit .pandas plain).run.run
          (Stream.ofSeed 7)).1 := by
  intro pair plain ratio
  have failed : pair.toSplit = .error (.shapeMismatch 1 2) := rfl
  have told : TellsSizesApart pair.toSplit := by
    rw [failed, TellsSizesApart.shapeMismatch_iff]
    decide
  obtain ⟨reads, _, standard, _, row, _⟩ := tells_sizes_apart pair (.standard ratio) .pandas
    plain (Stream.ofSeed 7)
  exact ⟨failed, reads.mp told, rfl,
    row 2 1 #[5] none (by decide) (by decide) (by decide), standard _⟩

/-- A value that is wrapped once is refused because one element is expected and one is there. -/
theorem toSplit_reports_one_for_one :
    let wrapped : Bundle := .tuple [.tuple [.value (.vector #[1])], .absent, .absent, .absent]
    wrapped.toSplit = .error (.shapeMismatch 1 1) ∧ ¬ TellsSizesApart wrapped.toSplit := by
  intro wrapped
  have failed : wrapped.toSplit = .error (.shapeMismatch 1 1) := rfl
  exact ⟨failed, fun tells => tells 1 1 failed rfl⟩

end DatasetDepot
