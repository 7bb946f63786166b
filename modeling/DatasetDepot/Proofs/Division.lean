import DatasetDepot.Proofs.Depot.Samples

/-!
Divisions of a dataset into rows to train on and rows to test on.

The order that is cut in two belongs to a number of rows and a seed; neither what the rows hold nor
how many are to train makes a difference to it.  Main statement: every dataset of that height is cut
along the same permutation, so that a later cut only moves samples from the front of the tests to
the end of the training.
-/

namespace DatasetDepot

namespace Dataset

/-- The rows before the cut train, and all others test; labels are there if the dataset has them,
and something to test on is there in any case. -/
structure IsCutAlong (dataset : Dataset) (order : List (Fin dataset.rows)) (trainSize : Nat)
    (split : Split) : Prop where
  plain : split.IsDense
  training : dataset.Fills (order.take trainSize) split.trainX split.trainY?
  testing : ∃ testX, split.testX? = some testX ∧
    dataset.Fills (order.drop trainSize) testX split.testY?
  labelled : split.testY?.isSome = dataset.labels?.isSome

theorem isCutAlong_cut (dataset : Dataset) (order : Array (Fin dataset.rows)) (trainSize : Nat) :
    dataset.IsCutAlong order.toList trainSize (dataset.cut order trainSize) where
  plain := dataset.isDense_cut order trainSize
  training := dataset.fills_training order trainSize
  testing := ⟨_, rfl, dataset.fills_testing order trainSize⟩
  labelled := (dataset.fills_testing order trainSize).isSome

/-- A dataset is refused if there are too few rows to train on, and otherwise cut. -/
theorem divide_cases (dataset : Dataset) (trainSize : Nat) (seed : UInt64) :
    (dataset.divide trainSize seed = .error (.split trainSize dataset.rows) ↔
      dataset.rows < trainSize) ∧
    (trainSize ≤ dataset.rows → dataset.divide trainSize seed =
      .ok (dataset.cut (dataset.order seed) trainSize)) := by
  unfold divide
  by_cases fits : trainSize ≤ dataset.rows
  · rw [if_pos fits]
    constructor
    · constructor
      · intro impossible
        cases impossible
      · intro exceeds
        exact absurd fits (Nat.not_le_of_lt exceeds)
    · intro _
      rfl
  · rw [if_neg fits]
    exact ⟨⟨fun _ => Nat.lt_of_not_le fits, fun _ => rfl⟩, fun inside => absurd inside fits⟩

end Dataset

/-- What one split trains on is the beginning of what the other trains on, and it tests on what the
other tests on and on more in front of that. -/
structure Split.Precedes (left right : Split) : Prop where
  training : ∃ fewer more, partSamples? left.trainX left.trainY? = some fewer ∧
    partSamples? right.trainX right.trainY? = some more ∧ fewer <+: more
  testing : ∃ leftX rightX fewer more, left.testX? = some leftX ∧ right.testX? = some rightX ∧
    partSamples? leftX left.testY? = some more ∧
    partSamples? rightX right.testY? = some fewer ∧ fewer <:+ more

namespace Dataset

variable {dataset : Dataset}

theorem IsCutAlong.precedes {order : List (Fin dataset.rows)} {fewer more : Nat}
    {left right : Split} (first : dataset.IsCutAlong order fewer left)
    (second : dataset.IsCutAlong order more right) (before : fewer ≤ more) :
    left.Precedes right where
  training :=
    ⟨_, _, first.training.partSamples?, second.training.partSamples?,
      (List.take_prefix_take_left before).map dataset.sample⟩
  testing := by
    obtain ⟨leftX, isLeft, leftFills⟩ := first.testing
    obtain ⟨rightX, isRight, rightFills⟩ := second.testing
    exact ⟨leftX, rightX, _, _, isLeft, isRight, leftFills.partSamples?, rightFills.partSamples?,
      (List.drop_suffix_drop_left order before).map dataset.sample⟩

/-- One permutation for every number of rows and every seed: all datasets of that many rows are cut
along it, wherever the cut is, and only a cut behind the last row is refused. -/
theorem divides_along_order (rows : Nat) (seed : UInt64) :
    ∃ order : Equiv.Perm (Fin rows), ∀ (dataset : Dataset) (height : dataset.rows = rows),
      let listed := (List.finRange rows).map fun place => (order place).cast height.symm
      (∀ trainSize : Nat,
        (dataset.divide trainSize seed = .error (.split trainSize rows) ↔ rows < trainSize) ∧
        (trainSize ≤ rows → ∃ split, dataset.divide trainSize seed = .ok split ∧
          dataset.IsCutAlong listed trainSize split)) ∧
      ∀ fewer more : Nat, fewer ≤ more → more ≤ rows → ∃ left right,
        dataset.divide fewer seed = .ok left ∧ dataset.divide more seed = .ok right ∧
          left.Precedes right := by
  obtain ⟨order, lists⟩ := Drawing.exists_perm_of_perm_finRange
    (Drawing.perm_permutation rows (Stream.ofSeed seed))
  refine ⟨order, ?_⟩
  rintro dataset rfl listed
  have isListed : (dataset.order seed).toList = listed := lists
  have cuts : ∀ trainSize, dataset.IsCutAlong listed trainSize
      (dataset.cut (dataset.order seed) trainSize) := by
    intro trainSize
    rw [← isListed]
    exact dataset.isCutAlong_cut _ trainSize
  constructor
  · intro trainSize
    obtain ⟨refused, given⟩ := dataset.divide_cases trainSize seed
    exact ⟨refused, fun fits => ⟨_, given fits, cuts trainSize⟩⟩
  · intro fewer more before fits
    exact ⟨_, _, (dataset.divide_cases fewer seed).2 (before.trans fits),
      (dataset.divide_cases more seed).2 fits, (cuts fewer).precedes (cuts more) before⟩

/-- Three rows are cut behind the first and behind the second, and not behind a fourth. -/
theorem divides_along_order_of_three_rows :
    let dataset := Dataset.ofRows 1 #[(0, #[1]), (1, #[2]), (0, #[3])]
    dataset.rows = 3 ∧
      (∃ left right, dataset.divide 1 42 = .ok left ∧ dataset.divide 2 42 = .ok right ∧
        left.Precedes right) ∧
      (∃ split, dataset.divide 3 42 = .ok split ∧ split.testX?.isSome) ∧
      dataset.divide 4 42 = .error (.split 4 3) := by
  intro dataset
  obtain ⟨_, along⟩ := divides_along_order 3 42
  obtain ⟨cuts, precedes⟩ := along dataset rfl
  obtain ⟨split, whole, isCut⟩ := (cuts 3).2 (by decide)
  obtain ⟨_, present, _⟩ := isCut.testing
  refine ⟨rfl, precedes 1 2 (by decide) (by decide), ⟨split, whole, ?_⟩, ?_⟩
  · rw [present]
    rfl
  · exact (cuts 4).1.mpr (by decide)

end Dataset

end DatasetDepot
