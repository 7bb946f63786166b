import DatasetDepot.Proofs.Depot.Answer

/-!
Samples on their way through a depot.

A sample is a row of features with its label, if there are labels.  Main statement: what a
request is answered with in a plain format holds every sample of the generated dataset
exactly once.  Without a tested share the rows train in their order; with one they are cut in
two after one permutation, which the labels follow.
-/

namespace DatasetDepot

/-- A row of features with its label. -/
abbrev Sample := Array Single × Option Single

namespace Dataset

def labelOf? (dataset : Dataset) (row : Fin dataset.rows) : Option Single :=
  dataset.labels?.map fun labels => labels.getD row 0

def sample (dataset : Dataset) (row : Fin dataset.rows) : Sample :=
  (dataset.features.row row, dataset.labelOf? row)

def samples (dataset : Dataset) : List Sample :=
  (List.finRange dataset.rows).map dataset.sample

theorem length_samples (dataset : Dataset) : dataset.samples.length = dataset.rows := by
  unfold samples
  rw [List.length_map, List.length_finRange]

/-- A part of a split consists of the features and the labels of these rows; it has labels
exactly if the dataset has. -/
structure Fills (dataset : Dataset) (chosen : List (Fin dataset.rows)) (x : Value)
    (y? : Option Value) : Prop where
  features : x.contents? = some (.table dataset.columns (chosen.map dataset.features.row))
  labels : y?.map Value.contents? = dataset.labels?.map fun labels =>
    some (.vector (chosen.map fun (row : Fin dataset.rows) => labels.getD row.val 0))

end Dataset

namespace Split

/-- The samples of a part, read back from its rows and its labels. -/
def partSamples? (x : Value) (y? : Option Value) : Option (List Sample) := do
  let rows ← (← x.contents?).rows?
  match y? with
  | none => return rows.map fun row => (row, none)
  | some y => return rows.zip ((← (← y.contents?).entries?).map some)

/-- The samples to train on, and then those to test on. -/
def samples? (split : Split) : Option (List Sample) := do
  let training ← partSamples? split.trainX split.trainY?
  match split.testX? with
  | none => return training
  | some testX => return training ++ (← partSamples? testX split.testY?)

end Split

namespace Dataset

variable {dataset : Dataset} {chosen : List (Fin dataset.rows)} {x : Value} {y? : Option Value}

theorem Fills.partSamples? (fills : dataset.Fills chosen x y?) :
    Split.partSamples? x y? = some (chosen.map dataset.sample) := by
  have reads := fills.labels
  unfold Split.partSamples? sample labelOf?
  rw [fills.features]
  cases present : dataset.labels? with
  | none =>
      rw [present] at reads
      cases y? with
      | none => exact congrArg some List.map_map
      | some y => cases reads
  | some labels =>
      rw [present] at reads
      cases y? with
      | none => cases reads
      | some y =>
          have entries := Option.some.inj reads
          simp only [entries, Contents.rows?, Contents.entries?, Option.bind_eq_bind,
            Option.bind_some, List.map_map]
          exact congrArg some List.zip_map'

theorem Fills.isSome (fills : dataset.Fills chosen x y?) :
    y?.isSome = dataset.labels?.isSome := by
  have present := congrArg Option.isSome fills.labels
  simpa only [Option.isSome_map] using present

/-- A part that is converted without a change to its contents holds the same rows. -/
theorem Fills.convert {converted : Value} {converted? : Option Value}
    (fills : dataset.Fills chosen x y?) (alike : converted.contents? = x.contents?)
    (labelsAlike : Option.Rel (fun value result => result.contents? = value.contents?)
      y? converted?) :
    dataset.Fills chosen converted converted? where
  features := alike.trans fills.features
  labels := by
    have labels := fills.labels
    cases labelsAlike with
    | none => exact labels
    | some alike =>
        simp only [Option.map_some] at labels ⊢
        rw [alike]
        exact labels

theorem fills_ofDataset (dataset : Dataset) :
    dataset.Fills (List.finRange dataset.rows) (Split.ofDataset dataset).trainX
      (Split.ofDataset dataset).trainY? where
  features := rfl
  labels := by
    unfold Split.ofDataset
    rw [Option.map_map]
    apply Option.map_congr
    intro labels present
    have size : labels.size = dataset.rows := dataset.aligned labels present
    refine congrArg some (congrArg Contents.vector ?_)
    apply List.ext_getElem
    · simpa using size
    · intro place inside _
      have bound : place < labels.size := by simpa using inside
      simp [bound]

theorem fills_of_selection (dataset : Dataset) (chosen : Array (Fin dataset.rows)) :
    dataset.Fills chosen.toList (dataset.featuresOf chosen) (dataset.labelsOf? chosen) where
  features := congrArg some (dataset.features.contents_selectRows chosen)
  labels := by
    unfold labelsOf?
    rw [Option.map_map]
    apply Option.map_congr
    intro labels _
    exact congrArg some (congrArg Contents.vector Array.toList_map)

theorem fills_training (dataset : Dataset) (order : Array (Fin dataset.rows))
    (trainSize : Nat) :
    dataset.Fills (order.toList.take trainSize) (dataset.cut order trainSize).trainX
      (dataset.cut order trainSize).trainY? := by
  have fills := dataset.fills_of_selection (order.extract 0 trainSize)
  rw [Array.toList_extract, List.extract_eq_take_drop, List.drop_zero, Nat.sub_zero] at fills
  exact fills

theorem fills_testing (dataset : Dataset) (order : Array (Fin dataset.rows))
    (trainSize : Nat) :
    dataset.Fills (order.toList.drop trainSize)
      (dataset.featuresOf (order.extract trainSize order.size))
      (dataset.cut order trainSize).testY? := by
  have fills := dataset.fills_of_selection (order.extract trainSize order.size)
  have rest : (order.toList.drop trainSize).take (order.size - trainSize) =
      order.toList.drop trainSize := by
    apply List.take_of_length_le
    rw [List.length_drop, Array.length_toList]
  rw [Array.toList_extract, List.extract_eq_take_drop, rest] at fills
  exact fills

/-- All rows train in their order, and nothing is there to test on. -/
structure TrainsOn (dataset : Dataset) (split : Split) : Prop where
  training : dataset.Fills (List.finRange dataset.rows) split.trainX split.trainY?
  testX : split.testX? = none
  testY : split.testY? = none

/-- One permutation of the rows is cut in two: the rows before the cut train, the others
test. -/
def IsCutInto (dataset : Dataset) (trainSize : Nat) (split : Split) : Prop :=
  ∃ (order : Equiv.Perm (Fin dataset.rows)) (testX : Value),
    dataset.Fills (((List.finRange dataset.rows).map order).take trainSize) split.trainX
      split.trainY? ∧
    split.testX? = some testX ∧
    dataset.Fills (((List.finRange dataset.rows).map order).drop trainSize) testX split.testY?

theorem trainsOn_ofDataset (dataset : Dataset) : dataset.TrainsOn (Split.ofDataset dataset) :=
  ⟨dataset.fills_ofDataset, rfl, rfl⟩

theorem isCutInto_cut (dataset : Dataset) (trainSize : Nat) (seed : UInt64) :
    dataset.IsCutInto trainSize (dataset.cut (dataset.order seed) trainSize) := by
  obtain ⟨order, lists⟩ := Drawing.exists_perm_of_perm_finRange
    (Drawing.perm_permutation dataset.rows (Stream.ofSeed seed))
  have listed : (dataset.order seed).toList = (List.finRange dataset.rows).map order := lists
  refine ⟨order, _, ?_, rfl, ?_⟩
  · rw [← listed]
    exact dataset.fills_training _ trainSize
  · rw [← listed]
    exact dataset.fills_testing _ trainSize

section Converted

/-- The parts of one split hold what the parts of the other hold. -/
abbrev Alike : Split → Split → Prop :=
  Split.Related fun value converted => converted.contents? = value.contents?

variable {split converted : Split}

theorem TrainsOn.convert (trains : dataset.TrainsOn split) (alike : Alike split converted) :
    dataset.TrainsOn converted := by
  have testX := alike.testX
  have testY := alike.testY
  rw [trains.testX] at testX
  rw [trains.testY] at testY
  cases presentX : converted.testX? with
  | some _ =>
      rw [presentX] at testX
      cases testX
  | none =>
      cases presentY : converted.testY? with
      | some _ =>
          rw [presentY] at testY
          cases testY
      | none => exact ⟨trains.training.convert alike.trainX alike.trainY, presentX, presentY⟩

theorem IsCutInto.convert {trainSize : Nat} (cuts : dataset.IsCutInto trainSize split)
    (alike : Alike split converted) : dataset.IsCutInto trainSize converted := by
  obtain ⟨order, testX, training, present, testing⟩ := cuts
  have parts := alike.testX
  rw [present] at parts
  cases presentConverted : converted.testX? with
  | none =>
      rw [presentConverted] at parts
      cases parts
  | some convertedX =>
      rw [presentConverted] at parts
      cases parts with
      | some same =>
          exact ⟨order, convertedX, training.convert alike.trainX alike.trainY, presentConverted,
            testing.convert same alike.testY⟩

end Converted

theorem TrainsOn.samples? {split : Split} (trains : dataset.TrainsOn split) :
    split.samples? = some dataset.samples := by
  unfold Split.samples?
  rw [trains.training.partSamples?, trains.testX]
  rfl

theorem IsCutInto.samples? {trainSize : Nat} {split : Split}
    (cuts : dataset.IsCutInto trainSize split) :
    ∃ samples, split.samples? = some samples ∧ samples.Perm dataset.samples := by
  obtain ⟨order, testX, training, present, testing⟩ := cuts
  refine ⟨((List.finRange dataset.rows).map order).map dataset.sample, ?_, ?_⟩
  · unfold Split.samples?
    rw [training.partSamples?, present]
    simp only [testing.partSamples?, Option.bind_eq_bind, Option.bind_some]
    rw [← List.map_append, List.take_append_drop]
    rfl
  · exact order.map_finRange_perm.map dataset.sample

theorem TrainsOn.labelled {split : Split} (trains : dataset.TrainsOn split) :
    split.trainY?.isSome = dataset.labels?.isSome ∧ split.testY?.isSome = false := by
  rw [trains.testY]
  exact ⟨trains.training.isSome, rfl⟩

theorem IsCutInto.labelled {trainSize : Nat} {split : Split}
    (cuts : dataset.IsCutInto trainSize split) :
    split.trainY?.isSome = dataset.labels?.isSome ∧
      split.testY?.isSome = dataset.labels?.isSome := by
  obtain ⟨order, testX, training, present, testing⟩ := cuts
  exact ⟨training.isSome, testing.isSome⟩

/-- What a request for this dataset comes to: without a tested share the rows train in their
order, with one they are cut in two by a permutation, which is refused only if there are
fewer rows than are to train. -/
structure IsDelivered (dataset : Dataset) (request : Request) (outcome : Except Fault Split) :
    Prop where
  whole : request.tested = ⟨0⟩ ∨ request.tested = ⟨0x8000000000000000⟩ →
    ∃ split, outcome = .ok split ∧ dataset.TrainsOn split ∧
      split.samples? = some dataset.samples
  refused : 0 < request.tested.shareValue →
    (outcome = .error (.split (request.trainSize dataset.rows) dataset.rows) ↔
      dataset.rows < request.trainSize dataset.rows)
  divided : 0 < request.tested.shareValue → request.trainSize dataset.rows ≤ dataset.rows →
    ∃ split, outcome = .ok split ∧ dataset.IsCutInto (request.trainSize dataset.rows) split ∧
      ∃ samples, split.samples? = some samples ∧ samples.Perm dataset.samples
  labelled : ∀ split, outcome = .ok split →
    (split.trainY?.isSome ↔ dataset.labels?.isSome) ∧
      (split.testY?.isSome ↔ dataset.labels?.isSome ∧ 0 < request.tested.shareValue)

end Dataset

namespace Depot

variable {depot : Depot} {services : Services} {request : Request} {world : World}
  {dataset : Dataset} {ratio : Double}

theorem workedOut_alike
    (builtIn : depot.converters.find request.format = Converter.standard ratio request.format)
    (plain : request.format.isSparse = false) {split : Split}
    (parts : depot.dealt services request world = .ok split) :
    ∃ converted, depot.workedOut services request world = .ok converted ∧
      Dataset.Alike split converted := by
  apply workedOut_of_dealt builtIn _ parts
  intro value dense
  apply (Conversion.ofValue_yields ratio request.format dense).mono
  intro converted agrees
  unfold Format.Agrees at agrees
  rw [plain] at agrees
  obtain ⟨_, _, contents, reads, alike⟩ := agrees
  rw [alike, ← reads]
  cases dense with
  | matrix dense => exact congrArg some (dense.contents_reorder .rowMajor)
  | vector _ => rfl

/-- Whether the rows can be dealt is decided before the conversion, which cannot fail. -/
theorem workedOut_cases
    (builtIn : depot.converters.find request.format = Converter.standard ratio request.format)
    (plain : request.format.isSparse = false)
    (accepted : request.tested.isProperShare = true)
    (returned : depot.generated services request world = .ok dataset) :
    (¬ 0 < request.tested.shareValue ∧
      ∃ split, depot.workedOut services request world = .ok split ∧ dataset.TrainsOn split) ∨
    (0 < request.tested.shareValue ∧ request.trainSize dataset.rows ≤ dataset.rows ∧
      ∃ split, depot.workedOut services request world = .ok split ∧
        dataset.IsCutInto (request.trainSize dataset.rows) split) ∨
    (0 < request.tested.shareValue ∧ dataset.rows < request.trainSize dataset.rows ∧
      depot.workedOut services request world =
        .error (.split (request.trainSize dataset.rows) dataset.rows)) := by
  have dealing := dealt_of_generated accepted returned
  by_cases positive : 0 < request.tested.shareValue
  · rw [splitFor_of_pos positive, Dataset.divide] at dealing
    by_cases fits : request.trainSize dataset.rows ≤ dataset.rows
    · rw [if_pos fits] at dealing
      obtain ⟨split, worked, alike⟩ := workedOut_alike builtIn plain dealing
      exact .inr (.inl ⟨positive, fits, split, worked,
        (dataset.isCutInto_cut _ request.seed).convert alike⟩)
    · rw [if_neg fits] at dealing
      refine .inr (.inr ⟨positive, Nat.lt_of_not_le fits, ?_⟩)
      rw [workedOut_eq, dealing]
      rfl
  · rw [splitFor_of_not_pos positive] at dealing
    obtain ⟨split, worked, alike⟩ := workedOut_alike builtIn plain dealing
    exact .inl ⟨positive, split, worked, dataset.trainsOn_ofDataset.convert alike⟩

theorem isDelivered_workedOut
    (builtIn : depot.converters.find request.format = Converter.standard ratio request.format)
    (plain : request.format.isSparse = false)
    (accepted : request.tested.isProperShare = true)
    (returned : depot.generated services request world = .ok dataset) :
    dataset.IsDelivered request (depot.workedOut services request world) := by
  rcases workedOut_cases builtIn plain accepted returned with
    ⟨zero, split, worked, trains⟩ | ⟨positive, fits, split, worked, cuts⟩ |
      ⟨positive, exceeds, refused⟩
  · rw [worked]
    constructor
    · intro _
      exact ⟨split, rfl, trains, trains.samples?⟩
    · intro positive
      exact absurd positive zero
    · intro positive
      exact absurd positive zero
    · intro result same
      cases same
      simp [trains.labelled, zero]
  · rw [worked]
    constructor
    · intro zero
      exact absurd positive (not_pos_of_zero zero)
    · intro _
      constructor
      · intro impossible
        cases impossible
      · intro exceeds
        exact absurd fits (Nat.not_le_of_lt exceeds)
    · intro _ _
      exact ⟨split, rfl, cuts, cuts.samples?⟩
    · intro result same
      cases same
      simp [cuts.labelled, positive]
  · rw [refused]
    constructor
    · intro zero
      exact absurd positive (not_pos_of_zero zero)
    · intro _
      exact ⟨fun _ => exceeds, fun _ => rfl⟩
    · intro _ fits
      exact absurd fits (Nat.not_le_of_lt exceeds)
    · intro result impossible
      cases impossible

/-- No sample is lost, doubled or parted from its label on its way through a depot, whatever
made the dataset: this holds of what a request is worked out to, and so of its answer when
nothing is remembered for it. -/
theorem isDelivered_of_generated
    (builtIn : depot.converters.find request.format = Converter.standard ratio request.format)
    (plain : request.format.isSparse = false)
    (accepted : request.tested.isProperShare = true)
    (returned : depot.generated services request world = .ok dataset) :
    dataset.IsDelivered request (depot.workedOut services request world) ∧
      (depot.recent.find? request = none →
        dataset.IsDelivered request (depot.answered services request world)) := by
  have delivered := isDelivered_workedOut builtIn plain accepted returned
  refine ⟨delivered, ?_⟩
  intro missed
  rw [answered_of_find?_eq_none depot services request world missed]
  exact delivered

/-- Three labelled rows, a half of which is set aside for testing. -/
theorem isDelivered_of_three_rows :
    let dataset := Dataset.ofRows 1 #[(0, #[1]), (1, #[2]), (0, #[3])]
    let request : Request :=
      { title := .zeros, format := .pandas, samples := 2, tested := ⟨0x3FE0000000000000⟩ }
    dataset.IsDelivered request
      ((single dataset 1).answered Services.idle request World.blank) :=
  (isDelivered_of_generated rfl rfl (by decide +kernel)
    (generated_single _ 1 Services.idle _ World.blank)).2 rfl

end Depot

end DatasetDepot
