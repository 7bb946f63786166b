import DatasetDepot.Depot
import DatasetDepot.Proofs.Action
import DatasetDepot.Proofs.Conversion

/-!
The stages of an answer.

A request is worked out in three stages: a dataset is generated, dealt into parts, and the
parts are converted.  Main statement: the standard converters never fail on the parts of a
dataset, so that whether a request fails, and how, is settled before the conversion.
-/

namespace DatasetDepot

/-- How many rows train when some are set aside for testing. -/
def Request.trainSize (request : Request) (rows : Nat) : Nat :=
  if request.samples = 0 then Share.remaining Rounding.toNearest rows request.tested.shareValue
  else request.samples

theorem Split.isDense_ofDataset (dataset : Dataset) : (Split.ofDataset dataset).IsDense where
  trainX := .matrix dataset.features
  trainY := by
    intro value present
    obtain ⟨labels, _, rfl⟩ := Option.map_eq_some_iff.mp present
    exact .vector labels
  testX := by
    intro value present
    cases present
  testY := by
    intro value present
    cases present

namespace Dataset

theorem isDense_labelsOf? (dataset : Dataset) (chosen : Array (Fin dataset.rows)) :
    ∀ value ∈ dataset.labelsOf? chosen, value.IsDense := by
  intro value present
  obtain ⟨labels, _, rfl⟩ := Option.map_eq_some_iff.mp present
  exact .vector _

theorem isDense_cut (dataset : Dataset) (order : Array (Fin dataset.rows)) (trainSize : Nat) :
    (dataset.cut order trainSize).IsDense where
  trainX := .matrix _
  trainY := dataset.isDense_labelsOf? _
  testX := by
    intro value present
    cases present
    exact .matrix _
  testY := dataset.isDense_labelsOf? _

end Dataset

namespace Depot

variable (depot : Depot) (services : Services) (request : Request) (world : World)

/-- What the generator of a request returns, once the work was noted in the journal. -/
def generated : Except Fault Dataset :=
  ((depot.generators request.title (demandOf request) (depot.context services)).run.run
    { world with journal := world.journal ++ [.generated request.title.name] }).1

/-- The parts of a request before their conversion. -/
def dealt : Except Fault Split := do
  Share.checkTested request.tested
  splitFor request (← depot.generated services request world)

def workedOut : Except Fault Split :=
  ((depot.make services request).run.run world).1

def answered : Except Fault Split :=
  ((depot.answer services request).run.run world).1.map fun reply => reply.1.split

theorem workedOut_eq :
    depot.workedOut services request world =
      (depot.dealt services request world).bind (depot.convertFor request) := by
  unfold workedOut make dealt generated
  rw [Action.run_bind, Action.run_liftM]
  cases Share.checkTested request.tested with
  | error fault => rfl
  | ok accepted =>
      simp only
      rw [Action.run_bind, Action.run_record]
      simp only
      rw [Action.run_bind]
      rcases (depot.generators request.title (demandOf request)
        (depot.context services)).run.run _ with ⟨fault | dataset, after⟩
      · rfl
      · simp only
        rw [Action.run_bind, Action.run_liftM]
        change _ = (splitFor request dataset).bind (depot.convertFor request)
        cases splitFor request dataset <;> rfl

theorem answered_of_find?_eq_none (missed : depot.recent.find? request = none) :
    depot.answered services request world = depot.workedOut services request world := by
  unfold answered workedOut answer
  rw [missed]
  simp only
  rw [Action.run_bind]
  rcases (depot.make services request).run.run world with ⟨_ | _, _⟩ <;> rfl

variable {depot services request world}

theorem splitFor_of_pos (positive : 0 < request.tested.shareValue) (dataset : Dataset) :
    splitFor request dataset = dataset.divide (request.trainSize dataset.rows) request.seed := by
  unfold splitFor Request.trainSize
  exact if_pos positive

theorem splitFor_of_not_pos (none : ¬ 0 < request.tested.shareValue) (dataset : Dataset) :
    splitFor request dataset = .ok (Split.ofDataset dataset) := by
  unfold splitFor
  exact if_neg none

theorem not_pos_of_zero {tested : Double}
    (zero : tested = ⟨0⟩ ∨ tested = ⟨0x8000000000000000⟩) : ¬ 0 < tested.shareValue := by
  rcases zero with rfl | rfl
  · decide +kernel
  · decide +kernel

theorem isDense_of_splitFor {dataset : Dataset} {split : Split}
    (parts : splitFor request dataset = .ok split) : split.IsDense := by
  by_cases positive : 0 < request.tested.shareValue
  · rw [splitFor_of_pos positive, Dataset.divide] at parts
    by_cases fits : request.trainSize dataset.rows ≤ dataset.rows
    · rw [if_pos fits] at parts
      cases parts
      exact dataset.isDense_cut _ _
    · rw [if_neg fits] at parts
      cases parts
  · rw [splitFor_of_not_pos positive] at parts
    cases parts
    exact Split.isDense_ofDataset dataset

theorem dealt_eq_ok_iff {split : Split} :
    depot.dealt services request world = .ok split ↔
      Share.checkTested request.tested = .ok () ∧
        ∃ dataset, depot.generated services request world = .ok dataset ∧
          splitFor request dataset = .ok split := by
  unfold dealt
  cases Share.checkTested request.tested with
  | error fault => simp [bind, Except.bind]
  | ok accepted =>
      cases depot.generated services request world with
      | error fault => simp [bind, Except.bind]
      | ok dataset => simp [bind, Except.bind]

theorem dealt_of_generated {dataset : Dataset} (accepted : request.tested.isProperShare = true)
    (returned : depot.generated services request world = .ok dataset) :
    depot.dealt services request world = splitFor request dataset := by
  unfold dealt Share.checkTested
  rw [returned, if_pos accepted]
  rfl

theorem isDense_of_dealt {split : Split}
    (parts : depot.dealt services request world = .ok split) : split.IsDense := by
  obtain ⟨_, dataset, _, dealtParts⟩ := dealt_eq_ok_iff.mp parts
  exact isDense_of_splitFor dealtParts

/-- The standard converter of a format never fails on the parts of a dataset. -/
theorem workedOut_of_dealt {ratio : Double}
    (builtIn : depot.converters.find request.format = Converter.standard ratio request.format)
    {related : Value → Value → Prop}
    (each : ∀ value, value.IsDense →
      (Conversion.ofValue ratio request.format value).Yields (related value))
    {split : Split} (parts : depot.dealt services request world = .ok split) :
    ∃ converted, depot.workedOut services request world = .ok converted ∧
      split.Related related converted := by
  obtain ⟨converted, after, run, agrees⟩ :=
    ConverterSet.convertSplit_yields builtIn (isDense_of_dealt parts) each
      (Stream.ofSeed request.seed)
  refine ⟨converted, ?_, agrees⟩
  rw [workedOut_eq, parts]
  exact congrArg Prod.fst run

end Depot

/-- The generator that returns this dataset, whatever is asked of it. -/
def Generator.constant (dataset : Dataset) : Generator := fun _ _ => pure dataset

/-- Services that deliver nothing and do nothing. -/
def Services.idle : Services where
  download _ := ⟨[], none⟩
  launch _ store := (store, .exited 0)

/-- A world without files in which nothing was asked for yet. -/
def World.blank : World := ⟨⟨[], []⟩, []⟩

namespace Depot

/-- A depot in which every title stands for this dataset. -/
def single (dataset : Dataset) (capacity : Nat) : Depot where
  generators _ := Generator.constant dataset
  converters := ConverterSet.standard ConverterSet.defaultRatio
  cache := Settings.cacheOf none
  sources := {}
  recent := Recent.empty capacity
  made := 0

theorem generated_single (dataset : Dataset) (capacity : Nat) (services : Services)
    (request : Request) (world : World) :
    (single dataset capacity).generated services request world = .ok dataset := rfl

end Depot

end DatasetDepot
