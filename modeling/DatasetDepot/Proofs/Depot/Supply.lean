import DatasetDepot.Proofs.Depot.Answer
import DatasetDepot.Proofs.Share

/-!
Enough rows to train on.

A generator that returns as many rows as it is asked for returns as many as are to train, at least.
Main statement: with such a generator no request is refused for want of rows, and neither is one
that leaves the number of rows to the generator.
-/

namespace DatasetDepot

/-- As many rows as the generator was asked for; or any number that a double can count, if it was
not asked for one. -/
inductive Request.IsSupplied (request : Request) (rows : Nat) : Prop where
  | exactly (some : 1 ≤ request.samples) (exact : request.samples ≤ 2 ^ 53)
      (demanded : rows = (Depot.demandOf request).rows) : request.IsSupplied rows
  | freely (none : request.samples = 0) (exact : rows ≤ 2 ^ 53) : request.IsSupplied rows

theorem Request.IsSupplied.trainSize_le {request : Request} {rows : Nat}
    (supplied : request.IsSupplied rows) (accepted : request.tested.isProperShare = true) :
    request.trainSize rows ≤ rows := by
  unfold Request.trainSize
  cases supplied with
  | exactly some exact demanded =>
      rw [if_neg (Nat.ne_of_gt some), demanded]
      exact Share.le_inflate Rounding.isOrderly_toNearest accepted exact
  | freely none exact =>
      rw [if_pos none]
      exact Share.remaining_le Rounding.isOrderly_toNearest accepted exact

namespace Depot

variable {depot : Depot} {services : Services} {request : Request} {world : World}
  {dataset : Dataset}

theorem exists_splitFor (accepted : request.tested.isProperShare = true)
    (supplied : request.IsSupplied dataset.rows) :
    ∃ split, splitFor request dataset = .ok split := by
  by_cases positive : 0 < request.tested.shareValue
  · rw [splitFor_of_pos positive, Dataset.divide, if_pos (supplied.trainSize_le accepted)]
    exact ⟨_, rfl⟩
  · exact ⟨_, splitFor_of_not_pos positive dataset⟩

/-- Either the parts are there, or the share was refused before any rows were counted. -/
inductive Deals (tested : Double) : Except Fault Split → Prop where
  | parts (accepted : tested.isProperShare = true) (split : Split) : Deals tested (.ok split)
  | refused (improper : tested.isProperShare = false) (parameter message : String) :
      Deals tested (.error (.invalidParameter parameter message))

theorem deals_of_supplied (returned : depot.generated services request world = .ok dataset)
    (supplied : request.IsSupplied dataset.rows) :
    Deals request.tested (depot.dealt services request world) := by
  cases proper : request.tested.isProperShare with
  | true =>
      obtain ⟨split, parts⟩ := exists_splitFor proper supplied
      rw [dealt_of_generated proper returned, parts]
      exact .parts proper split
  | false =>
      have refused : Share.checkTested request.tested = .error (.invalidParameter "test_fraction"
          s!"{request.tested.text} is not within [0, 1)") := if_neg (by simp [proper])
      rw [dealt, refused]
      exact .refused proper _ _

theorem answered_of_find?_eq_some {result : Result}
    (found : depot.recent.find? request = some result) :
    depot.answered services request world = .ok result.split := by
  unfold answered answer
  rw [found]
  rfl

/-- Nothing that comes of a request is a want of rows to train on, unless a converter in the place
of a standard one reports that by itself. -/
structure NeverShort (depot : Depot) (services : Services) (request : Request) (world : World) :
    Prop where
  dealt : ∀ trainSize available,
    depot.dealt services request world ≠ .error (.split trainSize available)
  answered : ∀ trainSize available,
    depot.answered services request world = .error (.split trainSize available) →
      ∃ split, depot.dealt services request world = .ok split ∧
        depot.convertFor request split = .error (.split trainSize available)
  standard : ∀ ratio,
    depot.converters.find request.format = Converter.standard ratio request.format →
      (∃ split, depot.answered services request world = .ok split) ∨
        request.tested.isProperShare = false ∧ ∃ parameter message,
          depot.answered services request world = .error (.invalidParameter parameter message)

theorem Deals.neverShort
    (deals : Deals request.tested (depot.dealt services request world)) :
    depot.NeverShort services request world := by
  have worked := workedOut_eq depot services request world
  have missed := answered_of_find?_eq_none depot services request world
  generalize dealing : depot.dealt services request world = parts at deals worked
  constructor
  · intro trainSize available refused
    rw [dealing] at refused
    rw [refused] at deals
    cases deals
  · intro trainSize available refused
    cases found : depot.recent.find? request with
    | some result => cases (answered_of_find?_eq_some found).symm.trans refused
    | none =>
        rw [missed found, worked] at refused
        cases deals with
        | parts _ split => exact ⟨split, dealing, refused⟩
        | refused => cases refused
  · intro ratio builtIn
    cases found : depot.recent.find? request with
    | some result => exact .inl ⟨_, answered_of_find?_eq_some found⟩
    | none =>
        rw [missed found]
        cases deals with
        | parts _ split =>
            obtain ⟨converted, succeeds, _⟩ := workedOut_of_dealt builtIn
              (fun _ dense => Conversion.ofValue_yields ratio request.format dense) dealing
            exact .inl ⟨converted, succeeds⟩
        | refused improper parameter message =>
            exact .inr ⟨improper, parameter, message, worked⟩

/-- Whatever the rounding, at least as many rows are asked for as are to be left, and no more are
left than there were.  So a generator that returns what it is asked for never leaves too few rows to
train on. -/
theorem supplies_training_rows :
    (∀ rounding : Rounding, rounding.IsOrderly → ∀ tested : Double, tested.isProperShare = true →
      ∀ count ≤ 2 ^ 53,
        count ≤ Share.inflate rounding count tested.shareValue ∧
        (tested.shareValue = 0 → Share.inflate rounding count tested.shareValue = count) ∧
        Share.remaining rounding count tested.shareValue ≤ count) ∧
      Rounding.toNearest.IsOrderly ∧
      ∀ (depot : Depot) (services : Services) (request : Request) (world : World)
        (dataset : Dataset), depot.generated services request world = .ok dataset →
          request.IsSupplied dataset.rows → depot.NeverShort services request world := by
  refine ⟨?_, Rounding.isOrderly_toNearest, ?_⟩
  · intro rounding orderly tested proper count exact
    refine ⟨Share.le_inflate orderly proper exact, ?_, Share.remaining_le orderly proper exact⟩
    intro none
    rw [none]
    exact Share.inflate_of_zero orderly exact
  · intro depot services request world dataset returned supplied
    exact (deals_of_supplied returned supplied).neverShort

/-- For one row to be left when a half is taken away, two are asked for. -/
theorem supplies_training_rows_of_half :
    let dataset := Dataset.ofRows 1 #[(0, #[1]), (1, #[2])]
    let request : Request :=
      { title := .zeros, format := .numpy, samples := 1, tested := ⟨0x3FE0000000000000⟩ }
    (demandOf request).rows = dataset.rows ∧
      1 ≤ Share.inflate Rounding.toNearest 1 request.tested.shareValue ∧
      ∃ split, (single dataset 1).answered Services.idle request World.blank = .ok split := by
  intro dataset request
  have demanded : dataset.rows = (demandOf request).rows := by decide +kernel
  have proper : request.tested.isProperShare = true := by decide +kernel
  obtain ⟨shares, orderly, supplies⟩ := supplies_training_rows
  have short := supplies (single dataset 1) Services.idle request World.blank dataset
    (generated_single dataset 1 Services.idle request World.blank)
    (.exactly (by decide) (by decide) demanded)
  refine ⟨demanded.symm, (shares _ orderly request.tested proper 1 (by decide)).1, ?_⟩
  rcases short.standard _ rfl with answered | ⟨improper, _⟩
  · exact answered
  · cases improper.symm.trans proper

end Depot

end DatasetDepot
