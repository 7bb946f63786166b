import DatasetDepot.Proofs.Depot.Answer

/-!
One request in two formats.

The format is only looked at by the conversion, which never fails on the parts of a dataset.
Main statement: two requests that differ in their format alone fail alike, or both succeed
with the same parts, and those of a standard format agree with the plain ones.
-/

namespace DatasetDepot.Depot

variable {left right : Depot} {leftServices rightServices : Services}
  {leftWorld rightWorld : World} {request : Request} {format : Format}
  {leftRatio rightRatio : Double}

/-- The parts are dealt before the format matters. -/
theorem dealt_with_format
    (same : left.generated leftServices request leftWorld =
      right.generated rightServices { request with format := format } rightWorld) :
    right.dealt rightServices { request with format := format } rightWorld =
      left.dealt leftServices request leftWorld := by
  unfold dealt
  rw [same]
  rfl

/-- Plain results have their rows one after the other. -/
theorem rowMajor_yields (ratio : Double) (format : Format) {value : Value}
    (dense : value.IsDense) :
    (Conversion.ofValue ratio format value).Yields fun converted =>
      format = .numpy → converted = value.rowMajor := by
  by_cases plain : format = .numpy
  · subst plain
    apply (Conversion.ofValue_numpy_yields ratio dense).mono
    intro converted same _
    exact same
  · apply (Conversion.ofValue_yields ratio format dense).mono
    intro converted _ otherwise
    exact absurd otherwise plain

/-- The format changes neither the outcome of a request nor the data: a fault comes up before
the conversion and is the same in both formats, and results have the same parts, which agree
with the plain ones if the first request asks for those. -/
theorem agrees_of_generated_eq
    (leftBuiltIn : left.converters.find request.format =
      Converter.standard leftRatio request.format)
    (rightBuiltIn : right.converters.find format = Converter.standard rightRatio format)
    (same : left.generated leftServices request leftWorld =
      right.generated rightServices { request with format := format } rightWorld) :
    (∃ fault, left.dealt leftServices request leftWorld = .error fault ∧
      left.workedOut leftServices request leftWorld = .error fault ∧
      right.workedOut rightServices { request with format := format } rightWorld =
        .error fault) ∨
    ∃ reference converted, left.workedOut leftServices request leftWorld = .ok reference ∧
      right.workedOut rightServices { request with format := format } rightWorld =
        .ok converted ∧
      reference.Related (fun value result =>
        request.format = .numpy → format.Agrees rightRatio value result) converted := by
  have dealing := dealt_with_format same
  cases parts : left.dealt leftServices request leftWorld with
  | error fault =>
      rw [parts] at dealing
      refine .inl ⟨fault, rfl, ?_, ?_⟩
      · rw [workedOut_eq, parts]
        rfl
      · rw [workedOut_eq, dealing]
        rfl
  | ok split =>
      rw [parts] at dealing
      obtain ⟨reference, leftWorked, toReference⟩ := workedOut_of_dealt leftBuiltIn
        (fun value dense => rowMajor_yields leftRatio request.format dense) parts
      obtain ⟨converted, rightWorked, toConverted⟩ := workedOut_of_dealt rightBuiltIn
        (fun value dense => Conversion.ofValue_yields rightRatio format dense) dealing
      refine .inr ⟨reference, converted, leftWorked, rightWorked, ?_⟩
      apply toReference.through toConverted
      intro value plain result rowMajor agrees numpy
      rw [rowMajor numpy]
      exact agrees

/-- Two rows with an empty cell among them, plain and compressed. -/
theorem agrees_of_two_rows :
    let dataset := Dataset.ofRows 2 #[(0, #[1, 2]), (1, #[3])]
    let depot := single dataset 1
    let request : Request := { title := .zeros, format := .numpy }
    ∃ reference converted,
      depot.workedOut Services.idle request World.blank = .ok reference ∧
      depot.workedOut Services.idle { request with format := .sparseCsc } World.blank =
        .ok converted ∧
      reference.Related (Format.Agrees .sparseCsc ConverterSet.defaultRatio) converted := by
  intro dataset depot request
  have same : depot.generated Services.idle request World.blank =
      depot.generated Services.idle { request with format := .sparseCsc } World.blank := rfl
  have accepted : request.tested.isProperShare = true := by decide +kernel
  have dealing : depot.dealt Services.idle request World.blank = splitFor request dataset :=
    dealt_of_generated accepted rfl
  rw [splitFor_of_not_pos (not_pos_of_zero (.inl rfl))] at dealing
  rcases agrees_of_generated_eq rfl rfl same with
    ⟨fault, refused, _⟩ | ⟨reference, converted, plain, compressed, agrees⟩
  · cases dealing.symm.trans refused
  · exact ⟨reference, converted, plain, compressed,
      agrees.mono fun value result holds => holds rfl⟩

end DatasetDepot.Depot
