import Mathlib.Data.List.Forall2

/-!
Computations that may fail: what one that ended well says of its steps, and what one can end with
at all.
-/

namespace DatasetDepot

theorem exists_of_bind_eq_ok {ε α β : Type} {outcome : Except ε α} {next : α → Except ε β}
    {result : β} (run : outcome >>= next = .ok result) :
    ∃ value, outcome = .ok value ∧ next value = .ok result := by
  cases outcome with
  | error defect => cases run
  | ok value => exact ⟨value, rfl, run⟩

/-- Each item gives its own result, and nothing else counts. -/
theorem mapM_eq_ok_iff {ε α β : Type} {step : α → Except ε β} {items : List α}
    {results : List β} :
    items.mapM step = .ok results ↔
      List.Forall₂ (fun item result => step item = .ok result) items results := by
  constructor
  · intro run
    induction items generalizing results with
    | nil =>
        cases run
        exact .nil
    | cons first rest inductionHypothesis =>
        rw [List.mapM_cons] at run
        obtain ⟨result, head, run⟩ := exists_of_bind_eq_ok run
        obtain ⟨others, tail, run⟩ := exists_of_bind_eq_ok run
        cases run
        exact .cons head (inductionHypothesis tail)
  · intro each
    induction each with
    | nil => rfl
    | cons head _ inductionHypothesis =>
        rw [List.mapM_cons, head, inductionHypothesis]
        rfl

theorem exists_of_mapM_eq_ok {ε α β : Type} {step : α → Except ε β} {items : List α}
    {results : List β} (run : items.mapM step = .ok results) :
    ∀ item ∈ items, ∃ result, step item = .ok result := by
  intro item member
  obtain ⟨place, inside, rfl⟩ := List.getElem_of_mem member
  have each := mapM_eq_ok_iff.mp run
  exact ⟨_, each.get inside (each.length_eq ▸ inside)⟩

theorem exists_of_mem_of_mapM_eq_ok {ε α β : Type} {step : α → Except ε β} {items : List α}
    {results : List β} (run : items.mapM step = .ok results) :
    ∀ result ∈ results, ∃ item ∈ items, step item = .ok result := by
  intro result member
  obtain ⟨place, inside, rfl⟩ := List.getElem_of_mem member
  have each := mapM_eq_ok_iff.mp run
  have below : place < items.length := each.length_eq ▸ inside
  exact ⟨items[place], List.getElem_mem below, each.get below inside⟩

/-- The first item that fails is the one that counts. -/
theorem mapM_eq_error_iff {ε α β : Type} {step : α → Except ε β} {items : List α} {defect : ε} :
    items.mapM step = .error defect ↔
      ∃ before item after results, items = before ++ item :: after ∧
        List.Forall₂ (fun item result => step item = .ok result) before results ∧
        step item = .error defect := by
  constructor
  · intro run
    induction items with
    | nil => cases run
    | cons first rest inductionHypothesis =>
        rw [List.mapM_cons] at run
        cases head : step first with
        | error defect' =>
            rw [head] at run
            cases run
            exact ⟨[], first, rest, [], rfl, .nil, head⟩
        | ok result =>
            cases tail : rest.mapM step with
            | ok results =>
                rw [head, tail] at run
                cases run
            | error defect' =>
                rw [head, tail] at run
                cases run
                obtain ⟨before, item, after, results, rfl, each, failed⟩ :=
                  inductionHypothesis tail
                exact ⟨first :: before, item, after, result :: results, rfl, .cons head each,
                  failed⟩
  · rintro ⟨before, item, after, results, rfl, each, failed⟩
    induction each with
    | nil =>
        rw [List.nil_append, List.mapM_cons, failed]
        rfl
    | cons head _ inductionHypothesis =>
        rw [List.cons_append, List.mapM_cons, head, inductionHypothesis]
        rfl

theorem exists_mapM_eq_ok_iff {ε α β : Type} {step : α → Except ε β} {items : List α} :
    (∃ results, items.mapM step = .ok results) ↔
      ∀ item ∈ items, ∃ result, step item = .ok result := by
  constructor
  · rintro ⟨results, run⟩
    exact exists_of_mapM_eq_ok run
  · intro each
    cases run : items.mapM step with
    | ok results => exact ⟨results, rfl⟩
    | error defect =>
        obtain ⟨before, item, after, _, rfl, _, failed⟩ := mapM_eq_error_iff.mp run
        obtain ⟨result, read⟩ := each item (List.mem_append_right _ List.mem_cons_self)
        rw [failed] at read
        cases read

theorem mapError_eq_ok_iff {ε ε' α : Type} {change : ε → ε'} {outcome : Except ε α} {result : α} :
    outcome.mapError change = .ok result ↔ outcome = .ok result := by
  cases outcome <;> simp [Except.mapError]

theorem mapM_congr_of_forall₂ {ε α β : Type} {step : α → Except ε β} {items items' : List α}
    (same : List.Forall₂ (fun item item' => step item' = step item) items items') :
    items'.mapM step = items.mapM step := by
  induction same with
  | nil => rfl
  | cons first _ inductionHypothesis =>
      rw [List.mapM_cons, List.mapM_cons, first, inductionHypothesis]

theorem mapError_mapM {ε ε' α β : Type} (change : ε → ε') (step : α → Except ε β)
    (items : List α) :
    (items.mapM step).mapError change = items.mapM fun item => (step item).mapError change := by
  induction items with
  | nil => rfl
  | cons first rest inductionHypothesis =>
      rw [List.mapM_cons, List.mapM_cons, ← inductionHypothesis]
      cases step first with
      | error defect => rfl
      | ok result => cases rest.mapM step <;> rfl

/-- What an outcome can be: it succeeds with these results and fails with these defects, and with
no other ones. -/
structure Settles {ε α : Type} (outcome : Except ε α) (Succeeds : α → Prop) (Fails : ε → Prop) :
    Prop where
  ok_iff : ∀ result, outcome = .ok result ↔ Succeeds result
  error_iff : ∀ defect, outcome = .error defect ↔ Fails defect

/-- It is enough to know some outcome in every case. -/
theorem settles_of_total {ε α : Type} {outcome : Except ε α} {Succeeds : α → Prop}
    {Fails : ε → Prop} (ok : ∀ result, Succeeds result → outcome = .ok result)
    (error : ∀ defect, Fails defect → outcome = .error defect)
    (total : (∃ result, Succeeds result) ∨ ∃ defect, Fails defect) :
    Settles outcome Succeeds Fails := by
  rcases total with ⟨result, succeeds⟩ | ⟨defect, fails⟩
  · have run := ok result succeeds
    refine ⟨fun result' => ⟨fun run' => ?_, ok result'⟩,
      fun defect => ⟨fun run' => ?_, error defect⟩⟩
    · rw [run] at run'
      cases run'
      exact succeeds
    · rw [run] at run'
      cases run'
  · have run := error defect fails
    refine ⟨fun result => ⟨fun run' => ?_, ok result⟩,
      fun defect' => ⟨fun run' => ?_, error defect'⟩⟩
    · rw [run] at run'
      cases run'
    · rw [run] at run'
      cases run'
      exact fails

/-- Something is made of a result. -/
theorem Settles.image {ε α β : Type} {outcome : Except ε α} {Succeeds : α → Prop}
    {Fails : ε → Prop} (settles : Settles outcome Succeeds Fails) (make : α → β) :
    Settles (do return make (← outcome))
      (fun made => ∃ result, Succeeds result ∧ made = make result) Fails := by
  refine settles_of_total ?_ ?_ ?_
  · rintro _ ⟨result, succeeds, rfl⟩
    rw [(settles.ok_iff result).mpr succeeds]
    rfl
  · intro defect fails
    rw [(settles.error_iff defect).mpr fails]
    rfl
  · cases run : outcome with
    | ok result => exact .inl ⟨_, result, (settles.ok_iff result).mp run, rfl⟩
    | error defect => exact .inr ⟨defect, (settles.error_iff defect).mp run⟩

/-- Something else is said of a defect. -/
theorem Settles.mapError {ε ε' α : Type} {outcome : Except ε α} {Succeeds : α → Prop}
    {Fails : ε → Prop} (settles : Settles outcome Succeeds Fails) (change : ε → ε') :
    Settles (outcome.mapError change) Succeeds
      fun defect => ∃ defect', Fails defect' ∧ defect = change defect' := by
  refine settles_of_total ?_ ?_ ?_
  · intro result succeeds
    rw [(settles.ok_iff result).mpr succeeds]
    rfl
  · rintro _ ⟨defect, fails, rfl⟩
    rw [(settles.error_iff defect).mpr fails]
    rfl
  · cases run : outcome with
    | ok result => exact .inl ⟨result, (settles.ok_iff result).mp run⟩
    | error defect => exact .inr ⟨_, defect, (settles.error_iff defect).mp run, rfl⟩

/-- The defect of the first item that fails. -/
inductive FirstFails {ε α β : Type} (Succeeds : α → β → Prop) (Fails : α → ε → Prop) :
    List α → ε → Prop where
  | intro {before after : List α} {item : α} {results : List β} {defect : ε}
      (each : List.Forall₂ Succeeds before results) (fails : Fails item defect) :
      FirstFails Succeeds Fails (before ++ item :: after) defect

theorem FirstFails.exists_mem {ε α β : Type} {Succeeds : α → β → Prop} {Fails : α → ε → Prop}
    {items : List α} {defect : ε} (fails : FirstFails Succeeds Fails items defect) :
    ∃ item ∈ items, Fails item defect := by
  cases fails with
  | intro _ fails => exact ⟨_, List.mem_append_right _ List.mem_cons_self, fails⟩

theorem Settles.mapM {ε α β : Type} {step : α → Except ε β} {Succeeds : α → β → Prop}
    {Fails : α → ε → Prop} (settles : ∀ item, Settles (step item) (Succeeds item) (Fails item))
    (items : List α) :
    Settles (items.mapM step) (List.Forall₂ Succeeds items) (FirstFails Succeeds Fails items) where
  ok_iff results := by
    have same : (fun item result => step item = .ok result) = Succeeds := by
      funext item result
      exact propext ((settles item).ok_iff result)
    rw [mapM_eq_ok_iff, same]
  error_iff defect := by
    constructor
    · intro run
      obtain ⟨before, item, after, results, rfl, each, failed⟩ := mapM_eq_error_iff.mp run
      exact .intro (each.imp fun item result => ((settles item).ok_iff result).mp)
        (((settles item).error_iff defect).mp failed)
    · rintro ⟨each, fails⟩
      exact mapM_eq_error_iff.mpr ⟨_, _, _, _, rfl,
        each.imp fun item result => ((settles item).ok_iff result).mpr,
        ((settles _).error_iff _).mpr fails⟩

theorem Settles.exists_mapM_iff {ε α β : Type} {step : α → Except ε β} {Succeeds : α → β → Prop}
    {Fails : α → ε → Prop} (settles : ∀ item, Settles (step item) (Succeeds item) (Fails item))
    {items : List α} :
    (∃ results, items.mapM step = .ok results) ↔ ∀ item ∈ items, ∃ result, Succeeds item result :=
  exists_mapM_eq_ok_iff.trans
    (forall₂_congr fun item _ => exists_congr fun result => (settles item).ok_iff result)

/-- Leading items give the leading results. -/
theorem mapM_take_eq_ok {ε α β : Type} {step : α → Except ε β} {items : List α}
    {results : List β} (run : items.mapM step = .ok results) (count : Nat) :
    (items.take count).mapM step = .ok (results.take count) :=
  mapM_eq_ok_iff.mpr (List.forall₂_take count (mapM_eq_ok_iff.mp run))

end DatasetDepot
