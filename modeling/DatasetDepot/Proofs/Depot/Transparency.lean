import DatasetDepot.Proofs.Depot.Recency
import DatasetDepot.Proofs.Depot.Samples

/-!
Remembered results compared with fresh ones.

Replacing a generator or a converter leaves the memory alone.  Main statement: when
generators do not depend on the world, every answer is what a depot opened afresh gives with
the registrations from the time at which the request was worked out last.  It is the answer
of a fresh depot with the present registrations if those for the request were not replaced
since; otherwise it can be another one.
-/

namespace DatasetDepot

/-- What the generator returns does not depend on the world. -/
def Generator.Steady (generator : Generator) : Prop :=
  ∀ (demand : Demand) (context : Context) (world other : World),
    ((generator demand context).run.run world).1 = ((generator demand context).run.run other).1

theorem Generator.steady_constant (dataset : Dataset) : (constant dataset).Steady :=
  fun _ _ _ _ => rfl

/-- The step puts the generator or the converter of a request out of place. -/
def Step.Replaces (request : Request) : Step → Prop
  | .call _ => False
  | .replaceGenerator title _ => title = request.title
  | .replaceConverter converter => converter.format = request.format

namespace Depot

variable {depot : Depot} {steps : List Step} {request : Request} {services : Services}

/-- The same depot before it remembered anything. -/
def afresh (depot : Depot) : Depot :=
  { depot with recent := Recent.empty depot.recent.capacity, made := 0 }

/-- Opened afresh, the depot answers the request with this split in every world. -/
def Gives (depot : Depot) (services : Services) (request : Request) (split : Split) : Prop :=
  ∀ world, depot.afresh.answered services request world = .ok split

theorem answered_afresh (depot : Depot) (services : Services) (request : Request)
    (world : World) :
    depot.afresh.answered services request world = depot.workedOut services request world :=
  answered_of_find?_eq_none depot.afresh services request world rfl

theorem gives_of_workedOut (steady : (depot.generators request.title).Steady) {world : World}
    {split : Split} (worked : depot.workedOut services request world = .ok split) :
    depot.Gives services request split := by
  intro other
  have generates : depot.generated services request other =
      depot.generated services request world := steady _ _ _ _
  rw [answered_afresh, ← worked, workedOut_eq, workedOut_eq]
  unfold dealt
  rw [generates]

section Registrations

/-- Both depots work out the request in the same way. -/
structure AgreesOn (request : Request) (left right : Depot) : Prop where
  generator : left.generators request.title = right.generators request.title
  converter : left.converters.find request.format = right.converters.find request.format
  cache : left.cache = right.cache
  sources : left.sources = right.sources

theorem AgreesOn.symm {left right : Depot} (agrees : AgreesOn request left right) :
    AgreesOn request right left :=
  ⟨agrees.generator.symm, agrees.converter.symm, agrees.cache.symm, agrees.sources.symm⟩

theorem AgreesOn.trans {left middle right : Depot} (first : AgreesOn request left middle)
    (second : AgreesOn request middle right) : AgreesOn request left right :=
  ⟨first.generator.trans second.generator, first.converter.trans second.converter,
    first.cache.trans second.cache, first.sources.trans second.sources⟩

theorem AgreesOn.gives {left right : Depot} (agrees : AgreesOn request left right)
    {split : Split} (gives : left.Gives services request split) :
    right.Gives services request split := by
  intro world
  have given := gives world
  rw [answered_afresh] at given ⊢
  rw [← given]
  unfold workedOut make context convertFor ConverterSet.convertSplit
  rw [agrees.generator, agrees.converter, agrees.cache, agrees.sources]

theorem registrations_call (depot : Depot) (call : Call) :
    (depot.after (.call call)).generators = depot.generators ∧
      (depot.after (.call call)).converters = depot.converters ∧
      (depot.after (.call call)).cache = depot.cache ∧
      (depot.after (.call call)).sources = depot.sources := by
  have handles := depot.handles call
  generalize depot.reply call = reply, depot.after (.call call) = next,
    (depot.respond call).2 = world at handles ⊢
  cases handles with
  | failed missed made => exact ⟨rfl, rfl, rfl, rfl⟩
  | recalled found => exact ⟨rfl, rfl, rfl, rfl⟩
  | worked missed made => exact ⟨rfl, rfl, rfl, rfl⟩

theorem agreesOn_call (depot : Depot) (request : Request) (call : Call) :
    AgreesOn request depot (depot.after (.call call)) := by
  obtain ⟨generators, converters, cache, sources⟩ := registrations_call depot call
  constructor
  · rw [generators]
  · rw [converters]
  · exact cache.symm
  · exact sources.symm

theorem agreesOn_step (depot : Depot) {step : Step} (kept : ¬ step.Replaces request) :
    AgreesOn request depot (depot.after step) := by
  cases step with
  | call call => exact agreesOn_call depot request call
  | replaceGenerator title generator =>
      exact ⟨(if_neg (Ne.symm kept)).symm, rfl, rfl, rfl⟩
  | replaceConverter converter =>
      exact ⟨rfl, (if_neg (Ne.symm kept)).symm, rfl, rfl⟩

theorem agreesOn_run (depot : Depot) (kept : ∀ step ∈ steps, ¬ step.Replaces request) :
    AgreesOn request depot (depot.run steps) := by
  induction steps generalizing depot with
  | nil => exact ⟨rfl, rfl, rfl, rfl⟩
  | cons step rest inductionHypothesis =>
      obtain ⟨first, others⟩ := List.forall_mem_cons.mp kept
      exact (agreesOn_step depot first).trans (inductionHypothesis _ others)

theorem steady_run {title : Title} (steady : (depot.generators title).Steady)
    (replaced : ∀ generator, .replaceGenerator title generator ∈ steps → generator.Steady) :
    ((depot.run steps).generators title).Steady := by
  induction steps generalizing depot with
  | nil => exact steady
  | cons step rest inductionHypothesis =>
      have others : ∀ generator, .replaceGenerator title generator ∈ rest → generator.Steady :=
        fun generator member => replaced generator (List.mem_cons_of_mem _ member)
      refine inductionHypothesis ?_ others
      cases step with
      | call call =>
          rw [(registrations_call depot call).1]
          exact steady
      | replaceGenerator other generator =>
          by_cases same : title = other
          · subst same
            have now : (depot.after (.replaceGenerator title generator)).generators title =
                generator := if_pos rfl
            rw [now]
            exact replaced generator List.mem_cons_self
          · have before : (depot.after (.replaceGenerator other generator)).generators title =
                depot.generators title := if_neg same
            rw [before]
            exact steady
      | replaceConverter converter => exact steady

end Registrations

/-- Among the steps of a depot, the call that worked out a result; no later one worked out
the request again. -/
structure IsOrigin (depot : Depot) (steps : List Step) (result : Result) (earlier : List Step)
    (past : Call) (later : List Step) : Prop where
  parts : steps = earlier ++ .call past :: later
  replied : (depot.run earlier).reply past = .worked result
  latest : ((depot.run (earlier ++ [.call past])).history later).latest? past.request = none

section Origins

variable {result : Result} {earlier later : List Step} {past : Call}

theorem IsOrigin.extend (origin : depot.IsOrigin steps result earlier past later) {step : Step}
    (others : ∀ history : History,
      History.latest? (history ++ (depot.run steps).replies step) past.request =
        history.latest? past.request) :
    depot.IsOrigin (steps ++ [step]) result earlier past (later ++ [step]) := by
  have reached : (depot.run (earlier ++ [.call past])).run later = depot.run steps := by
    rw [← run_append, origin.parts, List.append_assoc]
    rfl
  constructor
  · rw [origin.parts, List.append_assoc]
    rfl
  · exact origin.replied
  · rw [history_concat, reached, others]
    exact origin.latest

theorem IsOrigin.extend_of_silent (origin : depot.IsOrigin steps result earlier past later)
    {step : Step} (silent : (depot.run steps).replies step = []) :
    depot.IsOrigin (steps ++ [step]) result earlier past (later ++ [step]) := by
  apply origin.extend
  intro history
  rw [silent, List.append_nil]

/-- Every remembered result has an origin. -/
def Stems (depot : Depot) (steps : List Step) (request : Request) (result : Result) : Prop :=
  ∃ earlier past later, past.request = request ∧ depot.IsOrigin steps result earlier past later

theorem stems_call {call : Call}
    (before : ∀ entry ∈ (depot.run steps).recent.entries, depot.Stems steps entry.1 entry.2) :
    ∀ entry ∈ ((depot.run steps).after (.call call)).recent.entries,
      depot.Stems (steps ++ [.call call]) entry.1 entry.2 := by
  have handles := (depot.run steps).handles call
  generalize replied : (depot.run steps).reply call = reply,
    (depot.run steps).after (.call call) = next,
    ((depot.run steps).respond call).2 = world at handles ⊢
  have replies : (depot.run steps).replies (.call call) = [(call.request, reply)] := by
    rw [← replied]
    rfl
  have unworked (others : reply.worked? = none) (entry : Request × Result)
      (member : entry ∈ (depot.run steps).recent.entries) :
      depot.Stems (steps ++ [.call call]) entry.1 entry.2 := by
    obtain ⟨earlier, past, later, asked, origin⟩ := before entry member
    refine ⟨earlier, past, later ++ [.call call], asked, origin.extend ?_⟩
    intro history
    rw [replies]
    exact History.latest?_of_worked?_eq_none history _ others _
  intro entry member
  cases handles with
  | failed missed made => exact unworked rfl entry member
  | recalled found =>
      rcases Recent.mem_use member with rfl | ⟨present, _⟩
      · exact unworked rfl _ (Recent.mem_of_find? found)
      · exact unworked rfl entry present
  | worked missed made =>
      rcases Recent.mem_use member with rfl | ⟨present, different⟩
      · exact ⟨steps, call, [], rfl, rfl, replied, rfl⟩
      · obtain ⟨earlier, past, later, asked, origin⟩ := before entry present
        refine ⟨earlier, past, later ++ [.call call], asked, origin.extend ?_⟩
        intro history
        rw [replies, asked]
        exact History.latest?_of_ne history _ different _

theorem stems_run (empty : depot.recent.entries = []) (steps : List Step) :
    ∀ entry ∈ (depot.run steps).recent.entries, depot.Stems steps entry.1 entry.2 := by
  induction steps using List.reverseRecOn with
  | nil =>
      intro entry member
      rw [show (depot.run []).recent.entries = [] from empty] at member
      cases member
  | append_singleton steps step inductionHypothesis =>
      rw [run_append]
      change ∀ entry ∈ ((depot.run steps).after step).recent.entries, _
      cases step with
      | call call => exact stems_call inductionHypothesis
      | replaceGenerator title generator =>
          intro entry member
          obtain ⟨earlier, past, later, asked, origin⟩ := inductionHypothesis entry member
          exact ⟨earlier, past, _, asked, origin.extend_of_silent rfl⟩
      | replaceConverter converter =>
          intro entry member
          obtain ⟨earlier, past, later, asked, origin⟩ := inductionHypothesis entry member
          exact ⟨earlier, past, _, asked, origin.extend_of_silent rfl⟩

theorem stems_of_reply (empty : depot.recent.entries = []) {call : Call}
    (returned : ((depot.run steps).reply call).result? = some result) :
    depot.Stems (steps ++ [.call call]) call.request result := by
  cases replied : (depot.run steps).reply call with
  | failed fault =>
      rw [replied] at returned
      cases returned
  | recalled found =>
      rw [replied] at returned
      cases returned
      obtain ⟨earlier, past, later, asked, origin⟩ := stems_run empty steps _
        (Recent.mem_of_find? (find?_of_recalled replied).1)
      refine ⟨earlier, past, later ++ [.call call], asked, origin.extend ?_⟩
      intro history
      rw [show (depot.run steps).replies (.call call) = [(call.request, _)] from rfl, replied]
      exact History.latest?_of_worked?_eq_none history _ rfl _
  | worked made =>
      rw [replied] at returned
      cases returned
      exact ⟨steps, call, [], rfl, rfl, replied, rfl⟩

end Origins

theorem samples?_of_generated {world : World} {dataset : Dataset} {ratio : Double}
    (builtIn : depot.converters.find request.format = Converter.standard ratio request.format)
    (plain : request.format.isSparse = false) (untested : request.tested = ⟨0⟩)
    (returned : depot.generated services request world = .ok dataset) :
    ∃ split, depot.workedOut services request world = .ok split ∧
      split.samples? = some dataset.samples := by
  have accepted : request.tested.isProperShare = true := by
    rw [untested]
    decide +kernel
  obtain ⟨split, worked, _, samples⟩ :=
    (isDelivered_workedOut builtIn plain accepted returned).whole (.inl untested)
  exact ⟨split, worked, samples⟩

/-- The memory outlives a replacement: the second answer is still about the first dataset,
where a fresh depot answers with the second one. -/
theorem recalled_after_replacement (before behind : Dataset) {call : Call}
    (plain : call.request.format.isSparse = false) (untested : call.request.tested = ⟨0⟩) :
    let steps := [.call call, .replaceGenerator call.request.title (.constant behind)]
    (∃ result, ((single before 1).run steps).reply call = .recalled result ∧
      result.split.samples? = some before.samples) ∧
    ∀ split, ((single before 1).run steps).Gives call.services call.request split →
      split.samples? = some behind.samples := by
  intro steps
  constructor
  · obtain ⟨split, worked, samples⟩ := samples?_of_generated rfl plain untested
      (generated_single before 1 call.services call.request call.world)
    obtain ⟨_, remembered⟩ := reply_of_workedOut rfl worked
    have found : ((single before 1).run steps).recent.find? call.request = some ⟨0, split⟩ := by
      change ((single before 1).after (.call call)).recent.find? call.request = _
      rw [remembered]
      exact Recent.find?_use Nat.one_pos _ _
    exact ⟨⟨0, split⟩, reply_of_find? found, samples⟩
  · intro split gives
    have given := gives World.blank
    rw [answered_afresh] at given
    have kept := agreesOn_call (single before 1) call.request call
    have builtIn : ((single before 1).run steps).converters.find call.request.format =
        Converter.standard ConverterSet.defaultRatio call.request.format :=
      kept.converter.symm
    have present : ((single before 1).run steps).generators call.request.title =
        Generator.constant behind := if_pos rfl
    have returned : ((single before 1).run steps).generated call.services call.request
        World.blank = .ok behind := by
      unfold generated
      rw [present]
      rfl
    obtain ⟨fresh, worked, samples⟩ := samples?_of_generated builtIn plain untested returned
    cases given.symm.trans worked
    exact samples

theorem steady_of_mem_replacement {behind : Dataset} {call : Call} {title other : Title}
    {generator : Generator}
    (member : .replaceGenerator title generator ∈
      [Step.call call, .replaceGenerator other (.constant behind)]) :
    generator.Steady := by
  simp only [List.mem_cons, reduceCtorEq, Step.replaceGenerator.injEq, List.not_mem_nil,
    or_false, false_or] at member
  rw [member.2]
  exact Generator.steady_constant behind

/-- An answer is the one that a fresh depot gives with the registrations from the time at
which it was worked out, and so the one that a fresh depot gives now, unless the generator or
the converter of the request was replaced since. -/
theorem gives_of_reply {call : Call} {result : Result} (empty : depot.recent.entries = [])
    (steady : (depot.generators call.request.title).Steady)
    (replaced : ∀ generator, .replaceGenerator call.request.title generator ∈ steps →
      generator.Steady)
    (returned : ((depot.run steps).reply call).result? = some result) :
    ∃ earlier past later, past.request = call.request ∧
      depot.IsOrigin (steps ++ [.call call]) result earlier past later ∧
      (depot.run earlier).Gives past.services call.request result.split ∧
      ((∀ step ∈ later, ¬ step.Replaces call.request) → past.services = call.services →
        (depot.run steps).Gives call.services call.request result.split) := by
  obtain ⟨earlier, past, later, asked, origin⟩ := stems_of_reply empty returned
  have inside : ∀ generator, .replaceGenerator call.request.title generator ∈ earlier →
      generator.Steady := by
    intro generator member
    have among : .replaceGenerator call.request.title generator ∈ steps ++ [.call call] := by
      rw [origin.parts]
      exact List.mem_append_left _ member
    apply replaced
    simpa using among
  have worked : (depot.run earlier).workedOut past.services call.request past.world =
      .ok result.split := by
    rw [← asked]
    exact congrArg Prod.fst (make_of_worked origin.replied).2
  have gives := gives_of_workedOut (steady_run steady inside) worked
  refine ⟨earlier, past, later, asked, origin, gives, ?_⟩
  intro kept same
  rw [same] at gives
  have since : AgreesOn call.request (depot.run earlier) (depot.run (steps ++ [.call call])) := by
    rw [origin.parts, run_append]
    exact agreesOn_run _ (List.forall_mem_cons.mpr ⟨id, kept⟩)
  have now : AgreesOn call.request (depot.run steps) (depot.run (steps ++ [.call call])) := by
    rw [run_append]
    exact agreesOn_call _ _ call
  exact (since.trans now.symm).gives gives

/-- One row at first, two later: the second answer is what a fresh depot gave at the time. -/
theorem gives_of_reply_replaced :
    let depot := single (Dataset.ofRows 1 #[(0, #[1])]) 1
    let call : Call := ⟨{ title := .zeros, format := .numpy }, Services.idle, World.blank⟩
    let steps : List Step := [.call call, .replaceGenerator .zeros
      (.constant (Dataset.ofRows 1 #[(0, #[1]), (0, #[2])]))]
    ∃ result, ((depot.run steps).reply call).result? = some result ∧
      ∃ earlier past later, past.request = call.request ∧
        depot.IsOrigin (steps ++ [.call call]) result earlier past later ∧
        (depot.run earlier).Gives past.services call.request result.split ∧
        ((∀ step ∈ later, ¬ step.Replaces call.request) → past.services = call.services →
          (depot.run steps).Gives call.services call.request result.split) := by
  intro depot call steps
  obtain ⟨⟨result, replied, _⟩, _⟩ := recalled_after_replacement
    (Dataset.ofRows 1 #[(0, #[1])]) (Dataset.ofRows 1 #[(0, #[1]), (0, #[2])])
    (rfl : call.request.format.isSparse = false) rfl
  have returned := congrArg Reply.result? replied
  exact ⟨result, returned, gives_of_reply rfl (Generator.steady_constant _)
    (fun generator member => steady_of_mem_replacement member) returned⟩

/-- Answers are not always those of a fresh depot with the present registrations. -/
theorem not_gives_of_reply :
    ¬ ∀ (depot : Depot) (steps : List Step) (call : Call) (result : Result),
      depot.recent.entries = [] →
      (∀ title, (depot.generators title).Steady) →
      (∀ title generator, .replaceGenerator title generator ∈ steps → generator.Steady) →
      ((depot.run steps).reply call).result? = some result →
      (depot.run steps).Gives call.services call.request result.split := by
  intro transparent
  let before := Dataset.ofRows 1 #[(0, #[1])]
  let behind := Dataset.ofRows 1 #[(0, #[1]), (0, #[2])]
  let call : Call := ⟨{ title := .zeros, format := .numpy }, Services.idle, World.blank⟩
  obtain ⟨⟨result, replied, samples⟩, fresh⟩ :=
    recalled_after_replacement before behind (rfl : call.request.format.isSparse = false) rfl
  have gives := transparent (single before 1)
    [.call call, .replaceGenerator .zeros (.constant behind)] call result rfl
    (fun _ => Generator.steady_constant before) ?_ (congrArg Reply.result? replied)
  · have same := Option.some.inj (samples.symm.trans (fresh _ gives))
    have rows : before.rows = behind.rows := by
      rw [← Dataset.length_samples, same, Dataset.length_samples]
    change 1 = 2 at rows
    cases rows
  · intro title generator member
    exact steady_of_mem_replacement member

end Depot

end DatasetDepot
