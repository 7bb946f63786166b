import DatasetDepot.Proofs.Depot.Answer

/-!
What happens to a depot in the course of time.

A step is a call, made in the world as it is by then, or it puts a generator or a converter
in the place of another.  `Handles` says what a single call can come to, and
`Depot.history` lists the replies to all calls.
-/

namespace DatasetDepot

/-- A request that comes in, whom the depot can call on, and the world by then. -/
structure Call where
  request : Request
  services : Services
  world : World

inductive Step where
  | call (call : Call)
  | replaceGenerator (title : Title) (generator : Generator)
  | replaceConverter (converter : Converter)

/-- A result is either recalled or was worked out for the call. -/
inductive Reply where
  | failed (fault : Fault)
  | recalled (result : Result)
  | worked (result : Result)

namespace Reply

def result? : Reply → Option Result
  | .failed _ => none
  | .recalled result | .worked result => some result

def worked? : Reply → Option Result
  | .worked result => some result
  | .failed _ | .recalled _ => none

end Reply

/-- The replies to the requests so far, the latest at the end. -/
abbrev History := List (Request × Reply)

namespace Depot

/-- What a call returns, with the world it leaves. -/
def respond (depot : Depot) (call : Call) : Except Fault (Result × Depot) × World :=
  (depot.answer call.services call.request).run.run call.world

/-- A result was worked out for the call if the depot has made one more by then. -/
def reply (depot : Depot) (call : Call) : Reply :=
  match (depot.respond call).1 with
  | .error fault => .failed fault
  | .ok (result, next) => if next.made = depot.made then .recalled result else .worked result

def after (depot : Depot) : Step → Depot
  | .call call =>
      match (depot.respond call).1 with
      | .error _ => depot
      | .ok (_, next) => next
  | .replaceGenerator title generator => depot.replaceGenerator title generator
  | .replaceConverter converter => depot.replaceConverter converter

def run (depot : Depot) (steps : List Step) : Depot := steps.foldl after depot

def replies (depot : Depot) : Step → History
  | .call call => [(call.request, depot.reply call)]
  | .replaceGenerator _ _ | .replaceConverter _ => []

def history (depot : Depot) : List Step → History
  | [] => []
  | step :: rest => depot.replies step ++ (depot.after step).history rest

theorem run_append (depot : Depot) (steps more : List Step) :
    depot.run (steps ++ more) = (depot.run steps).run more :=
  List.foldl_append

theorem history_concat (depot : Depot) (steps : List Step) (step : Step) :
    depot.history (steps ++ [step]) = depot.history steps ++ (depot.run steps).replies step := by
  induction steps generalizing depot with
  | nil =>
      change depot.replies step ++ [] = [] ++ depot.replies step
      rw [List.append_nil, List.nil_append]
  | cons first rest inductionHypothesis =>
      change depot.replies first ++ (depot.after first).history (rest ++ [step]) = _
      rw [inductionHypothesis, ← List.append_assoc]
      rfl

/-- All that a call can come to: the reply, the depot and the world afterwards. -/
inductive Handles (depot : Depot) (call : Call) : Reply → Depot → World → Prop where
  | failed {fault : Fault} {world : World}
      (missed : depot.recent.find? call.request = none)
      (made : (depot.make call.services call.request).run.run call.world = (.error fault, world)) :
      Handles depot call (.failed fault) depot world
  | recalled {result : Result} (found : depot.recent.find? call.request = some result) :
      Handles depot call (.recalled result)
        { depot with recent := depot.recent.use call.request result } call.world
  | worked {split : Split} {world : World}
      (missed : depot.recent.find? call.request = none)
      (made : (depot.make call.services call.request).run.run call.world = (.ok split, world)) :
      Handles depot call (.worked ⟨depot.made, split⟩)
        { depot with
          recent := depot.recent.use call.request ⟨depot.made, split⟩
          made := depot.made + 1 } world

theorem handles (depot : Depot) (call : Call) :
    depot.Handles call (depot.reply call) (depot.after (.call call)) (depot.respond call).2 := by
  cases found : depot.recent.find? call.request with
  | some result =>
      have responds : depot.respond call = (.ok (result,
          { depot with recent := depot.recent.use call.request result }), call.world) := by
        unfold respond answer
        rw [found]
        rfl
      simp only [reply, after, responds, if_true]
      exact .recalled found
  | none =>
      rcases made : (depot.make call.services call.request).run.run call.world with
        ⟨fault | split, world⟩
      · have responds : depot.respond call = (.error fault, world) := by
          unfold respond answer
          rw [found]
          simp only
          rw [Action.run_bind, made]
        simp only [reply, after, responds]
        exact .failed found made
      · have responds : depot.respond call = (.ok (⟨depot.made, split⟩,
            { depot with
              recent := depot.recent.use call.request ⟨depot.made, split⟩
              made := depot.made + 1 }), world) := by
          unfold respond answer
          rw [found]
          simp only
          rw [Action.run_bind, made]
          rfl
        simp only [reply, after, responds, if_neg (Nat.succ_ne_self depot.made)]
        exact .worked found made

section Inversion

variable {depot : Depot} {call : Call}

theorem reply_of_find? {result : Result} (found : depot.recent.find? call.request = some result) :
    depot.reply call = .recalled result := by
  have handles := depot.handles call
  generalize depot.reply call = reply, depot.after (.call call) = next,
    (depot.respond call).2 = world at handles ⊢
  cases handles with
  | failed missed made => cases found.symm.trans missed
  | recalled same => rw [Option.some.inj (found.symm.trans same)]
  | worked missed made => cases found.symm.trans missed

theorem find?_of_recalled {result : Result} (replied : depot.reply call = .recalled result) :
    depot.recent.find? call.request = some result ∧ (depot.respond call).2 = call.world := by
  have handles := depot.handles call
  rw [replied] at handles
  generalize depot.after (.call call) = next, (depot.respond call).2 = world at handles ⊢
  cases handles with
  | recalled found => exact ⟨found, rfl⟩

theorem make_of_worked {result : Result} (replied : depot.reply call = .worked result) :
    result.serial = depot.made ∧
      (depot.make call.services call.request).run.run call.world =
        (.ok result.split, (depot.respond call).2) := by
  have handles := depot.handles call
  rw [replied] at handles
  generalize depot.after (.call call) = next, (depot.respond call).2 = world at handles ⊢
  cases handles with
  | worked missed made => exact ⟨rfl, made⟩

theorem reply_of_workedOut {split : Split} (missed : depot.recent.find? call.request = none)
    (worked : depot.workedOut call.services call.request call.world = .ok split) :
    depot.reply call = .worked ⟨depot.made, split⟩ ∧
      (depot.after (.call call)).recent =
        depot.recent.use call.request ⟨depot.made, split⟩ := by
  have handles := depot.handles call
  generalize depot.reply call = reply, depot.after (.call call) = next,
    (depot.respond call).2 = world at handles ⊢
  unfold workedOut at worked
  cases handles with
  | failed missed made =>
      rw [made] at worked
      cases worked
  | recalled found => cases missed.symm.trans found
  | worked missed made =>
      rw [made] at worked
      cases worked
      exact ⟨rfl, rfl⟩

theorem make_of_failed {fault : Fault} (replied : depot.reply call = .failed fault) :
    depot.after (.call call) = depot ∧
      (depot.make call.services call.request).run.run call.world =
        (.error fault, (depot.respond call).2) := by
  have handles := depot.handles call
  rw [replied] at handles
  generalize depot.after (.call call) = next, (depot.respond call).2 = world at handles ⊢
  cases handles with
  | failed missed made => exact ⟨rfl, made⟩

end Inversion

end Depot

end DatasetDepot
