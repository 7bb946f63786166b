import DatasetDepot.Proofs.Depot.History
import Mathlib.Data.Finset.Card
import Mathlib.Data.List.Dedup

/-!
What a depot remembers.

The history says which requests were used most recently: those that were answered, each at
its last answer.  Main statement: at any time a depot remembers exactly as many of them as it
has room for, each with the result that was worked out for it last.
-/

namespace DatasetDepot

namespace Recent

variable {Key Item : Type} [DecidableEq Key]

def keys (recent : Recent Key Item) : List Key := recent.entries.map Prod.fst

theorem keys_use (recent : Recent Key Item) (key : Key) (item : Item) :
    (recent.use key item).keys =
      (key :: recent.keys.filter (· ≠ key)).take recent.capacity := by
  unfold keys use others
  rw [List.map_take, List.map_cons, List.filter_map]
  rfl

theorem mem_of_find? {recent : Recent Key Item} {key : Key} {item : Item}
    (found : recent.find? key = some item) : (key, item) ∈ recent.entries := by
  obtain ⟨before, behind, parts, _⟩ := List.lookup_eq_some_iff.mp found
  rw [parts]
  simp

theorem mem_keys_of_find? {recent : Recent Key Item} {key : Key} {item : Item}
    (found : recent.find? key = some item) : key ∈ recent.keys :=
  List.mem_map_of_mem (mem_of_find? found)

theorem find?_use {recent : Recent Key Item} (room : 0 < recent.capacity) (key : Key)
    (item : Item) : (recent.use key item).find? key = some item := by
  obtain ⟨capacity, exact⟩ := Nat.exists_eq_add_one.mpr room
  unfold find? use
  rw [exact, List.take_succ_cons, List.lookup_cons_self]

theorem find?_eq_none_iff {recent : Recent Key Item} {key : Key} :
    recent.find? key = none ↔ key ∉ recent.keys := by
  unfold find? keys
  rw [List.lookup_eq_none_iff]
  constructor
  · intro differs member
    obtain ⟨entry, present, rfl⟩ := List.mem_map.mp member
    simpa using differs entry present
  · intro absent entry present
    have other : entry.1 ≠ key := by
      rintro rfl
      exact absent (List.mem_map_of_mem present)
    simpa using other.symm

theorem mem_use {recent : Recent Key Item} {key : Key} {item : Item} {entry : Key × Item}
    (member : entry ∈ (recent.use key item).entries) :
    entry = (key, item) ∨ entry ∈ recent.entries ∧ entry.1 ≠ key := by
  rcases List.mem_cons.mp (List.mem_of_mem_take member) with same | other
  · exact .inl same
  · exact .inr (by simpa [others] using other)

end Recent

section Keys

variable {Key : Type} [DecidableEq Key]

/-- Of equal keys only the last one stays. -/
theorem dedup_concat (keys : List Key) (key : Key) :
    (keys ++ [key]).dedup = keys.dedup.filter (· ≠ key) ++ [key] := by
  induction keys with
  | nil => simp
  | cons first rest inductionHypothesis =>
      rw [List.cons_append]
      by_cases again : first ∈ rest
      · rw [List.dedup_cons_of_mem again,
          List.dedup_cons_of_mem (List.mem_append_left [key] again)]
        exact inductionHypothesis
      · rw [List.dedup_cons_of_notMem again]
        by_cases same : first = key
        · subst same
          rw [List.dedup_cons_of_mem (by simp), inductionHypothesis]
          simp
        · rw [List.dedup_cons_of_notMem (by simp [again, same]), inductionHypothesis]
          simp [same]

/-- Cutting off the rest first makes no difference to a key that moves to the front. -/
theorem take_filter_take {keys : List Key} (distinct : keys.Nodup) (key : Key)
    (room : Nat) :
    ((keys.take (room + 1)).filter (· ≠ key)).take room =
      (keys.filter (· ≠ key)).take room := by
  induction keys generalizing room with
  | nil => rfl
  | cons first rest inductionHypothesis =>
      obtain ⟨fresh, distinct⟩ := List.nodup_cons.mp distinct
      rw [List.take_succ_cons]
      by_cases same : first = key
      · subst same
        have others {part : List Key} (inside : part ⊆ rest) :
            part.filter (· ≠ first) = part := by
          apply List.filter_eq_self.mpr
          intro other member
          have different : other ≠ first := by
            rintro rfl
            exact fresh (inside member)
          simpa using different
        simp only [ne_eq, not_true_eq_false, decide_false, Bool.false_eq_true,
          not_false_eq_true, List.filter_cons_of_neg]
        rw [others (List.take_subset _ _), others (List.Subset.refl _), List.take_take,
          Nat.min_self]
      · cases room with
        | zero => rfl
        | succ room =>
            simpa [same] using inductionHypothesis distinct room

end Keys

namespace History

def used (history : History) : List Request :=
  history.filterMap fun entry => entry.2.result?.map fun _ => entry.1

/-- The requests that were answered, from the most recent one back. -/
def mostRecent (history : History) : List Request := history.used.dedup.reverse

/-- The result that was worked out last for a request. -/
def latest? (history : History) (request : Request) : Option Result :=
  (history.filterMap fun entry =>
    if entry.1 = request then entry.2.worked? else none).getLast?

/-- The serial numbers of the results that were worked out, in this order. -/
def serials (history : History) : List Nat :=
  history.filterMap fun entry => entry.2.worked?.map Result.serial

theorem nodup_mostRecent (history : History) : history.mostRecent.Nodup :=
  List.nodup_reverse.mpr (List.nodup_dedup _)

theorem length_mostRecent (history : History) :
    history.mostRecent.length = history.used.toFinset.card := by
  unfold mostRecent
  rw [List.length_reverse, List.card_toFinset]

variable (history : History) (request : Request)

theorem mostRecent_failed (fault : Fault) :
    mostRecent (history ++ [(request, .failed fault)]) = history.mostRecent := by
  simp [mostRecent, used, Reply.result?]

theorem mostRecent_answered {reply : Reply} {result : Result}
    (answered : reply.result? = some result) :
    mostRecent (history ++ [(request, reply)]) =
      request :: history.mostRecent.filter (· ≠ request) := by
  have grows : used (history ++ [(request, reply)]) = history.used ++ [request] := by
    simp [used, answered]
  unfold mostRecent
  rw [grows, dedup_concat, List.reverse_append, List.filter_reverse]
  rfl

theorem latest?_of_worked?_eq_none {reply : Reply} (others : reply.worked? = none)
    (asked : Request) :
    latest? (history ++ [(request, reply)]) asked = history.latest? asked := by
  simp [latest?, others]

theorem latest?_of_ne {asked : Request} (different : asked ≠ request) (reply : Reply) :
    latest? (history ++ [(request, reply)]) asked = history.latest? asked := by
  simp [latest?, different.symm]

theorem latest?_worked (result : Result) :
    latest? (history ++ [(request, .worked result)]) request = some result := by
  simp [latest?, Reply.worked?]

theorem serials_of_worked?_eq_none {reply : Reply} (others : reply.worked? = none) :
    serials (history ++ [(request, reply)]) = history.serials := by
  simp [serials, others]

theorem serials_worked (result : Result) :
    serials (history ++ [(request, .worked result)]) = history.serials ++ [result.serial] := by
  simp [serials, Reply.worked?]

end History

namespace Depot

/-- The memory of a depot as the history says it has to be. -/
structure Remembers (capacity : Nat) (history : History) (depot : Depot) : Prop where
  room : depot.recent.capacity = capacity
  keys : depot.recent.keys = history.mostRecent.take capacity
  results : ∀ entry ∈ depot.recent.entries, history.latest? entry.1 = some entry.2
  serials : history.serials = List.range depot.made

section Handling

variable {capacity : Nat} {history : History} {depot : Depot}

theorem Remembers.keys_use (remembers : depot.Remembers capacity history) (request : Request)
    {reply : Reply} {result : Result} (answered : reply.result? = some result) :
    (depot.recent.use request result).keys =
      (History.mostRecent (history ++ [(request, reply)])).take capacity := by
  rw [Recent.keys_use, remembers.keys, remembers.room, History.mostRecent_answered _ _ answered]
  cases capacity with
  | zero => rfl
  | succ room =>
      rw [List.take_succ_cons, List.take_succ_cons,
        take_filter_take history.nodup_mostRecent request room]

theorem Remembers.handles (remembers : depot.Remembers capacity history) {call : Call}
    {reply : Reply} {next : Depot} {world : World}
    (handles : depot.Handles call reply next world) :
    next.Remembers capacity (history ++ [(call.request, reply)]) := by
  cases handles with
  | failed missed made =>
      constructor
      · exact remembers.room
      · rw [History.mostRecent_failed]
        exact remembers.keys
      · intro entry member
        rw [History.latest?_of_worked?_eq_none _ _ rfl]
        exact remembers.results entry member
      · rw [History.serials_of_worked?_eq_none _ _ rfl]
        exact remembers.serials
  | recalled found =>
      constructor
      · exact remembers.room
      · exact remembers.keys_use call.request rfl
      · intro entry member
        rw [History.latest?_of_worked?_eq_none _ _ rfl]
        rcases Recent.mem_use member with rfl | ⟨before, _⟩
        · exact remembers.results _ (Recent.mem_of_find? found)
        · exact remembers.results entry before
      · rw [History.serials_of_worked?_eq_none _ _ rfl]
        exact remembers.serials
  | worked missed made =>
      constructor
      · exact remembers.room
      · exact remembers.keys_use call.request rfl
      · intro entry member
        rcases Recent.mem_use member with rfl | ⟨before, different⟩
        · exact History.latest?_worked _ _ _
        · rw [History.latest?_of_ne _ _ different]
          exact remembers.results entry before
      · rw [History.serials_worked, remembers.serials, List.range_succ]

theorem Remembers.step (remembers : depot.Remembers capacity history) (step : Step) :
    (depot.after step).Remembers capacity (history ++ depot.replies step) := by
  have quiet {next : Depot} (recent : next.recent = depot.recent)
      (made : next.made = depot.made) : next.Remembers capacity (history ++ []) := by
    rw [List.append_nil]
    constructor
    · rw [recent]
      exact remembers.room
    · rw [recent]
      exact remembers.keys
    · rw [recent]
      exact remembers.results
    · rw [made]
      exact remembers.serials
  cases step with
  | call call => exact remembers.handles (depot.handles call)
  | replaceGenerator title generator => exact quiet rfl rfl
  | replaceConverter converter => exact quiet rfl rfl

theorem Remembers.run (empty : depot.Remembers capacity []) (steps : List Step) :
    (depot.run steps).Remembers capacity (depot.history steps) := by
  induction steps using List.reverseRecOn with
  | nil => exact empty
  | append_singleton steps step inductionHypothesis =>
      rw [run_append, history_concat]
      exact inductionHypothesis.step step

end Handling

theorem remembers_of_open? {settings : Settings} {depot : Depot}
    (opened : open? settings = .ok depot) : depot.Remembers settings.capacity [] := by
  unfold open? at opened
  cases checked : settings.check with
  | error fault =>
      rw [checked] at opened
      cases opened
  | ok accepted =>
      rw [checked] at opened
      cases ratio : ConverterSet.ofRatio settings.ratio with
      | error fault =>
          rw [ratio] at opened
          cases opened
      | ok converters =>
          rw [ratio] at opened
          cases opened
          exact ⟨rfl, List.take_nil.symm, fun _ absent => absurd absent List.not_mem_nil, rfl⟩

/-- A depot recalls the most recently used requests and no others. -/
structure RecallsMostRecent (capacity : Nat) (history : History) (depot : Depot) (call : Call) :
    Prop where
  recalls : (∃ result, depot.reply call = .recalled result) ↔
    call.request ∈ history.mostRecent.take capacity
  recalled : ∀ result, depot.reply call = .recalled result →
    history.latest? call.request = some result ∧ (depot.respond call).2 = call.world
  worked : ∀ result, depot.reply call = .worked result →
    result.serial = history.serials.length ∧
      (depot.make call.services call.request).run.run call.world =
        (.ok result.split, (depot.respond call).2)
  failed : ∀ fault, depot.reply call = .failed fault →
    depot.after (.call call) = depot ∧
      (depot.make call.services call.request).run.run call.world =
        (.error fault, (depot.respond call).2)
  remembered : depot.remembered = min capacity history.used.toFinset.card
  serials : history.serials = List.range history.serials.length

/-- At any time of its life a depot answers from memory exactly if the request is among the
most recently used ones, as many as it has room for. -/
theorem recalls_most_recent {settings : Settings} {depot : Depot}
    (opened : open? settings = .ok depot) (steps : List Step) (call : Call) :
    (depot.run steps).RecallsMostRecent settings.capacity (depot.history steps) call := by
  have remembers := (remembers_of_open? opened).run steps
  have made : (depot.history steps).serials.length = (depot.run steps).made := by
    rw [remembers.serials, List.length_range]
  constructor
  · rw [← remembers.keys]
    constructor
    · rintro ⟨result, replied⟩
      exact Recent.mem_keys_of_find? (find?_of_recalled replied).1
    · intro member
      cases found : (depot.run steps).recent.find? call.request with
      | none => exact absurd member (Recent.find?_eq_none_iff.mp found)
      | some result => exact ⟨result, reply_of_find? found⟩
  · intro result replied
    obtain ⟨found, untouched⟩ := find?_of_recalled replied
    exact ⟨remembers.results _ (Recent.mem_of_find? found), untouched⟩
  · intro result replied
    rw [made]
    exact make_of_worked replied
  · intro fault replied
    exact make_of_failed replied
  · rw [← History.length_mostRecent, ← List.length_take, ← remembers.keys]
    exact (List.length_map _).symm
  · rw [made]
    exact remembers.serials

/-- Three requests in a depot with room for two. -/
theorem recalls_most_recent_of_two :
    let settings : Settings := { cache := Settings.cacheOf none, capacity := 2, ratio := ⟨0⟩ }
    let call (samples : Nat) : Call :=
      ⟨{ title := .zeros, format := .numpy, samples := samples }, Services.idle, World.blank⟩
    let steps : List Step := [.call (call 1), .call (call 2), .call (call 1), .call (call 3)]
    ∃ depot, open? settings = .ok depot ∧
      (depot.run steps).RecallsMostRecent 2 (depot.history steps) (call 1) := by
  intro settings call steps
  have accepted : (⟨0⟩ : Double).isShare = true := by decide +kernel
  have opened : ∃ depot, open? settings = .ok depot := by
    unfold open? Settings.check ConverterSet.ofRatio Share.checkSparsity
    rw [if_pos accepted]
    exact ⟨_, rfl⟩
  obtain ⟨depot, opened⟩ := opened
  exact ⟨depot, opened, recalls_most_recent opened steps (call 1)⟩

end Depot

end DatasetDepot
