import DatasetDepot.Proofs.Path
import DatasetDepot.Store

/-!
What paths lead to, and what operations leave as it was.

Where a path leads, if it leads anywhere, depends on its steps alone.  A path that ends in a
name leads below a directory exactly if the steps above the name lead to that directory and the
name fits.  Operations on a store spare what they are not about: directories stay, and so do
files other than the one that is written or removed.
-/

namespace DatasetDepot

/-- Where a name leads from a place. -/
def Location.descend (place : Location) (name : Name) : Location :=
  if name = ['.'] then place
  else if name = ['.', '.'] then place.dropLast
  else place ++ [name]

/-- Where names lead from a place. -/
def Location.follow (place : Location) (names : List Name) : Location :=
  names.foldl Location.descend place

/-- Where a path leads from a base, if it leads anywhere. -/
def Path.place (path : Path) (base : Location) : Location :=
  Location.follow (if path.isAbsolute then [] else base) path.steps

theorem Location.follow_filter (place : Location) (names : List Name) :
    place.follow (names.filter (· ≠ ['.'])) = place.follow names := by
  induction names generalizing place with
  | nil => rfl
  | cons name names inductionHypothesis =>
      by_cases dot : name = ['.']
      · rw [List.filter_cons_of_neg (by simp [dot]), inductionHypothesis]
        exact congrArg (fun next => Location.follow next names) (if_pos dot).symm
      · rw [List.filter_cons_of_pos (by simp [dot])]
        exact inductionHypothesis _

theorem Location.follow_eq_append {names : List Name} (plain : ∀ name ∈ names, name ≠ ['.'])
    (noDots : ∀ name ∈ names, name ≠ ['.', '.']) (place : Location) :
    place.follow names = place ++ names := by
  induction names generalizing place with
  | nil => exact (List.append_nil place).symm
  | cons name names inductionHypothesis =>
      have down : place.descend name = place ++ [name] := by
        rw [Location.descend, if_neg (plain name List.mem_cons_self),
          if_neg (noDots name List.mem_cons_self)]
      calc place.follow (name :: names)
        _ = (place.descend name).follow names := rfl
        _ = place ++ [name] ++ names := by
          rw [inductionHypothesis (fun name member => plain name (List.mem_cons_of_mem _ member))
            (fun name member => noDots name (List.mem_cons_of_mem _ member)), down]
        _ = place ++ name :: names := by simp

theorem Path.place_of_steps {path : Path} {above : List Name} {name : Name}
    (steps : path.steps = above ++ [name]) (base : Location) :
    path.place base =
      (Location.follow (if path.isAbsolute then [] else base) above).descend name := by
  unfold Path.place Location.follow
  rw [steps, List.foldl_append]
  rfl

theorem Location.descend_of_isPlain {name : Name} (plain : name.IsPlain) (place : Location) :
    place.descend name = place ++ [name] := by
  rw [Location.descend, if_neg plain.notDot, if_neg plain.notDots]

theorem Path.EndsAt.place_eq {path : Path} {absolute : Bool} {above : List Name} {name : Name}
    (ends : path.EndsAt absolute above name) (base : Location) :
    path.place base = Location.follow (if absolute then [] else base) above ++ [name] := by
  rw [Path.place_of_steps ends.steps, Location.descend_of_isPlain ends.plain, ends.isAbsolute]

/-- Where the unfinished file next to a path lies. -/
theorem Path.exists_unfinished_place (path : Path) (base : Location) :
    ∃ upper name, path.unfinished.place base = upper ++ [name ++ Name.mark] ∧
      (path.place base = upper ++ [name] ∨ name = [] ∧ path.place base = upper) := by
  cases named : path.name? with
  | some name =>
      obtain ⟨front, tail, splits⟩ := Path.exists_splits_of_name? named
      refine ⟨_, name, splits.unfinished.place_eq base, .inl ?_⟩
      rw [Path.place_of_steps splits.steps, Location.descend_of_isPlain splits.plain]
  | none =>
      have next : path.unfinished = path.join Name.mark := by
        unfold Path.unfinished
        rw [named]
        rfl
      have plain : Name.IsPlain Name.mark := Name.isPlain_of_long (by decide) (by decide)
      refine ⟨path.place base, [], ?_, .inr ⟨rfl, rfl⟩⟩
      rw [next, (Path.endsAt_join path plain).place_eq]
      rfl

theorem Path.unfinished_place_ne (path : Path) (base : Location) :
    path.unfinished.place base ≠ path.place base := by
  obtain ⟨upper, name, unfinished, place | ⟨_, place⟩⟩ := path.exists_unfinished_place base
  · rw [unfinished, place]
    intro same
    have longer := congrArg List.length (List.cons.inj (List.append_cancel_left same)).1
    simp [Name.mark] at longer
  · rw [unfinished, place]
    intro same
    simpa using congrArg List.length same

/-- A name the store can hold. -/
structure Name.Fits (name : Name) : Prop where
  noZero : '\x00' ∉ name
  short : Store.nameBytes name ≤ Store.maxNameBytes

theorem Store.nameBytes_append (name rest : Name) :
    nameBytes (name ++ rest) = nameBytes name + nameBytes rest := by
  have shift : ∀ (letters : Name) (count : Nat),
      letters.foldl (fun bytes letter => bytes + letter.utf8Size) count =
        count + nameBytes letters := by
    intro letters
    induction letters with
    | nil => exact fun count => rfl
    | cons letter letters inductionHypothesis =>
        intro count
        rw [nameBytes, List.foldl_cons, List.foldl_cons, inductionHypothesis,
          inductionHypothesis (0 + letter.utf8Size)]
        omega
  rw [nameBytes, List.foldl_append, shift]
  rfl

theorem Name.Fits.of_append {name rest : Name} (fits : Name.Fits (name ++ rest)) : name.Fits where
  noZero zero := fits.noZero (List.mem_append_left _ zero)
  short := by
    have short := fits.short
    rw [Store.nameBytes_append] at short
    omega

namespace Store

variable {store before after : Store} {place location : Location} {names : List Name}

/-! Lookups. -/

theorem lookup_nil (store : Store) : store.lookup [] = some .directory := if_pos rfl

theorem lookup_filter_ne {nodes : List (Location × Node)} {other : Location}
    (ne : other ≠ location) :
    (nodes.filter fun entry => entry.1 ≠ location).lookup other = nodes.lookup other := by
  induction nodes with
  | nil => rfl
  | cons entry nodes inductionHypothesis =>
      obtain ⟨key, node⟩ := entry
      by_cases same : key = location
      · have differs : (other == key) = false := by
          rw [beq_eq_false_iff_ne, same]
          exact ne
        rw [List.filter_cons_of_neg (by simp [same]), inductionHypothesis, List.lookup_cons,
          differs]
      · rw [List.filter_cons_of_pos (by simp [same]), List.lookup_cons, List.lookup_cons,
          inductionHypothesis]

theorem lookup_filter_self (nodes : List (Location × Node)) (location : Location) :
    (nodes.filter fun entry => entry.1 ≠ location).lookup location = none := by
  induction nodes with
  | nil => rfl
  | cons entry nodes inductionHypothesis =>
      obtain ⟨key, node⟩ := entry
      by_cases same : key = location
      · rw [List.filter_cons_of_neg (by simp [same]), inductionHypothesis]
      · have differs : (location == key) = false := by
          rw [beq_eq_false_iff_ne]
          exact fun equal => same equal.symm
        rw [List.filter_cons_of_pos (by simp [same]), List.lookup_cons, differs]
        exact inductionHypothesis

@[simp]
theorem lookup_set_self (store : Store) {location : Location} (below : location ≠ [])
    (node : Node) :
    (store.set location node).lookup location = some node := by
  simp [lookup, set, below]

@[simp]
theorem lookup_set_ne (store : Store) {other : Location} (ne : other ≠ location) (node : Node) :
    (store.set location node).lookup other = store.lookup other := by
  have differs : (other == location) = false := by
    rw [beq_eq_false_iff_ne]
    exact ne
  unfold lookup set
  rw [List.lookup_cons, differs]
  simp only [lookup_filter_ne ne]

@[simp]
theorem lookup_clear_self (store : Store) (below : location ≠ []) :
    (store.clear location).lookup location = none := by
  unfold lookup clear
  rw [if_neg below]
  exact lookup_filter_self _ _

@[simp]
theorem lookup_clear_ne (store : Store) {other : Location} (ne : other ≠ location) :
    (store.clear location).lookup other = store.lookup other := by
  unfold lookup clear
  simp only [lookup_filter_ne ne]

/-! Walks. -/

theorem walk_cons_eq_ok_iff {name : Name} :
    store.walk place (name :: names) = .ok location ↔
      store.lookup place = some .directory ∧
        (name ≠ ['.'] → name ≠ ['.', '.'] → nameBytes name ≤ maxNameBytes) ∧
          store.walk (place.descend name) names = .ok location := by
  rw [walk, Location.descend]
  cases store.lookup place with
  | none => simp
  | some node =>
      cases node with
      | file contents => simp
      | directory =>
          by_cases dot : name = ['.']
          · simp [dot]
          · by_cases dots : name = ['.', '.']
            · simp [dots]
            · by_cases long : maxNameBytes < nameBytes name
              · simp [dot, dots, long, Nat.not_le.mpr long]
              · simp [dot, dots, long, Nat.not_lt.mp long]

theorem walk_append_eq_ok_iff {rest : List Name} :
    store.walk place (names ++ rest) = .ok location ↔
      ∃ middle, store.walk place names = .ok middle ∧ store.walk middle rest = .ok location := by
  induction names generalizing place with
  | nil => simp [walk]
  | cons name names inductionHypothesis =>
      rw [List.cons_append, walk_cons_eq_ok_iff, inductionHypothesis]
      constructor
      · rintro ⟨directory, short, middle, first, second⟩
        exact ⟨middle, walk_cons_eq_ok_iff.mpr ⟨directory, short, first⟩, second⟩
      · rintro ⟨middle, first, second⟩
        obtain ⟨directory, short, first⟩ := walk_cons_eq_ok_iff.mp first
        exact ⟨directory, short, middle, first, second⟩

theorem walk_singleton_eq_ok_iff {name : Name} (plain : name.IsPlain) :
    store.walk place [name] = .ok location ↔
      store.lookup place = some .directory ∧ nameBytes name ≤ maxNameBytes ∧
        location = place ++ [name] := by
  rw [walk_cons_eq_ok_iff]
  simp [walk, Location.descend, plain.notDot, plain.notDots, eq_comm]

/-- Where a walk leads does not depend on the store. -/
theorem eq_follow_of_walk (walked : store.walk place names = .ok location) :
    location = place.follow names := by
  induction names generalizing place with
  | nil =>
      cases walked
      rfl
  | cons name names inductionHypothesis =>
      exact inductionHypothesis (walk_cons_eq_ok_iff.mp walked).2.2

theorem walk_mono (kept : ∀ place, before.lookup place = some .directory →
    after.lookup place = some .directory)
    (walked : before.walk place names = .ok location) : after.walk place names = .ok location := by
  induction names generalizing place with
  | nil => exact walked
  | cons name names inductionHypothesis =>
      obtain ⟨directory, short, rest⟩ := walk_cons_eq_ok_iff.mp walked
      exact walk_cons_eq_ok_iff.mpr ⟨kept place directory, short, inductionHypothesis rest⟩

theorem lookup_of_walk (walked : store.walk place names = .ok location)
    (there : store.lookup location = some .directory) : store.lookup place = some .directory := by
  cases names with
  | nil =>
      cases walked
      exact there
  | cons name names => exact (walk_cons_eq_ok_iff.mp walked).1

theorem walk_filter_iff (there : store.lookup location = some .directory) :
    store.walk place (names.filter (· ≠ ['.'])) = .ok location ↔
      store.walk place names = .ok location := by
  induction names generalizing place with
  | nil => exact Iff.rfl
  | cons name names inductionHypothesis =>
      by_cases dot : name = ['.']
      · rw [List.filter_cons_of_neg (by simp [dot]), inductionHypothesis, walk_cons_eq_ok_iff,
          Location.descend, if_pos dot]
        constructor
        · exact fun walked => ⟨lookup_of_walk walked there, fun other => absurd dot other, walked⟩
        · exact fun walked => walked.2.2
      · rw [List.filter_cons_of_pos (by simp [dot]), walk_cons_eq_ok_iff, walk_cons_eq_ok_iff,
          inductionHypothesis]

/-! Paths. -/

/-- Where the steps of a path start. -/
def start (store : Store) (absolute : Bool) : Location := if absolute then [] else store.base

/-- These steps lead to a directory. -/
structure Leads (store : Store) (absolute : Bool) (steps : List Name) (place : Location) :
    Prop where
  noZero : ∀ step ∈ steps, '\x00' ∉ step
  walked : store.walk (store.start absolute) steps = .ok place
  there : store.lookup place = some .directory

theorem Leads.exists_above {absolute : Bool} {above : List Name} {name : Name}
    (leads : store.Leads absolute (above ++ [name]) place) :
    ∃ place, store.Leads absolute above place := by
  obtain ⟨middle, walked, last⟩ := walk_append_eq_ok_iff.mp leads.walked
  exact ⟨middle, fun step member => leads.noZero step (List.mem_append_left _ member), walked,
    (walk_cons_eq_ok_iff.mp last).1⟩

theorem steps_eq (path : Path) :
    path.steps = (path.parts.filter fun part => !part.isEmpty).filter (· ≠ ['.']) := by
  rw [List.filter_filter]
  apply List.filter_congr
  intro part _
  exact Bool.and_comm _ _

theorem resolve_eq_ok_iff {path : Path} :
    store.resolve path = .ok location ↔
      (∀ step ∈ path.steps, '\x00' ∉ step) ∧ path.letters ≠ [] ∧
        store.walk (store.start path.isAbsolute) (path.parts.filter fun part => !part.isEmpty) =
          .ok location := by
  have zero : (∀ step ∈ path.steps, '\x00' ∉ step) ↔ path.letters.any (· = '\x00') = false := by
    rw [Path.any_zero_eq]
    simp
  rw [zero]
  unfold resolve start
  by_cases zeroed : path.letters.any (· = '\x00') = true
  · simp [zeroed]
  · by_cases nothing : path.letters = []
    · simp [nothing]
    · simp [zeroed, nothing]

theorem find_eq_ok_iff {path : Path} {node : Node} :
    store.find path = .ok node ↔
      ∃ location, store.resolve path = .ok location ∧ store.lookup location = some node := by
  unfold find
  cases store.resolve path with
  | error refusal => simp [bind, Except.bind]
  | ok location =>
      cases found : store.lookup location with
      | none => simp [bind, Except.bind, found]
      | some other => simp [bind, Except.bind, pure, Except.pure, found]

theorem has_iff {path : Path} :
    store.has path = true ↔
      ∃ location node, store.resolve path = .ok location ∧ store.lookup location = some node := by
  have found : store.has path = true ↔ ∃ node, store.find path = .ok node := by
    unfold has
    cases store.find path with
    | error refusal => simp [Except.toOption]
    | ok node => simp [Except.toOption]
  rw [found]
  simp only [find_eq_ok_iff]
  exact exists_comm

theorem eq_place_of_resolve {path : Path} (resolved : store.resolve path = .ok location) :
    location = path.place store.base := by
  have walked := eq_follow_of_walk (resolve_eq_ok_iff.mp resolved).2.2
  rw [walked, Path.place, steps_eq, Location.follow_filter]
  rfl

theorem find_ne_of_absent {path : Path} (absent : store.has path = false) (node : Node) :
    store.find path ≠ .ok node := by
  intro found
  rw [has_iff.mpr ((find_eq_ok_iff.mp found).imp fun _ there => ⟨node, there⟩)] at absent
  cases absent

theorem has_eq_false_of_lookup {path : Path}
    (nothing : store.lookup (path.place store.base) = none) : store.has path = false := by
  rw [← Bool.not_eq_true]
  intro has
  obtain ⟨location, node, resolved, there⟩ := has_iff.mp has
  rw [eq_place_of_resolve resolved, nothing] at there
  cases there

theorem resolve_mono (base : after.base = before.base)
    (kept : ∀ place, before.lookup place = some .directory → after.lookup place = some .directory)
    {path : Path} (resolved : before.resolve path = .ok location) :
    after.resolve path = .ok location := by
  rw [resolve_eq_ok_iff] at resolved ⊢
  rw [start, base]
  exact ⟨resolved.1, resolved.2.1, walk_mono kept resolved.2.2⟩

theorem find_eq_directory_iff {path : Path} :
    store.find path = .ok .directory ↔
      path.letters ≠ [] ∧ ∃ place, store.Leads path.isAbsolute path.steps place := by
  rw [find_eq_ok_iff]
  constructor
  · rintro ⟨place, resolved, there⟩
    obtain ⟨noZero, some, walked⟩ := resolve_eq_ok_iff.mp resolved
    rw [← walk_filter_iff there, ← steps_eq] at walked
    exact ⟨some, place, noZero, walked, there⟩
  · rintro ⟨some, place, noZero, walked, there⟩
    rw [steps_eq, walk_filter_iff there] at walked
    exact ⟨place, resolve_eq_ok_iff.mpr ⟨noZero, some, walked⟩, there⟩

theorem has_of_leads {path : Path} (some : path.letters ≠ [])
    (leads : store.Leads path.isAbsolute path.steps place) : store.has path = true := by
  obtain ⟨location, resolved, there⟩ :=
    find_eq_ok_iff.mp (find_eq_directory_iff.mpr ⟨some, place, leads⟩)
  exact has_iff.mpr ⟨location, _, resolved, there⟩

theorem resolve_of_endsAt {path : Path} {absolute : Bool} {above : List Name} {name : Name}
    (ends : path.EndsAt absolute above name) :
    store.resolve path = .ok location ↔
      ∃ place, store.Leads absolute above place ∧ name.Fits ∧ location = place ++ [name] := by
  obtain ⟨front, parts⟩ := List.getLast?_eq_some_iff.mp ends.last
  have nonempty : name.isEmpty = false := by simp [ends.plain.nonempty]
  have named : (path.parts.filter fun part => !part.isEmpty) =
      (front.filter fun part => !part.isEmpty) ++ [name] := by
    rw [parts, List.filter_append, List.filter_singleton, nonempty]
    rfl
  have above' : (front.filter fun part => !part.isEmpty).filter (· ≠ ['.']) = above := by
    have steps := ends.steps
    rw [steps_eq, named, List.filter_append, List.filter_singleton,
      decide_eq_true ends.plain.notDot] at steps
    exact List.append_cancel_right steps
  have some : path.letters ≠ [] := by
    intro nothing
    have last := ends.last
    rw [show path = ⟨[]⟩ from congrArg Path.mk nothing, Path.parts_nil] at last
    exact ends.plain.nonempty (Option.some.inj last).symm
  rw [resolve_eq_ok_iff, named, walk_append_eq_ok_iff, ends.steps, ends.isAbsolute]
  simp only [walk_singleton_eq_ok_iff ends.plain, List.mem_append, List.mem_singleton]
  constructor
  · rintro ⟨noZero, _, place, walked, there, short, rfl⟩
    rw [← walk_filter_iff there, above'] at walked
    exact ⟨place, ⟨fun step member => noZero step (.inl member), walked, there⟩,
      ⟨noZero name (.inr rfl), short⟩, rfl⟩
  · rintro ⟨place, leads, fits, rfl⟩
    have walked := leads.walked
    rw [← above', walk_filter_iff leads.there] at walked
    refine ⟨?_, some, place, walked, leads.there, fits.short, rfl⟩
    rintro step (member | rfl)
    · exact leads.noZero step member
    · exact fits.noZero

/-! Operations. -/

theorem read_eq_ok_iff {path : Path} {contents : Bytes} :
    store.read path = .ok contents ↔
      ∃ location, store.resolve path = .ok location ∧
        store.lookup location = some (.file contents) := by
  have found : store.read path = .ok contents ↔ store.find path = .ok (.file contents) := by
    unfold read
    cases store.find path with
    | error refusal => simp [bind, Except.bind]
    | ok node => cases node <;> simp [bind, Except.bind, pure, Except.pure]
  rw [found, find_eq_ok_iff]

theorem has_of_read {path : Path} {contents : Bytes} (read : store.read path = .ok contents) :
    store.has path = true := by
  obtain ⟨location, resolved, there⟩ := read_eq_ok_iff.mp read
  exact has_iff.mpr ⟨location, _, resolved, there⟩

/-- A path that ends in a dot leads to a directory if to anything. -/
theorem read_ne_of_dot {path : Path} (last : path.parts.getLast? = some ['.'])
    (contents : Bytes) : store.read path ≠ .ok contents := by
  intro read
  obtain ⟨location, resolved, there⟩ := read_eq_ok_iff.mp read
  obtain ⟨front, parts⟩ := List.getLast?_eq_some_iff.mp last
  obtain ⟨_, _, walked⟩ := resolve_eq_ok_iff.mp resolved
  rw [parts, List.filter_append] at walked
  obtain ⟨middle, _, stays⟩ := walk_append_eq_ok_iff.mp walked
  obtain ⟨directory, _, same⟩ := walk_cons_eq_ok_iff.mp stays
  cases same
  rw [show Location.descend middle ['.'] = middle from rfl, directory] at there
  cases there

theorem write_eq_ok_iff {path : Path} {contents : Bytes} :
    before.write path contents = .ok after ↔
      ∃ location, before.resolve path = .ok location ∧
        before.lookup location ≠ some .directory ∧
          after = before.set location (.file contents) := by
  unfold write
  cases before.resolve path with
  | error refusal => simp [bind, Except.bind]
  | ok location =>
      rcases found : before.lookup location with _ | ⟨_ | _⟩ <;>
        simp [bind, Except.bind, pure, Except.pure, found, eq_comm]

theorem remove_eq_ok_iff {path : Path} :
    before.remove path = .ok after ↔
      ∃ location contents, before.resolve path = .ok location ∧
        before.lookup location = some (.file contents) ∧ after = before.clear location := by
  unfold remove
  cases before.resolve path with
  | error refusal => simp [bind, Except.bind]
  | ok location =>
      rcases found : before.lookup location with _ | ⟨_ | _⟩ <;>
        simp [bind, Except.bind, pure, Except.pure, found, eq_comm]

theorem rename_eq_ok_iff {source target : Path} :
    before.rename source target = .ok after ↔
      ∃ contents origin location, before.read source = .ok contents ∧
        before.resolve source = .ok origin ∧ before.resolve target = .ok location ∧
          before.lookup location ≠ some .directory ∧
            after = (before.clear origin).set location (.file contents) := by
  unfold rename
  cases before.read source with
  | error refusal => simp [bind, Except.bind]
  | ok contents =>
      cases before.resolve source with
      | error refusal => simp [bind, Except.bind]
      | ok origin =>
          cases before.resolve target with
          | error refusal => simp [bind, Except.bind]
          | ok location =>
              rcases found : before.lookup location with _ | ⟨_ | _⟩ <;>
                simp [bind, Except.bind, pure, Except.pure, found, eq_comm]

theorem makeDirectory_eq_ok_iff {path : Path} :
    before.makeDirectory path = .ok after ↔
      ∃ location, before.resolve path = .ok location ∧ before.lookup location = none ∧
        after = before.set location .directory := by
  unfold makeDirectory
  cases before.resolve path with
  | error refusal => simp [bind, Except.bind]
  | ok location =>
      cases found : before.lookup location <;>
        simp [bind, Except.bind, pure, Except.pure, found, eq_comm]

/-- Next to a path without a name, files can only be opened if it leads to a directory. -/
theorem has_of_write_unfinished {path : Path} (some : path.letters ≠ [])
    (unnamed : path.name? = none) {contents : Bytes}
    (written : before.write path.unfinished contents = .ok after) : before.has path = true := by
  have next : path.unfinished = path.join Name.mark := by
    unfold Path.unfinished
    rw [unnamed]
    rfl
  have plain : Name.IsPlain Name.mark := Name.isPlain_of_long (by decide) (by decide)
  obtain ⟨location, resolved, _⟩ := write_eq_ok_iff.mp written
  rw [next] at resolved
  obtain ⟨place, leads, _⟩ := (resolve_of_endsAt (Path.endsAt_join path plain)).mp resolved
  exact has_of_leads some leads

/-! What is spared. -/

/-- What was there before is there afterwards, but for files in these places. -/
structure Spares (scratch : Set Location) (before after : Store) : Prop where
  base : after.base = before.base
  kept : ∀ location node, before.lookup location = some node →
    (location ∈ scratch → node = .directory) → after.lookup location = some node

namespace Spares

variable {scratch more : Set Location} {middle : Store}

theorem refl (scratch : Set Location) (store : Store) : Spares scratch store store :=
  ⟨rfl, fun _ _ found _ => found⟩

theorem trans (first : Spares scratch before middle) (second : Spares scratch middle after) :
    Spares scratch before after where
  base := second.base.trans first.base
  kept location node found allowed :=
    second.kept location node (first.kept location node found allowed) allowed

theorem mono (spares : Spares scratch before after) (wider : scratch ⊆ more) :
    Spares more before after where
  base := spares.base
  kept location node found allowed :=
    spares.kept location node found fun member => allowed (wider member)

theorem directory (spares : Spares scratch before after) {place : Location}
    (there : before.lookup place = some .directory) : after.lookup place = some .directory :=
  spares.kept place .directory there fun _ => rfl

theorem leads (spares : Spares scratch before after) {absolute : Bool} {steps : List Name}
    {place : Location} (leads : before.Leads absolute steps place) :
    after.Leads absolute steps place where
  noZero := leads.noZero
  walked := by
    rw [start, spares.base]
    exact walk_mono (fun _ => spares.directory) leads.walked
  there := spares.directory leads.there

theorem resolve (spares : Spares scratch before after) {path : Path} {location : Location}
    (resolved : before.resolve path = .ok location) : after.resolve path = .ok location :=
  resolve_mono spares.base (fun _ => spares.directory) resolved

theorem has (spares : Spares scratch before after) {path : Path} (there : before.has path = true)
    (safe : path.place before.base ∉ scratch) : after.has path = true := by
  obtain ⟨location, node, resolved, found⟩ := has_iff.mp there
  refine has_iff.mpr ⟨location, node, spares.resolve resolved, spares.kept location node found ?_⟩
  rw [← eq_place_of_resolve resolved] at safe
  exact fun member => absurd member safe

end Spares

/-- The same store but for files in these places. -/
structure Touches (places : List Location) (before after : Store) : Prop where
  base : after.base = before.base
  elsewhere : ∀ location, location ∉ places → after.lookup location = before.lookup location
  directories : ∀ location,
    after.lookup location = some .directory ↔ before.lookup location = some .directory

namespace Touches

variable {places more : List Location} {middle : Store}

theorem refl (places : List Location) (store : Store) : Touches places store store :=
  ⟨rfl, fun _ _ => rfl, fun _ => Iff.rfl⟩

theorem trans (first : Touches places before middle) (second : Touches places middle after) :
    Touches places before after where
  base := second.base.trans first.base
  elsewhere location other :=
    (second.elsewhere location other).trans (first.elsewhere location other)
  directories location := (second.directories location).trans (first.directories location)

theorem mono (touches : Touches places before after) (wider : places ⊆ more) :
    Touches more before after where
  base := touches.base
  elsewhere location other := touches.elsewhere location fun member => other (wider member)
  directories := touches.directories

theorem resolve_iff (touches : Touches places before after) {path : Path} {location : Location} :
    after.resolve path = .ok location ↔ before.resolve path = .ok location :=
  ⟨resolve_mono touches.base.symm fun place => (touches.directories place).mp,
    resolve_mono touches.base fun place => (touches.directories place).mpr⟩

theorem find_directory_iff (touches : Touches places before after) {path : Path} :
    after.find path = .ok .directory ↔ before.find path = .ok .directory := by
  simp only [find_eq_ok_iff, touches.resolve_iff, touches.directories]

/-- What a path leads to elsewhere is the same. -/
theorem found_iff (touches : Touches places before after) {path : Path}
    (other : path.place before.base ∉ places) {location : Location} {node : Node} :
    after.resolve path = .ok location ∧ after.lookup location = some node ↔
      before.resolve path = .ok location ∧ before.lookup location = some node := by
  rw [touches.resolve_iff]
  refine and_congr_right fun resolved => ?_
  rw [eq_place_of_resolve resolved, touches.elsewhere _ other]

theorem has_eq (touches : Touches places before after) {path : Path}
    (other : path.place before.base ∉ places) : after.has path = before.has path := by
  rw [Bool.eq_iff_iff, has_iff, has_iff]
  simp only [touches.found_iff other]

theorem read_iff (touches : Touches places before after) {path : Path}
    (other : path.place before.base ∉ places) {contents : Bytes} :
    after.read path = .ok contents ↔ before.read path = .ok contents := by
  simp only [read_eq_ok_iff, touches.found_iff other]

theorem spares {scratch : Set Location} (touches : Touches places before after)
    (free : ∀ location ∈ places, location ∈ scratch ∨ before.lookup location = none) :
    Spares scratch before after where
  base := touches.base
  kept location node found allowed := by
    by_cases member : location ∈ places
    · rcases free location member with inScratch | nothing
      · obtain rfl : node = .directory := allowed inScratch
        exact (touches.directories location).mpr found
      · rw [nothing] at found
        cases found
    · rwa [touches.elsewhere location member]

theorem set {location : Location} (notDirectory : before.lookup location ≠ some .directory)
    (contents : Bytes) : Touches [location] before (before.set location (.file contents)) := by
  have below : location ≠ [] := by
    rintro rfl
    exact notDirectory (lookup_nil before)
  refine ⟨rfl, fun other ne => lookup_set_ne _ (by simpa using ne) _, fun other => ?_⟩
  by_cases same : other = location
  · subst same
    rw [lookup_set_self _ below]
    exact iff_of_false (by simp) notDirectory
  · rw [lookup_set_ne _ same]

theorem clear {location : Location} (notDirectory : before.lookup location ≠ some .directory) :
    Touches [location] before (before.clear location) := by
  have below : location ≠ [] := by
    rintro rfl
    exact notDirectory (lookup_nil before)
  refine ⟨rfl, fun other ne => lookup_clear_ne _ (by simpa using ne), fun other => ?_⟩
  by_cases same : other = location
  · subst same
    rw [lookup_clear_self _ below]
    exact iff_of_false (by simp) notDirectory
  · rw [lookup_clear_ne _ same]

end Touches

/-! Making directories. -/

/-- The same store but for directories where nothing was, all of them in these places. -/
structure Opens (way : Location → Prop) (before after : Store) : Prop where
  base : after.base = before.base
  opened : ∀ location, after.lookup location = before.lookup location ∨
    way location ∧ before.lookup location = none ∧ after.lookup location = some .directory

namespace Opens

variable {way wider : Location → Prop} {middle : Store}

theorem refl (way : Location → Prop) (store : Store) : Opens way store store :=
  ⟨rfl, fun _ => .inl rfl⟩

theorem trans (first : Opens way before middle) (second : Opens way middle after) :
    Opens way before after where
  base := second.base.trans first.base
  opened location := by
    rcases second.opened location with same | ⟨onWay, nothing, opened⟩
    · rw [same]
      exact first.opened location
    · rcases first.opened location with same | ⟨_, _, already⟩
      · exact .inr ⟨onWay, same ▸ nothing, opened⟩
      · rw [nothing] at already
        cases already

theorem mono (opens : Opens way before after) (inside : ∀ location, way location → wider location) :
    Opens wider before after where
  base := opens.base
  opened location := (opens.opened location).imp_right fun new => ⟨inside location new.1, new.2⟩

theorem spares (opens : Opens way before after) (scratch : Set Location) :
    Spares scratch before after where
  base := opens.base
  kept location node found _ := by
    rcases opens.opened location with same | ⟨_, nothing, _⟩
    · rwa [same]
    · rw [nothing] at found
      cases found

theorem set {location : Location} (nothing : before.lookup location = none) (onWay : way location) :
    Opens way before (before.set location .directory) where
  base := rfl
  opened other := by
    by_cases same : other = location
    · subst same
      have below : other ≠ [] := by
        rintro rfl
        rw [lookup_nil] at nothing
        cases nothing
      exact .inr ⟨onWay, nothing, lookup_set_self _ below _⟩
    · exact .inl (lookup_set_ne _ same _)

end Opens

def pathOf (absolute : Bool) (steps : List Name) : Path :=
  Path.ofParts (if absolute then [] :: steps else steps)

section PathOf

variable {absolute : Bool} {steps : List Name}
  (proper : ∀ step ∈ steps, Path.isStep step = true ∧ '/' ∉ step)

include proper

theorem parts_pathOf (some : steps ≠ []) :
    (pathOf absolute steps).parts = if absolute then [] :: steps else steps := by
  apply Path.parts_ofParts
  · cases absolute <;> simp [some]
  · intro part member
    cases absolute with
    | true =>
        rcases List.mem_cons.mp member with rfl | member
        · exact List.not_mem_nil
        · exact (proper part member).2
    | false => exact (proper part member).2

theorem steps_pathOf (some : steps ≠ []) : (pathOf absolute steps).steps = steps := by
  have all : steps.filter Path.isStep = steps :=
    List.filter_eq_self.mpr fun step member => (proper step member).1
  rw [Path.steps, parts_pathOf proper some]
  cases absolute with
  | true => exact all
  | false => exact all

theorem isAbsolute_pathOf (some : steps ≠ []) : (pathOf absolute steps).isAbsolute = absolute := by
  rw [Bool.eq_iff_iff, Path.isAbsolute_iff, parts_pathOf proper some]
  have length := List.length_pos_iff.mpr some
  cases absolute with
  | true =>
      simp only [if_true, List.head?_cons, List.length_cons, true_and, iff_true]
      omega
  | false =>
      obtain ⟨first, rest, rfl⟩ := List.exists_cons_of_ne_nil some
      have step := (proper first List.mem_cons_self).1
      have nonempty : first ≠ [] := by
        rintro rfl
        cases step
      simp [nonempty]

theorem find_pathOf (some : steps ≠ []) :
    store.find (pathOf absolute steps) = .ok .directory ↔
      ∃ place, store.Leads absolute steps place := by
  have letters : (pathOf absolute steps).letters ≠ [] := by
    intro nothing
    have none : (pathOf absolute steps).steps = steps := steps_pathOf proper some
    rw [show pathOf absolute steps = ⟨[]⟩ from congrArg Path.mk nothing] at none
    exact some none.symm
  rw [find_eq_directory_iff, steps_pathOf proper some, isAbsolute_pathOf proper some]
  exact and_iff_right letters

theorem place_pathOf (some : steps ≠ []) (base : Location) :
    (pathOf absolute steps).place base =
      Location.follow (if absolute then [] else base) steps := by
  rw [Path.place, isAbsolute_pathOf proper some, steps_pathOf proper some]

theorem makeDirectory_pathOf_of_leads (some : steps ≠ []) {place : Location}
    (leads : store.Leads absolute steps place) :
    store.makeDirectory (pathOf absolute steps) = .error .exists := by
  obtain ⟨location, resolved, there⟩ :=
    find_eq_ok_iff.mp ((find_pathOf proper some).mpr ⟨place, leads⟩)
  unfold makeDirectory
  rw [resolved]
  simp only [bind, Except.bind, there]
  rfl

end PathOf

theorem isDirectory_iff {path : Path} :
    store.isDirectory path = true ↔ store.find path = .ok .directory := by
  unfold isDirectory
  cases store.find path with
  | error refusal => simp [Except.toOption]
  | ok node => simp [Except.toOption]

theorem eq_of_settled {path : Path} {refusal : Refusal}
    (settled : (if before.isDirectory path = true then Except.ok before else .error refusal) =
      .ok after) : after = before ∧ before.find path = .ok .directory := by
  split at settled
  · rename_i directory
    cases settled
    exact ⟨rfl, isDirectory_iff.mp directory⟩
  · cases settled

theorem ensureParts_cons_eq (store : Store) (absolute : Bool) (part : Name) (above : List Name) :
    store.ensureParts absolute (part :: above) =
      match store.makeDirectory (pathOf absolute (part :: above).reverse) with
      | .ok made => .ok made
      | .error .notFound => (store.ensureParts absolute above).bind fun middle =>
          match middle.makeDirectory (pathOf absolute (part :: above).reverse) with
          | .ok made => .ok made
          | .error refusal =>
              if middle.isDirectory (pathOf absolute (part :: above).reverse) then .ok middle
              else .error refusal
      | .error refusal =>
          if store.isDirectory (pathOf absolute (part :: above).reverse) then .ok store
          else .error refusal := by
  rw [ensureParts]
  rfl

/-- The three ways in which the last directory of some comes to be there. -/
theorem ensureParts_cons {absolute : Bool} {part : Name} {above : List Name}
    (made : before.ensureParts absolute (part :: above) = .ok after) :
    let path := pathOf absolute (part :: above).reverse
    before.makeDirectory path = .ok after ∨
      (after = before ∧ before.find path = .ok .directory) ∨
      ∃ middle, before.ensureParts absolute above = .ok middle ∧
        (middle.makeDirectory path = .ok after ∨
          after = middle ∧ middle.find path = .ok .directory) := by
  intro path
  rw [ensureParts_cons_eq] at made
  cases first : before.makeDirectory path with
  | ok store =>
      rw [first] at made
      exact .inl made
  | error refusal =>
      rw [first] at made
      cases refusal with
      | notFound =>
          cases rest : before.ensureParts absolute above with
          | error refusal =>
              rw [rest] at made
              cases made
          | ok middle =>
              simp only [rest, Except.bind] at made
              refine .inr (.inr ⟨middle, rfl, ?_⟩)
              cases second : middle.makeDirectory path with
              | ok store =>
                  rw [second] at made
                  exact .inl made
              | error refusal =>
                  rw [second] at made
                  exact .inr (eq_of_settled made)
      | «exists» | notDirectory | isDirectory | nameTooLong | zeroByte | notText =>
          exact .inr (.inl (eq_of_settled made))

/-- The places on the way that steps take. -/
def OnWay (place : Location) (steps : List Name) (location : Location) : Prop :=
  ∃ above, above <+: steps ∧ location = place.follow above

theorem opens_makeDirectory {absolute : Bool} {steps : List Name}
    (proper : ∀ step ∈ steps, Path.isStep step = true ∧ '/' ∉ step) (some : steps ≠ [])
    (made : before.makeDirectory (pathOf absolute steps) = .ok after) :
    Opens (OnWay (before.start absolute) steps) before after ∧
      after.find (pathOf absolute steps) = .ok .directory := by
  obtain ⟨location, resolved, nothing, rfl⟩ := makeDirectory_eq_ok_iff.mp made
  have place := eq_place_of_resolve resolved
  rw [place_pathOf proper some] at place
  have opens : Opens (OnWay (before.start absolute) steps) before
      (before.set location .directory) :=
    Opens.set nothing ⟨steps, List.prefix_rfl, place⟩
  have below : location ≠ [] := by
    rintro rfl
    rw [lookup_nil] at nothing
    cases nothing
  exact ⟨opens, find_eq_ok_iff.mpr
    ⟨location, (opens.spares ∅).resolve resolved, lookup_set_self _ below _⟩⟩

theorem opens_ensureParts {absolute : Bool} {parts : List Name}
    (proper : ∀ part ∈ parts, Path.isStep part = true ∧ '/' ∉ part)
    (made : before.ensureParts absolute parts = .ok after) :
    Opens (OnWay (before.start absolute) parts.reverse) before after ∧
      (parts ≠ [] → after.find (pathOf absolute parts.reverse) = .ok .directory) := by
  induction parts generalizing after with
  | nil =>
      cases made
      exact ⟨Opens.refl _ _, fun some => absurd rfl some⟩
  | cons part above inductionHypothesis =>
      have some : (part :: above).reverse ≠ [] := by simp
      have proper' : ∀ step ∈ (part :: above).reverse, Path.isStep step = true ∧ '/' ∉ step :=
        fun step member => proper step (List.mem_reverse.mp member)
      rcases ensureParts_cons made with first | ⟨rfl, found⟩ | ⟨middle, rest, last⟩
      · obtain ⟨opens, found⟩ := opens_makeDirectory proper' some first
        exact ⟨opens, fun _ => found⟩
      · exact ⟨Opens.refl _ _, fun _ => found⟩
      · obtain ⟨opens, _⟩ := inductionHypothesis
          (fun part member => proper part (List.mem_cons_of_mem _ member)) rest
        have wider :
            Opens (OnWay (before.start absolute) (part :: above).reverse) before middle := by
          refine opens.mono fun location onWay => ?_
          obtain ⟨steps, short, there⟩ := onWay
          refine ⟨steps, short.trans ?_, there⟩
          rw [List.reverse_cons]
          exact List.prefix_append _ _
        rcases last with second | ⟨rfl, found⟩
        · obtain ⟨more, found⟩ := opens_makeDirectory proper' some second
          rw [start, opens.base] at more
          exact ⟨wider.trans more, fun _ => found⟩
        · exact ⟨wider, fun _ => found⟩

theorem ensureDirectory_eq_ok_iff {path : Path} :
    before.ensureDirectory path = .ok after ↔
      (∀ step ∈ path.steps, '\x00' ∉ step) ∧
        before.ensureParts path.isAbsolute path.steps.reverse = .ok after := by
  have zero : (∀ step ∈ path.steps, '\x00' ∉ step) ↔ path.letters.any (· = '\x00') = false := by
    rw [Path.any_zero_eq]
    simp
  unfold ensureDirectory
  by_cases nothing : path.letters = []
  · have none : path.steps = [] := by
      rw [show path = ⟨[]⟩ from congrArg Path.mk nothing]
      rfl
    rw [if_pos nothing, none]
    simp [ensureParts]
  · rw [if_neg nothing, zero]
    cases path.letters.any (· = '\x00') with
    | true => simp
    | false =>
        simp only [Bool.false_eq_true, if_false, true_and]
        exact Iff.rfl

theorem proper_of_mem_steps (path : Path) :
    ∀ step ∈ path.steps, Path.isStep step = true ∧ '/' ∉ step := by
  intro step member
  obtain ⟨part, isStep⟩ := List.mem_filter.mp member
  exact ⟨isStep, Path.noSlash_of_mem_parts path part⟩

/-- Making sure of a directory opens places on the way to it, and then its steps lead there. -/
theorem opens_ensureDirectory {path : Path} (made : before.ensureDirectory path = .ok after) :
    Opens (OnWay (before.start path.isAbsolute) path.steps) before after ∧
      (path.steps ≠ [] → ∃ place, after.Leads path.isAbsolute path.steps place) := by
  have proper := proper_of_mem_steps path
  obtain ⟨opens, found⟩ := opens_ensureParts
    (fun step member => proper step (List.mem_reverse.mp member))
    (ensureDirectory_eq_ok_iff.mp made).2
  rw [List.reverse_reverse] at opens found
  refine ⟨opens, fun some => ?_⟩
  exact (find_pathOf proper some).mp (found (mt List.reverse_eq_nil_iff.mp some))

theorem opens_begunParts {absolute : Bool} {parts : List Name}
    (proper : ∀ part ∈ parts, Path.isStep part = true ∧ '/' ∉ part) :
    Opens (OnWay (before.start absolute) parts.reverse) before
      (before.begunParts absolute parts) := by
  induction parts with
  | nil => exact Opens.refl _ _
  | cons part above inductionHypothesis =>
      have properAbove : ∀ part ∈ above, Path.isStep part = true ∧ '/' ∉ part :=
        fun part member => proper part (List.mem_cons_of_mem _ member)
      have wider : ∀ location, OnWay (before.start absolute) above.reverse location →
          OnWay (before.start absolute) (part :: above).reverse location := by
        rintro location ⟨steps, short, there⟩
        refine ⟨steps, short.trans ?_, there⟩
        rw [List.reverse_cons]
        exact List.prefix_append _ _
      unfold begunParts
      simp only
      split
      · split
        · rename_i opened made
          exact (opens_ensureParts properAbove made).1.mono wider
        · exact (inductionHypothesis properAbove).mono wider
      · exact Opens.refl _ _

/-- A directory that is refused may leave some of those above it, and nothing else. -/
theorem opens_begunDirectory (before : Store) (path : Path) :
    Opens (OnWay (before.start path.isAbsolute) path.steps) before
      (before.begunDirectory path) := by
  unfold begunDirectory
  split
  · exact Opens.refl _ _
  · have opens : Opens (OnWay (before.start path.isAbsolute) path.steps.reverse.reverse) before
        (before.begunParts path.isAbsolute path.steps.reverse) :=
      opens_begunParts fun step member => proper_of_mem_steps path step (List.mem_reverse.mp member)
    rwa [List.reverse_reverse] at opens

theorem ensureDirectory_of_leads {path : Path} {place : Location}
    (leads : store.Leads path.isAbsolute path.steps place) :
    store.ensureDirectory path = .ok store := by
  have proper := proper_of_mem_steps path
  refine ensureDirectory_eq_ok_iff.mpr ⟨leads.noZero, ?_⟩
  cases reversed : path.steps.reverse with
  | nil => rfl
  | cons last above =>
      have steps : path.steps = (last :: above).reverse := by rw [← reversed, List.reverse_reverse]
      have some : (last :: above).reverse ≠ [] := by simp
      rw [steps] at leads proper
      have there := (find_pathOf proper some).mpr ⟨place, leads⟩
      have refused := makeDirectory_pathOf_of_leads proper some leads
      rw [ensureParts_cons_eq]
      rw [refused]
      exact if_pos (isDirectory_iff.mpr there)

/-- Once a directory was made sure of, it stays so as long as directories do. -/
theorem Spares.ensureDirectory {scratch : Set Location} {middle : Store} {path : Path}
    (spares : Spares scratch middle after) (made : before.ensureDirectory path = .ok middle) :
    after.ensureDirectory path = .ok after := by
  by_cases none : path.steps = []
  · refine ensureDirectory_eq_ok_iff.mpr ⟨by simp [none], ?_⟩
    rw [none]
    rfl
  · obtain ⟨place, leads⟩ := (opens_ensureDirectory made).2 none
    exact ensureDirectory_of_leads (spares.leads leads)

/-! Reaching places from the root. -/

/-- A place whose names fit and above which every place is a directory, as it is itself. -/
structure Reaches (store : Store) (place : Location) : Prop where
  names : ∀ name ∈ place, name ≠ ['.'] ∧ name ≠ ['.', '.'] ∧ name.Fits
  directories : ∀ above, above <+: place → store.lookup above = some .directory

namespace Reaches

theorem root (store : Store) : store.Reaches [] where
  names := by simp
  directories above short := by
    rw [List.prefix_nil.mp short]
    exact lookup_nil store

theorem there (reaches : store.Reaches place) : store.lookup place = some .directory :=
  reaches.directories place List.prefix_rfl

theorem mono (reaches : before.Reaches place) (kept : ∀ place,
    before.lookup place = some .directory → after.lookup place = some .directory) :
    after.Reaches place where
  names := reaches.names
  directories above short := kept above (reaches.directories above short)

theorem descend {name : Name} (reaches : store.Reaches place) (fits : name.Fits)
    (there : store.lookup (place.descend name) = some .directory) :
    store.Reaches (place.descend name) := by
  unfold Location.descend at there ⊢
  by_cases dot : name = ['.']
  · rwa [if_pos dot]
  · rw [if_neg dot] at there ⊢
    by_cases dots : name = ['.', '.']
    · rw [if_pos dots]
      exact ⟨fun name member => reaches.names name ((List.dropLast_prefix place).subset member),
        fun above short => reaches.directories above (short.trans (List.dropLast_prefix place))⟩
    · rw [if_neg dots] at there ⊢
      constructor
      · intro other member
        rcases List.mem_append.mp member with former | last
        · exact reaches.names other former
        · rw [List.mem_singleton.mp last]
          exact ⟨dot, dots, fits⟩
      · intro above short
        rcases List.prefix_concat_iff.mp short with rfl | former
        · exact there
        · exact reaches.directories above former

theorem of_walk (reaches : store.Reaches place) (noZero : ∀ name ∈ names, '\x00' ∉ name)
    (walked : store.walk place names = .ok location)
    (there : store.lookup location = some .directory) : store.Reaches location := by
  induction names generalizing place with
  | nil =>
      cases walked
      exact reaches
  | cons name names inductionHypothesis =>
      obtain ⟨_, short, rest⟩ := walk_cons_eq_ok_iff.mp walked
      have next : store.Reaches (place.descend name) := by
        by_cases idle : name = ['.'] ∨ name = ['.', '.']
        · have fits : name.Fits := by
            rcases idle with rfl | rfl
            · exact ⟨by decide, by decide⟩
            · exact ⟨by decide, by decide⟩
          exact reaches.descend fits (lookup_of_walk rest there)
        · obtain ⟨dot, dots⟩ := not_or.mp idle
          exact reaches.descend ⟨noZero name List.mem_cons_self, short dot dots⟩
            (lookup_of_walk rest there)
      exact inductionHypothesis next
        (fun name member => noZero name (List.mem_cons_of_mem _ member)) rest

theorem walk (reaches : store.Reaches (place ++ names)) :
    store.walk place names = .ok (place ++ names) := by
  induction names generalizing place with
  | nil => rw [List.append_nil, Store.walk]
  | cons name names inductionHypothesis =>
      obtain ⟨dot, dots, fits⟩ :=
        reaches.names name (List.mem_append_right _ List.mem_cons_self)
      refine walk_cons_eq_ok_iff.mpr ⟨reaches.directories place (List.prefix_append _ _),
        fun _ _ => fits.short, ?_⟩
      have next : place ++ name :: names = (place ++ [name]) ++ names := by simp
      rw [next] at reaches ⊢
      rw [Location.descend, if_neg dot, if_neg dots]
      exact inductionHypothesis reaches

theorem leads {absolute : Bool} {steps : List Name}
    (reaches : store.Reaches (store.start absolute ++ steps)) :
    store.Leads absolute steps (store.start absolute ++ steps) where
  noZero step member := (reaches.names step (List.mem_append_right _ member)).2.2.noZero
  walked := reaches.walk
  there := reaches.there

end Reaches

theorem reaches_start (reaches : store.Reaches store.base) (absolute : Bool) :
    store.Reaches (store.start absolute) := by
  cases absolute with
  | true => exact Reaches.root store
  | false => exact reaches

theorem Leads.reaches {absolute : Bool} {steps : List Name}
    (leads : store.Leads absolute steps place) (reaches : store.Reaches store.base) :
    store.Reaches place :=
  (reaches_start reaches absolute).of_walk leads.noZero leads.walked leads.there

theorem Leads.eq_place {path : Path} (leads : store.Leads path.isAbsolute path.steps place) :
    place = path.place store.base :=
  eq_follow_of_walk leads.walked

/-- Making sure of a directory leads there, also where there is nothing to make sure of. -/
theorem leads_of_ensureDirectory {path : Path} (reaches : before.Reaches before.base)
    (made : before.ensureDirectory path = .ok after) :
    ∃ place, after.Leads path.isAbsolute path.steps place := by
  obtain ⟨opens, leads⟩ := opens_ensureDirectory made
  by_cases none : path.steps = []
  · have spares := opens.spares ∅
    have reaches' := reaches.mono fun _ => spares.directory
    rw [← opens.base] at reaches'
    rw [none]
    exact ⟨_, (List.append_nil _ ▸ reaches_start reaches' path.isAbsolute : after.Reaches _).leads⟩
  · exact leads none

end Store

end DatasetDepot
