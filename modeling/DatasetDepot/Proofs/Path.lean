import DatasetDepot.Path
import Mathlib.Data.List.DropRight

/-!
What paths are made of.

The steps of a path are its parts that lead anywhere: neither empty ones nor single dots.  A
path splits at its name into what is in front of it and idle parts behind it.  Main statements:
a name that is put behind a path adds one step to it, the unfinished file next to a file lies
in the same directory under a longer name, and taking away an extension only changes the last
step.
-/

namespace DatasetDepot

namespace Name

/-- A name that can be put behind a path. -/
structure IsPart (name : Name) : Prop where
  nonempty : name ≠ []
  noSlash : '/' ∉ name

/-- A name of something below a directory: neither the directory itself nor the one above. -/
structure IsPlain (name : Name) : Prop extends IsPart name where
  notDot : name ≠ ['.']
  notDots : name ≠ ['.', '.']

/-- What the name of an unfinished file ends in. -/
def mark : List Char := ".part".toList

theorem isPlain_of_long {name : Name} (long : 2 < name.length) (noSlash : '/' ∉ name) :
    IsPlain name where
  nonempty := by
    rintro rfl
    simp at long
  noSlash := noSlash
  notDot := by
    rintro rfl
    simp at long
  notDots := by
    rintro rfl
    simp at long

theorem isPlain_unfinished {whole : Name} (noSlash : '/' ∉ whole) :
    IsPlain (whole ++ mark) :=
  isPlain_of_long (by simp [mark]) (by simpa [mark] using noSlash)

/-- What is behind the last of a letter is parted from what is in front of it. -/
theorem append_cons_inj {letter : Char} {before other after rest : Name}
    (notMem : letter ∉ after) (notMem' : letter ∉ rest)
    (same : before ++ letter :: after = other ++ letter :: rest) :
    before = other ∧ after = rest := by
  have behind : ∀ front {back : Name}, letter ∉ back →
      (front ++ letter :: back).rtakeWhile (· ≠ letter) = back := by
    intro front back notMem
    have all : ∀ found ∈ back.reverse, decide (found ≠ letter) = true := by
      rintro found member
      simpa using fun equal : found = letter => notMem (equal ▸ List.mem_reverse.mp member)
    rw [List.rtakeWhile, List.reverse_append, List.reverse_cons, List.append_assoc,
      List.takeWhile_append_of_pos all]
    simp
  have ends := congrArg (List.rtakeWhile (· ≠ letter)) same
  rw [behind before notMem, behind other notMem'] at ends
  rw [ends] at same
  exact ⟨List.append_cancel_right same, ends⟩

theorem splitLast?_append {before after : Name} (noDot : '.' ∉ after) :
    splitLast? (before ++ '.' :: after) = some (before, after) := by
  have found : ((before ++ '.' :: after).reverse.takeWhile (· ≠ '.')).reverse = after := by
    rw [List.reverse_append, List.reverse_cons, List.append_assoc, List.takeWhile_append_of_pos]
    · simp
    · intro letter member
      have other : letter ≠ '.' := by
        rintro rfl
        exact noDot (List.mem_reverse.mp member)
      simpa using other
  have shorter : after.length < (before ++ '.' :: after).length := by
    rw [List.length_append, List.length_cons]
    omega
  have cut : (before ++ '.' :: after).length - after.length - 1 = before.length := by
    rw [List.length_append, List.length_cons]
    omega
  unfold splitLast?
  rw [found]
  simp only [if_pos shorter, cut, List.take_left']

theorem splitLast?_of_notMem {name : Name} (noDot : '.' ∉ name) : splitLast? name = none := by
  have all : name.reverse.takeWhile (fun letter => decide (letter ≠ '.')) = name.reverse := by
    apply List.takeWhile_eq_self_iff.mpr
    intro letter member
    have other : letter ≠ '.' := by
      rintro rfl
      exact noDot (List.mem_reverse.mp member)
    simpa using other
  unfold splitLast?
  rw [all]
  simp

theorem splitLast?_eq_some_iff {name before after : Name} :
    splitLast? name = some (before, after) ↔ name = before ++ '.' :: after ∧ '.' ∉ after := by
  constructor
  · intro split
    by_cases dotted : '.' ∈ name
    · obtain ⟨tail, front, parts, noDot⟩ := List.eq_append_cons_of_mem (List.mem_reverse.mpr dotted)
      have whole : name = front.reverse ++ '.' :: tail.reverse := by
        rw [← List.reverse_reverse name, parts]
        simp
      have noDot' : '.' ∉ tail.reverse := by simpa using noDot
      rw [whole, splitLast?_append noDot'] at split
      cases split
      exact ⟨whole, noDot'⟩
    · rw [splitLast?_of_notMem dotted] at split
      cases split
  · rintro ⟨rfl, noDot⟩
    exact splitLast?_append noDot

theorem extension?_eq_some_iff {name ending : Name} :
    name.extension? = some ending ↔
      ∃ before, before ≠ [] ∧ '.' ∉ ending ∧ name = before ++ '.' :: ending := by
  unfold extension?
  constructor
  · intro found
    cases split : splitLast? name with
    | none => simp [split] at found
    | some parts =>
        obtain ⟨before, after⟩ := parts
        obtain ⟨whole, noDot⟩ := splitLast?_eq_some_iff.mp split
        simp only [split, Option.ite_none_left_eq_some, Option.some.injEq] at found
        obtain ⟨nonempty, rfl⟩ := found
        exact ⟨before, by simpa using nonempty, noDot, whole⟩
  · rintro ⟨before, nonempty, noDot, rfl⟩
    simp [splitLast?_append noDot, nonempty]

theorem stem_append {before ending : Name} (nonempty : before ≠ []) (noDot : '.' ∉ ending) :
    stem (before ++ '.' :: ending) = before := by
  simp [stem, splitLast?_append noDot, nonempty]

end Name

namespace Path

/-- Whether a part leads anywhere. -/
def isStep (part : Name) : Bool := !part.isEmpty && part ≠ ['.']

/-- The parts that lead anywhere. -/
def steps (path : Path) : List Name := path.parts.filter isStep

theorem isStep_eq_false_iff {part : Name} : isStep part = false ↔ part = [] ∨ part = ['.'] := by
  simp only [isStep, Bool.and_eq_false_iff, Bool.not_eq_false', List.isEmpty_iff,
    decide_eq_false_iff_not, not_not]

theorem isStep_of_isPlain {name : Name} (plain : name.IsPlain) : isStep name = true := by
  rw [← Bool.not_eq_false, isStep_eq_false_iff]
  exact fun idle => idle.elim plain.nonempty plain.notDot

theorem isStep_of_mem_steps {path : Path} {step : Name} (member : step ∈ path.steps) :
    isStep step = true :=
  (List.mem_filter.mp member).2

/-! Parts and letters. -/

theorem parts_nil : (⟨[]⟩ : Path).parts = [[]] := rfl

theorem parts_of_noSlash {name : Name} (noSlash : '/' ∉ name) : (⟨name⟩ : Path).parts = [name] := by
  apply List.splitOnP_eq_singleton
  intro letter member
  have other : letter ≠ '/' := by
    rintro rfl
    exact noSlash member
  simpa using other

theorem parts_append_slash (front rest : List Char) :
    (⟨front ++ '/' :: rest⟩ : Path).parts = (⟨front⟩ : Path).parts ++ (⟨rest⟩ : Path).parts :=
  List.splitOnP_append_cons front rest rfl

theorem parts_ne_nil (path : Path) : path.parts ≠ [] := List.splitOnP_ne_nil _ _

/-- Letters by their parts, from the first one on. -/
@[elab_as_elim]
theorem letters_induction {motive : List Char → Prop}
    (last : ∀ name, '/' ∉ name → motive name)
    (more : ∀ name rest, '/' ∉ name → motive rest → motive (name ++ '/' :: rest))
    (letters : List Char) : motive letters := by
  by_cases slash : '/' ∈ letters
  · obtain ⟨name, rest, parts, noSlash⟩ := List.eq_append_cons_of_mem slash
    have shorter : rest.length < letters.length := by
      rw [parts, List.length_append, List.length_cons]
      omega
    rw [parts]
    exact more name rest noSlash (letters_induction last more rest)
  · exact last letters slash
termination_by letters.length

theorem noSlash_of_mem_parts (path : Path) {part : Name} (member : part ∈ path.parts) :
    '/' ∉ part := by
  obtain ⟨letters⟩ := path
  induction letters using letters_induction with
  | last name noSlash =>
      rw [parts_of_noSlash noSlash, List.mem_singleton] at member
      rwa [member]
  | more name rest noSlash inductionHypothesis =>
      rw [parts_append_slash, parts_of_noSlash noSlash] at member
      rcases List.mem_append.mp member with first | other
      · rwa [List.mem_singleton.mp first]
      · exact inductionHypothesis other

@[simp]
theorem ofParts_parts (path : Path) : ofParts path.parts = path := by
  have joined : List.intercalate ['/'] (path.letters.splitOn '/') = path.letters :=
    List.intercalate_splitOn '/'
  exact congrArg Path.mk joined

theorem parts_ofParts {parts : List Name} (nonempty : parts ≠ [])
    (noSlash : ∀ part ∈ parts, '/' ∉ part) : (ofParts parts).parts = parts :=
  List.splitOn_intercalate '/' noSlash nonempty

theorem isAbsolute_iff (path : Path) :
    path.isAbsolute = true ↔ path.parts.head? = some [] ∧ 2 ≤ path.parts.length := by
  obtain ⟨letters⟩ := path
  induction letters using letters_induction with
  | last name noSlash =>
      rw [parts_of_noSlash noSlash]
      have other : name.head? ≠ some '/' := fun first => noSlash (List.mem_of_head? first)
      simp [isAbsolute, other]
  | more name rest noSlash _ =>
      rw [parts_append_slash, parts_of_noSlash noSlash]
      have length := List.length_pos_iff.mpr (parts_ne_nil ⟨rest⟩)
      cases name with
      | nil => simp [isAbsolute, Nat.succ_le_iff, length]
      | cons letter name =>
          have other : letter ≠ '/' := fun same => noSlash (same ▸ List.mem_cons_self)
          simp [isAbsolute, other]

theorem zero_mem_letters_iff (path : Path) :
    '\x00' ∈ path.letters ↔ ∃ part ∈ path.parts, '\x00' ∈ part := by
  obtain ⟨letters⟩ := path
  induction letters using letters_induction with
  | last name noSlash => simp [parts_of_noSlash noSlash]
  | more name rest noSlash inductionHypothesis =>
      rw [parts_append_slash, parts_of_noSlash noSlash]
      simp [inductionHypothesis]

theorem zero_notMem_of_idle {part : Name} (idle : isStep part = false) : '\x00' ∉ part := by
  rcases isStep_eq_false_iff.mp idle with rfl | rfl
  · exact List.not_mem_nil
  · decide

/-- Zero bytes only stand in steps. -/
theorem any_zero_eq (path : Path) :
    path.letters.any (· = '\x00') = path.steps.any (·.contains '\x00') := by
  rw [Bool.eq_iff_iff, List.any_eq_true, List.any_eq_true]
  simp only [decide_eq_true_eq, List.contains_iff_mem]
  constructor
  · rintro ⟨letter, member, rfl⟩
    obtain ⟨part, present, zero⟩ := (zero_mem_letters_iff path).mp member
    refine ⟨part, List.mem_filter.mpr ⟨present, ?_⟩, zero⟩
    rw [← Bool.not_eq_false]
    exact fun idle => zero_notMem_of_idle idle zero
  · rintro ⟨step, member, zero⟩
    have present := (zero_mem_letters_iff path).mpr ⟨step, (List.mem_filter.mp member).1, zero⟩
    exact ⟨'\x00', present, rfl⟩

theorem dropTail_eq_rdropWhile (parts : List Name) :
    dropTail parts = parts.rdropWhile fun part => !isStep part := by
  have idle : (fun part : Name => (part = [] || part = ['.'] : Bool)) =
      fun part => !isStep part := by
    funext part
    cases part <;> simp [isStep]
  unfold dropTail
  rw [idle]
  rfl

theorem filter_dropTail (parts : List Name) :
    (dropTail parts).filter isStep = parts.filter isStep := by
  rw [dropTail_eq_rdropWhile]
  have whole := List.rdropWhile_append_rtakeWhile (p := fun part => !isStep part) (l := parts)
  have idle : (parts.rtakeWhile fun part => !isStep part).filter isStep = [] := by
    apply List.filter_eq_nil_iff.mpr
    intro part member
    simpa using List.mem_rtakeWhile_imp member
  rw [← congrArg (List.filter isStep) whole, List.filter_append, idle, List.append_nil]

theorem idle_of_take {letters : List Char} {count : Nat}
    (idle : ∀ part ∈ (⟨letters⟩ : Path).parts, isStep part = false) :
    ∀ part ∈ (⟨letters.take count⟩ : Path).parts, isStep part = false := by
  have idleName : ∀ (name : Name) (count : Nat), '/' ∉ name → isStep name = false →
      ∀ part ∈ (⟨name.take count⟩ : Path).parts, isStep part = false := by
    intro name count noSlash idle part member
    rw [parts_of_noSlash fun slash => noSlash (List.mem_of_mem_take slash),
      List.mem_singleton] at member
    rcases isStep_eq_false_iff.mp idle with rfl | rfl
    · rw [member, List.take_nil]
      rfl
    · rw [member, isStep_eq_false_iff]
      cases count with
      | zero => exact .inl rfl
      | succ more => exact .inr (by simp)
  induction letters using letters_induction generalizing count with
  | last name noSlash =>
      rw [parts_of_noSlash noSlash] at idle
      exact idleName name count noSlash (idle name List.mem_cons_self)
  | more name rest noSlash inductionHypothesis =>
      rw [parts_append_slash, parts_of_noSlash noSlash] at idle
      have first : isStep name = false := idle name List.mem_cons_self
      rw [List.take_append]
      cases left : count - name.length with
      | zero =>
          rw [List.take_zero, List.append_nil]
          exact idleName name count noSlash first
      | succ more =>
          rw [List.take_succ_cons, List.take_of_length_le (by omega), parts_append_slash,
            parts_of_noSlash noSlash]
          intro part member
          rcases List.mem_append.mp member with front | behind
          · rwa [List.mem_singleton.mp front]
          · exact inductionHypothesis
              (fun part member => idle part (List.mem_append_right _ member)) part behind

theorem isAbsolute_eq_of_parts {path other : Path} {front tail otherTail : List Name}
    {part otherPart : Name} (parts : path.parts = front ++ part :: tail)
    (otherParts : other.parts = front ++ otherPart :: otherTail) (some : part ≠ [])
    (otherSome : otherPart ≠ []) : path.isAbsolute = other.isAbsolute := by
  rw [Bool.eq_iff_iff, isAbsolute_iff, isAbsolute_iff, parts, otherParts]
  cases front with
  | nil => simp [some, otherSome]
  | cons first rest =>
      simp only [List.cons_append, List.head?_cons, List.length_cons, List.length_append]
      exact and_congr_right fun _ => iff_of_true (by omega) (by omega)

theorem isAbsolute_eq_of_leading {path other : Path} (leading : other.parts <+: path.parts)
    (more : other.parts ≠ [[]]) : other.isAbsolute = path.isAbsolute := by
  obtain ⟨rest, whole⟩ := leading
  have some := parts_ne_nil other
  rw [Bool.eq_iff_iff, isAbsolute_iff, isAbsolute_iff, ← whole]
  cases parts : other.parts with
  | nil => exact absurd parts some
  | cons first others =>
      simp only [List.cons_append, List.head?_cons, List.length_cons, List.length_append,
        Option.some.injEq]
      refine and_congr_right fun empty => ?_
      have length : others ≠ [] := by
        rintro rfl
        exact more (by rw [parts, empty])
      have length := List.length_pos_iff.mpr length
      exact iff_of_true (by omega) (by omega)

/-- A path splits into parts in front of its name, its name, and idle parts behind it. -/
structure Splits (path : Path) (front : List Name) (name : Name) (tail : List Name) : Prop where
  parts : path.parts = front ++ name :: tail
  plain : name.IsPlain
  idle : ∀ part ∈ tail, isStep part = false

namespace Splits

variable {path other : Path} {front tail otherTail : List Name} {name otherName : Name}

theorem steps (splits : path.Splits front name tail) :
    path.steps = front.filter isStep ++ [name] := by
  have idle : tail.filter isStep = [] :=
    List.filter_eq_nil_iff.mpr fun part member => by simp [splits.idle part member]
  rw [Path.steps, splits.parts, List.filter_append, List.filter_cons,
    if_pos (isStep_of_isPlain splits.plain), idle]

theorem dropTail_eq (splits : path.Splits front name tail) :
    dropTail path.parts = front ++ [name] := by
  rw [dropTail_eq_rdropWhile, splits.parts, List.rdropWhile, List.reverse_append,
    List.reverse_cons, List.append_assoc, List.dropWhile_append_of_pos]
  · rw [List.singleton_append, List.dropWhile_cons]
    simp [isStep_of_isPlain splits.plain]
  · intro part member
    simp [splits.idle part (List.mem_reverse.mp member)]

theorem name?_eq (splits : path.Splits front name tail) : path.name? = some name := by
  unfold name?
  rw [splits.dropTail_eq, List.getLast?_append]
  exact if_neg splits.plain.notDots

end Splits

theorem name?_eq_none_of_dots {path : Path} (last : path.parts.getLast? = some ['.', '.']) :
    path.name? = none := by
  obtain ⟨front, parts⟩ := List.getLast?_eq_some_iff.mp last
  unfold name?
  rw [parts, dropTail_eq_rdropWhile, List.rdropWhile_concat_neg _ _ _ (by decide),
    List.getLast?_concat]
  rfl

theorem name?_eq_none_of_steps {path : Path} (nothing : path.steps = []) : path.name? = none := by
  have idle : path.parts.rdropWhile (fun part => !isStep part) = [] := by
    apply List.rdropWhile_eq_nil_iff.mpr
    intro part member
    simpa using List.filter_eq_nil_iff.mp nothing part member
  unfold name?
  rw [dropTail_eq_rdropWhile, idle]
  rfl

theorem exists_splits_of_name? {path : Path} {name : Name} (named : path.name? = some name) :
    ∃ front tail, path.Splits front name tail := by
  have whole := List.rdropWhile_append_rtakeWhile (p := fun part => !isStep part) (l := path.parts)
  unfold name? at named
  rw [dropTail_eq_rdropWhile] at named
  cases last : (path.parts.rdropWhile fun part => !isStep part).getLast? with
  | none =>
      rw [last] at named
      cases named
  | some found =>
      rw [last] at named
      simp only [Option.ite_none_left_eq_some, Option.some.injEq] at named
      obtain ⟨notDots, rfl⟩ := named
      obtain ⟨front, named⟩ := List.getLast?_eq_some_iff.mp last
      rw [named, List.append_assoc, List.singleton_append] at whole
      refine ⟨front, _, whole.symm, ?_, ?_⟩
      · have member : found ∈ path.parts := by
          rw [← whole]
          exact List.mem_append_right _ List.mem_cons_self
        have nonempty : path.parts.rdropWhile (fun part => !isStep part) ≠ [] := by simp [named]
        have step := List.rdropWhile_last_not (fun part => !isStep part) path.parts nonempty
        simp only [named, List.getLast_append_singleton, Bool.not_eq_true',
          Bool.not_eq_false] at step
        refine ⟨⟨?_, noSlash_of_mem_parts path member⟩, ?_, notDots⟩
        · rintro rfl
          cases step
        · rintro rfl
          cases step
      · intro part member
        simpa using List.mem_rtakeWhile_imp member

/-! Joining. -/

theorem head?_ne_slash {name : Name} (part : name.IsPart) : name.head? ≠ some '/' :=
  fun first => part.noSlash (List.mem_of_head? first)

theorem isAbsolute_join (directory : Path) {name : Name} (part : name.IsPart) :
    (directory.join name).isAbsolute = directory.isAbsolute := by
  have first := head?_ne_slash part
  obtain ⟨letters⟩ := directory
  unfold join
  rw [if_neg first]
  cases letters with
  | nil => simp [isAbsolute, first]
  | cons letter rest =>
      split
      · simp [isAbsolute]
      · simp [isAbsolute]

theorem exists_parts_join (directory : Path) {name : Name} (part : name.IsPart) :
    ∃ front, (directory.join name).parts = front ++ [name] ∧
      front.filter isStep = directory.steps := by
  unfold join
  rw [if_neg (head?_ne_slash part)]
  split
  · rename_i open'
    rcases open' with nothing | slash
    · obtain ⟨letters⟩ := directory
      obtain rfl : letters = [] := nothing
      exact ⟨[], parts_of_noSlash part.noSlash, rfl⟩
    · obtain ⟨letters⟩ := directory
      obtain ⟨front, rfl⟩ := List.getLast?_eq_some_iff.mp slash
      refine ⟨(⟨front⟩ : Path).parts, ?_, ?_⟩
      · simp only [List.append_assoc, List.singleton_append, parts_append_slash,
          parts_of_noSlash part.noSlash]
      · rw [steps, parts_append_slash, List.filter_append, parts_nil]
        simp [isStep]
  · refine ⟨directory.parts, ?_, rfl⟩
    rw [parts_append_slash, parts_of_noSlash part.noSlash]

/-- A path of a name behind these steps, with nothing behind the name. -/
structure EndsAt (path : Path) (absolute : Bool) (above : List Name) (name : Name) : Prop where
  isAbsolute : path.isAbsolute = absolute
  steps : path.steps = above ++ [name]
  last : path.parts.getLast? = some name
  plain : name.IsPlain

theorem endsAt_join (directory : Path) {name : Name} (plain : name.IsPlain) :
    (directory.join name).EndsAt directory.isAbsolute directory.steps name := by
  obtain ⟨front, parts, steps⟩ := exists_parts_join directory plain.toIsPart
  refine ⟨isAbsolute_join directory plain.toIsPart, ?_, ?_, plain⟩
  · rw [Path.steps, parts, List.filter_append, steps, List.filter_singleton,
      isStep_of_isPlain plain, cond_true]
  · rw [parts, List.getLast?_concat]

/-- A path whose letters end in some that no single step is made of. -/
theorem exists_endsAt_of_letters {path : Path} {front rest : List Char}
    (letters : path.letters = front ++ rest) (long : 2 < rest.length) (noSlash : '/' ∉ rest) :
    ∃ absolute above name, path.EndsAt absolute above name := by
  have last : ∀ word : Name, '/' ∉ word → (word ++ rest).IsPlain := fun word plain =>
    Name.isPlain_of_long (by rw [List.length_append]; omega)
      fun slash => (List.mem_append.mp slash).elim plain noSlash
  have ends : ∃ word others, '/' ∉ word ∧ path.parts = others ++ [word ++ rest] := by
    obtain ⟨whole⟩ := path
    obtain rfl : whole = front ++ rest := letters
    induction front using letters_induction with
    | last word plain =>
        refine ⟨word, [], plain, parts_of_noSlash ?_⟩
        exact fun slash => (List.mem_append.mp slash).elim plain noSlash
    | more first front _ inductionHypothesis =>
        obtain ⟨word, others, plain, parts⟩ := inductionHypothesis
        refine ⟨word, (⟨first⟩ : Path).parts ++ others, plain, ?_⟩
        rw [List.append_assoc, List.cons_append, parts_append_slash, parts, List.append_assoc]
  obtain ⟨word, others, plain, parts⟩ := ends
  have isPlain := last word plain
  refine ⟨path.isAbsolute, others.filter isStep, word ++ rest, rfl, ?_, ?_, isPlain⟩
  · rw [steps, parts, List.filter_append, List.filter_singleton, isStep_of_isPlain isPlain,
      cond_true]
  · rw [parts, List.getLast?_concat]

theorem EndsAt.splits {path : Path} {absolute : Bool} {above : List Name} {name : Name}
    (ends : path.EndsAt absolute above name) :
    ∃ front, path.Splits front name [] ∧ front.filter isStep = above := by
  obtain ⟨front, parts⟩ := List.getLast?_eq_some_iff.mp ends.last
  have splits : path.Splits front name [] := ⟨parts, ends.plain, by simp⟩
  refine ⟨front, splits, ?_⟩
  exact List.append_cancel_right (splits.steps.symm.trans ends.steps)

namespace Splits

variable {path : Path} {front tail : List Name} {name : Name}

theorem noSlash (splits : path.Splits front name tail) : ∀ part ∈ front, '/' ∉ part := by
  intro part member
  apply noSlash_of_mem_parts path
  rw [splits.parts]
  exact List.mem_append_left _ member

theorem parent (splits : path.Splits front name tail) :
    path.parent.steps = front.filter isStep ∧ path.parent.isAbsolute = path.isAbsolute := by
  have rest : dropTail (dropTail path.parts).dropLast = dropTail front := by
    rw [splits.dropTail_eq, List.dropLast_concat]
  have kept := filter_dropTail front
  have leading : dropTail front <+: path.parts := by
    rw [splits.parts, dropTail_eq_rdropWhile]
    exact (List.rdropWhile_prefix _ front).trans (List.prefix_append _ _)
  unfold Path.parent
  rw [rest]
  split
  · rename_i nothing
    rw [← kept, nothing]
    split
    · rename_i absolute
      exact ⟨rfl, absolute.symm⟩
    · rename_i relative
      have relative' : false = path.isAbsolute := (Bool.eq_false_iff.mpr relative).symm
      split
      · exact ⟨rfl, relative'⟩
      · exact ⟨rfl, relative'⟩
  · rename_i single
    have last := List.rdropWhile_last_not (fun part => !isStep part) front
    rw [← dropTail_eq_rdropWhile] at last
    simp [single, isStep] at last
  · rename_i some notSingle
    have parts : (ofParts (dropTail front)).parts = dropTail front :=
      parts_ofParts some fun part member => noSlash_of_mem_parts path (leading.subset member)
    refine ⟨?_, isAbsolute_eq_of_leading (by rwa [parts]) (by rwa [parts])⟩
    rw [Path.steps, parts, kept]

theorem unfinished (splits : path.Splits front name tail) :
    path.unfinished.EndsAt path.isAbsolute (front.filter isStep) (name ++ Name.mark) := by
  have plain := Name.isPlain_unfinished splits.plain.noSlash
  have joined := endsAt_join path.parent plain
  rw [splits.parent.1, splits.parent.2] at joined
  rw [Path.unfinished, splits.name?_eq]
  exact joined

end Splits

theorem EndsAt.unfinished {path : Path} {absolute : Bool} {above : List Name} {name : Name}
    (ends : path.EndsAt absolute above name) :
    path.unfinished.EndsAt absolute above (name ++ Name.mark) := by
  obtain ⟨front, splits, rfl⟩ := ends.splits
  rw [← ends.isAbsolute]
  exact splits.unfinished

/-! Taking away an extension. -/

theorem ofParts_cons {first : Name} {rest : List Name} (some : rest ≠ []) :
    ofParts (first :: rest) = ⟨first ++ '/' :: (ofParts rest).letters⟩ := by
  cases rest with
  | nil => exact absurd rfl some
  | cons second others => simp [ofParts, List.intersperse]

theorem noSlash_of_shortened {before ending left : Name} (noSlash : '/' ∉ before ++ '.' :: ending)
    (shortened : left <+: ending) : '/' ∉ before ++ '.' :: left := by
  obtain ⟨lost, rfl⟩ := shortened
  simp only [List.mem_append, List.mem_cons, not_or] at noSlash ⊢
  exact ⟨noSlash.1, noSlash.2.1, noSlash.2.2.1⟩

theorem exists_letters (path : Path) {front rest : List Name} (some : rest ≠ [])
    (parts : path.parts = front ++ rest) :
    ∃ before : List Char, path.letters = before ++ (ofParts rest).letters ∧
      ∀ letters, (⟨before ++ letters⟩ : Path).parts = front ++ (⟨letters⟩ : Path).parts := by
  induction front generalizing path with
  | nil =>
      refine ⟨[], ?_, fun letters => rfl⟩
      rw [← ofParts_parts path, parts]
      rfl
  | cons first front inductionHypothesis =>
      have noSlash : ∀ part ∈ first :: (front ++ rest), '/' ∉ part := by
        intro part member
        apply noSlash_of_mem_parts path
        rwa [parts]
      have more : front ++ rest ≠ [] := List.append_ne_nil_of_right_ne_nil _ some
      obtain ⟨before, letters, keeps⟩ := inductionHypothesis (ofParts (front ++ rest))
        (parts_ofParts more fun part member => noSlash part (List.mem_cons_of_mem _ member))
      refine ⟨first ++ '/' :: before, ?_, ?_⟩
      · rw [← ofParts_parts path, parts, List.cons_append, ofParts_cons more, letters]
        simp
      · intro letters
        rw [List.append_assoc, List.cons_append, parts_append_slash, keeps,
          parts_of_noSlash (noSlash first List.mem_cons_self)]
        rfl

/-- What is left of a name with an extension and an idle rest when as many letters are cut off
as the extension has. -/
theorem exists_kept {before ending : Name} {rest : List Char}
    (noSlash : '/' ∉ before ++ '.' :: ending) (some : ending ≠ []) (short : ending.length ≤ 3)
    (behind : rest ≠ []) (idle : ∀ part ∈ (⟨rest⟩ : Path).parts, isStep part = false) :
    ∃ kept lost left others, (before ++ '.' :: ending) ++ '/' :: rest = kept ++ lost ∧
      lost.length = ending.length ∧
      (⟨kept⟩ : Path).parts = (before ++ '.' :: left) :: others ∧
      left <+: ending ∧ left ≠ [] ∧ ∀ part ∈ others, isStep part = false := by
  have length := List.length_pos_iff.mpr behind
  rcases Nat.lt_trichotomy ending.length (rest.length + 1) with room | tight | cramped
  · refine ⟨(before ++ '.' :: ending) ++ '/' :: rest.take (rest.length - ending.length),
      rest.drop (rest.length - ending.length), ending,
      (⟨rest.take (rest.length - ending.length)⟩ : Path).parts, by simp, ?_, ?_, List.prefix_rfl,
      some, idle_of_take idle⟩
    · rw [List.length_drop]
      omega
    · rw [parts_append_slash, parts_of_noSlash noSlash]
      rfl
  · exact ⟨before ++ '.' :: ending, '/' :: rest, ending, [], rfl, by simp [tight],
      parts_of_noSlash noSlash, List.prefix_rfl, some, by simp⟩
  · have left : ending.take 2 <+: ending := List.take_prefix 2 ending
    refine ⟨before ++ '.' :: ending.take 2, ending.drop 2 ++ '/' :: rest, ending.take 2, [], ?_, ?_,
      parts_of_noSlash (noSlash_of_shortened noSlash left), left, ?_, by simp⟩
    · simp only [List.append_assoc, List.cons_append, ← List.append_assoc (ending.take 2),
        List.take_append_drop]
    · rw [List.length_append, List.length_drop, List.length_cons]
      omega
    · intro nothing
      rcases List.take_eq_nil_iff.mp nothing with zero | nothing
      · cases zero
      · exact some nothing

namespace Splits

variable {path : Path} {front tail : List Name} {before ending : Name}

/-- Letters that are cut off at the end of a path are cut off from its name and what is behind. -/
theorem parts_take {name : Name} (splits : path.Splits front name tail) {kept lost : List Char}
    (whole : (ofParts (name :: tail)).letters = kept ++ lost) :
    (⟨path.letters.take (path.letters.length - lost.length)⟩ : Path).parts =
      front ++ (⟨kept⟩ : Path).parts := by
  obtain ⟨pre, letters, keeps⟩ := exists_letters path (List.cons_ne_nil _ tail) splits.parts
  rw [letters, whole, ← List.append_assoc, List.length_append, Nat.add_sub_cancel, List.take_left,
    keeps]

/-- What is left of a name and the parts behind it when as many letters are cut off as its
extension has: the name up to its dot if it comes last, else more than that. -/
theorem exists_parts_of_take (splits : path.Splits front (before ++ '.' :: ending) tail)
    (cuts : tail = [] ∨ ending ≠ [] ∧ ending.length ≤ 3 ∧ tail.getLast? = some ['.']) :
    ∃ left others, (⟨path.letters.take (path.letters.length - ending.length)⟩ : Path).parts =
        front ++ (before ++ '.' :: left) :: others ∧
      left <+: ending ∧ (left = [] → others = []) ∧ (tail = [] → left = []) ∧
        ∀ part ∈ others, isStep part = false := by
  have noSlash : '/' ∉ before ++ '.' :: ending := splits.plain.noSlash
  by_cases last : tail = []
  · subst last
    have whole : (ofParts [before ++ '.' :: ending]).letters = (before ++ ['.']) ++ ending := by
      simp [ofParts]
    refine ⟨[], [], ?_, List.nil_prefix, fun _ => rfl, fun _ => rfl, by simp⟩
    rw [splits.parts_take whole, parts_of_noSlash (noSlash_of_shortened noSlash List.nil_prefix)]
  · obtain ⟨some, short, dot⟩ := cuts.resolve_left last
    have behind : (ofParts tail).parts = tail :=
      parts_ofParts last fun part member => noSlash_of_mem_parts path (by
        rw [splits.parts]
        exact List.mem_append_right _ (List.mem_cons_of_mem _ member))
    have idle : ∀ part ∈ (ofParts tail).parts, isStep part = false := by
      rw [behind]
      exact splits.idle
    have something : (ofParts tail).letters ≠ [] := by
      intro nothing
      rw [← behind, show ofParts tail = ⟨[]⟩ from congrArg Path.mk nothing, parts_nil] at dot
      cases dot
    obtain ⟨kept, lost, left, others, whole, length, parts, shortened, more, idle⟩ :=
      exists_kept noSlash some short something idle
    refine ⟨left, others, ?_, shortened, fun nothing => absurd nothing more,
      fun nothing => absurd nothing last, idle⟩
    have letters : (ofParts ((before ++ '.' :: ending) :: tail)).letters = kept ++ lost := by
      rw [ofParts_cons last, whole]
    rw [← length, splits.parts_take letters, parts]

theorem dropTail_ofParts_dropLast (splits : path.Splits front before tail) :
    (dropTail path.parts).dropLast = front := by
  rw [splits.dropTail_eq, List.dropLast_concat]

/-- A path without its extension has another name in the place of the last one, which is the
rest of that unless it comes to mean the directory above; with nothing behind the name, it never
comes to mean the directory. -/
theorem exists_withoutExtension (splits : path.Splits front (before ++ '.' :: ending) tail)
    (nonempty : before ≠ []) (noDot : '.' ∉ ending)
    (cuts : tail = [] ∨ ending ≠ [] ∧ ending.length ≤ 3 ∧ tail.getLast? = some ['.']) :
    ∃ step, path.withoutExtension = ofParts (front ++ [step]) ∧
      (step = before ∨ step = ['.', '.'] ∧ before = ['.']) ∧ (tail = [] → step ≠ ['.']) := by
  have ending? : path.extension? = some ending := by
    unfold Path.extension?
    rw [splits.name?_eq]
    exact Name.extension?_eq_some_iff.mpr ⟨before, nonempty, noDot, rfl⟩
  obtain ⟨left, others, parts, shortened, alone, cut, idle⟩ := splits.exists_parts_of_take cuts
  have noDot' : '.' ∉ left := fun dot => noDot (shortened.subset dot)
  unfold Path.withoutExtension
  rw [ending?]
  simp only
  by_cases dots : before ++ '.' :: left = ['.', '.']
  · have single : before = ['.'] ∧ left = [] := by
      cases before with
      | nil => exact absurd rfl nonempty
      | cons first rest =>
          cases rest with
          | nil => simpa using dots
          | cons second rest => simp at dots
    obtain ⟨rfl, rfl⟩ := single
    refine ⟨['.', '.'], ?_, .inr ⟨rfl, rfl⟩, fun _ => by decide⟩
    rw [alone rfl] at parts
    have named : (⟨path.letters.take (path.letters.length - ending.length)⟩ : Path).name? = none :=
      name?_eq_none_of_dots (by rw [parts, List.getLast?_concat, dots])
    unfold toStem
    rw [named, ← ofParts_parts ⟨path.letters.take _⟩, parts]
    rfl
  · have long : 1 < (before ++ '.' :: left).length := by
      have length := List.length_pos_iff.mpr nonempty
      rw [List.length_append, List.length_cons]
      omega
    have splitsLeft : (⟨path.letters.take (path.letters.length - ending.length)⟩ : Path).Splits
        front (before ++ '.' :: left) others := by
      refine ⟨parts, ⟨⟨?_, ?_⟩, ?_, dots⟩, idle⟩
      · exact List.append_ne_nil_of_right_ne_nil _ (List.cons_ne_nil _ _)
      · apply noSlash_of_mem_parts ⟨path.letters.take _⟩
        rw [parts]
        exact List.mem_append_right _ List.mem_cons_self
      · intro dot
        rw [dot] at long
        exact absurd long (by decide)
    refine ⟨before, ?_, .inl rfl, ?_⟩
    · unfold toStem
      rw [splitsLeft.name?_eq]
      simp only [splitsLeft.dropTail_ofParts_dropLast, Name.stem_append nonempty noDot']
    · rintro last rfl
      exact dots (by rw [cut last]; rfl)

theorem ofParts_concat (splits : path.Splits front before tail) {step : Name} (part : step.IsPart) :
    (ofParts (front ++ [step])).parts = front ++ [step] ∧
      (ofParts (front ++ [step])).isAbsolute = path.isAbsolute := by
  have parts : (ofParts (front ++ [step])).parts = front ++ [step] := by
    apply parts_ofParts (List.append_ne_nil_of_right_ne_nil _ (List.cons_ne_nil _ _))
    intro other member
    rcases List.mem_append.mp member with above | last
    · exact splits.noSlash other above
    · rw [List.mem_singleton.mp last]
      exact part.noSlash
  exact ⟨parts, isAbsolute_eq_of_parts parts splits.parts part.nonempty splits.plain.nonempty⟩

theorem endsAt_ofParts (splits : path.Splits front before tail) {step : Name}
    (plain : step.IsPlain) :
    (ofParts (front ++ [step])).EndsAt path.isAbsolute (front.filter isStep) step := by
  obtain ⟨parts, isAbsolute⟩ := splits.ofParts_concat plain.toIsPart
  refine ⟨isAbsolute, ?_, ?_, plain⟩
  · rw [Path.steps, parts, List.filter_append, List.filter_singleton, isStep_of_isPlain plain,
      cond_true]
  · rw [parts, List.getLast?_concat]

end Splits

end Path

end DatasetDepot
