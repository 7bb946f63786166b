import DatasetDepot.Proofs.Outcome
import DatasetDepot.Proofs.Parsing
import DatasetDepot.Proofs.Published.Reading
import DatasetDepot.Proofs.Text
import Mathlib.Data.List.TakeWhile
import Mathlib.Logic.Relation

/-!
The grammar of rows in sparse form.

Words behind a label are pairs or mark a query group; lines, blank ones and comments apart, are
rows.  Reading a text is reading its lines one by one up to the first that breaks the grammar.
-/

namespace DatasetDepot.Svmlight

open Numeric

/-! Words. -/

/-- What a word behind a label stands for.  Its first colon parts a feature from a number, or the
mark of a query group from anything. -/
inductive IsPair : List Char → Option (Nat × Single) → Prop where
  | query (value : List Char) : IsPair ("qid".toList ++ ':' :: value) none
  | feature {key value : List Char} {feature : Nat} {literal : Literal} (first : ':' ∉ key)
      (counted : count? key = some feature) (positive : 0 < feature)
      (number : Literal.read value = .ok literal) :
      IsPair (key ++ ':' :: value) (some (feature, literal.toSingle))

/-- What is wrong with a word that stands for nothing. -/
inductive IsSlip : List Char → Slip → Prop where
  | pair {word : List Char} (whole : ':' ∉ word) : IsSlip word (.badPair (String.ofList word))
  | feature {key value : List Char} (first : ':' ∉ key) (other : key ≠ "qid".toList)
      (uncounted : ∀ feature, count? key = some feature → feature = 0) :
      IsSlip (key ++ ':' :: value) (.badFeature (String.ofList key))
  | value {key value : List Char} {feature : Nat} {defect : Literal.Defect} (first : ':' ∉ key)
      (counted : count? key = some feature) (positive : 0 < feature)
      (number : Literal.read value = .error defect) :
      IsSlip (key ++ ':' :: value) (.badValue (String.ofList value) defect)

theorem pair?_of_whole {word : List Char} (whole : ':' ∉ word) :
    pair? word = .error (.badPair (String.ofList word)) := by
  have nothing : word.dropWhile (· ≠ ':') = [] := by
    rw [List.dropWhile_eq_nil_iff]
    intro letter member
    exact decide_eq_true (ne_of_mem_of_not_mem member whole)
  unfold pair?
  rw [nothing]

theorem takeWhile_of_first {key : List Char} (first : ':' ∉ key) (value : List Char) :
    (key ++ ':' :: value).takeWhile (· ≠ ':') = key := by
  rw [List.takeWhile_append_of_pos, List.takeWhile_cons_of_neg (by simp), List.append_nil]
  exact fun letter member => decide_eq_true (ne_of_mem_of_not_mem member first)

theorem dropWhile_of_first {key : List Char} (first : ':' ∉ key) (value : List Char) :
    (key ++ ':' :: value).dropWhile (· ≠ ':') = ':' :: value := by
  rw [List.dropWhile_append_of_pos, List.dropWhile_cons_of_neg (by simp)]
  exact fun letter member => decide_eq_true (ne_of_mem_of_not_mem member first)

theorem feature?_eq_some_iff {text : List Char} {feature : Nat} :
    feature? text = some feature ↔ count? text = some feature ∧ 0 < feature := by
  unfold feature?
  rw [Option.filter_eq_some_iff, decide_eq_true_iff]

theorem IsPair.pair?_eq {word : List Char} {result : Option (Nat × Single)}
    (isPair : IsPair word result) : pair? word = .ok result := by
  cases isPair with
  | query value =>
      have first : ':' ∉ "qid".toList := by decide
      unfold pair?
      simp only [takeWhile_of_first first, dropWhile_of_first first, if_true]
  | @feature key value feature literal first counted positive number =>
      have other : key ≠ "qid".toList := by
        rintro rfl
        cases counted
      unfold pair?
      simp only [takeWhile_of_first first, dropWhile_of_first first, if_neg other,
        feature?_eq_some_iff.mpr ⟨counted, positive⟩, number]

theorem IsSlip.pair?_eq {word : List Char} {slip : Slip} (isSlip : IsSlip word slip) :
    pair? word = .error slip := by
  cases isSlip with
  | pair whole => exact pair?_of_whole whole
  | @feature key value first other uncounted =>
      have nothing : feature? key = none := by
        rw [Option.eq_none_iff_forall_ne_some]
        intro feature found
        obtain ⟨counted, positive⟩ := feature?_eq_some_iff.mp found
        exact absurd (uncounted feature counted) (Nat.ne_of_gt positive)
      unfold pair?
      simp only [takeWhile_of_first first, dropWhile_of_first first, if_neg other, nothing]
  | @value key value feature defect first counted positive number =>
      have other : key ≠ "qid".toList := by
        rintro rfl
        cases counted
      unfold pair?
      simp only [takeWhile_of_first first, dropWhile_of_first first, if_neg other,
        feature?_eq_some_iff.mpr ⟨counted, positive⟩, number]

theorem isPair_or_isSlip (word : List Char) :
    (∃ result, IsPair word result) ∨ ∃ slip, IsSlip word slip := by
  by_cases parted : ':' ∈ word
  · obtain ⟨key, value, rfl, first⟩ := List.eq_append_cons_of_mem parted
    by_cases query : key = "qid".toList
    · subst query
      exact .inl ⟨none, .query value⟩
    · cases counted : feature? key with
      | none =>
          refine .inr ⟨_, .feature first query fun feature found => ?_⟩
          by_contra positive
          have found' := feature?_eq_some_iff.mpr ⟨found, Nat.pos_of_ne_zero positive⟩
          rw [counted] at found'
          cases found'
      | some feature =>
          obtain ⟨counted, positive⟩ := feature?_eq_some_iff.mp counted
          cases number : Literal.read value with
          | error defect => exact .inr ⟨_, .value first counted positive number⟩
          | ok literal => exact .inl ⟨_, .feature first counted positive number⟩
  · exact .inr ⟨_, .pair parted⟩

theorem settles_pair? (word : List Char) : Settles (pair? word) (IsPair word) (IsSlip word) :=
  settles_of_total (fun _ => IsPair.pair?_eq) (fun _ => IsSlip.pair?_eq) (isPair_or_isSlip word)

theorem settles_pairs (words : List (List Char)) :
    Settles (pairs words)
      (fun pairs => ∃ results, List.Forall₂ IsPair words results ∧ pairs = results.filterMap id)
      (FirstFails IsPair IsSlip words) :=
  (Settles.mapM settles_pair? words).image (·.filterMap id)

/-! Lines. -/

/-- The words on a line in front of its comment. -/
def wordsOn (line : List Char) : List (List Char) :=
  Text.words (line.takeWhile (· ≠ '#'))

/-- A line that holds something: the word for its label and the words behind that. -/
structure Line where
  label : List Char
  words : List (List Char)

namespace Line

/-- The line, if it holds something. -/
def ofText? (text : List Char) : Option Line :=
  match wordsOn text with
  | [] => none
  | label :: words => some ⟨label, words⟩

/-- The line as a row. -/
inductive Spells (line : Line) : Row → Prop where
  | intro {literal : Literal} {results : List (Option (Nat × Single))}
      (label : Literal.read line.label = .ok literal)
      (each : List.Forall₂ IsPair line.words results) :
      Spells line ⟨literal.toSingle, results.filterMap id⟩

/-- What is wrong with the first word of the line that breaks the grammar. -/
inductive Slips (line : Line) : Slip → Prop where
  | label {defect : Literal.Defect} (label : Literal.read line.label = .error defect) :
      Slips line (.badLabel (String.ofList line.label) defect)
  | word {literal : Literal} {slip : Slip} (label : Literal.read line.label = .ok literal)
      (fails : FirstFails IsPair IsSlip line.words slip) : Slips line slip

def read (line : Line) : Except Slip Row :=
  match Literal.read line.label with
  | .error defect => .error (.badLabel (String.ofList line.label) defect)
  | .ok literal => do return ⟨literal.toSingle, ← pairs line.words⟩

theorem settles_read (line : Line) : Settles line.read line.Spells line.Slips := by
  unfold read
  cases label : Literal.read line.label with
  | error defect =>
      refine settles_of_total ?_ ?_ (.inr ⟨_, .label label⟩)
      · rintro _ ⟨label', _⟩
        rw [label] at label'
        cases label'
      · intro slip slips
        cases slips with
        | label label' =>
            rw [label] at label'
            cases label'
            rfl
        | word label' =>
            rw [label] at label'
            cases label'
  | ok literal =>
      have settles := (settles_pairs line.words).image fun pairs => Row.mk literal.toSingle pairs
      refine ⟨fun row => (settles.ok_iff row).trans ⟨?_, ?_⟩,
        fun slip => (settles.error_iff slip).trans ⟨.word label, ?_⟩⟩
      · rintro ⟨_, ⟨results, each, rfl⟩, rfl⟩
        exact .intro label each
      · rintro ⟨label', each⟩
        rw [label] at label'
        cases label'
        exact ⟨_, ⟨_, each, rfl⟩, rfl⟩
      · intro slips
        cases slips with
        | label label' =>
            rw [label] at label'
            cases label'
        | word _ fails => exact fails

end Line

/-! Texts. -/

/-- The lines that hold something, numbered from here on. -/
def linesFrom (number : Nat) (texts : List (List Char)) : List (Nat × Line) :=
  (texts.zipIdx number).filterMap fun text => (Line.ofText? text.1).map (text.2, ·)

/-- The lines of a text that hold something. -/
def linesOf (text : List Char) : List (Nat × Line) :=
  linesFrom 1 (text.splitOnP (· = '\n'))

/-- The leading items, all of them if the limit is zero. -/
def leading {Item : Type} (limit : Nat) (items : List Item) : List Item :=
  if limit = 0 then items else items.take limit

theorem map_leading {Item Other : Type} (change : Item → Other) (limit : Nat) (items : List Item) :
    (leading limit items).map change = leading limit (items.map change) := by
  unfold leading
  split
  · rfl
  · exact List.map_take

/-- As many items as a budget allows, or all. -/
def within {Item : Type} (budget? : Option Nat) (items : List Item) : List Item :=
  match budget? with
  | none => items
  | some budget => items.take budget

theorem within_nil {Item : Type} (budget? : Option Nat) : within budget? ([] : List Item) = [] := by
  cases budget? with
  | none => rfl
  | some budget => exact List.take_nil

theorem within_cons {Item : Type} {budget? : Option Nat} (some : budget? ≠ .some 0) (first : Item)
    (rest : List Item) :
    within budget? (first :: rest) = first :: within (budget?.map (· - 1)) rest := by
  cases budget? with
  | none => rfl
  | some budget =>
      obtain ⟨fewer, rfl⟩ := Nat.exists_eq_succ_of_ne_zero fun none => some (none ▸ rfl)
      rfl

theorem linesFrom_cons (number : Nat) (text : List Char) (texts : List (List Char)) :
    linesFrom number (text :: texts) =
      match Line.ofText? text with
      | none => linesFrom (number + 1) texts
      | some line => (number, line) :: linesFrom (number + 1) texts := by
  unfold linesFrom
  rw [List.zipIdx_cons, List.filterMap_cons]
  cases Line.ofText? text <;> rfl

theorem row?_eq (text : List Char) :
    row? text =
      match Line.ofText? text with
      | none => .ok none
      | some line => do return some (← line.read) := by
  unfold row? Line.ofText? wordsOn
  cases Text.words (text.takeWhile (· ≠ '#')) with
  | nil => rfl
  | cons label words =>
      simp only [Line.read]
      cases Literal.read label with
      | error defect => rfl
      | ok literal => cases pairs words <;> rfl

/-- Lines are read one by one, as many as hold something and are within the budget. -/
theorem rows_eq_mapM {lines : List Bytes} {texts : List (List Char)}
    (decoded : lines.map Text.Utf8.decode? = texts.map some) (budget? : Option Nat)
    (number : Nat) :
    rows budget? number lines =
      (within budget? (linesFrom number texts)).mapM fun line =>
        line.2.read.mapError (Defect.slip line.1) := by
  induction texts generalizing lines budget? number with
  | nil =>
      obtain rfl := List.map_eq_nil_iff.mp decoded
      rw [show linesFrom number [] = [] from rfl, within_nil]
      rfl
  | cons text texts inductionHypothesis =>
      obtain ⟨line, rest, rfl, first, others⟩ := List.map_eq_cons_iff.mp decoded
      by_cases spent : budget? = some 0
      · subst spent
        rfl
      · rw [rows, if_neg spent, linesFrom_cons]
        simp only [first, row?_eq text]
        cases Line.ofText? text with
        | none => exact inductionHypothesis others budget? (number + 1)
        | some line =>
            simp only [within_cons spent]
            rw [List.mapM_cons, ← inductionHypothesis others]
            cases line.read <;> rfl

theorem read_eq_mapM {contents : Bytes} {text : List Char}
    (decoded : Text.Utf8.decode? contents = some text) (limit : Nat) :
    read limit contents =
      (leading limit (linesOf text)).mapM fun line =>
        line.2.read.mapError (Defect.slip line.1) := by
  unfold read
  rw [rows_eq_mapM (Text.Utf8.map_decode?_lines decoded)]
  unfold leading
  split <;> rfl

/-! What does not count. -/

/-- A word that marks a query group. -/
def isQuery (word : List Char) : Bool :=
  "qid:".toList.isPrefixOf word

theorem pairs_cons (word : List Char) (words : List (List Char)) :
    pairs (word :: words) = do
      let result ← pair? word
      return result.toList ++ (← pairs words) := by
  unfold pairs
  rw [List.mapM_cons]
  cases pair? word with
  | error slip => rfl
  | ok result => cases words.mapM pair? <;> cases result <;> rfl

theorem pair?_of_isQuery {word : List Char} (query : isQuery word = true) :
    pair? word = .ok none := by
  obtain ⟨value, rfl⟩ := List.isPrefixOf_iff_prefix.mp query
  exact (IsPair.query value).pair?_eq

theorem pairs_filter (words : List (List Char)) :
    pairs (words.filter fun word => !isQuery word) = pairs words := by
  induction words with
  | nil => rfl
  | cons word words inductionHypothesis =>
      cases query : isQuery word with
      | true =>
          rw [List.filter_cons_of_neg (by simp [query]), inductionHypothesis, pairs_cons,
            pair?_of_isQuery query]
          cases pairs words <;> rfl
      | false =>
          rw [List.filter_cons_of_pos (by simp [query]), pairs_cons, pairs_cons,
            inductionHypothesis]

/-- A line without its query groups. -/
def Line.gist (line : Line) : Line :=
  { line with words := line.words.filter fun word => !isQuery word }

theorem Line.read_gist (line : Line) : line.gist.read = line.read := by
  unfold read gist
  simp only [pairs_filter]

/-- What counts of a text that is a line. -/
def gist? (text : List Char) : Option Line :=
  (Line.ofText? text).map Line.gist

theorem map_gist_linesFrom (number : Nat) (texts : List (List Char)) :
    (linesFrom number texts).map (fun line => line.2.gist) = texts.filterMap gist? := by
  induction texts generalizing number with
  | nil => rfl
  | cons text texts inductionHypothesis =>
      rw [linesFrom_cons, List.filterMap_cons, gist?]
      cases Line.ofText? text with
      | none => exact inductionHypothesis (number + 1)
      | some line => exact congrArg (List.cons _) (inductionHypothesis (number + 1))

/-- Where each line counts for the same, the lines that hold something have the same numbers. -/
theorem map_gist_linesFrom_congr {texts texts' : List (List Char)}
    (same : List.Forall₂ (fun text text' => gist? text = gist? text') texts texts')
    (number : Nat) :
    (linesFrom number texts).map (Prod.map id Line.gist) =
      (linesFrom number texts').map (Prod.map id Line.gist) := by
  induction same generalizing number with
  | nil => rfl
  | @cons text text' texts texts' same _ inductionHypothesis =>
      have rest := inductionHypothesis (number + 1)
      rw [linesFrom_cons, linesFrom_cons]
      unfold gist? at same
      cases first : Line.ofText? text with
      | none =>
          rw [first, eq_comm, Option.map_none, Option.map_eq_none_iff] at same
          rw [same]
          exact rest
      | some line =>
          rw [first, eq_comm, Option.map_some, Option.map_eq_some_iff] at same
          obtain ⟨line', first', gist⟩ := same
          rw [first']
          simp only [List.map_cons, Prod.map_apply, gist, rest]

/-- Only what counts on the lines is read. -/
theorem read_congr {contents contents' : Bytes} {text text' : List Char}
    (decoded : Text.Utf8.decode? contents = some text)
    (decoded' : Text.Utf8.decode? contents' = some text')
    (same : List.Forall₂ (fun line line' => gist? line = gist? line')
      (text.splitOnP (· = '\n')) (text'.splitOnP (· = '\n'))) (limit : Nat) :
    read limit contents = read limit contents' := by
  have gists : ∀ lines : List (Nat × Line),
      (lines.mapM fun line => line.2.read.mapError (Defect.slip line.1)) =
        (lines.map (Prod.map id Line.gist)).mapM fun line =>
          line.2.read.mapError (Defect.slip line.1) := by
    intro lines
    rw [List.mapM_map]
    congr 1
    funext line
    exact (congrArg (Except.mapError (Defect.slip line.1)) line.2.read_gist).symm
  rw [read_eq_mapM decoded, read_eq_mapM decoded', gists, gists (leading limit (linesOf text')),
    map_leading, map_leading, linesOf, linesOf, map_gist_linesFrom_congr same]

/-- The defect apart from the number of its line. -/
def Defect.slip? : Defect → Option Slip
  | .notText => none
  | .slip _ cause => some cause

/-- Apart from the numbers of lines, only what counts on those that hold something is read. -/
theorem mapError_read_congr {contents contents' : Bytes} {text text' : List Char}
    (decoded : Text.Utf8.decode? contents = some text)
    (decoded' : Text.Utf8.decode? contents' = some text')
    (same : (text.splitOnP (· = '\n')).filterMap gist? =
      (text'.splitOnP (· = '\n')).filterMap gist?) (limit : Nat) :
    (read limit contents).mapError Defect.slip? = (read limit contents').mapError Defect.slip? := by
  have gists : ∀ lines : List (Nat × Line),
      Except.mapError Defect.slip?
          (lines.mapM fun line => line.2.read.mapError (Defect.slip line.1)) =
        (lines.map fun line => line.2.gist).mapM fun gist => gist.read.mapError some := by
    intro lines
    rw [mapError_mapM, List.mapM_map]
    congr 1
    funext line
    rw [Function.comp_apply, Line.read_gist]
    cases line.2.read <;> rfl
  rw [read_eq_mapM decoded, read_eq_mapM decoded', gists, gists, map_leading, map_leading,
    linesOf, linesOf, map_gist_linesFrom, map_gist_linesFrom, same]

/-- A change to a line that adds nothing to the row on it. -/
inductive PadsLine : List Char → List Char → Prop where
  | comment (line note : List Char) : PadsLine line (line ++ '#' :: note)
  | blank {left right : List Char} {blank : Char} (isBlank : Text.isBlank blank = true)
      (beside : left = [] ∨ right = [] ∨
        (∃ other, left.getLast? = some other ∧ Text.isBlank other = true) ∨
        ∃ other, right.head? = some other ∧ (Text.isBlank other = true ∨ other = '#')) :
      PadsLine (left ++ right) (left ++ blank :: right)
  | query {left right value : List Char} {blank blank' : Char}
      (isBlank : Text.isBlank blank = true) (isBlank' : Text.isBlank blank' = true)
      (labelled : wordsOn left ≠ []) (open' : '#' ∉ left)
      (whole : ∀ letter ∈ value, Text.isBlank letter = false ∧ letter ≠ '#') :
      PadsLine (left ++ blank :: right)
        (left ++ blank' :: ("qid:".toList ++ value ++ blank :: right))

/-- A change to the lines of a text that adds nothing to its rows. -/
inductive Pads : List (List Char) → List (List Char) → Prop where
  | line {before after : List (List Char)} {line : List Char} (bare : wordsOn line = []) :
      Pads (before ++ after) (before ++ line :: after)
  | within {before after : List (List Char)} {line line' : List Char} (pads : PadsLine line line') :
      Pads (before ++ line :: after) (before ++ line' :: after)

theorem ne_mark_of_isBlank {blank : Char} (isBlank : Text.isBlank blank = true) :
    blank ≠ '#' := by
  rintro rfl
  revert isBlank
  decide

/-- Up to its comment a line is all text. -/
theorem takeWhile_append_of_open {left : List Char} (open' : '#' ∉ left) (right : List Char) :
    (left ++ right).takeWhile (· ≠ '#') = left ++ right.takeWhile (· ≠ '#') :=
  List.takeWhile_append_of_pos fun _ member =>
    decide_eq_true (ne_of_mem_of_not_mem member open')

theorem takeWhile_of_open {line : List Char} (open' : '#' ∉ line) :
    line.takeWhile (· ≠ '#') = line := by
  have whole := takeWhile_append_of_open open' []
  rwa [List.append_nil, List.takeWhile_nil, List.append_nil] at whole

theorem wordsOn_append_blank {left : List Char} (open' : '#' ∉ left) {blank : Char}
    (isBlank : Text.isBlank blank = true) (right : List Char) :
    wordsOn (left ++ blank :: right) = wordsOn left ++ wordsOn right := by
  unfold wordsOn
  rw [takeWhile_append_of_open open', takeWhile_of_open open',
    List.takeWhile_cons_of_pos (by simpa using ne_mark_of_isBlank isBlank),
    Text.words_append_blank isBlank]

/-- What stands behind the mark of a comment does not count. -/
theorem wordsOn_append_of_noted {left : List Char} (noted : '#' ∈ left) (right : List Char) :
    wordsOn (left ++ right) = wordsOn left := by
  obtain ⟨front, note, rfl, open'⟩ := List.eq_append_cons_of_mem noted
  unfold wordsOn
  rw [List.append_assoc, takeWhile_append_of_open open', takeWhile_append_of_open open']
  rfl

theorem wordsOn_append_comment (line note : List Char) :
    wordsOn (line ++ '#' :: note) = wordsOn line := by
  by_cases noted : '#' ∈ line
  · exact wordsOn_append_of_noted noted _
  · unfold wordsOn
    rw [takeWhile_append_of_open noted, takeWhile_of_open noted,
      List.takeWhile_cons_of_neg (by simp), List.append_nil]

theorem wordsOn_insert_blank {left right : List Char} {blank : Char}
    (isBlank : Text.isBlank blank = true)
    (beside : left = [] ∨ right = [] ∨
      (∃ other, left.getLast? = some other ∧ Text.isBlank other = true) ∨
      ∃ other, right.head? = some other ∧ (Text.isBlank other = true ∨ other = '#')) :
    wordsOn (left ++ blank :: right) = wordsOn (left ++ right) := by
  by_cases noted : '#' ∈ left
  · rw [wordsOn_append_of_noted noted, wordsOn_append_of_noted noted]
  · unfold wordsOn
    rw [takeWhile_append_of_open noted, takeWhile_append_of_open noted,
      List.takeWhile_cons_of_pos (by simpa using ne_mark_of_isBlank isBlank)]
    apply Text.words_insert_blank isBlank
    rcases beside with nothing | rfl | last | ⟨other, first, blankOrMark⟩
    · exact .inl nothing
    · exact .inr (.inl rfl)
    · exact .inr (.inr (.inl last))
    · obtain ⟨rest, rfl⟩ := List.head?_eq_some_iff.mp first
      rcases blankOrMark with isBlank' | rfl
      · rw [List.takeWhile_cons_of_pos (by simpa using ne_mark_of_isBlank isBlank')]
        exact .inr (.inr (.inr ⟨other, rfl, isBlank'⟩))
      · exact .inr (.inl (List.takeWhile_cons_of_neg (by simp)))

theorem wordsOn_query {value : List Char}
    (whole : ∀ letter ∈ value, Text.isBlank letter = false ∧ letter ≠ '#') :
    '#' ∉ "qid:".toList ++ value ∧
      wordsOn ("qid:".toList ++ value) = ["qid:".toList ++ value] := by
  have open' : '#' ∉ "qid:".toList ++ value := by
    rw [List.mem_append, not_or]
    exact ⟨by decide, fun member => (whole '#' member).2 rfl⟩
  refine ⟨open', ?_⟩
  unfold wordsOn
  rw [takeWhile_of_open open']
  apply Text.words_of_unbroken (by simp)
  have mark : ("qid:".toList.all fun letter => Text.isBlank letter = false) = true := by decide
  rw [List.forall_mem_append]
  exact ⟨fun letter member => of_decide_eq_true (List.all_eq_true.mp mark letter member),
    fun letter member => (whole letter member).1⟩

theorem gist?_congr {text text' : List Char} (same : wordsOn text = wordsOn text') :
    gist? text = gist? text' := by
  unfold gist? Line.ofText?
  rw [same]

theorem gist?_insert_query {left right value : List Char} {blank blank' : Char}
    (isBlank : Text.isBlank blank = true) (isBlank' : Text.isBlank blank' = true)
    (labelled : wordsOn left ≠ []) (open' : '#' ∉ left)
    (whole : ∀ letter ∈ value, Text.isBlank letter = false ∧ letter ≠ '#') :
    gist? (left ++ blank' :: ("qid:".toList ++ value ++ blank :: right)) =
      gist? (left ++ blank :: right) := by
  obtain ⟨open'', query⟩ := wordsOn_query whole
  obtain ⟨label, words, first⟩ := List.exists_cons_of_ne_nil labelled
  have marked : isQuery ("qid:".toList ++ value) = true :=
    List.isPrefixOf_iff_prefix.mpr ⟨value, rfl⟩
  have dropped : ∀ words, (("qid:".toList ++ value) :: words).filter (fun word => !isQuery word) =
      words.filter fun word => !isQuery word :=
    fun words => List.filter_cons_of_neg (by rw [marked]; decide)
  unfold gist? Line.ofText?
  rw [wordsOn_append_blank open' isBlank', wordsOn_append_blank open'' isBlank, query,
    wordsOn_append_blank open' isBlank, first]
  generalize "qid:".toList ++ value = word at dropped
  simp only [List.cons_append, Option.map_some, Line.gist, List.filter_append, List.nil_append,
    dropped]

theorem PadsLine.gist?_eq {line line' : List Char} (pads : PadsLine line line') :
    gist? line = gist? line' := by
  cases pads with
  | comment line note => exact gist?_congr (wordsOn_append_comment line note).symm
  | blank isBlank beside => exact gist?_congr (wordsOn_insert_blank isBlank beside).symm
  | query isBlank isBlank' labelled open' whole =>
      exact (gist?_insert_query isBlank isBlank' labelled open' whole).symm

theorem gist?_eq_of_eqvGen {line line' : List Char} (pads : Relation.EqvGen PadsLine line line') :
    gist? line = gist? line' := by
  induction pads with
  | rel _ _ pads => exact pads.gist?_eq
  | refl => rfl
  | symm _ _ _ inductionHypothesis => exact inductionHypothesis.symm
  | trans _ _ _ _ _ first second => exact first.trans second

theorem Pads.filterMap_gist? {texts texts' : List (List Char)} (pads : Pads texts texts') :
    texts.filterMap gist? = texts'.filterMap gist? := by
  cases pads with
  | @line before after line bare =>
      have nothing : gist? line = none := by
        unfold gist? Line.ofText?
        rw [bare]
        rfl
      rw [List.filterMap_append, List.filterMap_append, List.filterMap_cons, nothing]
  | within pads =>
      rw [List.filterMap_append, List.filterMap_append, List.filterMap_cons, List.filterMap_cons,
        pads.gist?_eq]

theorem filterMap_gist?_eq_of_eqvGen {texts texts' : List (List Char)}
    (pads : Relation.EqvGen Pads texts texts') :
    texts.filterMap gist? = texts'.filterMap gist? := by
  induction pads with
  | rel _ _ pads => exact pads.filterMap_gist?
  | refl => rfl
  | symm _ _ _ inductionHypothesis => exact inductionHypothesis.symm
  | trans _ _ _ _ _ first second => exact first.trans second

/-! Files. -/

/-- The greatest feature of any pair, zero if there is none. -/
inductive IsWidest (rows : List Row) : Nat → Prop where
  | none (none : ∀ row ∈ rows, row.pairs = []) : IsWidest rows 0
  | pair {row : Row} {pair : Nat × Single} (member : row ∈ rows) (member' : pair ∈ row.pairs)
      (greatest : ∀ other ∈ rows, ∀ other' ∈ other.pairs, other'.1 ≤ pair.1) :
      IsWidest rows pair.1

theorem isWidest_width (rows : List Row) : IsWidest rows (width rows) := by
  have below : ∀ row ∈ rows, ∀ pair ∈ row.pairs, pair.1 ≤ width rows := fun row member =>
    Row.width_le_iff.mp (width_le_iff.mp (Nat.le_refl _) row member)
  by_cases reached : ∃ row ∈ rows, ∃ pair ∈ row.pairs, pair.1 = width rows
  · obtain ⟨row, member, pair, member', reached⟩ := reached
    rw [← reached] at below ⊢
    exact .pair member member' below
  · push Not at reached
    have less : width rows ≤ width rows - 1 := width_le_iff.mpr fun row member =>
      Row.width_le_iff.mpr fun pair member' =>
        Nat.le_sub_one_of_lt (Nat.lt_of_le_of_ne (below row member pair member')
          (reached row member pair member'))
    have zero : width rows = 0 := by omega
    rw [zero] at below reached ⊢
    refine .none fun row member => List.eq_nil_iff_forall_not_mem.mpr fun pair member' => ?_
    exact reached row member pair member' (Nat.le_zero.mp (below row member pair member'))

/-- What lines are read as: a row each, or the fault of the first one that breaks the grammar, with
its number and what is wrong with its first such word. -/
inductive Reads (path : Path) (lines : List (Nat × Line)) : Except Fault (List Row) → Prop where
  | rows {rows : List Row} (each : List.Forall₂ (fun line row => line.2.Spells row) lines rows) :
      Reads path lines (.ok rows)
  | slip {before after : List (Nat × Line)} {number : Nat} {line : Line} {rows : List Row}
      {slip : Slip} (parted : lines = before ++ (number, line) :: after)
      (each : List.Forall₂ (fun line row => line.2.Spells row) before rows)
      (slips : line.Slips slip) : Reads path lines (.error (.parse path.text number slip.text))

/-- The same rows, or the same fault apart from the number of its line. -/
inductive Alike : Except Fault (List Row) → Except Fault (List Row) → Prop where
  | rows (rows : List Row) : Alike (.ok rows) (.ok rows)
  | slip (path : String) (number number' : Nat) (message : String) :
      Alike (.error (.parse path number message)) (.error (.parse path number' message))

theorem settles_lines {contents : Bytes} {text : List Char}
    (decoded : Text.Utf8.decode? contents = some text) (limit : Nat) :
    Settles (read limit contents)
      (List.Forall₂ (fun line row => line.2.Spells row) (leading limit (linesOf text)))
      (FirstFails (fun (line : Nat × Line) row => line.2.Spells row)
        (fun line defect => ∃ slip, line.2.Slips slip ∧ defect = .slip line.1 slip)
        (leading limit (linesOf text))) := by
  rw [read_eq_mapM decoded]
  exact Settles.mapM
    (fun (line : Nat × Line) => (Line.settles_read line.2).mapError (Defect.slip line.1)) _

theorem reads_read {contents : Bytes} {text : List Char}
    (decoded : Text.Utf8.decode? contents = some text) (limit : Nat) (path : Path) :
    Reads path (leading limit (linesOf text))
      ((read limit contents).mapError (Published.rowsFault path)) := by
  have settles := settles_lines decoded limit
  cases run : read limit contents with
  | ok rows => exact .rows ((settles.ok_iff rows).mp run)
  | error defect =>
      have fails := (settles.error_iff defect).mp run
      generalize leading limit (linesOf text) = lines at fails
      cases fails with
      | intro each fails =>
          obtain ⟨slip, slips, rfl⟩ := fails
          exact .slip rfl each slips

theorem exists_read_iff {contents : Bytes} {text : List Char}
    (decoded : Text.Utf8.decode? contents = some text) (limit : Nat) :
    (∃ rows, read limit contents = .ok rows) ↔
      ∀ line ∈ leading limit (linesOf text), ∃ row, line.2.Spells row := by
  rw [read_eq_mapM decoded]
  exact Settles.exists_mapM_iff fun (line : Nat × Line) =>
    (Line.settles_read line.2).mapError (Defect.slip line.1)

theorem alike_of_pads {contents contents' : Bytes} {text text' : List Char}
    (decoded : Text.Utf8.decode? contents = some text)
    (decoded' : Text.Utf8.decode? contents' = some text')
    (pads : Relation.EqvGen Pads (text.splitOnP (· = '\n')) (text'.splitOnP (· = '\n')))
    (limit : Nat) (path : Path) :
    Alike ((read limit contents).mapError (Published.rowsFault path))
      ((read limit contents').mapError (Published.rowsFault path)) := by
  have same := mapError_read_congr decoded decoded' (filterMap_gist?_eq_of_eqvGen pads) limit
  have reads := reads_read decoded limit path
  rcases run : read limit contents with (_ | ⟨number, slip⟩) | rows
  · rw [run] at reads
    cases reads
  · rcases run' : read limit contents' with (_ | ⟨number', slip'⟩) | rows'
    · rw [run, run'] at same
      cases same
    · rw [run, run'] at same
      cases same
      exact .slip path.text number number' slip.text
    · rw [run, run'] at same
      cases same
  · rcases run' : read limit contents' with defect | rows'
    · rw [run, run'] at same
      cases same
    · rw [run, run'] at same
      cases same
      exact .rows rows

/-- Exactly the texts that keep to the grammar can be read, and they are read line by line.  What
is put on a line without adding to its row changes nothing, and lines without anything on them
change nothing but the numbers of those behind them. -/
theorem reads_grammar {path : Path} {world : World} {contents : Bytes} {text : List Char}
    (stored : world.store.read path = .ok contents)
    (decoded : Text.Utf8.decode? contents = some text) (limit : Nat) :
    let lines := leading limit (linesOf text)
    let run := (Published.readRows limit path).run.run world
    ((∃ rows, run.1 = .ok rows) ↔ ∀ line ∈ lines, ∃ row, line.2.Spells row) ∧
      Reads path lines run.1 ∧ run.2 = world ∧
      (∀ rows, run.1 = .ok rows → IsWidest rows (width rows)) ∧
      ∀ contents' text' world', world'.store.read path = .ok contents' →
        Text.Utf8.decode? contents' = some text' →
        let run' := (Published.readRows limit path).run.run world'
        (List.Forall₂ (Relation.EqvGen PadsLine) (text.splitOnP (· = '\n'))
            (text'.splitOnP (· = '\n')) → run'.1 = run.1) ∧
          (Relation.EqvGen Pads (text.splitOnP (· = '\n')) (text'.splitOnP (· = '\n')) →
            Alike run.1 run'.1) := by
  intro lines run
  have read : run = ((Svmlight.read limit contents).mapError (Published.rowsFault path), world) :=
    Published.run_readRows stored limit
  rw [read]
  refine ⟨?_, reads_read decoded limit path, rfl, fun rows _ => isWidest_width rows, ?_⟩
  · rw [← exists_read_iff decoded]
    exact exists_congr fun _ => mapError_eq_ok_iff
  · intro contents' text' world' stored' decoded' run'
    have read' : run' =
        ((Svmlight.read limit contents').mapError (Published.rowsFault path), world') :=
      Published.run_readRows stored' limit
    rw [read']
    constructor
    · intro pads
      have same := read_congr decoded decoded' (pads.imp fun _ _ => gist?_eq_of_eqvGen) limit
      rw [same]
    · intro pads
      exact alike_of_pads decoded decoded' pads limit path

/-- The text "1 2:5". -/
def plain : Bytes := [0x31, 0x20, 0x32, 0x3A, 0x35]

/-- The text "1 qid:7 2:5". -/
def marked : Bytes := [0x31, 0x20, 0x71, 0x69, 0x64, 0x3A, 0x37, 0x20, 0x32, 0x3A, 0x35]

def lowered : Bytes := 0x0A :: plain

/-- A query group behind the label and a blank line in front are read over. -/
theorem reads_grammar_of_padded :
    ∃ row, ((Published.readRows 0 (.ofString "rows")).run.run (Published.holding plain)).1 =
        .ok [row] ∧
      row.pairs.map Prod.fst = [2] ∧ IsWidest [row] 2 ∧
      ((Published.readRows 0 (.ofString "rows")).run.run (Published.holding marked)).1 =
        .ok [row] ∧
      ((Published.readRows 0 (.ofString "rows")).run.run (Published.holding lowered)).1 =
        .ok [row] := by
  obtain ⟨accepts, reads, _, widest, padded⟩ :=
    reads_grammar (by rfl : (Published.holding plain).store.read (.ofString "rows") = .ok plain)
      (by rfl : Text.Utf8.decode? plain = some "1 2:5".toList) 0
  have query : PadsLine ("1".toList ++ ' ' :: "2:5".toList)
      ("1".toList ++ ' ' :: ("qid:".toList ++ "7".toList ++ ' ' :: "2:5".toList)) :=
    .query rfl rfl (by decide) (by decide)
      (List.forall_mem_singleton.mpr ⟨rfl, by decide⟩)
  have blank : Pads ([] ++ ["1 2:5".toList]) ([] ++ [] :: ["1 2:5".toList]) := .line rfl
  have marks := (padded marked "1 qid:7 2:5".toList (Published.holding marked) rfl rfl).1
    (.cons (.rel _ _ query) .nil)
  have lowers := (padded lowered "\n1 2:5".toList (Published.holding lowered) rfl rfl).2
    (.rel _ _ blank)
  obtain ⟨row, read, features⟩ : ∃ row, ((Published.readRows 0 (.ofString "rows")).run.run
      (Published.holding plain)).1 = .ok [row] ∧ row.pairs.map Prod.fst = [2] := ⟨_, rfl, rfl⟩
  have wide : width [row] = 2 := by
    rw [width, List.map_cons, Row.width, features]
    rfl
  refine ⟨row, read, features, wide ▸ widest _ read, marks.trans read, ?_⟩
  rw [read] at lowers
  generalize ((Published.readRows 0 (.ofString "rows")).run.run (Published.holding lowered)).1 =
    outcome at lowers
  cases lowers
  rfl

/-- A line that is read over counts, though, in the fault of one behind it. -/
theorem fault_of_lowered_slip :
    ¬ (Relation.EqvGen Pads ("x".toList.splitOnP (· = '\n')) ("\nx".toList.splitOnP (· = '\n')) →
      ((Published.readRows 0 (.ofString "rows")).run.run (Published.holding [0x0A, 0x78])).1 =
        ((Published.readRows 0 (.ofString "rows")).run.run (Published.holding [0x78])).1) := by
  intro unmoved
  have blank : Pads ([] ++ ["x".toList]) ([] ++ [] :: ["x".toList]) := .line rfl
  have first : ((Published.readRows 0 (.ofString "rows")).run.run (Published.holding [0x78])).1 =
      .error (.parse "rows" 1 (Slip.badLabel "x" .invalid).text) := rfl
  have second :
      ((Published.readRows 0 (.ofString "rows")).run.run (Published.holding [0x0A, 0x78])).1 =
        .error (.parse "rows" 2 (Slip.badLabel "x" .invalid).text) := rfl
  have same := unmoved (.rel _ _ blank)
  rw [first, second] at same
  injection same with same
  injection same with _ number
  exact absurd number (by decide)

end DatasetDepot.Svmlight
