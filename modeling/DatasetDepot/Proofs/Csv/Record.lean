import DatasetDepot.Csv
import DatasetDepot.Proofs.Outcome
import Mathlib.Data.List.Basic

/-!
The grammar of records that hold numbers.

A record is a row if all its fields are text and those behind the index are numbers, or blank; one
of these is the label.  Any other record has a defect, which is that of the first field that has
one.
-/

namespace DatasetDepot.Csv

open Numeric

/-! Cells. -/

/-- The number in a cell. -/
inductive Reads (text : List Char) : Single → Prop where
  | blank (blank : Text.trim text = []) : Reads text (Single.ofBits 0x7FC00000)
  | literal {literal : Literal} (number : Literal.read (Text.trim text) = .ok literal) :
      Reads text literal.toSingle

/-- What is wrong with a cell on a line that holds no number. -/
inductive Misreads (line : Nat) (text : List Char) : Defect → Prop where
  | literal {defect : Literal.Defect} (some : Text.trim text ≠ [])
      (number : Literal.read (Text.trim text) = .error defect) :
      Misreads line text (.notNumber line (String.ofList (Text.trim text)) defect)

/-- A cell on a line. -/
def cellOn (line : Nat) (text : List Char) : Except Defect Single :=
  (cell text).mapError (.notNumber line (String.ofList (Text.trim text)))

theorem cells_eq_mapM (line : Nat) (texts : List (List Char)) :
    cells line texts = texts.mapM (cellOn line) := by
  induction texts with
  | nil => rfl
  | cons text texts inductionHypothesis =>
      rw [cells, List.mapM_cons, ← inductionHypothesis, cellOn]
      cases cell text <;> rfl

theorem cellOn_of_blank {text : List Char} (blank : Text.trim text = []) (line : Nat) :
    cellOn line text = .ok (Single.ofBits 0x7FC00000) := by
  unfold cellOn cell
  rw [blank]
  rfl

theorem cellOn_of_some {text : List Char} (some : Text.trim text ≠ []) (line : Nat) :
    cellOn line text = ((Literal.read (Text.trim text)).map Literal.toSingle).mapError
      (.notNumber line (String.ofList (Text.trim text))) := by
  unfold cellOn cell
  rw [if_neg (by simpa using some)]

theorem settles_cellOn (line : Nat) (text : List Char) :
    Settles (cellOn line text) (Reads text) (Misreads line text) := by
  refine settles_of_total ?_ ?_ ?_
  · intro number reads
    cases reads with
    | blank blank => exact cellOn_of_blank blank line
    | literal number =>
        have some : Text.trim text ≠ [] := by
          intro blank
          rw [blank] at number
          cases number
        rw [cellOn_of_some some, number]
        rfl
  · rintro _ ⟨some, number⟩
    rw [cellOn_of_some some, number]
    rfl
  · by_cases blank : Text.trim text = []
    · exact .inl ⟨_, .blank blank⟩
    · cases number : Literal.read (Text.trim text) with
      | error defect => exact .inr ⟨_, .literal blank number⟩
      | ok literal => exact .inl ⟨_, .literal number⟩

theorem settles_cells (line : Nat) (texts : List (List Char)) :
    Settles (cells line texts) (List.Forall₂ Reads texts)
      (FirstFails Reads (Misreads line) texts) := by
  rw [cells_eq_mapM]
  exact Settles.mapM (settles_cellOn line) texts

/-! Fields. -/

def Spelled (field : Bytes) (text : List Char) : Prop := Text.Utf8.decode? field = some text

/-- What is wrong with a numbered field that is not text. -/
inductive Unspelled (start : Cursor) : Bytes × Nat → Defect → Prop where
  | bytes {field : Bytes} (number : Nat) (undecoded : Text.Utf8.decode? field = none) :
      Unspelled start (field, number) (.notText start number (Text.Utf8.validLength field))

/-- The text of a numbered field. -/
def textOf (start : Cursor) (field : Bytes × Nat) : Except Defect (List Char) :=
  match Text.Utf8.decode? field.1 with
  | none => .error (.notText start field.2 (Text.Utf8.validLength field.1))
  | some text => .ok text

theorem texts_eq_mapM (start : Cursor) (number : Nat) (fields : List Bytes) :
    texts start number fields = (fields.zipIdx number).mapM (textOf start) := by
  induction fields generalizing number with
  | nil => rfl
  | cons field fields inductionHypothesis =>
      rw [texts, inductionHypothesis, List.zipIdx_cons, List.mapM_cons, textOf]
      cases Text.Utf8.decode? field <;> rfl

theorem settles_textOf (start : Cursor) (field : Bytes × Nat) :
    Settles (textOf start field) (Spelled field.1) (Unspelled start field) := by
  unfold textOf
  cases decoded : Text.Utf8.decode? field.1 with
  | none =>
      refine settles_of_total ?_ ?_ (.inr ⟨_, .bytes field.2 decoded⟩)
      · intro text spelled
        rw [Spelled, decoded] at spelled
        cases spelled
      · rintro _ ⟨⟩
        rfl
  | some text =>
      refine settles_of_total ?_ ?_ (.inl ⟨text, decoded⟩)
      · intro text' spelled
        rw [Spelled, decoded] at spelled
        cases spelled
        rfl
      · rintro _ ⟨_, undecoded⟩
        rw [decoded] at undecoded
        cases undecoded

/-- The first field that is not text. -/
def Garbled (start : Cursor) (fields : List Bytes) : Defect → Prop :=
  FirstFails (fun field => Spelled field.1) (Unspelled start) (fields.zipIdx 0)

theorem settles_texts (start : Cursor) (fields : List Bytes) :
    Settles (texts start 0 fields) (List.Forall₂ Spelled fields) (Garbled start fields) := by
  have settles := Settles.mapM (settles_textOf start) (fields.zipIdx 0)
  rw [← texts_eq_mapM] at settles
  refine ⟨fun texts => (settles.ok_iff texts).trans ?_, settles.error_iff⟩
  rw [← List.forall₂_map_left_iff, List.zipIdx_map_fst]

/-! Records. -/

namespace Columns

variable {columns : Columns}

/-- What is left behind the index. -/
def behindIndex {Item : Type} (columns : Columns) (items : List Item) : List Item :=
  if columns.hasIndex then items.drop 1 else items

/-- The label and the features as they stand in a record. -/
def place (columns : Columns) (label : Single) (features : List Single) : List Single :=
  if columns.labelFirst then label :: features else features ++ [label]

theorem length_behindIndex {Item : Type} (columns : Columns) (items : List Item) :
    (columns.behindIndex items).length = items.length - columns.hasIndex.toNat := by
  unfold behindIndex
  cases columns.hasIndex with
  | false => rfl
  | true => exact List.length_drop

theorem length_place (columns : Columns) (label : Single) (features : List Single) :
    (columns.place label features).length = features.length + 1 := by
  unfold place
  split
  · rfl
  · exact List.length_append

/-- A record as a row. -/
inductive Spells (columns : Columns) (width : Nat) (record : Record) :
    Single × Array Single → Prop where
  | numbers {texts : List (List Char)} {label : Single} {features : List Single}
      (equal : record.fields.length = width) (decoded : List.Forall₂ Spelled record.fields texts)
      (numbers : List.Forall₂ Reads (columns.behindIndex texts) (columns.place label features)) :
      Spells columns width record (label, features.toArray)

/-- What is wrong with a record: it has more or fewer fields than the first one, or something that
is not text, or something that is no number and counts, or nothing that counts. -/
inductive Slips (columns : Columns) (width : Nat) (record : Record) : Defect → Prop where
  | unequal (unequal : record.fields.length ≠ width) :
      Slips columns width record (.unequalFields record.start record.fields.length width)
  | garbled {defect : Defect} (equal : record.fields.length = width)
      (fails : Garbled (columns.textStart record) record.fields defect) :
      Slips columns width record defect
  | misread {texts : List (List Char)} {defect : Defect} (equal : record.fields.length = width)
      (decoded : List.Forall₂ Spelled record.fields texts)
      (fails : FirstFails Reads (Misreads record.start.line) (columns.behindIndex texts) defect) :
      Slips columns width record defect
  | unlabelled {texts : List (List Char)} (equal : record.fields.length = width)
      (decoded : List.Forall₂ Spelled record.fields texts)
      (bare : columns.behindIndex texts = []) :
      Slips columns width record (.noLabel record.start.line)

theorem divide?_place (columns : Columns) (label : Single) (features : List Single) :
    columns.divide? (columns.place label features) = some (label, features.toArray) := by
  unfold divide? place
  by_cases labelFirst : columns.labelFirst = true
  · rw [if_pos labelFirst, if_pos labelFirst]
  · rw [if_neg labelFirst, if_neg labelFirst, List.getLast?_concat, List.dropLast_concat]
    rfl

theorem divide?_nil (columns : Columns) : columns.divide? [] = none := by
  unfold divide?
  split <;> rfl

theorem exists_place_eq (columns : Columns) {numbers : List Single} (some : numbers ≠ []) :
    ∃ label features, numbers = columns.place label features := by
  unfold place
  by_cases labelFirst : columns.labelFirst = true
  · obtain ⟨label, features, rfl⟩ := List.exists_cons_of_ne_nil some
    exact ⟨label, features, (if_pos labelFirst).symm⟩
  · refine ⟨numbers.getLast some, numbers.dropLast, ?_⟩
    rw [if_neg labelFirst, List.dropLast_append_getLast]

theorem row_eq (columns : Columns) {width : Nat} {record : Record}
    (equal : record.fields.length = width) :
    columns.row width record = (do
      let texts ← texts (columns.textStart record) 0 record.fields
      let numbers ← cells record.start.line (columns.behindIndex texts)
      match columns.divide? numbers with
      | some row => return row
      | none => throw (.noLabel record.start.line)) := by
  unfold row
  rw [if_neg (not_not.mpr equal)]
  rfl

theorem settles_row (columns : Columns) (width : Nat) (record : Record) :
    Settles (columns.row width record) (columns.Spells width record)
      (columns.Slips width record) := by
  refine settles_of_total ?_ ?_ ?_
  · rintro _ ⟨equal, decoded, numbers⟩
    rw [row_eq columns equal, ((settles_texts _ _).ok_iff _).mpr decoded]
    simp only [bind, Except.bind, ((settles_cells _ _).ok_iff _).mpr numbers, divide?_place]
    rfl
  · intro defect slips
    cases slips with
    | unequal unequal =>
        unfold row
        rw [if_pos unequal]
        rfl
    | garbled equal fails =>
        rw [row_eq columns equal, ((settles_texts _ _).error_iff _).mpr fails]
        rfl
    | misread equal decoded fails =>
        rw [row_eq columns equal, ((settles_texts _ _).ok_iff _).mpr decoded]
        simp only [bind, Except.bind, ((settles_cells _ _).error_iff _).mpr fails]
    | unlabelled equal decoded bare =>
        rw [row_eq columns equal, ((settles_texts _ _).ok_iff _).mpr decoded]
        simp only [bind, Except.bind, bare, cells, divide?_nil]
        rfl
  · by_cases equal : record.fields.length = width
    · cases read : texts (columns.textStart record) 0 record.fields with
      | error defect => exact .inr ⟨_, .garbled equal (((settles_texts _ _).error_iff _).mp read)⟩
      | ok texts =>
          have decoded := ((settles_texts _ _).ok_iff _).mp read
          cases run : cells record.start.line (columns.behindIndex texts) with
          | error defect =>
              exact .inr ⟨_, .misread equal decoded (((settles_cells _ _).error_iff _).mp run)⟩
          | ok numbers =>
              have each := ((settles_cells _ _).ok_iff _).mp run
              by_cases bare : numbers = []
              · subst bare
                exact .inr ⟨_, .unlabelled equal decoded (List.forall₂_nil_right_iff.mp each)⟩
              · obtain ⟨label, features, rfl⟩ := columns.exists_place_eq bare
                exact .inl ⟨_, .numbers equal decoded each⟩
    · exact .inr ⟨_, .unequal equal⟩

end Columns

end DatasetDepot.Csv
