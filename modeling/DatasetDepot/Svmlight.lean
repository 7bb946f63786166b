import DatasetDepot.Dataset
import DatasetDepot.Text.Blank
import DatasetDepot.Text.Utf8

/-!
Labelled rows in sparse form: on each line a label and then pairs of a feature,
counted from one, and its value.

Comments start at a number sign; a line without anything else is no row.  Several
files make one dataset, as wide as the greatest feature in any of them.
-/

namespace DatasetDepot.Svmlight

structure Row where
  label : Single
  /-- Features and values, as they follow one another. -/
  pairs : List (Nat × Single)
  deriving DecidableEq

/-- What is wrong with a line. -/
inductive Slip where
  | badLabel (text : String) (defect : Numeric.Literal.Defect)
  | badPair (text : String)
  | badFeature (text : String)
  | badValue (text : String) (defect : Numeric.Literal.Defect)
  deriving DecidableEq, Repr

def Slip.text : Slip → String
  | .badLabel text defect => s!"label `{text}`: {defect.text}"
  | .badPair text => s!"malformed pair `{text}`"
  | .badFeature text => s!"bad feature index `{text}`"
  | .badValue text defect => s!"`{text}`: {defect.text}"

/-- Why a file is no list of rows. -/
inductive Defect where
  | notText
  | slip (line : Nat) (slip : Slip)
  deriving DecidableEq, Repr

/-- A feature, counted from one. -/
def feature? (text : List Char) : Option Nat :=
  (Numeric.count? text).filter (0 < ·)

/-- The pair a word spells; query groups are no features. -/
def pair? (word : List Char) : Except Slip (Option (Nat × Single)) :=
  let key := word.takeWhile (· ≠ ':')
  match word.dropWhile (· ≠ ':') with
  | [] => .error (.badPair (String.ofList word))
  | _ :: value =>
      if key = "qid".toList then .ok none
      else
        match feature? key with
        | none => .error (.badFeature (String.ofList key))
        | some feature =>
            match Numeric.Literal.read value with
            | .error defect => .error (.badValue (String.ofList value) defect)
            | .ok literal => .ok (some (feature, literal.toSingle))

def pairs (words : List (List Char)) : Except Slip (List (Nat × Single)) := do
  return (← words.mapM pair?).filterMap id

/-- The row on a line, if there is one. -/
def row? (text : List Char) : Except Slip (Option Row) :=
  match Text.words (text.takeWhile (· ≠ '#')) with
  | [] => .ok none
  | label :: rest =>
      match Numeric.Literal.read label with
      | .error defect => .error (.badLabel (String.ofList label) defect)
      | .ok literal => do return some ⟨literal.toSingle, ← pairs rest⟩

/-- Reads the lines from this number on until they end or `budget?` rows are read. -/
def rows (budget? : Option Nat) (number : Nat) : List Bytes → Except Defect (List Row)
  | [] => .ok []
  | line :: rest =>
      if budget? = some 0 then .ok []
      else
        match Text.Utf8.decode? line with
        | none => .error .notText
        | some text =>
            match row? text with
            | .error slip => .error (.slip number slip)
            | .ok none => rows budget? (number + 1) rest
            | .ok (some row) => do
                return row :: (← rows (budget?.map (· - 1)) (number + 1) rest)

/-- The rows in a file, at most `limit` of them unless it is zero. -/
def read (limit : Nat) (contents : Bytes) : Except Defect (List Row) :=
  rows (if limit = 0 then none else some limit) 1 (contents.splitOnP (· = 0x0A))

/-- The greatest feature of a row, zero if it has none. -/
def Row.width (row : Row) : Nat :=
  (row.pairs.map Prod.fst).foldl max 0

/-- The greatest feature of any row, zero if there is none. -/
def width (rows : List Row) : Nat :=
  (rows.map Row.width).foldl max 0

/-- The values of a row; of several for one feature the last one counts. -/
def Row.dense (width : Nat) (row : Row) : Array Single :=
  row.pairs.foldl (fun values pair => values.setIfInBounds (pair.1 - 1) pair.2)
    (Array.replicate width 0)

/-- The rows of several files as one dataset. -/
def densify (parts : List (List Row)) : Dataset :=
  let rows := parts.flatten
  let width := width rows
  Dataset.ofRows width (rows.map fun row => (row.label, row.dense width)).toArray

end DatasetDepot.Svmlight
