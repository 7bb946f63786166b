import DatasetDepot.Numeric.Double
import DatasetDepot.Numeric.Single

/-!
Decimal literals and the numbers they denote.

`Literal.read` accepts an optional sign before digits with an optional point and
an optional exponent, or before one of the words for the special values.  A
literal denotes an exact decimal, which is rounded once.
-/

namespace DatasetDepot.Numeric

/-- The magnitude a literal spells. -/
inductive Magnitude where
  /-- Whole digits times a power of ten. -/
  | finite (digits : Nat) (exponent : Int)
  | infinite
  | notANumber
  deriving DecidableEq, Repr

/-- A number as it is spelled. -/
structure Literal where
  negative : Bool
  magnitude : Magnitude
  deriving DecidableEq, Repr

namespace Literal

/-- Why a text is no literal. -/
inductive Defect where
  | empty
  | invalid
  deriving DecidableEq, Repr

def Defect.text : Defect → String
  | .empty => "cannot parse float from empty string"
  | .invalid => "invalid float literal"

/-- The number the decimal digits spell. -/
def ofDigits (digits : List Char) : Nat :=
  digits.foldl (fun total digit => total * 10 + (digit.toNat - '0'.toNat)) 0

/-- An optional sign and the text after it. -/
def takeSign : List Char → Bool × List Char
  | '-' :: rest => (true, rest)
  | '+' :: rest => (false, rest)
  | text => (false, text)

/-- The exponent that may follow the digits; at least one digit comes after its
mark. -/
def exponent? : List Char → Option Int
  | [] => some 0
  | mark :: rest =>
      if mark = 'e' ∨ mark = 'E' then
        let (negative, digits) := takeSign rest
        if !digits.isEmpty && digits.all Char.isDigit then
          some (if negative then -(ofDigits digits : Int) else ofDigits digits)
        else none
      else none

/-- Digits, a point among them if there is one, and an exponent. -/
def decimal? (text : List Char) : Option Magnitude :=
  let whole := text.takeWhile Char.isDigit
  let rest := text.dropWhile Char.isDigit
  let (places, rest) :=
    match rest with
    | '.' :: rest => (rest.takeWhile Char.isDigit, rest.dropWhile Char.isDigit)
    | rest => ([], rest)
  if whole.isEmpty && places.isEmpty then none
  else
    (exponent? rest).map fun exponent =>
      .finite (ofDigits (whole ++ places)) (exponent - places.length)

/-- The words for the special values, whatever the case of their letters. -/
def special? (text : List Char) : Option Magnitude :=
  let lower := String.ofList (text.map Char.toLower)
  if lower = "inf" ∨ lower = "infinity" then some .infinite
  else if lower = "nan" then some .notANumber
  else none

/-- The literal a text spells. -/
def read (text : List Char) : Except Defect Literal :=
  if text.isEmpty then .error .empty
  else
    let (negative, rest) := takeSign text
    match (decimal? rest).or (special? rest) with
    | some magnitude => .ok ⟨negative, magnitude⟩
    | none => .error .invalid

/-- Beyond this power of ten every number overflows both formats, and below its inverse
every number vanishes in them. -/
def farDecade : Int := 400

/-- A magnitude that is too large or too small for any format, in the simplest form that
rounds the same way. -/
def settle (digits : Nat) (exponent : Int) : Magnitude :=
  let decade := (Nat.toDigits 10 digits).length + exponent
  if digits = 0 ∨ decade < -farDecade then .finite 0 0
  else if farDecade < decade then .infinite
  else .finite digits exponent

/-- The number nearest to a magnitude, given how a format reads whole digits times a power of
ten and what its special values are. -/
def round {Number : Type} [OfScientific Number] (infinite notANumber : Number) :
    Magnitude → Number
  | .finite digits exponent =>
      match settle digits exponent with
      | .finite digits exponent =>
          OfScientific.ofScientific digits (decide (exponent < 0)) exponent.natAbs
      | .infinite => infinite
      | .notANumber => notANumber
  | .infinite => infinite
  | .notANumber => notANumber

/-- The single precision number nearest to a literal. -/
def toSingle (literal : Literal) : Single :=
  let magnitude :=
    round (Single.ofBits 0x7F800000) (Single.ofBits 0x7FC00000) literal.magnitude
  if literal.negative then -magnitude else magnitude

/-- The double precision number nearest to a literal. -/
def toDouble (literal : Literal) : Double :=
  let magnitude :=
    round (Float.ofBits 0x7FF0000000000000) (Float.ofBits 0x7FF8000000000000) literal.magnitude
  ⟨(if literal.negative then -magnitude else magnitude).toBits⟩

end Literal

/-- The greatest count a size or a seed can have. -/
def maxCount : Nat := Nat.pow 2 64 - 1

/-- A count as it is spelled: digits, perhaps after a plus sign, of a number that
fits 64 bits. -/
def count? (text : List Char) : Option Nat :=
  let digits := match text with
    | '+' :: rest => rest
    | text => text
  if !digits.isEmpty && digits.all Char.isDigit then
    let count := Literal.ofDigits digits
    if count ≤ maxCount then some count else none
  else none

end DatasetDepot.Numeric
