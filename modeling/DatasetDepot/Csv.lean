import DatasetDepot.Dataset
import DatasetDepot.Text.Blank
import DatasetDepot.Text.Utf8

/-!
Tables in text: records of fields, parted by commas and line ends; a carriage return ends a line
too, so that the two bytes of a pair leave a blank line between them.

`Csv.records` splits bytes into records; it accepts every text.  A field may be
quoted, a doubled quote in it standing for one.  Blank lines are no records.
`Csv.ofRecords` turns records of numbers into a dataset, or says where that fails.
-/

namespace DatasetDepot.Csv

/-- Where a record starts. -/
structure Cursor where
  /-- Records before this one. -/
  record : Nat
  /-- The line, counted from one. -/
  line : Nat
  /-- Bytes before this one. -/
  byte : Nat
  deriving DecidableEq, Repr

namespace Cursor

def start : Cursor := ⟨0, 1, 0⟩

/-- The place after a byte. -/
def past (cursor : Cursor) (byte : UInt8) : Cursor :=
  { cursor with
    line := if byte = 0x0A then cursor.line + 1 else cursor.line
    byte := cursor.byte + 1 }

end Cursor

structure Record where
  /-- The place after the record before, so that blank lines in between come later. -/
  start : Cursor
  fields : List Bytes
  deriving Repr

/-- What a byte is read as part of. -/
inductive Stage where
  | betweenRecords
  | fieldStart
  | plain
  | quoted
  /-- Behind a quote in a quoted field. -/
  | closingQuote
  deriving DecidableEq, Repr

/-- What becomes of a byte. -/
inductive Step where
  | skip (next : Stage)
  | keep (next : Stage)
  | endField
  | endRecord
  deriving DecidableEq, Repr

namespace Stage

/-- A byte outside quotes. -/
def stepPlain (byte : UInt8) : Step :=
  if byte = 0x2C then .endField
  else if byte = 0x0A ∨ byte = 0x0D then .endRecord
  else .keep .plain

/-- A byte at the start of a field. -/
def stepStart (byte : UInt8) : Step :=
  if byte = 0x22 then .skip .quoted else stepPlain byte

def step (stage : Stage) (byte : UInt8) : Step :=
  match stage with
  | .betweenRecords =>
      if byte = 0x0A ∨ byte = 0x0D then .skip .betweenRecords else stepStart byte
  | .fieldStart => stepStart byte
  | .plain => stepPlain byte
  | .quoted => if byte = 0x22 then .skip .closingQuote else .keep .quoted
  | .closingQuote => if byte = 0x22 then .keep .quoted else stepPlain byte

end Stage

/-- The fields of a record that ends now.  Fields and the bytes of a field are
collected from the last one back. -/
def finish (fields : List Bytes) (field : Bytes) : List Bytes :=
  (field.reverse :: fields).reverse

/-- Reads records from here on: `start` is where the record being read starts, `cursor`
the place of the next byte. -/
def scan (stage : Stage) (start : Cursor) (fields : List Bytes) (field : Bytes)
    (cursor : Cursor) : Bytes → List Record
  | [] => if stage = .betweenRecords then [] else [⟨start, finish fields field⟩]
  | byte :: rest =>
      let cursor := cursor.past byte
      match stage.step byte with
      | .skip next => scan next start fields field cursor rest
      | .keep next => scan next start fields (byte :: field) cursor rest
      | .endField => scan .fieldStart start (field.reverse :: fields) [] cursor rest
      | .endRecord =>
          let after := { cursor with record := cursor.record + 1 }
          ⟨start, finish fields field⟩ :: scan .betweenRecords after [] [] after rest

/-- The records of a file.  A byte order mark at its start is no part of them. -/
def records (contents : Bytes) : List Record :=
  match contents with
  | 0xEF :: 0xBB :: 0xBF :: rest =>
      scan .betweenRecords Cursor.start [] [] { Cursor.start with byte := 3 } rest
  | contents => scan .betweenRecords Cursor.start [] [] Cursor.start contents

/-- Which columns of a table are what. -/
structure Columns where
  /-- The first record holds the names of the columns. -/
  hasHeader : Bool
  /-- The first column numbers the rows. -/
  hasIndex : Bool
  /-- The label comes before the features, not after them. -/
  labelFirst : Bool
  deriving DecidableEq, Repr

/-- Why a table is no dataset. -/
inductive Defect where
  | unequalFields (start : Cursor) (found expected : Nat)
  | notText (start : Cursor) (field byte : Nat)
  | notNumber (line : Nat) (text : String) (defect : Numeric.Literal.Defect)
  | noLabel (line : Nat)
  deriving DecidableEq, Repr

namespace Defect

def line : Defect → Nat
  | .unequalFields start _ _ => start.line
  | .notText start _ _ => start.line
  | .notNumber line _ _ => line
  | .noLabel line => line

def text : Defect → String
  | .unequalFields start found expected =>
      s!"CSV error: record {start.record} (line: {start.line}, byte: {start.byte}): "
        ++ s!"found record with {found} fields, but the previous record has {expected} fields"
  | .notText start field byte =>
      s!"CSV parse error: record {start.record} (line {start.line}, field: {field}, "
        ++ s!"byte: {start.byte}): invalid utf-8: invalid UTF-8 in field {field} "
        ++ s!"near byte index {byte}"
  | .notNumber _ text defect => s!"`{text}`: {defect.text}"
  | .noLabel _ => "record has no label column"

end Defect

/-- The number a cell holds; an empty one is not-a-number. -/
def cell (text : List Char) : Except Numeric.Literal.Defect Single :=
  let text := Text.trim text
  if text.isEmpty then .ok (Single.ofBits 0x7FC00000)
  else (Numeric.Literal.read text).map Numeric.Literal.toSingle

/-- The texts of the fields, numbered from here on. -/
def texts (start : Cursor) (number : Nat) : List Bytes → Except Defect (List (List Char))
  | [] => .ok []
  | field :: rest =>
      match Text.Utf8.decode? field with
      | none => .error (.notText start number (Text.Utf8.validLength field))
      | some text => do return text :: (← texts start (number + 1) rest)

def cells (line : Nat) : List (List Char) → Except Defect (List Single)
  | [] => .ok []
  | text :: rest =>
      match cell text with
      | .error defect =>
          .error (.notNumber line (String.ofList (Text.trim text)) defect)
      | .ok number => do return number :: (← cells line rest)

namespace Columns

/-- The label among the numbers of a record, and the features. -/
def divide? (columns : Columns) (numbers : List Single) : Option (Single × Array Single) :=
  if columns.labelFirst then
    match numbers with
    | [] => none
    | label :: features => some (label, features.toArray)
  else numbers.getLast?.map fun label => (label, numbers.dropLast.toArray)

/-- Where a record is said to start that is not text: the record behind a header is read
together with it. -/
def textStart (columns : Columns) (record : Record) : Cursor :=
  if columns.hasHeader && record.start.record = 1 then Cursor.start else record.start

/-- The label and the features of a record, which has to have this many fields. -/
def row (columns : Columns) (width : Nat) (record : Record) :
    Except Defect (Single × Array Single) := do
  if record.fields.length ≠ width then
    throw (.unequalFields record.start record.fields.length width)
  let texts ← texts (columns.textStart record) 0 record.fields
  let numbers ← cells record.start.line (if columns.hasIndex then texts.drop 1 else texts)
  match columns.divide? numbers with
  | some row => return row
  | none => throw (.noLabel record.start.line)

/-- The records that hold data, at most `limit` unless it is zero. -/
def dataRecords (columns : Columns) (limit : Nat) (records : List Record) : List Record :=
  let below := if columns.hasHeader then records.drop 1 else records
  if limit = 0 then below else below.take limit

end Columns

/-- How many fields every record has to have: as many as the first. -/
def width (records : List Record) : Nat :=
  match records with
  | [] => 0
  | first :: _ => first.fields.length

/-- The dataset in records, at most `limit` rows of it unless that is zero. -/
def ofRecords (columns : Columns) (limit : Nat) (records : List Record) :
    Except Defect Dataset := do
  let rows ← (columns.dataRecords limit records).mapM (columns.row (width records))
  let features :=
    match rows with
    | [] => 0
    | (_, features) :: _ => features.size
  return Dataset.ofRows features rows.toArray

/-- The dataset in a file, at most `limit` rows of it unless that is zero. -/
def read (columns : Columns) (limit : Nat) (contents : Bytes) : Except Defect Dataset :=
  ofRecords columns limit (records contents)

end DatasetDepot.Csv
