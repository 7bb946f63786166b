import DatasetDepot.Numeric.Literal
import DatasetDepot.Text.Blank
import DatasetDepot.Text.Utf8

/-!
How diagnostics are written: their format, and a filter that says which of them.

A flag comes before the environment and the environment before the default; a variable
that a flag stands in for is not even looked at.
-/

namespace DatasetDepot.CommandLine

inductive LogFormat where
  | human
  | json
  deriving DecidableEq, Repr

namespace LogFormat

def name : LogFormat → String
  | .human => "human"
  | .json => "json"

/-- The format with exactly this name. -/
def ofName? (name : String) : Option LogFormat :=
  [human, json].find? fun format => format.name = name

end LogFormat

/-- Why there are no log settings. -/
inductive LogFault where
  | notUnicode (name : String)
  | unsupportedFormat (provided : String)
  | invalidFilter (filter : String)
  deriving DecidableEq, Repr

def LogFault.message : LogFault → String
  | .notUnicode name => s!"environment variable `{name}` contained invalid UTF-8"
  | .unsupportedFormat provided =>
      s!"unsupported log format `{provided}`; expected `human` or `json`"
  | .invalidFilter filter => s!"invalid log filter `{filter}`"

/-- The values of environment variables, where they are set. -/
structure Environment where
  logFormat? : Option Bytes := none
  logFilter? : Option Bytes := none
  cache? : Option String := none

structure LogSettings where
  format : LogFormat
  filter : String
  deriving DecidableEq, Repr

namespace LogSettings

def formatVariable : String := "BENCHDATA_LOG_FORMAT"

def filterVariable : String := "RUST_LOG"

def defaultFilter : String := "info"

/-- The levels a filter can name, besides the numbers from zero to five. -/
def levels : List String := ["off", "error", "warn", "info", "debug", "trace"]

def isLevel (text : List Char) : Bool :=
  levels.contains (String.ofList (text.map Char.toLower)) ||
    (Numeric.count? text).any (· ≤ 5)

/-- Whether a target can start with this letter. -/
def startsTarget (letter : Char) : Bool :=
  letter.isAlphanum || ['-', ':', '_'].contains letter || 128 ≤ letter.toNat

/-- A target, a level, or a target with a level, which may be left blank. -/
def isDirective (text : List Char) : Bool :=
  match text.dropWhile (· ≠ '=') with
  | [] => (Text.trim text).head?.any startsTarget
  | _ :: level => text.head?.any startsTarget && (level.isEmpty || isLevel level)

/-- Directives with commas between them. -/
def isFilter (text : List Char) : Bool :=
  (text.splitOnP (· = ',')).all fun directive => directive.isEmpty || isDirective directive

/-- The text of a variable. -/
def textOf (name : String) (value : Bytes) : Except LogFault (List Char) :=
  match Text.Utf8.decode? value with
  | some text => .ok text
  | none => .error (.notUnicode name)

/-- The format a variable names, whatever blanks are around it and whatever the case of its
letters. -/
def formatOf (value : Bytes) : Except LogFault LogFormat := do
  let provided := String.ofList ((Text.trim (← textOf formatVariable value)).map Char.toLower)
  match LogFormat.ofName? provided with
  | some format => return format
  | none => throw (.unsupportedFormat provided)

/-- The filter a variable names; a blank one names none. -/
def filterOf (value : Bytes) : Except LogFault String := do
  let text ← textOf filterVariable value
  return if (Text.trim text).isEmpty then defaultFilter else String.ofList text

/-- The settings that flags and the environment give. -/
def resolve (format? : Option LogFormat) (filter? : Option String) (environment : Environment) :
    Except LogFault LogSettings := do
  let format ←
    match format?, environment.logFormat? with
    | some format, _ => pure format
    | none, some value => formatOf value
    | none, none => pure .human
  let filter ←
    match filter?, environment.logFilter? with
    | some filter, _ => pure filter
    | none, some value => filterOf value
    | none, none => pure defaultFilter
  if isFilter filter.toList then return ⟨format, filter⟩
  else throw (.invalidFilter filter)

end LogSettings

end DatasetDepot.CommandLine
