import DatasetDepot.CommandLine.LogSettings
import DatasetDepot.Numeric.Double

/-!
The arguments of a command.

Arguments are read from left to right.  The value of an option is checked when the
option is complete: at once if it is attached by an equals sign, otherwise when the
next option or the end shows that it is.  An argument that cannot be anything is
reported before a value that is still to be checked.
-/

namespace DatasetDepot.CommandLine

/-- Why arguments are no command. -/
inductive UsageFault where
  | helpRequested
  /-- Nothing at all was asked for. -/
  | nothingRequested
  | missingCommand
  | unknownCommand
  | unknownArgument
  /-- An option without a value, or with one that is not among its choices. -/
  | invalidValue
  /-- A value that is no number of its kind. -/
  | malformedValue
  | unexpectedValue
  | repeatedOption
  | missingOption
  deriving DecidableEq, Repr

/-- What there is to say about arguments that are no command. -/
def UsageFault.text : UsageFault → String
  | .helpRequested | .nothingRequested =>
      "usage: benchdata [--log-format FORMAT] [--log-filter FILTER] list | fetch URL | generate"
  | .missingCommand => "error: a command is missing"
  | .unknownCommand => "error: there is no such command"
  | .unknownArgument => "error: unexpected argument"
  | .invalidValue => "error: an option has no value or none that it can have"
  | .malformedValue => "error: a value is not a number of its kind"
  | .unexpectedValue => "error: an option that takes no value has one"
  | .repeatedOption => "error: an option is given twice"
  | .missingOption => "error: a required argument is missing"

/-- An option that takes a value. -/
inductive Flag where
  | logFormat
  | logFilter
  | cacheDir
  | dataset
  | format
  | samples
  | features
  | seed
  | testFraction
  | centers
  | classes
  | sparsityRatio
  deriving DecidableEq, Repr

namespace Flag

def all : List Flag :=
  [.logFormat, .logFilter, .cacheDir, .dataset, .format, .samples, .features, .seed,
    .testFraction, .centers, .classes, .sparsityRatio]

/-- How an option is spelled, after two dashes. -/
def name : Flag → String
  | .logFormat => "log-format"
  | .logFilter => "log-filter"
  | .cacheDir => "cache-dir"
  | .dataset => "dataset"
  | .format => "format"
  | .samples => "samples"
  | .features => "features"
  | .seed => "seed"
  | .testFraction => "test-fraction"
  | .centers => "centers"
  | .classes => "classes"
  | .sparsityRatio => "sparsity-ratio"

end Flag

/-- The place of an argument: before any command, or behind one. -/
inductive Scope where
  | outer
  | list
  | fetch
  | generate
  deriving DecidableEq, Repr

namespace Scope

/-- The options that can be given in a place. -/
def takes : Scope → Flag → Bool
  | _, .logFormat | _, .logFilter => true
  | .outer, _ | .list, _ => false
  | .fetch, flag => flag = .cacheDir
  | .generate, _ => true

/-- The command with this name. -/
def ofCommand? (name : String) : Option Scope :=
  if name = "list" then some .list
  else if name = "fetch" then some .fetch
  else if name = "generate" then some .generate
  else none

/-- Whether this is the name of a command; the one that lists commands has a name too. -/
def isCommand (name : String) : Bool :=
  name = "help" || (ofCommand? name).isSome

def flag? (scope : Scope) (name : List Char) : Option Flag :=
  Flag.all.find? fun flag => flag.name.toList = name && scope.takes flag

end Scope

/-- What the options of one place say. -/
structure Options where
  logFormat? : Option LogFormat := none
  logFilter? : Option String := none
  cacheDir? : Option String := none
  dataset? : Option String := none
  format? : Option String := none
  samples? : Option Nat := none
  features? : Option Nat := none
  seed? : Option Nat := none
  testFraction? : Option Double := none
  centers? : Option Nat := none
  classes? : Option Nat := none
  sparsityRatio? : Option Double := none
  /-- The argument of `fetch` that is no option. -/
  url? : Option String := none

namespace Options

def has (options : Options) : Flag → Bool
  | .logFormat => options.logFormat?.isSome
  | .logFilter => options.logFilter?.isSome
  | .cacheDir => options.cacheDir?.isSome
  | .dataset => options.dataset?.isSome
  | .format => options.format?.isSome
  | .samples => options.samples?.isSome
  | .features => options.features?.isSome
  | .seed => options.seed?.isSome
  | .testFraction => options.testFraction?.isSome
  | .centers => options.centers?.isSome
  | .classes => options.classes?.isSome
  | .sparsityRatio => options.sparsityRatio?.isSome

/-- A whole number. -/
def count (value : String) : Except UsageFault Nat :=
  match Numeric.count? value.toList with
  | some count => .ok count
  | none => .error .malformedValue

/-- A number with a fraction. -/
def double (value : String) : Except UsageFault Double :=
  match Numeric.Literal.read value.toList with
  | .ok literal => .ok literal.toDouble
  | .error _ => .error .malformedValue

/-- Gives an option its value. -/
def set (options : Options) (flag : Flag) (value : String) : Except UsageFault Options := do
  if options.has flag then throw .repeatedOption
  match flag with
  | .logFormat =>
      match LogFormat.ofName? value with
      | some format => return { options with logFormat? := some format }
      | none => throw .invalidValue
  | .logFilter => return { options with logFilter? := some value }
  | .cacheDir =>
      if value.isEmpty then throw .invalidValue
      return { options with cacheDir? := some value }
  | .dataset => return { options with dataset? := some value }
  | .format => return { options with format? := some value }
  | .samples => return { options with samples? := some (← count value) }
  | .features => return { options with features? := some (← count value) }
  | .seed => return { options with seed? := some (← count value) }
  | .testFraction => return { options with testFraction? := some (← double value) }
  | .centers => return { options with centers? := some (← count value) }
  | .classes => return { options with classes? := some (← count value) }
  | .sparsityRatio => return { options with sparsityRatio? := some (← double value) }

end Options

/-- An option that is not checked yet: its value may still come. -/
structure Pending where
  flag : Flag
  value? : Option String
  deriving DecidableEq, Repr

namespace Pending

/-- Checks an option that is complete. -/
def settle (pending? : Option Pending) (options : Options) : Except UsageFault Options :=
  match pending? with
  | none => .ok options
  | some ⟨_, none⟩ => .error .invalidValue
  | some ⟨flag, some value⟩ => options.set flag value

/-- Whether the next argument can be the value. -/
def isOpen (pending? : Option Pending) : Bool :=
  pending?.any fun pending => pending.value?.isNone

end Pending

/-- What an argument looks like. -/
inductive Shape where
  | long (name : List Char) (attached? : Option String)
  | short (letter : Char)
  | escape
  | plain
  deriving DecidableEq, Repr

/-- A single dash is no option. -/
def Shape.of (argument : String) : Shape :=
  match argument.toList with
  | ['-', '-'] => .escape
  | '-' :: '-' :: text =>
      .long (text.takeWhile (· ≠ '='))
        (match text.dropWhile (· ≠ '=') with
        | [] => none
        | _ :: value => some (String.ofList value))
  | '-' :: letter :: _ => .short letter
  | _ => .plain

/-- What comes of the arguments in one place. -/
structure Reading where
  options : Options
  /-- An option that the end of the place completes. -/
  pending? : Option Pending
  /-- A command and the arguments behind it. -/
  command? : Option (Scope × List String)

/-- What the command that lists commands makes of the names behind it. -/
def helpFault : List String → UsageFault
  | [] => .helpRequested
  | [name] => if Scope.isCommand name then .helpRequested else .unknownCommand
  | _ => .unknownCommand

/-- Reads arguments in one place, the outer one up to a command.  After an escape nothing is
an option or a command. -/
def read (scope : Scope) (escaped : Bool) (options : Options) (pending? : Option Pending) :
    List String → Except UsageFault Reading
  | [] => .ok ⟨options, pending?, none⟩
  | argument :: rest =>
      let placed : Except UsageFault Reading :=
        match scope, options.url? with
        | .fetch, none => do
            let options ← Pending.settle pending? options
            read scope escaped { options with url? := some argument } none rest
        | .outer, _ =>
            if escaped && Scope.isCommand argument then .error .unknownArgument
            else .error .unknownCommand
        | _, _ => .error .unknownArgument
      if escaped then placed
      else if scope = .outer && !Pending.isOpen pending? && argument = "help" then
        .error (helpFault rest)
      else
        match if scope = .outer && !Pending.isOpen pending? then Scope.ofCommand? argument
          else none with
        | some command => .ok ⟨options, pending?, some (command, rest)⟩
        | none =>
            match Shape.of argument with
            | .escape => read scope true options pending? rest
            | .long name attached? =>
                if name = "help".toList then
                  if attached?.isSome then .error .unexpectedValue
                  else do
                    let _ ← Pending.settle pending? options
                    throw .helpRequested
                else
                  match scope.flag? name, attached? with
                  | none, _ => .error .unknownArgument
                  | some flag, some value => do
                      let options ← Pending.settle pending? options
                      read scope escaped (← options.set flag value) none rest
                  | some flag, none => do
                      let options ← Pending.settle pending? options
                      read scope escaped options (some ⟨flag, none⟩) rest
            | .short letter =>
                if letter = 'h' then do
                  let _ ← Pending.settle pending? options
                  throw .helpRequested
                else .error .unknownArgument
            | .plain =>
                match pending? with
                | some ⟨flag, none⟩ =>
                    read scope escaped options (some ⟨flag, some argument⟩) rest
                | _ => placed

/-- What a command is to do. -/
inductive Job where
  | list
  | fetch (url : String) (cacheDir? : Option String)
  | generate (dataset : String) (options : Options)

/-- A command, and how it is to write diagnostics. -/
structure Invocation where
  logFormat? : Option LogFormat
  logFilter? : Option String
  job : Job

/-- The job of a command, when nothing it needs is missing. -/
def Options.job (options : Options) : Scope → Except UsageFault Job
  | .outer => .error .missingCommand
  | .list => .ok .list
  | .fetch =>
      match options.url? with
      | some url => .ok (.fetch url options.cacheDir?)
      | none => .error .missingOption
  | .generate =>
      match options.dataset? with
      | some dataset => .ok (.generate dataset options)
      | none => .error .missingOption

/-- The command that arguments stand for.  Of two settings for diagnostics the one behind the
command counts. -/
def Invocation.ofArguments (arguments : List String) : Except UsageFault Invocation := do
  let outer ← read .outer false {} none arguments
  match outer.command? with
  | none =>
      let options ← Pending.settle outer.pending? outer.options
      throw (if options.logFormat?.isSome || options.logFilter?.isSome then .missingCommand
        else .nothingRequested)
  | some (scope, rest) =>
      let inner ← read scope false {} none rest
      let innerOptions ← Pending.settle inner.pending? inner.options
      let job ← innerOptions.job scope
      let outerOptions ← Pending.settle outer.pending? outer.options
      return {
        logFormat? := innerOptions.logFormat?.or outerOptions.logFormat?
        logFilter? := innerOptions.logFilter?.or outerOptions.logFilter?
        job }

end DatasetDepot.CommandLine
