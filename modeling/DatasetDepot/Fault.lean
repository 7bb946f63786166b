/-!
The faults a depot reports.  A fault is a cause together with the values its
message shows; its code, its category and its text are read off the cause.
-/

namespace DatasetDepot

/-- The broad class a fault belongs to. -/
inductive Category where
  | lookup
  | capacity
  | type
  | io
  | validation
  deriving DecidableEq, Repr

/-- The word a category is reported under. -/
def Category.name : Category → String
  | .lookup => "Lookup"
  | .capacity => "Capacity"
  | .type => "Type"
  | .io => "Io"
  | .validation => "Validation"

/-- Why an operation on the depot failed. -/
inductive Fault where
  /-- No dataset carries this name. -/
  | unknownDataset (name : String)
  /-- No output format carries this name. -/
  | unknownFormat (name : String)
  /-- A source holds fewer rows than were asked for. -/
  | insufficientRows (dataset : String) (available requested : Nat)
  /-- A source holds fewer feature columns than were asked for. -/
  | insufficientFeatures (dataset : String) (available requested : Nat)
  /-- A format has no representation for this kind of value. -/
  | unsupportedInput (format kind : String)
  /-- The file system refused an operation on this path. -/
  | io (path source : String)
  /-- The payload of this address could not be stored completely. -/
  | download (url message : String)
  /-- The bytes of this archive are not what its suffix promises. -/
  | decompress (path message : String)
  /-- No decoder goes with the suffix of this file. -/
  | unsupportedCompression (path : String)
  /-- A text file broke its grammar on this line. -/
  | parse (path : String) (line : Nat) (message : String)
  /-- A stored snapshot is not a table of plain measurements. -/
  | snapshot (path message : String)
  /-- A program outside the depot could not do its part. -/
  | externalCommand (command message : String)
  /-- Two sizes that have to agree do not. -/
  | shapeMismatch (expected actual : Nat)
  /-- A parameter of a request or a configuration is out of range. -/
  | invalidParameter (parameter message : String)
  /-- More training rows were asked for than there are rows. -/
  | split (trainSize available : Nat)
  deriving DecidableEq, Repr

namespace Fault

/-- The stable identifier of the cause. -/
def code : Fault → String
  | .unknownDataset _ => "BENCHDATA_UNKNOWN_DATASET"
  | .unknownFormat _ => "BENCHDATA_UNKNOWN_FORMAT"
  | .insufficientRows _ _ _ => "BENCHDATA_INSUFFICIENT_ROWS"
  | .insufficientFeatures _ _ _ => "BENCHDATA_INSUFFICIENT_FEATURES"
  | .unsupportedInput _ _ => "BENCHDATA_UNSUPPORTED_INPUT"
  | .io _ _ => "BENCHDATA_IO"
  | .download _ _ => "BENCHDATA_DOWNLOAD"
  | .decompress _ _ => "BENCHDATA_DECOMPRESS"
  | .unsupportedCompression _ => "BENCHDATA_UNSUPPORTED_COMPRESSION"
  | .parse _ _ _ => "BENCHDATA_PARSE"
  | .snapshot _ _ => "BENCHDATA_SNAPSHOT"
  | .externalCommand _ _ => "BENCHDATA_EXTERNAL_COMMAND"
  | .shapeMismatch _ _ => "BENCHDATA_SHAPE_MISMATCH"
  | .invalidParameter _ _ => "BENCHDATA_INVALID_PARAMETER"
  | .split _ _ => "BENCHDATA_SPLIT"

def category : Fault → Category
  | .unknownDataset _ | .unknownFormat _ => .lookup
  | .insufficientRows _ _ _ | .insufficientFeatures _ _ _ => .capacity
  | .unsupportedInput _ _ => .type
  | .io _ _ | .download _ _ | .decompress _ _ | .unsupportedCompression _
  | .parse _ _ _ | .snapshot _ _ | .externalCommand _ _ => .io
  | .shapeMismatch _ _ | .invalidParameter _ _ | .split _ _ => .validation

/-- One line of text that names the cause and shows its values. -/
def message : Fault → String
  | .unknownDataset name => s!"unknown dataset `{name}`"
  | .unknownFormat name => s!"unknown dataset format `{name}`"
  | .insufficientRows dataset available requested =>
      s!"{dataset} dataset has only {available} rows, cannot support {requested}"
  | .insufficientFeatures dataset available requested =>
      s!"{dataset} dataset has only {available} features, cannot support {requested}"
  | .unsupportedInput format kind =>
      s!"format `{format}` does not support input of type {kind}"
  | .io path source => s!"I/O failure at `{path}`: {source}"
  | .download url message => s!"download failed for `{url}`: {message}"
  | .decompress path message => s!"failed to decompress `{path}`: {message}"
  | .unsupportedCompression path => s!"no decoder for compressed file `{path}`"
  | .parse path line message => s!"failed to parse `{path}` at line {line}: {message}"
  | .snapshot path message => s!"snapshot `{path}` is unusable: {message}"
  | .externalCommand command message =>
      s!"external command `{command}` failed: {message}"
  | .shapeMismatch expected actual =>
      s!"shape mismatch: expected {expected} elements, got {actual}"
  | .invalidParameter parameter message =>
      s!"invalid parameter `{parameter}`: {message}"
  | .split trainSize available =>
      s!"train size {trainSize} exceeds the {available} generated rows"

end Fault

end DatasetDepot
