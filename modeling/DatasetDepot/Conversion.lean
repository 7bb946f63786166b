import DatasetDepot.Bundle
import DatasetDepot.Conversion.Sparsify
import DatasetDepot.Format

/-!
Conversions of values into a format.

Every format says what becomes of each kind of value; a converter extends this to
bundles.  Only the sparse formats draw from the stream.  A `ConverterSet` holds one
converter per format, each of which can be replaced.
-/

namespace DatasetDepot

/-- A computation that draws and that may fail; what was drawn before a failure stays
drawn. -/
abbrev Conversion := ExceptT Fault Drawing

/-- A way to bring bundles into a format. -/
structure Converter where
  format : Format
  convert : Bundle → Conversion Bundle

namespace Conversion

/-- The format has no representation for the value. -/
def refuse {Result : Type} (format : Format) (value : Value) : Conversion Result :=
  throw (.unsupportedInput format.name value.kind)

/-- The matrix a frame reads as. -/
def matrixOf (format : Format) (frame : Frame) : Conversion Matrix :=
  match frame.toMatrix? with
  | some matrix => pure matrix
  | none => throw (.unsupportedInput format.name "frame with non-Float32 columns")

/-- Plain matrices and vectors. -/
def toDense : Value → Conversion Value
  | .matrix matrix => pure (.matrix (matrix.reorder .rowMajor))
  | .vector values => pure (.vector values)
  | .frame frame => do return .matrix (← matrixOf .numpy frame)
  | .series series => pure (.vector series.toValues)
  | .device device => refuse .numpy (.device device)
  | .sparse compressed => refuse .numpy (.sparse compressed)

/-- Frames whose columns are numbered, and series. -/
def toFrame (format : Format) : Value → Conversion Value
  | .matrix matrix => pure (.frame (Frame.ofMatrix matrix toString))
  | .vector values => pure (.series (Series.ofValues values))
  | .frame frame => pure (.frame frame)
  | .series series => pure (.series series)
  | .device device => refuse format (.device device)
  | .sparse compressed => refuse format (.sparse compressed)

/-- Arrays laid out for a device. -/
def toDevice (format : Format) (order : Order) : Value → Conversion Value
  | .matrix matrix => pure (.device (.matrix (matrix.reorder order)))
  | .vector values => pure (.device (.vector values))
  | .frame frame => do return .device (.matrix ((← matrixOf format frame).reorder order))
  | .series series => pure (.device (.vector series.toValues))
  | .device (.matrix matrix) => pure (.device (.matrix (matrix.reorder order)))
  | .device (.vector values) => pure (.device (.vector values))
  | .sparse compressed => refuse format (.sparse compressed)

/-- Compressed matrices; a vector is a matrix of one row. -/
def toSparse (format : Format) (layout : Layout) (ratio : Double) : Value → Conversion Value
  | .matrix matrix => Sparsify.compress layout ratio matrix
  | .vector values => Sparsify.compress layout ratio (Matrix.ofRow values)
  | .frame frame => do Sparsify.compress layout ratio (← matrixOf format frame)
  | .series series => Sparsify.compress layout ratio (Matrix.ofRow series.toValues)
  | .device device => refuse format (.device device)
  | .sparse compressed => refuse format (.sparse compressed)

/-- What becomes of a value in a format, when the sparse formats erase this share. -/
def ofValue (ratio : Double) : Format → Value → Conversion Value
  | .numpy => toDense
  | .cudf => toFrame .cudf
  | .pandas => toFrame .pandas
  | .gpuarray => toDevice .gpuarray .columnMajor
  | .gpuarrayC => toDevice .gpuarrayC .rowMajor
  | .sparseCsr => toSparse .sparseCsr .csr ratio
  | .sparseCsc => toSparse .sparseCsc .csc ratio

end Conversion

/-- The converter of a format. -/
def Converter.standard (ratio : Double) (format : Format) : Converter where
  format := format
  convert := Bundle.traverse (Conversion.ofValue ratio format)

/-- One converter per format. -/
structure ConverterSet where
  find : Format → Converter

namespace ConverterSet

/-- The share of entries the sparse formats erase unless told otherwise: 0.3. -/
def defaultRatio : Double := ⟨0x3FD3333333333333⟩

def standard (ratio : Double) : ConverterSet := ⟨Converter.standard ratio⟩

/-- The standard converters for a ratio that was not checked yet. -/
def ofRatio (ratio : Double) : Except Fault ConverterSet := do
  Share.checkSparsity ratio
  return standard ratio

/-- Puts a converter in the place of its format. -/
def replace (converters : ConverterSet) (converter : Converter) : ConverterSet where
  find format := if format = converter.format then converter else converters.find format

/-- Brings every part of a split into a format. -/
def convertSplit (converters : ConverterSet) (format : Format) (split : Split) :
    Conversion Split := do
  let converted ← (converters.find format).convert (Bundle.ofSplit split)
  liftM converted.toSplit

end ConverterSet

end DatasetDepot
