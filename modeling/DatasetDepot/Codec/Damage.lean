import DatasetDepot.Text.Utf8

/-!
What can be wrong with a compressed file.
-/

namespace DatasetDepot

inductive Damage where
  /-- The bytes end too early. -/
  | truncated
  /-- A header is not the one its format starts with. -/
  | invalidHeader
  /-- The data of a block cannot be decoded. -/
  | invalidData
  /-- The decoded data does not have the checksum that was stored. -/
  | wrongChecksum
  /-- There is no file to read from. -/
  | unreadable (reason : String)
  /-- An archive is shorter than the header of its first entry. -/
  | truncatedEntryHeader (reason : String)
  | missingEntryHeader
  /-- The size of a stored entry comes only after its data. -/
  | sizeAfterData
  | unsupportedMethod (method : Nat)
  deriving DecidableEq, Repr

def Damage.text : Damage → String
  | .truncated => "unexpected end of file"
  | .invalidHeader => "invalid header"
  | .invalidData => "corrupt data"
  | .wrongChecksum => "checksum mismatch"
  | .unreadable reason => reason
  | .truncatedEntryHeader reason => s!"truncated zip header: {reason}"
  | .missingEntryHeader => "missing zip local file header"
  | .sizeAfterData => "stored zip entry without a size in its local header"
  | .unsupportedMethod method => s!"unsupported zip compression method {method}"

end DatasetDepot
