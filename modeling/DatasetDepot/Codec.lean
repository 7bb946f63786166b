import DatasetDepot.Codec.Bzip2
import DatasetDepot.Codec.Gzip
import DatasetDepot.Codec.Zip
import DatasetDepot.Fault
import DatasetDepot.Path

/-!
Decoders by the suffix of a file.
-/

namespace DatasetDepot

inductive Codec where
  | gzip
  | bzip2
  | zip
  deriving DecidableEq, Repr

namespace Codec

/-- The decoder that goes with an extension, whatever the case of its letters. -/
def ofExtension? (ending : Name) : Option Codec :=
  let ending := String.ofList (ending.map Char.toLower)
  if ending = "gz" then some .gzip
  else if ending = "bz2" then some .bzip2
  else if ending = "zip" then some .zip
  else none

/-- The decoder that goes with a path. -/
def ofPath (path : Path) : Except Fault Codec :=
  match path.extension?.bind ofExtension? with
  | some codec => .ok codec
  | none => .error (.unsupportedCompression path.text)

/-- The decoded contents of a file. -/
def decode : Codec → Bytes → Except Damage Bytes
  | .gzip => Gzip.decode
  | .bzip2 => Bzip2.decode
  | .zip => Zip.decode

/-- What goes wrong when there is a file but its bytes cannot be read. -/
def unreadable (codec : Codec) (reason : String) : Damage :=
  match codec with
  | .zip => .truncatedEntryHeader reason
  | .gzip | .bzip2 => .unreadable reason

end Codec

end DatasetDepot
