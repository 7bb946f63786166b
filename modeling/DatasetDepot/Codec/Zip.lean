import DatasetDepot.Codec.Deflate

/-!
The first entry of a zip archive.

Only the local header in front of the entry is read.  A stored entry is cut to the
size its header declares, a deflated one ends by itself; in either case what
follows does not matter.
-/

namespace DatasetDepot.Zip

/-- What a local header says about its entry. -/
structure Header where
  sizeAfterData : Bool
  method : Nat
  compressedSize : Nat
  nameLength : Nat
  extraLength : Nat
  deriving DecidableEq, Repr

def headerSize : Nat := 30

/-- A number stored at a place of a header. -/
def field (bytes : Bytes) (place width : Nat) : Nat :=
  ((Bytes.readNumber? width (bytes.drop place)).map Prod.fst).getD 0

/-- The local header at the front, and the bytes after it. -/
def readHeader (bytes : Bytes) : Except Damage (Header × Bytes) :=
  if bytes.length < headerSize then .error (.truncatedEntryHeader "failed to fill whole buffer")
  else if bytes.take 4 ≠ [0x50, 0x4B, 0x03, 0x04] then .error .missingEntryHeader
  else
    .ok
      ({ sizeAfterData := (field bytes 6 2).testBit 3
         method := field bytes 8 2
         compressedSize := field bytes 18 4
         nameLength := field bytes 26 2
         extraLength := field bytes 28 2 },
       bytes.drop headerSize)

/-- The data of the first entry.  A stored entry that the archive cuts short is taken
as far as it goes. -/
def decode (bytes : Bytes) : Except Damage Bytes := do
  let (header, rest) ← readHeader bytes
  let body := rest.drop (header.nameLength + header.extraLength)
  if header.method = 8 then
    let (output, _) ← Deflate.inflate body
    return output.toList
  else if header.method = 0 then
    if header.sizeAfterData then throw .sizeAfterData
    else return body.take header.compressedSize
  else throw (.unsupportedMethod header.method)

end DatasetDepot.Zip
