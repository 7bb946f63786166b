import DatasetDepot.Codec.Checksum
import DatasetDepot.Codec.Deflate

/-!
The gzip format: members, one after the other, each a header, a deflate stream and
the checksum and size of its data.
-/

namespace DatasetDepot.Gzip

/-- Which optional fields a header has. -/
structure Flags where
  checksum : Bool
  extra : Bool
  name : Bool
  comment : Bool
  deriving DecidableEq, Repr

/-- The flags of a byte; its three highest bits are reserved. -/
def Flags.ofByte? (byte : UInt8) : Option Flags :=
  if byte.toNat < 32 then
    some
      { checksum := byte.toNat.testBit 1
        extra := byte.toNat.testBit 2
        name := byte.toNat.testBit 3
        comment := byte.toNat.testBit 4 }
  else none

/-- The longest text a header may hold. -/
def maxText : Nat := 65535

/-- Passes over a field that starts with its length. -/
def skipExtra (bytes : Bytes) : Except Damage Bytes :=
  match Bytes.readNumber? 2 bytes with
  | none => .error .truncated
  | some (length, rest) =>
      if length ≤ rest.length then .ok (rest.drop length) else .error .truncated

/-- Passes over a text that a zero byte ends. -/
def skipText (bytes : Bytes) : Except Damage Bytes :=
  let text := bytes.takeWhile (· ≠ 0)
  if maxText < text.length then .error .invalidHeader
  else
    match bytes.drop text.length with
    | [] => .error .truncated
    | _ :: rest => .ok rest

/-- Passes over the header of a member. -/
def skipHeader (bytes : Bytes) : Except Damage Bytes := do
  let fixed := bytes.take 10
  if fixed.length < 10 then throw .truncated
  if fixed.take 3 ≠ [0x1F, 0x8B, 8] then throw .invalidHeader
  let some flags := (fixed[3]?).bind Flags.ofByte? | throw .invalidHeader
  let rest := bytes.drop 10
  let rest ← if flags.extra then skipExtra rest else pure rest
  let rest ← if flags.name then skipText rest else pure rest
  let rest ← if flags.comment then skipText rest else pure rest
  if flags.checksum then
    match Bytes.readNumber? 2 rest with
    | none => throw .truncated
    | some (stored, left) =>
        let header := bytes.take (bytes.length - rest.length)
        if (Checksum.reflected header.toArray).toNat % 65536 = stored then return left
        else throw .wrongChecksum
  else return rest

/-- The data of one member and the bytes after it. -/
def readMember (bytes : Bytes) : Except Damage (Array UInt8 × Bytes) := do
  let body ← skipHeader bytes
  let (output, rest) ← Deflate.inflate body
  let some (checksum, rest) := Bytes.readNumber? 4 rest | throw .truncated
  let some (size, rest) := Bytes.readNumber? 4 rest | throw .truncated
  if (Checksum.reflected output).toNat = checksum ∧ output.size % Nat.pow 2 32 = size then
    return (output, rest)
  else throw .wrongChecksum

/-- Members up to the end of the bytes; every member takes bytes. -/
def readMembers : (fuel : Nat) → Bytes → Array UInt8 → Except Damage (Array UInt8)
  | 0, _, _ => .error .truncated
  | fuel + 1, bytes, output => do
      let (data, rest) ← readMember bytes
      let output := output ++ data
      if rest.isEmpty then return output else readMembers fuel rest output

/-- The data of all members.  There has to be at least one. -/
def decode (bytes : Bytes) : Except Damage Bytes := do
  let output ← readMembers (bytes.length + 1) bytes #[]
  return output.toList

end DatasetDepot.Gzip
