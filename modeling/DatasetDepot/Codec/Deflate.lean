import DatasetDepot.Codec.CanonicalCode
import DatasetDepot.Codec.Damage

/-!
The deflate format: blocks of stored bytes, or of literal bytes and references to
what was decoded before.

`Deflate.inflate` decodes a stream and leaves the bytes after it.  A reference may
reach back before the start; zeros are what it finds there.
-/

namespace DatasetDepot.Deflate

/-- The longest word of a code. -/
def longestWord : Nat := 15

/-- Base and further bits of the lengths that the symbols from 257 on stand for. -/
def lengthTable : List (Nat × Nat) :=
  [(3, 0), (4, 0), (5, 0), (6, 0), (7, 0), (8, 0), (9, 0), (10, 0), (11, 1), (13, 1), (15, 1),
    (17, 1), (19, 2), (23, 2), (27, 2), (31, 2), (35, 3), (43, 3), (51, 3), (59, 3), (67, 4),
    (83, 4), (99, 4), (115, 4), (131, 5), (163, 5), (195, 5), (227, 5), (258, 0)]

/-- Base and further bits of the distances that symbols stand for. -/
def distanceTable : List (Nat × Nat) :=
  [(1, 0), (2, 0), (3, 0), (4, 0), (5, 1), (7, 1), (9, 2), (13, 2), (17, 3), (25, 3), (33, 4),
    (49, 4), (65, 5), (97, 5), (129, 6), (193, 6), (257, 7), (385, 7), (513, 8), (769, 8),
    (1025, 9), (1537, 9), (2049, 10), (3073, 10), (4097, 11), (6145, 11), (8193, 12),
    (12289, 12), (16385, 13), (24577, 13)]

/-- The order in which the lengths of the code for lengths are stored. -/
def lengthOrder : List Nat :=
  [16, 17, 18, 0, 8, 7, 9, 6, 10, 5, 11, 4, 12, 3, 13, 2, 14, 1, 15]

/-- The two codes of a block. -/
structure Codes where
  literals : CanonicalCode
  distances : CanonicalCode

/-- The codes of a block that brings none of its own. -/
def Codes.fixed : Codes where
  literals := CanonicalCode.ofLengths longestWord
    (List.replicate 144 8 ++ List.replicate 112 9 ++ List.replicate 24 7 ++ List.replicate 8 8)
  distances := CanonicalCode.ofLengths longestWord (List.replicate 30 5)

/-- A value from a table: its base plus further bits. -/
def readTable? (table : List (Nat × Nat)) (place : Nat) (bits : Bits) : Option (Nat × Bits) := do
  let (base, width) ← table[place]?
  let (more, rest) ← bits.readLeastFirst? width
  return (base + more, rest)

/-- Repeats what was decoded `distance` bytes ago. -/
def copy (distance : Nat) : (length : Nat) → Array UInt8 → Array UInt8
  | 0, output => output
  | length + 1, output =>
      copy distance length
        (output.push (if distance ≤ output.size then output.getD (output.size - distance) 0 else 0))

/-- Literals and references up to the end of a block. -/
def readSymbols (codes : Codes) :
    (fuel : Nat) → Bits → Array UInt8 → Except Damage (Array UInt8 × Bits)
  | 0, _, _ => .error .truncated
  | fuel + 1, bits, output =>
      match codes.literals.read? bits with
      | none => .error .invalidData
      | some (symbol, bits) =>
          if symbol < 256 then readSymbols codes fuel bits (output.push symbol.toUInt8)
          else if symbol = 256 then .ok (output, bits)
          else
            match readTable? lengthTable (symbol - 257) bits with
            | none => .error .invalidData
            | some (length, bits) =>
                match codes.distances.read? bits with
                | none => .error .invalidData
                | some (place, bits) =>
                    match readTable? distanceTable place bits with
                    | none => .error .invalidData
                    | some (distance, bits) =>
                        readSymbols codes fuel bits (copy distance length output)

/-- Reads the lengths of so many words; runs of equal lengths are abbreviated. -/
def readLengths (code : CanonicalCode) (count : Nat) :
    (fuel : Nat) → Bits → Array Nat → Except Damage (Array Nat × Bits)
  | 0, _, _ => .error .truncated
  | fuel + 1, bits, lengths =>
      if lengths.size = count then .ok (lengths, bits)
      else if count < lengths.size then .error .invalidData
      else
        match code.read? bits with
        | none => .error .invalidData
        | some (symbol, bits) =>
            if symbol < 16 then readLengths code count fuel bits (lengths.push symbol)
            else
              let run : Option (Nat × Nat × Nat) :=
                if symbol = 16 then lengths.back?.map fun last => (last, 3, 2)
                else if symbol = 17 then some (0, 3, 3)
                else some (0, 11, 7)
              match run with
              | none => .error .invalidData
              | some (length, base, width) =>
                  match bits.readLeastFirst? width with
                  | none => .error .truncated
                  | some (more, bits) =>
                      readLengths code count fuel bits
                        (lengths ++ Array.replicate (base + more) length)

/-- The lengths of the code for lengths, put back into order. -/
def readLengthCode (count : Nat) (bits : Bits) : Option (List Nat × Bits) := do
  let (stored, rest) ← (List.range count).foldlM
    (fun (state : List Nat × Bits) _ => do
      let (length, rest) ← state.2.readLeastFirst? 3
      return (state.1 ++ [length], rest))
    ([], bits)
  let lengths := (List.range 19).map fun symbol =>
    ((lengthOrder.zip stored).lookup symbol).getD 0
  return (lengths, rest)

/-- A code of literals or distances may have a single word or none; any other has to
be complete. -/
def isUsable (code : CanonicalCode) : Bool :=
  code.isComplete || code.size ≤ 1

/-- The codes a block brings. -/
def readCodes (bits : Bits) : Except Damage (Codes × Bits) := do
  let some (literals, bits) := bits.readLeastFirst? 5 | throw .truncated
  let some (distances, bits) := bits.readLeastFirst? 5 | throw .truncated
  let some (stored, bits) := bits.readLeastFirst? 4 | throw .truncated
  let literals := literals + 257
  let distances := distances + 1
  if 286 < literals ∨ 30 < distances then throw .invalidData
  let some (lengths, bits) := readLengthCode (stored + 4) bits | throw .truncated
  let code := CanonicalCode.ofLengths longestWord lengths
  if !code.isComplete then throw .invalidData
  let count := literals + distances
  let (lengths, bits) ← readLengths code count (count + 1) bits #[]
  let literalCode := CanonicalCode.ofLengths longestWord (lengths.toList.take literals)
  let distanceCode := CanonicalCode.ofLengths longestWord (lengths.toList.drop literals)
  if isUsable literalCode && isUsable distanceCode then
    return (⟨literalCode, distanceCode⟩, bits)
  else throw .invalidData

/-- The bytes of a block that is stored as it is, after its length and the
complement of its length. -/
def readStored (bits : Bits) (output : Array UInt8) : Except Damage (Array UInt8 × Bits) := do
  let some (length, bits) := bits.toByteBoundary.readLeastFirst? 16 | throw .truncated
  let some (complement, bits) := bits.readLeastFirst? 16 | throw .truncated
  if length + complement ≠ 65535 then throw .invalidData
  go length bits output
where
  go : Nat → Bits → Array UInt8 → Except Damage (Array UInt8 × Bits)
    | 0, bits, output => .ok (output, bits)
    | length + 1, bits, output =>
        match bits.readLeastFirst? 8 with
        | none => .error .truncated
        | some (byte, bits) => go length bits (output.push byte.toUInt8)

/-- Blocks up to the one that is marked as the last.  Every block takes bits, so there
are no more blocks than bits. -/
def readBlocks : (fuel : Nat) → Bits → Array UInt8 → Except Damage (Array UInt8 × Bits)
  | 0, _, _ => .error .truncated
  | fuel + 1, bits, output => do
      let some (last, bits) := bits.readLeastFirst? 1 | throw .truncated
      let some (kind, bits) := bits.readLeastFirst? 2 | throw .truncated
      let (output, bits) ←
        match kind with
        | 0 => readStored bits output
        | 1 => readSymbols Codes.fixed (bits.length + 1) bits output
        | 2 => do
            let (codes, bits) ← readCodes bits
            readSymbols codes (bits.length + 1) bits output
        | _ => throw .invalidData
      if last = 1 then return (output, bits) else readBlocks fuel bits output

/-- The data of a stream and the bytes after the stream. -/
def inflate (bytes : Bytes) : Except Damage (Array UInt8 × Bytes) := do
  let bits := Bits.leastFirst bytes
  let (output, rest) ← readBlocks (bits.length + 1) bits #[]
  return (output, bytes.drop (bytes.length - rest.length / 8))

end DatasetDepot.Deflate
