import DatasetDepot.Codec.Bzip2.Scatter
import DatasetDepot.Codec.CanonicalCode
import DatasetDepot.Codec.Checksum
import DatasetDepot.Codec.Damage

/-!
The bzip2 format: blocks whose bytes were sorted by what follows them.

A block is undone from the outside in: canonical codes that take turns, runs and
places in a list that moves what is used to its front, the sorting, and at last
runs of equal bytes.
-/

namespace DatasetDepot.Bzip2

/-- The longest word of a code. -/
def longestWord : Nat := 20

/-- How many symbols are read before the next code takes its turn. -/
def turnLength : Nat := 50

/-- More turns than any block can use. -/
def maxTurns : Nat := 18002

/-- The most bytes a block may have, by the level of its stream. -/
def blockCapacity (level : Nat) : Nat := 100000 * level

/-- Reads a number whose greatest digit comes first. -/
def number (bits : Bits) (width : Nat) : Except Damage (Nat × Bits) :=
  match bits.readMostFirst? width with
  | some read => .ok read
  | none => .error .truncated

/-- The bytes a block uses, in order: a bit for each sixteenth of them, and for those
in use a bit for each byte. -/
def readAlphabet (bits : Bits) : Except Damage (List UInt8 × Bits) := do
  let some (ranges, bits) := bits.split? 16 | throw .truncated
  (ranges.zipIdx.filter Prod.fst).foldlM
    (fun (state : List UInt8 × Bits) range => do
      let some (present, bits) := state.2.split? 16 | throw .truncated
      let bytes := (present.zipIdx.filter Prod.fst).map fun entry =>
        (16 * range.2 + entry.2).toUInt8
      return (state.1 ++ bytes, bits))
    ([], bits)

/-- How many set bits come before one that is not set; less than `limit`. -/
def readUnary (limit : Nat) : (soFar : Nat) → Bits → Except Damage (Nat × Bits)
  | _, [] => .error .truncated
  | soFar, false :: rest => .ok (soFar, rest)
  | soFar, true :: rest =>
      if soFar + 1 < limit then readUnary limit (soFar + 1) rest else .error .invalidData

/-- Takes an item to the front of a list. -/
def moveToFront {Item : Type} (items : List Item) (place : Nat) : Option (Item × List Item) :=
  (items[place]?).map fun item => (item, item :: items.eraseIdx place)

/-- Which code takes each turn. -/
def readTurns (codes : Nat) :
    (count : Nat) → Bits → List Nat → Array Nat → Except Damage (Array Nat × Bits)
  | 0, bits, _, turns => .ok (turns, bits)
  | count + 1, bits, order, turns => do
      let (place, bits) ← readUnary codes 0 bits
      match moveToFront order place with
      | none => throw .invalidData
      | some (code, order) => readTurns codes count bits order (turns.push code)

/-- The length of the next word: the last length, stepped up or down until a bit says
stop. -/
def readLength : (length : Nat) → Bits → Except Damage (Nat × Bits)
  | _, [] => .error .truncated
  | length, false :: rest =>
      if 1 ≤ length ∧ length ≤ longestWord then .ok (length, rest) else .error .invalidData
  | _, [true] => .error .truncated
  | length, true :: down :: rest =>
      if 1 ≤ length ∧ length ≤ longestWord then
        readLength (if down then length - 1 else length + 1) rest
      else .error .invalidData

def readLengths :
    (count : Nat) → (last : Nat) → Bits → List Nat → Except Damage (List Nat × Bits)
  | 0, _, bits, lengths => .ok (lengths.reverse, bits)
  | count + 1, last, bits, lengths => do
      let (length, bits) ← readLength last bits
      readLengths count length bits (length :: lengths)

def readCodes (symbols : Nat) :
    (count : Nat) → Bits → Array CanonicalCode → Except Damage (Array CanonicalCode × Bits)
  | 0, bits, codes => .ok (codes, bits)
  | count + 1, bits, codes => do
      let (first, bits) ← number bits 5
      let (lengths, bits) ← readLengths symbols first bits []
      readCodes symbols count bits (codes.push (CanonicalCode.ofLengths longestWord lengths))

/-- What symbols are read with. -/
structure Codebook where
  codes : Array CanonicalCode
  turns : Array Nat

/-- The code for the symbol at a place. -/
def Codebook.code? (book : Codebook) (place : Nat) : Option CanonicalCode :=
  (book.turns[place / turnLength]?).bind fun turn => book.codes[turn]?

/-- A run whose length is spelled in digits one and two, the least first. -/
structure Run where
  length : Nat
  weight : Nat

def Run.none : Run := ⟨0, 1⟩

/-- The weight above which a run is refused. -/
def maxWeight : Nat := Nat.pow 2 21

/-- Writes a run of the byte at the front. -/
def flush (capacity : Nat) (front : List UInt8) (run : Run) (column : Array UInt8) :
    Except Damage (Array UInt8) :=
  if run.length = 0 then .ok column
  else if capacity < column.size + run.length then .error .invalidData
  else
    match front with
    | [] => .error .invalidData
    | byte :: _ => .ok (column ++ Array.replicate run.length byte)

/-- Reads the last column of the sorted block: `front` lists the bytes with the most
recent one first, and `run` is the run that has not been written yet. -/
def readColumn (book : Codebook) (last capacity : Nat) :
    (fuel place : Nat) → Bits → (front : List UInt8) → Run → Array UInt8 →
      Except Damage (Array UInt8 × Bits)
  | 0, _, _, _, _, _ => .error .truncated
  | fuel + 1, place, bits, front, run, column =>
      match book.code? place with
      | none => .error .invalidData
      | some code =>
          match code.read? bits with
          | none => .error .invalidData
          | some (symbol, bits) =>
              if symbol < 2 then
                if maxWeight ≤ run.weight then .error .invalidData
                else
                  readColumn book last capacity fuel (place + 1) bits front
                    ⟨run.length + (symbol + 1) * run.weight, 2 * run.weight⟩ column
              else
                match flush capacity front run column with
                | .error damage => .error damage
                | .ok column =>
                    if symbol = last then .ok (column, bits)
                    else if capacity ≤ column.size then .error .invalidData
                    else
                      match moveToFront front (symbol - 1) with
                      | none => .error .invalidData
                      | some (byte, front) =>
                          readColumn book last capacity fuel (place + 1) bits front Run.none
                            (column.push byte)

/-- For each place of the sorted first column, where its byte is in the last
column. -/
def successors (column : Array UInt8) : Array Nat :=
  let counts := column.foldl
    (fun (counts : Array Nat) byte => counts.modify byte.toNat (· + 1))
    (Array.replicate 256 0)
  let starts := (counts.foldl
    (fun (state : Array Nat × Nat) count => (state.1.push state.2, state.2 + count)) (#[], 0)).1
  (column.foldl
    (fun (state : Array Nat × Array Nat × Nat) byte =>
      let (places, next, index) := state
      (places.modify byte.toNat (· + 1),
        next.setIfInBounds (places.getD byte.toNat 0) index, index + 1))
    (starts, Array.replicate column.size 0, 0)).2.1

/-- Follows the successors from a place. -/
def follow (column : Array UInt8) (next : Array Nat) : (count place : Nat) → Bytes → Bytes
  | 0, _, followed => followed.reverse
  | count + 1, place, followed =>
      follow column next count (next.getD place 0) (column.getD place 0 :: followed)

/-- Undoes the sorting, given the place of the unsorted block among its rotations. -/
def unsort (column : Array UInt8) (origin : Nat) : Bytes :=
  let next := successors column
  follow column next column.size (next.getD origin 0) []

/-- Undoes the runs of equal bytes: after four of them in a row comes a byte that says
how many more there are. -/
def expand : Bytes → (last : Option UInt8) → (run : Nat) → Array UInt8 → Array UInt8
  | [], _, _, output => output
  | byte :: rest, last, run, output =>
      match last with
      | none => expand rest (some byte) 1 (output.push byte)
      | some equal =>
          if run = 4 then expand rest none 0 (output ++ Array.replicate byte.toNat equal)
          else if byte = equal then expand rest last (run + 1) (output.push byte)
          else expand rest (some byte) 1 (output.push byte)

/-- The data and the checksum of a block, after its mark. -/
def readBlock (level : Nat) (bits : Bits) : Except Damage (Array UInt8 × UInt32 × Bits) := do
  let (checksum, bits) ← number bits 32
  let (scattered, bits) ← number bits 1
  let (origin, bits) ← number bits 24
  if 10 + blockCapacity level < origin then throw .invalidData
  let (alphabet, bits) ← readAlphabet bits
  if alphabet.isEmpty then throw .invalidData
  let symbols := alphabet.length + 2
  let (codes, bits) ← number bits 3
  if codes < 2 ∨ 6 < codes then throw .invalidData
  let (turns, bits) ← number bits 15
  if turns < 1 then throw .invalidData
  let (turns, bits) ← readTurns codes turns bits (List.range codes) #[]
  let (codes, bits) ← readCodes symbols codes bits #[]
  let book : Codebook := ⟨codes, turns.extract 0 maxTurns⟩
  let (column, bits) ← readColumn book (symbols - 1) (blockCapacity level) (bits.length + 1) 0 bits
    alphabet Run.none #[]
  if column.size ≤ origin then throw .invalidData
  let block := unsort column origin
  let block := if scattered = 1 then unscatter 0 scatterDistances block else block
  let output := expand block none 0 #[]
  if (Checksum.forward output).toNat = checksum then
    return (output, checksum.toUInt32, bits)
  else throw .wrongChecksum

def blockMark : Nat := 0x314159265359

def endMark : Nat := 0x177245385090

/-- The checksum of a stream, after one more block. -/
def combine (whole block : UInt32) : UInt32 :=
  ((whole <<< 1) ||| (whole >>> 31)) ^^^ block

/-- Blocks up to the end of a stream. -/
def readBlocks (level : Nat) :
    (fuel : Nat) → Bits → UInt32 → Array UInt8 → Except Damage (Array UInt8 × Bits)
  | 0, _, _, _ => .error .truncated
  | fuel + 1, bits, whole, output => do
      let (mark, bits) ← number bits 48
      if mark = blockMark then
        let (data, checksum, bits) ← readBlock level bits
        readBlocks level fuel bits (combine whole checksum) (output ++ data)
      else if mark = endMark then
        let (checksum, bits) ← number bits 32
        if whole.toNat = checksum then return (output, bits) else throw .wrongChecksum
      else throw .invalidData

/-- The data of one stream and the bytes after it. -/
def readStream (bytes : Bytes) : Except Damage (Array UInt8 × Bytes) :=
  match bytes with
  | 0x42 :: 0x5A :: 0x68 :: digit :: body =>
      if 0x31 ≤ digit ∧ digit ≤ 0x39 then do
        let bits := Bits.mostFirst body
        let (output, rest) ← readBlocks (digit.toNat - 0x30) (bits.length + 1) bits 0 #[]
        return (output, body.drop (body.length - rest.length / 8))
      else .error .invalidHeader
  | _ => .error .invalidHeader

/-- Streams up to the end of the bytes; every stream takes bytes. -/
def readStreams : (fuel : Nat) → Bytes → Array UInt8 → Except Damage (Array UInt8)
  | 0, _, _ => .error .truncated
  | fuel + 1, bytes, output => do
      let (data, rest) ← readStream bytes
      let output := output ++ data
      if rest.isEmpty then return output else readStreams fuel rest output

/-- The data of all streams.  There has to be at least one. -/
def decode (bytes : Bytes) : Except Damage Bytes := do
  let output ← readStreams (bytes.length + 1) bytes #[]
  return output.toList

end DatasetDepot.Bzip2
