import DatasetDepot.Codec.Bits

/-!
Canonical codes.

A code gives each of its symbols a word of bits; the lengths of the words alone
determine it, since words of one length follow one another in the order of their
symbols and longer words continue after the shorter ones.
-/

namespace DatasetDepot

/-- A canonical code: how many words there are of each length from one on, and the
symbols in the order of their words. -/
structure CanonicalCode where
  counts : List Nat
  symbols : Array Nat
  deriving DecidableEq, Repr

namespace CanonicalCode

/-- The code whose symbols have words of these lengths; length zero means that a
symbol has no word. -/
def ofLengths (longest : Nat) (lengths : List Nat) : CanonicalCode where
  counts := (List.range longest).map fun shorter => lengths.count (shorter + 1)
  symbols := ((List.range longest).flatMap fun shorter =>
    (lengths.zipIdx.filter fun entry => entry.1 = shorter + 1).map Prod.snd).toArray

/-- How many symbols have words. -/
def size (code : CanonicalCode) : Nat := code.symbols.size

/-- What the words take of the space of all words, times two to the longest length. -/
def weight (code : CanonicalCode) : Nat :=
  code.counts.foldl (fun total count => 2 * total + count) 0

/-- Whether every sequence of bits starts with exactly one word. -/
def isComplete (code : CanonicalCode) : Bool :=
  code.weight = Nat.pow 2 code.counts.length

/-- Reads one word: `first` is the first word of the length in turn, `index` the
place of its symbol, and `word` the bits read so far. -/
def readFrom (symbols : Array Nat) :
    (counts : List Nat) → (word first index : Nat) → Bits → Option (Nat × Bits)
  | [], _, _, _, _ => none
  | _ :: _, _, _, _, [] => none
  | count :: longer, word, first, index, bit :: rest =>
      let word := 2 * word + if bit then 1 else 0
      if word < first + count then
        (symbols[index + (word - first)]?).map fun symbol => (symbol, rest)
      else readFrom symbols longer word (2 * (first + count)) (index + count) rest

/-- The symbol whose word comes first, and the bits after it. -/
def read? (code : CanonicalCode) (bits : Bits) : Option (Nat × Bits) :=
  readFrom code.symbols code.counts 0 0 0 bits

end CanonicalCode

end DatasetDepot
