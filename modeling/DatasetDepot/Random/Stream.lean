/-!
A stream of random words.

The state is four words that are mixed by shifts, rotations and exclusive or; a
seed of one word is spread over the state by a linear congruence whose output is
permuted.  A `Drawing` is a computation that takes words from the stream.
-/

namespace DatasetDepot

/-- The state of a stream. -/
structure Stream where
  a : UInt64
  b : UInt64
  c : UInt64
  d : UInt64
  deriving DecidableEq, Repr, Inhabited

/-- A computation that draws from a stream. -/
abbrev Drawing := StateM Stream

namespace Stream

def rotateLeft (word : UInt64) (places : UInt64) : UInt64 :=
  (word <<< places) ||| (word >>> (64 - places))

/-- The output of the current state. -/
def output (stream : Stream) : UInt64 :=
  rotateLeft (stream.a + stream.d) 23 + stream.a

/-- The state after one word was taken. -/
def advance (stream : Stream) : Stream :=
  let c := stream.c ^^^ stream.a
  let d := stream.d ^^^ stream.b
  { a := stream.a ^^^ d
    b := stream.b ^^^ c
    c := c ^^^ (stream.b <<< 17)
    d := rotateLeft d 45 }

/-- One step of the congruence that spreads a seed. -/
def spread (seed : UInt64) : UInt64 :=
  seed * 6364136223846793005 + 11634580027462260723

/-- The permuted output of a spread seed: its middle bits, rotated by its top
bits. -/
def permuted (seed : UInt64) : UInt64 :=
  let middle := (((seed >>> 18) ^^^ seed) >>> 27).toUInt32
  let places := (seed >>> 59).toUInt32
  ((middle >>> places) ||| (middle <<< ((32 - places) % 32))).toUInt64

/-- The stream of a seed: eight permuted outputs fill the state, the lower half
of each word first. -/
def ofSeed (seed : UInt64) : Stream :=
  let s1 := spread seed
  let s2 := spread s1
  let s3 := spread s2
  let s4 := spread s3
  let s5 := spread s4
  let s6 := spread s5
  let s7 := spread s6
  let s8 := spread s7
  { a := permuted s1 ||| (permuted s2 <<< 32)
    b := permuted s3 ||| (permuted s4 <<< 32)
    c := permuted s5 ||| (permuted s6 <<< 32)
    d := permuted s7 ||| (permuted s8 <<< 32) }

end Stream

namespace Drawing

/-- Half a word: the upper half of the output. -/
def word : Drawing UInt32 := fun stream =>
  ((stream.output >>> 32).toUInt32, stream.advance)

/-- Draws an array entry by entry, from the front. -/
def array {Entry : Type} (entry : Drawing Entry) (size : Nat) : Drawing (Array Entry) :=
  go size #[]
where
  go : Nat → Array Entry → Drawing (Array Entry)
    | 0, drawn => pure drawn
    | more + 1, drawn => do
        let next ← entry
        go more (drawn.push next)

end Drawing

end DatasetDepot
