import DatasetDepot.Text.Utf8

/-!
Bits of bytes, in either order, and numbers read from them.
-/

namespace DatasetDepot

abbrev Bits := List Bool

namespace Bits

/-- The bits of bytes, the least significant of each first. -/
def leastFirst (bytes : Bytes) : Bits :=
  bytes.flatMap fun byte => (List.range 8).map fun place => byte.toNat.testBit place

/-- The bits of bytes, the most significant of each first. -/
def mostFirst (bytes : Bytes) : Bits :=
  bytes.flatMap fun byte => (List.range 8).map fun place => byte.toNat.testBit (7 - place)

/-- The number whose binary digits these are, the least first. -/
def numberLeastFirst : Bits → Nat
  | [] => 0
  | bit :: rest => (if bit then 1 else 0) + 2 * numberLeastFirst rest

/-- The number whose binary digits these are, the greatest first. -/
def numberMostFirst (bits : Bits) : Nat :=
  bits.foldl (fun number bit => 2 * number + if bit then 1 else 0) 0

/-- The first bits and the others, if there are enough. -/
def split? (bits : Bits) (width : Nat) : Option (Bits × Bits) :=
  let first := bits.take width
  if first.length = width then some (first, bits.drop width) else none

/-- Reads a number whose least digit comes first. -/
def readLeastFirst? (bits : Bits) (width : Nat) : Option (Nat × Bits) :=
  (bits.split? width).map fun (first, rest) => (numberLeastFirst first, rest)

/-- Reads a number whose greatest digit comes first. -/
def readMostFirst? (bits : Bits) (width : Nat) : Option (Nat × Bits) :=
  (bits.split? width).map fun (first, rest) => (numberMostFirst first, rest)

/-- What is left from the next whole byte on, given that the bits end with one. -/
def toByteBoundary (bits : Bits) : Bits :=
  bits.drop (bits.length % 8)

end Bits

namespace Bytes

/-- A number stored in so many bytes, the least significant first. -/
def readNumber? : (width : Nat) → Bytes → Option (Nat × Bytes)
  | 0, bytes => some (0, bytes)
  | _ + 1, [] => none
  | width + 1, byte :: rest =>
      (readNumber? width rest).map fun (higher, left) => (byte.toNat + 256 * higher, left)

end Bytes

end DatasetDepot
