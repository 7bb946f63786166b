import DatasetDepot.Text.Utf8

/-!
Cyclic checksums of 32 bits.

Both read a byte as a polynomial over two elements and keep the remainder by the
same divisor; they differ in which bit of a byte and of the remainder comes first.
-/

namespace DatasetDepot.Checksum

/-- One bit of division, the least significant bit first. -/
def stepReflected (remainder : UInt32) : UInt32 :=
  if remainder &&& 1 = 1 then (remainder >>> 1) ^^^ 0xEDB88320 else remainder >>> 1

/-- One bit of division, the most significant bit first. -/
def stepForward (remainder : UInt32) : UInt32 :=
  if remainder &&& 0x80000000 ≠ 0 then (remainder <<< 1) ^^^ 0x04C11DB7 else remainder <<< 1

def addReflected (remainder : UInt32) (byte : UInt8) : UInt32 :=
  (stepReflected ∘ stepReflected ∘ stepReflected ∘ stepReflected ∘
    stepReflected ∘ stepReflected ∘ stepReflected ∘ stepReflected)
    (remainder ^^^ byte.toUInt32)

def addForward (remainder : UInt32) (byte : UInt8) : UInt32 :=
  (stepForward ∘ stepForward ∘ stepForward ∘ stepForward ∘
    stepForward ∘ stepForward ∘ stepForward ∘ stepForward)
    (remainder ^^^ (byte.toUInt32 <<< 24))

/-- The checksum that reads the least significant bit first. -/
def reflected (bytes : Array UInt8) : UInt32 :=
  bytes.foldl addReflected 0xFFFFFFFF ^^^ 0xFFFFFFFF

/-- The checksum that reads the most significant bit first. -/
def forward (bytes : Array UInt8) : UInt32 :=
  bytes.foldl addForward 0xFFFFFFFF ^^^ 0xFFFFFFFF

end DatasetDepot.Checksum
