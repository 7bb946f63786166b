/-!
Single precision numbers.

A number is its bit pattern, so that what only moves numbers about keeps all of it, also where
several patterns stand for not-a-number.  Calculations are those of the format.
-/

namespace DatasetDepot

/-- A single precision number, by its bits. -/
structure Single where
  ofBits ::
  toBits : UInt32
  deriving DecidableEq, Repr

namespace Single

/-- What is calculated with. -/
def toFloat32 (number : Single) : Float32 := .ofBits number.toBits

/-- What comes of a calculation. -/
def ofFloat32 (number : Float32) : Single := ⟨number.toBits⟩

/-- A number can be given as what comes of a calculation. -/
instance : Coe Float32 Single := ⟨ofFloat32⟩

instance (digits : Nat) : OfNat Single digits := ⟨ofFloat32 (OfNat.ofNat digits)⟩

instance : OfScientific Single :=
  ⟨fun digits negative exponent => ofFloat32 (OfScientific.ofScientific digits negative exponent)⟩

instance : Inhabited Single := ⟨0⟩

instance : Add Single := ⟨fun left right => ofFloat32 (left.toFloat32 + right.toFloat32)⟩

instance : Sub Single := ⟨fun left right => ofFloat32 (left.toFloat32 - right.toFloat32)⟩

instance : Mul Single := ⟨fun left right => ofFloat32 (left.toFloat32 * right.toFloat32)⟩

instance : Div Single := ⟨fun left right => ofFloat32 (left.toFloat32 / right.toFloat32)⟩

/-- The same number with the other sign. -/
instance : Neg Single := ⟨fun number => ⟨number.toBits ^^^ 0x80000000⟩⟩

/-- The bits but that of the sign. -/
def magnitude (number : Single) : UInt32 := number.toBits &&& 0x7FFFFFFF

/-- Beyond infinity. -/
def isNaN (number : Single) : Bool := 0x7F800000 < number.magnitude

/-- Equality of values: the two zeros are equal, and not-a-number equals nothing. -/
instance : BEq Single where
  beq left right :=
    !left.isNaN && !right.isNaN &&
      (decide (left = right) || decide (left.magnitude = 0 ∧ right.magnitude = 0))

instance : LT Single := ⟨fun left right => left.toFloat32 < right.toFloat32⟩

instance : LE Single := ⟨fun left right => left.toFloat32 ≤ right.toFloat32⟩

instance (left right : Single) : Decidable (left < right) :=
  inferInstanceAs (Decidable (left.toFloat32 < right.toFloat32))

instance (left right : Single) : Decidable (left ≤ right) :=
  inferInstanceAs (Decidable (left.toFloat32 ≤ right.toFloat32))

def sqrt (number : Single) : Single := ofFloat32 number.toFloat32.sqrt

def log (number : Single) : Single := ofFloat32 number.toFloat32.log

def cos (number : Single) : Single := ofFloat32 number.toFloat32.cos

/-- The whole number below. -/
def toUInt64 (number : Single) : UInt64 := number.toFloat32.toUInt64

end Single

end DatasetDepot
