import DatasetDepot.Format
import DatasetDepot.Numeric.Double
import DatasetDepot.Title

/-!
Requests: which dataset in which format, how much of it, and how it is split.

Two requests have one result when they agree in every field, the tested share bit
for bit; `Request.sameValue` compares that share as a number instead.
-/

namespace DatasetDepot

/-- A parameter that only some datasets take. -/
inductive Parameter where
  | centers
  | classes
  deriving DecidableEq, Repr

def Parameter.name : Parameter → String
  | .centers => "centers"
  | .classes => "n_classes"

/-- The parameters a dataset takes. -/
def Title.takes : Title → Parameter → Bool
  | .blobs, .centers => true
  | .classification, .classes => true
  | _, _ => false

structure Parameters where
  centers? : Option Nat := none
  classes? : Option Nat := none
  deriving DecidableEq, Repr

namespace Parameters

/-- The parameters that have a value. -/
def given (parameters : Parameters) : List Parameter :=
  (if parameters.centers?.isSome then [.centers] else []) ++
    (if parameters.classes?.isSome then [.classes] else [])

/-- Accepts parameters for a dataset that takes them all. -/
def check (parameters : Parameters) (title : Title) : Except Fault Unit :=
  match parameters.given.find? fun parameter => !title.takes parameter with
  | none => .ok ()
  | some parameter =>
      .error (.invalidParameter parameter.name s!"not accepted by the `{title.name}` generator")

end Parameters

structure Request where
  title : Title
  format : Format
  /-- Rows to train on; zero leaves it to the dataset. -/
  samples : Nat := 0
  /-- Feature columns; zero leaves it to the dataset. -/
  features : Nat := 0
  seed : UInt64 := 42
  /-- The share of rows that is set aside for testing. -/
  tested : Double := ⟨0⟩
  parameters : Parameters := {}
  deriving DecidableEq, Repr

namespace Request

/-- A request for a dataset and a format by name. -/
def ofNames (title format : String) : Except Fault Request := do
  return { title := ← Title.ofName title, format := ← Format.ofName format }

/-- Agreement of two requests that compares the tested shares as numbers. -/
def sameValue (left right : Request) : Bool :=
  left.tested.sameValue right.tested && { left with tested := right.tested } = right

end Request

end DatasetDepot
