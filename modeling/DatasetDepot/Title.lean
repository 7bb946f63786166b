import DatasetDepot.Fault

/-!
The titles a depot carries: datasets that are drawn from a seed, and datasets that
others have published.
-/

namespace DatasetDepot

inductive Title where
  /-- Round clusters of points. -/
  | blobs
  /-- Nothing but zeros. -/
  | zeros
  /-- Classes at the corners of a cube. -/
  | classification
  /-- Targets that are linear in the features. -/
  | regression
  /-- Measurements of a production line. -/
  | bosch
  /-- Types of forest cover. -/
  | covtype
  /-- Two classes in many normalised features. -/
  | epsilon
  /-- Traces of a boson among background events. -/
  | higgs
  /-- The years songs were released in. -/
  | year
  deriving DecidableEq, Repr

namespace Title

/-- Every title, in the order they are listed. -/
def all : List Title :=
  [.blobs, .zeros, .classification, .regression, .bosch, .covtype, .epsilon, .higgs, .year]

theorem mem_all (title : Title) : title ∈ all := by
  cases title <;> decide

/-- The name a title is asked for by. -/
def name : Title → String
  | .blobs => "blobs"
  | .zeros => "zeros"
  | .classification => "classification"
  | .regression => "regression"
  | .bosch => "bosch"
  | .covtype => "covtype"
  | .epsilon => "epsilon"
  | .higgs => "higgs"
  | .year => "year"

/-- Whether the dataset has to be downloaded. -/
def isPublished : Title → Bool
  | .bosch | .covtype | .epsilon | .higgs | .year => true
  | .blobs | .zeros | .classification | .regression => false

/-- The title with this name. -/
def ofName (name : String) : Except Fault Title :=
  match all.find? fun title => title.name = name with
  | some title => .ok title
  | none => .error (.unknownDataset name)

end Title

end DatasetDepot
