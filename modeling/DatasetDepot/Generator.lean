import DatasetDepot.Dataset
import DatasetDepot.Request
import DatasetDepot.Settings
import DatasetDepot.World

/-!
Generators: the ways to make a dataset.
-/

namespace DatasetDepot

/-- What is asked of a generator.  A size of zero leaves it to the dataset. -/
structure Demand where
  rows : Nat
  columns : Nat
  seed : UInt64
  parameters : Parameters

/-- What a generator can call on. -/
structure Context where
  cache : Path
  sources : Sources
  services : Services

/-- A way to make a dataset. -/
abbrev Generator := Demand → Context → Action Dataset

end DatasetDepot
