import DatasetDepot.Conversion
import DatasetDepot.Path

/-!
Settings of a depot: where it keeps files, how many results it remembers, how
sparse its sparse formats are, and where published datasets come from.
-/

namespace DatasetDepot

/-- Where published datasets come from. -/
structure Sources where
  covtype : String :=
    "https://archive.ics.uci.edu/ml/machine-learning-databases/covtype/covtype.data.gz"
  epsilonTrain : String :=
    "https://www.csie.ntu.edu.tw/~cjlin/libsvmtools/datasets/binary/epsilon_normalized.bz2"
  epsilonTest : String :=
    "https://www.csie.ntu.edu.tw/~cjlin/libsvmtools/datasets/binary/epsilon_normalized.t.bz2"
  year : String :=
    "https://archive.ics.uci.edu/ml/machine-learning-databases/00203/YearPredictionMSD.txt.zip"
  higgs : String :=
    "https://archive.ics.uci.edu/ml/machine-learning-databases/00280/HIGGS.csv.gz"
  /-- The competition that the production line measurements belong to. -/
  boschCompetition : String := "bosch-production-line-performance"
  /-- The file of the competition that holds them. -/
  boschFile : String := "train_numeric.csv.zip"
  deriving DecidableEq, Repr

structure Settings where
  cache : Path
  capacity : Nat := 8
  ratio : Double := ConverterSet.defaultRatio
  sources : Sources := {}

namespace Settings

/-- The environment variable that names the cache directory. -/
def cacheVariable : String := "BENCHDATA_CACHE_DIR"

/-- The cache directory that goes with a value of the environment variable. -/
def cacheOf (value? : Option String) : Path :=
  Path.ofString (value?.getD ".")

/-- Accepts settings whose values are in range. -/
def check (settings : Settings) : Except Fault Unit := do
  Share.checkSparsity settings.ratio
  if settings.capacity = 0 then
    throw (.invalidParameter "memo_capacity" "must be greater than zero")

end Settings

end DatasetDepot
