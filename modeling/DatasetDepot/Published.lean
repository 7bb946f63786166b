import DatasetDepot.Csv
import DatasetDepot.Fetch
import DatasetDepot.Generator
import DatasetDepot.Snapshot
import DatasetDepot.Svmlight

/-!
Datasets that others have published.

Each is loaded from files that are fetched when they are not there, and kept as a
snapshot.  The number of rows that is asked for bounds what is read of a file.
-/

namespace DatasetDepot.Published

/-- The contents of a table, which has to be there. -/
def readTable (columns : Csv.Columns) (limit : Nat) (path : Path) : Action Dataset := do
  match (← Action.store).read path with
  | .error refusal => throw (.parse path.text 0 refusal.text)
  | .ok contents =>
      match Csv.read columns limit contents with
      | .error defect => throw (.parse path.text defect.line defect.text)
      | .ok dataset => return dataset

/-- The rows of a file in sparse form. -/
def readRows (limit : Nat) (path : Path) : Action (List Svmlight.Row) := do
  match (← Action.store).read path with
  | .error refusal => throw (.io path.text refusal.text)
  | .ok contents =>
      match Svmlight.read limit contents with
      | .error .notText => throw (.io path.text Refusal.notText.text)
      | .error (.slip line slip) => throw (.parse path.text line slip.text)
      | .ok rows => return rows

/-- A dataset that takes no parameters and is kept as a snapshot. -/
def keep (title : Title) (loader : Context → Nat → Action Dataset) : Generator :=
  fun demand context => do
    liftM (demand.parameters.check title)
    Snapshot.load context.cache title.name demand.rows demand.columns (loader context)
      context.services.tables

/-- A table that is fetched from an address. -/
def fetchTable (columns : Csv.Columns) (source : Sources → String) :
    Context → Nat → Action Dataset :=
  fun context limit => do
    readTable columns limit (← Fetch.fetch context.services context.cache (source context.sources))

/-- The label comes after the features. -/
def covtype : Generator :=
  keep .covtype (fetchTable ⟨false, false, false⟩ Sources.covtype)

/-- The label comes before the features. -/
def higgs : Generator :=
  keep .higgs (fetchTable ⟨false, false, true⟩ Sources.higgs)

/-- The label comes before the features. -/
def year : Generator :=
  keep .year (fetchTable ⟨false, false, true⟩ Sources.year)

/-- Labels are zero unless they are positive. -/
def toBinary (label : Single) : Single :=
  if 0 < label then label else 0

/-- Training rows, and testing rows when those are not enough. -/
def loadEpsilon (context : Context) (limit : Nat) : Action Dataset := do
  let rowsAt (url : String) : Action (List Svmlight.Row) := do
    readRows limit (← Fetch.fetch context.services context.cache url)
  let train ← rowsAt context.sources.epsilonTrain
  let parts ←
    if limit = 0 ∨ train.length < limit then
      pure [train, ← rowsAt context.sources.epsilonTest]
    else pure [train]
  return Svmlight.densify
    (parts.map fun part => part.map fun row => { row with label := toBinary row.label })

def epsilon : Generator :=
  keep .epsilon loadEpsilon

/-- The command that brings a file of a competition. -/
def competitionCommand (context : Context) : Command where
  program := "kaggle"
  arguments :=
    ["competitions", "download", "-c", context.sources.boschCompetition, "-f",
      context.sources.boschFile, "-p", context.cache.text]

/-- The archive of the production line measurements; the command runs only when neither it
nor the file in it is there. -/
def boschArchive (context : Context) : Action Path := do
  let archive := context.cache.join context.sources.boschFile.toList
  let store ← Action.store
  if store.has archive || store.has archive.withoutExtension then return archive
  Action.ensureDirectory context.cache
  let command := competitionCommand context
  let outcome ← Action.launch context.services command
  if !outcome.succeeded then throw (.externalCommand command.text outcome.text)
  return archive

/-- A header, an index and the features before the label. -/
def loadBosch (context : Context) (limit : Nat) : Action Dataset := do
  readTable ⟨true, true, false⟩ limit (← Fetch.unpack (← boschArchive context))

def bosch : Generator :=
  keep .bosch loadBosch

end DatasetDepot.Published
