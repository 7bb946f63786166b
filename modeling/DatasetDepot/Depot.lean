import DatasetDepot.Generator
import DatasetDepot.Published
import DatasetDepot.Recent
import DatasetDepot.Split
import DatasetDepot.Synthesis

/-!
The depot: it makes what is requested and remembers the most recent results.

A request is answered in stages: its tested share is checked, a dataset is generated
with rows added for testing, split at random and converted.  A failure in any stage
changes nothing about the depot.
-/

namespace DatasetDepot

/-- A result that is shared by all who requested it.  The serial number tells apart results
that were worked out separately. -/
structure Result where
  serial : Nat
  split : Split

structure Depot where
  generators : Title → Generator
  converters : ConverterSet
  cache : Path
  sources : Sources
  recent : Recent Request Result
  /-- Results worked out so far. -/
  made : Nat

/-- The generator of each title. -/
def Generator.standard : Title → Generator
  | .blobs => fun demand _ => liftM (Synthesis.blobs demand)
  | .zeros => fun demand _ => liftM (Synthesis.zeros demand)
  | .classification => fun demand _ => liftM (Synthesis.classification demand)
  | .regression => fun demand _ => liftM (Synthesis.regression demand)
  | .bosch => Published.bosch
  | .covtype => Published.covtype
  | .epsilon => Published.epsilon
  | .higgs => Published.higgs
  | .year => Published.year

namespace Depot

/-- A depot with the standard generators and converters. -/
def open? (settings : Settings) : Except Fault Depot := do
  settings.check
  return {
    generators := Generator.standard
    converters := ← ConverterSet.ofRatio settings.ratio
    cache := settings.cache
    sources := settings.sources
    recent := Recent.empty settings.capacity
    made := 0 }

/-- Puts a generator in the place of another. -/
def replaceGenerator (depot : Depot) (title : Title) (generator : Generator) : Depot where
  generators other := if other = title then generator else depot.generators other
  converters := depot.converters
  cache := depot.cache
  sources := depot.sources
  recent := depot.recent
  made := depot.made

/-- Puts a converter in the place of another. -/
def replaceConverter (depot : Depot) (converter : Converter) : Depot :=
  { depot with converters := depot.converters.replace converter }

def context (depot : Depot) (services : Services) : Context :=
  ⟨depot.cache, depot.sources, services⟩

/-- What a request asks of a generator. -/
def demandOf (request : Request) : Demand where
  rows := Share.inflate Rounding.toNearest request.samples request.tested.shareValue
  columns := request.features
  seed := request.seed
  parameters := request.parameters

/-- Splits a generated dataset as requested. -/
def splitFor (request : Request) (dataset : Dataset) : Except Fault Split :=
  let tested := request.tested.shareValue
  if 0 < tested then
    let trainSize :=
      if request.samples = 0 then Share.remaining Rounding.toNearest dataset.rows tested
      else request.samples
    dataset.divide trainSize request.seed
  else .ok (Split.ofDataset dataset)

/-- Converts a split as requested. -/
def convertFor (depot : Depot) (request : Request) (split : Split) : Except Fault Split :=
  ((depot.converters.convertSplit request.format split).run.run (Stream.ofSeed request.seed)).1

/-- Works out a request. -/
def make (depot : Depot) (services : Services) (request : Request) : Action Split := do
  liftM (Share.checkTested request.tested)
  Action.record (.generated request.title.name)
  let dataset ← depot.generators request.title (demandOf request) (depot.context services)
  let split ← liftM (splitFor request dataset)
  liftM (depot.convertFor request split)

/-- Answers a request, from what is remembered if possible, and remembers the answer. -/
def answer (depot : Depot) (services : Services) (request : Request) : Action (Result × Depot) := do
  match depot.recent.find? request with
  | some result => return (result, { depot with recent := depot.recent.use request result })
  | none =>
      let split ← depot.make services request
      let result := ⟨depot.made, split⟩
      return (result, {
        depot with
        recent := depot.recent.use request result
        made := depot.made + 1 })

/-- How many results are remembered. -/
def remembered (depot : Depot) : Nat := depot.recent.size

end Depot

end DatasetDepot
