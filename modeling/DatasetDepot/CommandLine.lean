import DatasetDepot.CommandLine.Arguments
import DatasetDepot.Depot

/-!
The commands: listing what there is, fetching a file, and generating a dataset.

Arguments are read first and log settings are checked second, so that nothing is done
for a command that is wrong.
-/

namespace DatasetDepot.CommandLine

/-- Why a command fails. -/
inductive Failure where
  | usage (fault : UsageFault)
  | logging (fault : LogFault)
  | depot (fault : Fault)

/-- What a failed command says about itself. -/
def Failure.text : Failure → String
  | .usage fault => fault.text
  | .logging fault => s!"failed to initialize logging: {fault.message}"
  | .depot fault => fault.message

/-- What a command has to tell. -/
inductive Report where
  | listing
  | fetched (path : Path)
  | generated (request : Request) (split : Split)

namespace Report

def titleText (title : Title) : String :=
  if title.isPublished then s!"{title.name} (download)" else title.name

/-- A part of a split and its name. -/
def partText (part : String × Option Value) : String :=
  part.1 ++ "\t" ++ (part.2.map Value.display).getD "none"

def lines : Report → List String
  | .listing => [
      "datasets: " ++ ", ".intercalate (Title.all.map titleText),
      "formats: " ++ ", ".intercalate (Format.all.map Format.name)]
  | .fetched path => [s!"fetched: {path.text}"]
  | .generated request split =>
      [s!"dataset: {request.title.name}", s!"format: {request.format.name}"] ++
        split.parts.map partText

/-- The lines, each with its end. -/
def text (report : Report) : String :=
  String.join (report.lines.map (· ++ "\n"))

end Report

/-- The settings that options and the environment give. -/
def settingsOf (environment : Environment) (cacheDir? : Option String) (ratio? : Option Double) :
    Settings where
  cache := (cacheDir?.map Path.ofString).getD (Settings.cacheOf environment.cache?)
  ratio := ratio?.getD ConverterSet.defaultRatio

/-- The request that options make. -/
def requestOf (dataset : String) (options : Options) : Except Fault Request := do
  let request ← Request.ofNames dataset (options.format?.getD Format.numpy.name)
  return {
    request with
    samples := options.samples?.getD request.samples
    features := options.features?.getD request.features
    seed := (options.seed?.map Nat.toUInt64).getD request.seed
    tested := options.testFraction?.getD request.tested
    parameters := ⟨options.centers?, options.classes?⟩ }

/-- Does what a command is to do. -/
def perform (services : Services) (environment : Environment) : Job → Action Report
  | .list => return .listing
  | .fetch url cacheDir? =>
      return .fetched (← Fetch.fetch services (settingsOf environment cacheDir? none).cache url)
  | .generate dataset options => do
      let depot ← liftM
        (Depot.open? (settingsOf environment options.cacheDir? options.sparsityRatio?))
      let request ← liftM (requestOf dataset options)
      let (result, _) ← depot.answer services request
      return .generated request result.split

/-- The directory whose files a command may read or write.  Commands that are wrong and
commands that only draw touch none. -/
def touched? (environment : Environment) (arguments : List String) : Option Path :=
  match (Invocation.ofArguments arguments).toOption.map Invocation.job with
  | some (.fetch _ cacheDir?) => some (settingsOf environment cacheDir? none).cache
  | some (.generate dataset options) =>
      match Title.ofName dataset with
      | .ok title =>
          if title.isPublished then some (settingsOf environment options.cacheDir? none).cache
          else none
      | .error _ => none
  | _ => none

/-- Runs a command. -/
def run (services : Services) (environment : Environment) (arguments : List String) :
    StateM World (Except Failure String) := do
  match Invocation.ofArguments arguments with
  | .error fault => return .error (.usage fault)
  | .ok invocation =>
      match LogSettings.resolve invocation.logFormat? invocation.logFilter? environment with
      | .error fault => return .error (.logging fault)
      | .ok _ =>
          match ← (perform services environment invocation.job).run with
          | .ok report => return .ok report.text
          | .error fault => return .error (.depot fault)

end DatasetDepot.CommandLine
