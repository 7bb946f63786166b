import DatasetDepot.Fault
import DatasetDepot.Snapshot.Format
import DatasetDepot.Store

/-!
What a depot acts on: a store of files, and a journal of the work that was asked of
others.

An `Action` may change the store and add to the journal; what it did before a fault
stays done.  The services a depot calls on are functions, so that an action is
determined by them and by the world it starts in.
-/

namespace DatasetDepot

/-- A program and its arguments. -/
structure Command where
  program : String
  arguments : List String
  deriving DecidableEq, Repr

def Command.text (command : Command) : String :=
  " ".intercalate (command.program :: command.arguments)

/-- How a program ended. -/
inductive Outcome where
  | notStarted (refusal : Refusal)
  | exited (status : Nat)
  | killed (signal : Nat)
  deriving DecidableEq, Repr

namespace Outcome

def succeeded (outcome : Outcome) : Bool := outcome = .exited 0

/-- The names of the signals, from one on. -/
def signalNames : List String :=
  ["SIGHUP", "SIGINT", "SIGQUIT", "SIGILL", "SIGTRAP", "SIGABRT", "SIGBUS", "SIGFPE", "SIGKILL",
    "SIGUSR1", "SIGSEGV", "SIGUSR2", "SIGPIPE", "SIGALRM", "SIGTERM", "SIGSTKFLT", "SIGCHLD",
    "SIGCONT", "SIGSTOP", "SIGTSTP", "SIGTTIN", "SIGTTOU", "SIGURG", "SIGXCPU", "SIGXFSZ",
    "SIGVTALRM", "SIGPROF", "SIGWINCH", "SIGIO", "SIGPWR", "SIGSYS"]

def text : Outcome → String
  | .notStarted refusal => refusal.text
  | .exited status => s!"exit status: {status}"
  | .killed signal =>
      match signalNames[signal - 1]? with
      | some name => s!"signal: {signal} ({name})"
      | none => s!"signal: {signal}"

end Outcome

/-- What comes for a download: bytes, and after them perhaps a failure. -/
structure Delivery where
  bytes : Bytes
  failure? : Option String
  deriving DecidableEq, Repr

/-- What a disk refuses of a file that is written, and why. -/
structure Disk where
  /-- Contents that are still coming; whoever brings them reports it. -/
  spill : Path → Bytes → Option String
  /-- The end of them. -/
  flush : Path → Bytes → Option String
  /-- The move of the file to another path. -/
  move : Path → Path → Option String

/-- A disk that refuses nothing. -/
def Disk.sound : Disk := ⟨fun _ _ => none, fun _ _ => none, fun _ _ => none⟩

/-- Whom a depot calls on. -/
structure Services where
  download : String → Delivery
  launch : Command → Store → Store × Outcome
  /-- How snapshots are written and read. -/
  tables : TableFormat := .packed

/-- Work that was asked of others. -/
inductive Event where
  | downloaded (url : String)
  | launched (command : Command)
  | generated (dataset : String)
  deriving DecidableEq, Repr

structure World where
  store : Store
  /-- In the order in which it happened. -/
  journal : List Event

/-- A computation on the world that may fail. -/
abbrev Action := ExceptT Fault (StateM World)

namespace Action

def store : Action Store := do return (← get).store

def record (event : Event) : Action Unit :=
  modify fun world => { world with journal := world.journal ++ [event] }

/-- Changes the store, or fails at a path. -/
def change (path : Path) (operation : Store → Except Refusal Store) : Action Unit := do
  match operation (← store) with
  | .ok changed => modify fun world => { world with store := changed }
  | .error refusal => throw (.io path.text refusal.text)

/-- Makes a directory and those above it, as far as they are missing.  Those above it stay where
it is refused. -/
def ensureDirectory (path : Path) : Action Unit := do
  match (← store).ensureDirectory path with
  | .ok opened => modify fun world => { world with store := opened }
  | .error refusal =>
      modify fun world => { world with store := world.store.begunDirectory path }
      throw (.io path.text refusal.text)

/-- Takes a file away if it is there. -/
def discard (path : Path) : Action Unit :=
  modify fun world => { world with store := (world.store.remove path).toOption.getD world.store }

/-- What `produce` gives, unless it is refused. -/
def unlessRefused (refused? : Bytes → Option String) (report : String → Fault)
    (produce : Action Bytes) : Action Bytes := do
  let contents ← produce
  match refused? contents with
  | none => return contents
  | some message => throw (report message)

/-- Puts what `produce` gives into a file, all of it or nothing: it is first written next
to the file and takes its place at the end.  What fails before leaves no unfinished file; one
that is refused its place stays. -/
def writeWhole (path : Path) (produce : Action Bytes) (disk : Disk := .sound) : Action Unit := do
  let unfinished := path.unfinished
  change unfinished fun store => store.write unfinished []
  let contents ←
    tryCatch (unlessRefused (disk.flush unfinished) (.io unfinished.text) produce) fun fault => do
      discard unfinished
      throw fault
  change unfinished fun store => store.write unfinished contents
  match disk.move unfinished path with
  | none => change path fun store => store.rename unfinished path
  | some message => throw (.io path.text message)

/-- Asks for a download. -/
def download (services : Services) (url : String) : Action Bytes := do
  record (.downloaded url)
  let delivery := services.download url
  match delivery.failure? with
  | none => return delivery.bytes
  | some message => throw (.download url message)

/-- Runs a program to its end. -/
def launch (services : Services) (command : Command) : Action Outcome := do
  record (.launched command)
  let (changed, outcome) := services.launch command (← store)
  modify fun world => { world with store := changed }
  return outcome

end Action

end DatasetDepot
