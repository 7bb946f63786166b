import DatasetDepot.CommandLine

/-!
The program.  The files of the cache directory are read into a store, the command runs on
it, and what it changed is written back.  There is neither a transport for downloads nor a
launcher for other programs here: only what is in the cache can be used.
-/

namespace DatasetDepot.Program

/-- Names from the root down to where a path leads. -/
def locationOf (text : String) : Location :=
  (Path.ofString text).parts.filter fun part => !part.isEmpty && part ≠ ['.']

def pathTo (location : Location) : String :=
  "/" ++ (Path.ofParts location).text

/-- The nodes at and above a location. -/
def readAbove (location : Location) : IO (List (Location × Node)) := do
  let here ← IO.currentDir
  let mut nodes := []
  for length in List.range location.length do
    let place := location.take (length + 1)
    let file := here / pathTo place
    if ← file.isDir then nodes := (place, Node.directory) :: nodes
    else if ← file.pathExists then
      nodes := (place, Node.file (← IO.FS.readBinFile file).toList) :: nodes
  return nodes

/-- The nodes right below a directory. -/
def readBelow (location : Location) : IO (List (Location × Node)) := do
  let directory := (← IO.currentDir) / pathTo location
  if !(← directory.isDir) then return []
  let entries ← directory.readDir
  entries.toList.mapM fun entry => do
    let place := location ++ [entry.fileName.toList]
    if ← entry.path.isDir then return (place, Node.directory)
    else return (place, Node.file (← IO.FS.readBinFile entry.path).toList)

/-- The store of the files a command may touch. -/
def readStore (touched? : Option Path) : IO Store := do
  let here := (← IO.currentDir).toString
  let base := locationOf here
  match touched? with
  | none => return ⟨base, []⟩
  | some path =>
      let location := if path.isAbsolute then locationOf path.text else base ++ locationOf path.text
      return ⟨base, (← readBelow location) ++ (← readAbove location) ++ (← readAbove base)⟩

/-- Brings the files in line with a changed store. -/
def writeStore (before after : Store) : IO Unit := do
  for (place, node) in after.nodes.reverse do
    if before.lookup place ≠ some node then
      match node with
      | .directory => IO.FS.createDirAll (pathTo place)
      | .file contents => IO.FS.writeBinFile (pathTo place) contents.toByteArray
  for (place, _) in before.nodes do
    if (after.lookup place).isNone then IO.FS.removeFile (pathTo place)

/-- Services that are out of reach. -/
def services : Services where
  download _ := ⟨[], some "no transport for downloads"⟩
  launch _ store := (store, .notStarted .notFound)

def readEnvironment : IO CommandLine.Environment := do
  let bytes (name : String) : IO (Option Bytes) := do
    return (← IO.getEnv name).map Text.Utf8.encode
  return {
    logFormat? := ← bytes CommandLine.LogSettings.formatVariable
    logFilter? := ← bytes CommandLine.LogSettings.filterVariable
    cache? := ← IO.getEnv Settings.cacheVariable }

/-- The exit status of a command. -/
def statusOf : CommandLine.Failure → UInt32
  | .usage .helpRequested => 0
  | .usage _ => 2
  | .logging _ | .depot _ => 1

end DatasetDepot.Program

open DatasetDepot in
def main (arguments : List String) : IO UInt32 := do
  let environment ← Program.readEnvironment
  let before ← Program.readStore (CommandLine.touched? environment arguments)
  let (result, world) := (CommandLine.run Program.services environment arguments).run ⟨before, []⟩
  Program.writeStore before world.store
  match result with
  | .ok text =>
      IO.print text
      return 0
  | .error failure =>
      IO.eprintln failure.text
      return Program.statusOf failure
