import DatasetDepot.Path
import DatasetDepot.Text.Utf8

/-!
A store of files.

A store maps locations, lists of names from the root, to files and directories;
`Store.lookup` is its one view.  Paths are resolved against a base directory, and
every operation either gives the store after it or says why it is refused.
-/

namespace DatasetDepot

/-- Names from the root down. -/
abbrev Location := List Name

/-- What can be at a location. -/
inductive Node where
  | file (contents : Bytes)
  | directory
  deriving DecidableEq, Repr

/-- Why an operation on the store is refused. -/
inductive Refusal where
  | notFound
  | exists
  | notDirectory
  | isDirectory
  | nameTooLong
  | zeroByte
  | notText
  deriving DecidableEq, Repr

def Refusal.text : Refusal → String
  | .notFound => "No such file or directory (os error 2)"
  | .exists => "File exists (os error 17)"
  | .notDirectory => "Not a directory (os error 20)"
  | .isDirectory => "Is a directory (os error 21)"
  | .nameTooLong => "File name too long (os error 36)"
  | .zeroByte => "file name contained an unexpected NUL byte"
  | .notText => "stream did not contain valid UTF-8"

structure Store where
  /-- Where relative paths start. -/
  base : Location
  nodes : List (Location × Node)
  deriving Repr

namespace Store

/-- What is at a location.  The root is always a directory. -/
def lookup (store : Store) (location : Location) : Option Node :=
  if location = [] then some .directory else store.nodes.lookup location

/-- Puts a node at a location, in place of what was there. -/
def set (store : Store) (location : Location) (node : Node) : Store :=
  { store with
    nodes := (location, node) :: store.nodes.filter fun entry => entry.1 ≠ location }

/-- Leaves nothing at a location. -/
def clear (store : Store) (location : Location) : Store :=
  { store with nodes := store.nodes.filter fun entry => entry.1 ≠ location }

/-- The path of what is below a location, from there on; one of a directory ends in a
slash. -/
def nameBelow? (top : Location) (entry : Location × Node) : Option String :=
  if top.isPrefixOf entry.1 && top.length < entry.1.length then
    let name := String.ofList (Path.ofParts (entry.1.drop top.length)).letters
    some (if entry.2 = .directory then name ++ "/" else name)
  else none

/-- The paths of all that is below a location, in order. -/
def namesBelow (store : Store) (top : Location) : List String :=
  (store.nodes.filterMap (nameBelow? top)).mergeSort fun left right => left ≤ right

/-- The greatest length of a name in bytes. -/
def maxNameBytes : Nat := 255

def nameBytes (name : Name) : Nat :=
  name.foldl (fun bytes letter => bytes + letter.utf8Size) 0

/-- Follows names from a directory; all but the last have to lead to
directories. -/
def walk (store : Store) (place : Location) : List Name → Except Refusal Location
  | [] => .ok place
  | name :: rest =>
      match store.lookup place with
      | none => .error .notFound
      | some (.file _) => .error .notDirectory
      | some .directory =>
          if name = ['.'] then walk store place rest
          else if name = ['.', '.'] then walk store place.dropLast rest
          else if maxNameBytes < nameBytes name then .error .nameTooLong
          else walk store (place ++ [name]) rest

/-- The location a path leads to, whether or not anything is there. -/
def resolve (store : Store) (path : Path) : Except Refusal Location :=
  if path.letters.any (· = '\x00') then .error .zeroByte
  else if path.letters = [] then .error .notFound
  else
    store.walk (if path.isAbsolute then [] else store.base)
      (path.parts.filter fun part => !part.isEmpty)

/-- What a path leads to. -/
def find (store : Store) (path : Path) : Except Refusal Node := do
  let location ← store.resolve path
  match store.lookup location with
  | some node => return node
  | none => throw .notFound

/-- Whether a path leads to anything. -/
def has (store : Store) (path : Path) : Bool :=
  (store.find path).toOption.isSome

def isDirectory (store : Store) (path : Path) : Bool :=
  (store.find path).toOption = some .directory

/-- The contents of a file. -/
def read (store : Store) (path : Path) : Except Refusal Bytes := do
  match ← store.find path with
  | .file contents => return contents
  | .directory => throw .isDirectory

/-- Gives a file new contents, or makes it. -/
def write (store : Store) (path : Path) (contents : Bytes) : Except Refusal Store := do
  let location ← store.resolve path
  match store.lookup location with
  | some .directory => throw .isDirectory
  | _ => return store.set location (.file contents)

/-- Takes a file away. -/
def remove (store : Store) (path : Path) : Except Refusal Store := do
  let location ← store.resolve path
  match store.lookup location with
  | none => throw .notFound
  | some .directory => throw .isDirectory
  | some (.file _) => return store.clear location

/-- Moves a file, in place of another if there is one. -/
def rename (store : Store) (source target : Path) : Except Refusal Store := do
  let contents ← store.read source
  let origin ← store.resolve source
  let location ← store.resolve target
  match store.lookup location with
  | some .directory => throw .isDirectory
  | _ => return (store.clear origin).set location (.file contents)

/-- Makes one directory in one that exists. -/
def makeDirectory (store : Store) (path : Path) : Except Refusal Store := do
  let location ← store.resolve path
  match store.lookup location with
  | some _ => throw .exists
  | none => return store.set location .directory

/-- Makes the directory that leading parts name, and those above it as needed.  The
parts are given from the last one back. -/
def ensureParts (store : Store) (absolute : Bool) : List Name → Except Refusal Store
  | [] => .ok store
  | part :: above =>
      let whole := (part :: above).reverse
      let path := Path.ofParts (if absolute then [] :: whole else whole)
      match store.makeDirectory path with
      | .ok made => .ok made
      | .error .notFound => do
          let store ← ensureParts store absolute above
          match store.makeDirectory path with
          | .ok made => .ok made
          | .error refusal => if store.isDirectory path then .ok store else .error refusal
      | .error refusal => if store.isDirectory path then .ok store else .error refusal

/-- Makes a directory and those above it, as far as they are missing. -/
def ensureDirectory (store : Store) (path : Path) : Except Refusal Store :=
  if path.letters = [] then .ok store
  else if path.letters.any (· = '\x00') then .error .zeroByte
  else
    store.ensureParts path.isAbsolute
      (path.parts.filter fun part => !part.isEmpty && part ≠ ['.']).reverse

/-- What is left where making sure of leading parts is refused: the directories above them that
were made first stay.  The parts are given from the last one back. -/
def begunParts (store : Store) (absolute : Bool) : List Name → Store
  | [] => store
  | part :: above =>
      let whole := (part :: above).reverse
      match store.makeDirectory (Path.ofParts (if absolute then [] :: whole else whole)) with
      | .error .notFound =>
          match store.ensureParts absolute above with
          | .ok opened => opened
          | .error _ => begunParts store absolute above
      | _ => store

/-- What is left where making sure of a directory is refused. -/
def begunDirectory (store : Store) (path : Path) : Store :=
  if path.letters.any (· = '\x00') then store
  else
    store.begunParts path.isAbsolute
      (path.parts.filter fun part => !part.isEmpty && part ≠ ['.']).reverse

end Store

end DatasetDepot
