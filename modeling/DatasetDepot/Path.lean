/-!
Paths as text.

A path is its letters; slashes part it.  Its name is the last part that is a name
at all: empty parts and single dots after it do not count, and two dots are no
name.  A name splits at its last dot into a stem and an extension, except that a
leading dot starts no extension.
-/

namespace DatasetDepot

/-- A part of a path. -/
abbrev Name := List Char

structure Path where
  letters : List Char
  deriving DecidableEq, Repr

namespace Name

/-- The part before the last dot and the part after it. -/
def splitLast? (name : Name) : Option (Name × Name) :=
  let after := (name.reverse.takeWhile (· ≠ '.')).reverse
  if after.length < name.length then
    some (name.take (name.length - after.length - 1), after)
  else none

def extension? (name : Name) : Option Name :=
  match splitLast? name with
  | some (before, after) => if before.isEmpty then none else some after
  | none => none

def stem (name : Name) : Name :=
  match splitLast? name with
  | some (before, _) => if before.isEmpty then name else before
  | none => name

end Name

namespace Path

def ofString (text : String) : Path := ⟨text.toList⟩

def text (path : Path) : String := String.ofList path.letters

def isAbsolute (path : Path) : Bool := path.letters.head? = some '/'

/-- The stretches between slashes, empty ones included. -/
def parts (path : Path) : List Name := path.letters.splitOnP (· = '/')

/-- Parts with slashes between them. -/
def ofParts (parts : List Name) : Path := ⟨(parts.intersperse ['/']).flatten⟩

/-- The parts up to the last one that counts. -/
def dropTail (parts : List Name) : List Name :=
  (parts.reverse.dropWhile fun part => part = [] || part = ['.']).reverse

/-- A path below a directory; an absolute one replaces it. -/
def join (directory : Path) (name : List Char) : Path :=
  if name.head? = some '/' then ⟨name⟩
  else if directory.letters = [] ∨ directory.letters.getLast? = some '/' then
    ⟨directory.letters ++ name⟩
  else ⟨directory.letters ++ '/' :: name⟩

def name? (path : Path) : Option Name :=
  match (dropTail path.parts).getLast? with
  | some name => if name = ['.', '.'] then none else some name
  | none => none

def extension? (path : Path) : Option Name :=
  path.name?.bind Name.extension?

/-- The path with only the stem of its name. -/
def toStem (path : Path) : Path :=
  match path.name? with
  | some name => ofParts ((dropTail path.parts).dropLast ++ [name.stem])
  | none => path

/-- The path without its extension: the letters after the last dot are cut off, and
then the dot that is left over. -/
def withoutExtension (path : Path) : Path :=
  match path.extension? with
  | some ending => toStem ⟨path.letters.take (path.letters.length - ending.length)⟩
  | none => path.toStem

/-- The directory a path is in, as text. -/
def parent (path : Path) : Path :=
  match dropTail (dropTail path.parts).dropLast with
  | [] =>
      if path.isAbsolute then ⟨['/']⟩
      else if path.parts.head? = some ['.'] then ⟨['.']⟩
      else ⟨[]⟩
  | [[]] => ⟨['/']⟩
  | parts => ofParts parts

/-- The path of the unfinished file next to this one. -/
def unfinished (path : Path) : Path :=
  let ending := ".part".toList
  match path.name? with
  | some name => path.parent.join (name ++ ending)
  | none => path.join ending

end Path

end DatasetDepot
