/-!
The most recently used results.

Entries are listed from the most recently used one back.  Finding a result counts as
using it; a result that is put in when there is no room takes the place of the one that
was not used for the longest time.
-/

namespace DatasetDepot

structure Recent (Key Item : Type) where
  capacity : Nat
  entries : List (Key × Item)

namespace Recent

variable {Key Item : Type} [DecidableEq Key]

def empty (capacity : Nat) : Recent Key Item := ⟨capacity, []⟩

def size (recent : Recent Key Item) : Nat := recent.entries.length

/-- The entries of all other keys. -/
def others (recent : Recent Key Item) (key : Key) : List (Key × Item) :=
  recent.entries.filter fun entry => entry.1 ≠ key

/-- The result of a key, if it is there. -/
def find? (recent : Recent Key Item) (key : Key) : Option Item :=
  recent.entries.lookup key

/-- Puts a result in front. -/
def use (recent : Recent Key Item) (key : Key) (item : Item) : Recent Key Item where
  capacity := recent.capacity
  entries := ((key, item) :: recent.others key).take recent.capacity

end Recent

end DatasetDepot
