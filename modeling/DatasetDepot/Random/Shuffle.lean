import DatasetDepot.Random.Uniform

/-!
Random orders.  A shuffle only swaps entries, at places that depend on the stream
and on the number of entries, so what it does to an array is one permutation of
its places.
-/

namespace DatasetDepot.Drawing

/-- From the last place down, swaps each entry with one at or before it. -/
def shuffleFrom {Entry : Type} :
    (last : Nat) → (entries : Array Entry) → last < entries.size → Drawing (Array Entry)
  | 0, entries, _ => pure entries
  | last + 1, entries, inside => do
      let other ← below (last + 2) (by omega)
      shuffleFrom last (entries.swap (last + 1) other.val inside (by omega))
        (by rw [Array.size_swap]; omega)

/-- A random order of the places below `count`. -/
def permutation (count : Nat) : Drawing (Array (Fin count)) :=
  if empty : count = 0 then pure #[]
  else
    shuffleFrom (count - 1) (Array.ofFn fun place => place)
      (by rw [Array.size_ofFn]; omega)

end DatasetDepot.Drawing
