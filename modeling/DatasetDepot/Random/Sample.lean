import DatasetDepot.Random.Uniform

/-!
Random selections of distinct places.

A selection is drawn in one of three ways, whichever is the cheapest for its
size: by partly shuffling all places, by drawing from a range that grows to the
end and taking its last place instead of one already taken, or by drawing until
a new place comes up.
-/

namespace DatasetDepot.Drawing

variable {length : Nat}

/-- Fills the places from `next` on with random ones from there to the end; the
entries before `limit` are then the selection. -/
def partialShuffle :
    (steps next : Nat) → (entries : Array (Fin length)) → next + steps ≤ entries.size →
      Drawing (Array (Fin length))
  | 0, _, entries, _ => pure entries
  | steps + 1, next, entries, fits => do
      let ahead ← below (entries.size - next) (by omega)
      partialShuffle steps (next + 1)
        (entries.swap next (next + ahead.val) (by omega) (by omega))
        (by rw [Array.size_swap]; omega)

/-- The range grows up to the last place; a place that was taken before gives way
to the end of the range. -/
def growingRange :
    (steps : Nat) → steps ≤ length → List (Fin length) → Drawing (List (Fin length))
  | 0, _, taken => pure taken
  | steps + 1, fits, taken => do
      let last : Fin length := ⟨length - (steps + 1), by omega⟩
      let drawn ← below (last.val + 1) (by omega)
      let place : Fin length := ⟨drawn.val, by omega⟩
      growingRange steps (by omega) ((if place ∈ taken then last else place) :: taken)

/-- Draws that only pass time: the order of a selection is shuffled too, and this
is all that shows of it. -/
def discardDescending : Nat → Drawing Unit
  | 0 => pure ()
  | bound + 1 => do
      let _ ← below (bound + 2) (by omega)
      discardDescending bound

/-- Draws until a place comes up that is not marked; should `patience` run out, the
first place that is not marked serves. -/
def fresh? (positive : 0 < length) (marks : Array Bool) : Nat → Drawing (Option (Fin length))
  | 0 => pure ((List.finRange length).find? fun place => marks[place.val]? = some false)
  | tries + 1 => do
      let place ← belowRepeated positive
      if marks[place.val]? = some false then return some place
      else fresh? positive marks tries

def untilFresh (positive : 0 < length) :
    (steps : Nat) → Array Bool → List (Fin length) → Drawing (List (Fin length))
  | 0, _, taken => pure taken
  | steps + 1, marks, taken => do
      match ← fresh? positive marks patience with
      | none => return taken
      | some place =>
          untilFresh positive steps (marks.setIfInBounds place.val true) (place :: taken)

/-- The three ways to draw a selection. -/
inductive Plan where
  | partialShuffle
  | growingRange
  | untilFresh
  deriving DecidableEq, Repr

/-- The cheapest way to draw `amount` out of `length` places, estimated in single
precision. -/
def Plan.choose (length amount : Nat) : Plan :=
  let places : Single := length.toUInt64.toFloat32
  let picks : Single := amount.toUInt64.toFloat32
  let few := decide (length < 500000)
  if amount < 163 then
    let slope : Single := if few then 1.6 else 8.0 / 45.0
    let base : Single := if few then 10.0 else 70.0 / 9.0
    if 11 < amount ∧ places < (base + slope * picks) * picks then .partialShuffle
    else .growingRange
  else
    let ratio : Single := if few then 270.0 else 330.0 / 9.0
    if places < ratio * picks then .partialShuffle else .untilFresh

/-- A random selection of `amount` distinct places. -/
def selection (length amount : Nat) (fits : amount ≤ length) : Drawing (List (Fin length)) :=
  match Plan.choose length amount with
  | .partialShuffle => do
      let entries ← partialShuffle amount 0 (Array.ofFn fun place => place)
        (by rw [Array.size_ofFn]; omega)
      return entries.toList.take amount
  | .growingRange => do
      let taken ← growingRange amount fits []
      if 50 ≤ amount then discardDescending (amount - 1)
      return taken
  | .untilFresh =>
      if positive : 0 < length then
        untilFresh positive amount (Array.replicate length false) []
      else pure []

end DatasetDepot.Drawing
