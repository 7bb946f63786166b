import DatasetDepot.Random.Sample
import DatasetDepot.Random.Shuffle
import Mathlib.Data.Fintype.EquivFin

/-!
What every drawing has in common, whatever the stream.

Main statements: a random order of places is one permutation of these places, and a random
selection consists of as many places as were asked for, no two of them the same.
-/

namespace DatasetDepot.Drawing

theorem perm_shuffleFrom {Entry : Type} (last : Nat) (entries : Array Entry)
    (inside : last < entries.size) (stream : Stream) :
    ((shuffleFrom last entries inside).run stream).1.Perm entries := by
  induction last generalizing entries stream with
  | zero => exact Array.Perm.refl entries
  | succ last inductionHypothesis =>
      unfold shuffleFrom
      rw [StateT.run_bind]
      exact (inductionHypothesis _ _ _).trans (Array.swap_perm _ _)

/-- A random order lists every place once. -/
theorem perm_permutation (count : Nat) (stream : Stream) :
    ((permutation count).run stream).1.toList.Perm (List.finRange count) := by
  unfold permutation
  by_cases empty : count = 0
  · subst empty
    rw [dif_pos rfl]
    exact List.Perm.refl _
  · rw [dif_neg empty]
    have shuffled := (perm_shuffleFrom (count - 1) (Array.ofFn fun place : Fin count => place)
      (by rw [Array.size_ofFn]; omega) stream).toList
    rw [Array.toList_ofFn] at shuffled
    exact shuffled

theorem exists_perm_of_perm_finRange {count : Nat} {order : List (Fin count)}
    (complete : order.Perm (List.finRange count)) :
    ∃ permutation : Equiv.Perm (Fin count), order = (List.finRange count).map permutation := by
  have length : order.length = count := by simpa using complete.length_eq
  have distinct : order.Nodup := complete.nodup_iff.mpr (List.nodup_finRange count)
  let pick : Fin count → Fin count := fun place => order.get (place.cast length.symm)
  have injective : Function.Injective pick := by
    intro left right equal
    have same := (List.nodup_iff_injective_get.mp distinct) equal
    exact Fin.cast_injective _ same
  refine ⟨Equiv.ofBijective pick (Finite.injective_iff_bijective.mp injective), ?_⟩
  apply List.ext_getElem
  · simpa using length
  · intro place _ _
    simp [pick]

section Selection

variable {length : Nat}

/-- So many places, no two of them the same. -/
structure IsSelection (amount : Nat) (places : List (Fin length)) : Prop where
  nodup : places.Nodup
  length_eq : places.length = amount

theorem IsSelection.nil : IsSelection 0 ([] : List (Fin length)) :=
  ⟨List.nodup_nil, rfl⟩

theorem IsSelection.cons {amount : Nat} {places : List (Fin length)} {place : Fin length}
    (selects : IsSelection amount places) (fresh : place ∉ places) :
    IsSelection (amount + 1) (place :: places) :=
  ⟨List.nodup_cons.mpr ⟨fresh, selects.nodup⟩, by rw [List.length_cons, selects.length_eq]⟩

theorem IsSelection.exists_notMem {amount : Nat} {places : List (Fin length)}
    (selects : IsSelection amount places) (fits : amount < length) : ∃ place, place ∉ places := by
  by_contra all
  have every : List.finRange length ⊆ places := fun place _ =>
    not_not.mp fun missing => all ⟨place, missing⟩
  have most := ((List.nodup_finRange length).subperm every).length_le
  rw [List.length_finRange, selects.length_eq] at most
  omega

theorem perm_partialShuffle (steps next : Nat) (entries : Array (Fin length))
    (fits : next + steps ≤ entries.size) (stream : Stream) :
    ((partialShuffle steps next entries fits).run stream).1.Perm entries := by
  induction steps generalizing next entries stream with
  | zero => exact Array.Perm.refl entries
  | succ steps inductionHypothesis =>
      unfold partialShuffle
      rw [StateT.run_bind]
      exact (inductionHypothesis _ _ _ _).trans (Array.swap_perm _ _)

theorem isSelection_partialShuffle {amount : Nat} {entries : Array (Fin length)}
    (complete : entries.toList.Perm (List.finRange length)) (fits : 0 + amount ≤ entries.size)
    (stream : Stream) : IsSelection amount
      (((partialShuffle amount 0 entries fits).run stream).1.toList.take amount) := by
  have shuffled := perm_partialShuffle amount 0 entries fits stream
  have distinct := (shuffled.toList.trans complete).nodup_iff.mpr (List.nodup_finRange length)
  constructor
  · exact distinct.sublist (List.take_sublist _ _)
  · rw [List.length_take, Array.length_toList, shuffled.size_eq]
    omega

/-- All that was taken lies before the end of the range, so that the end is there to be taken
instead. -/
theorem isSelection_growingRange {amount : Nat} (steps : Nat) (fits : steps ≤ length)
    (taken : List (Fin length)) (stream : Stream) (selects : IsSelection amount taken)
    (inside : ∀ place ∈ taken, place.val < length - steps) :
    IsSelection (amount + steps) ((growingRange steps fits taken).run stream).1 := by
  induction steps generalizing amount taken stream with
  | zero => exact selects
  | succ steps inductionHypothesis =>
      unfold growingRange
      rw [StateT.run_bind]
      simp only
      generalize (below _ _).run stream = drawn
      let last : Fin length := ⟨length - (steps + 1), by omega⟩
      let place : Fin length := ⟨drawn.1.val, by omega⟩
      have fresh : (if place ∈ taken then last else place) ∉ taken := by
        by_cases taking : place ∈ taken
        · rw [if_pos taking]
          intro again
          exact absurd (inside last again) (Nat.lt_irrefl _)
        · rw [if_neg taking]
          exact taking
      have within : (if place ∈ taken then last else place).val < length - steps := by
        by_cases taking : place ∈ taken
        · rw [if_pos taking]
          simp only [last]
          omega
        · rw [if_neg taking]
          have below := drawn.1.isLt
          simp only [place]
          omega
      have selection := inductionHypothesis (by omega) _ drawn.2 (selects.cons fresh) (by
        intro other member
        rcases List.mem_cons.mp member with rfl | member
        · exact within
        · have before := inside other member
          omega)
      rw [Nat.add_right_comm] at selection
      exact selection

/-- The marks are on the places that were taken, and on no other. -/
structure Marks (marks : Array Bool) (taken : List (Fin length)) : Prop where
  marked : ∀ place ∈ taken, marks[place.val]? = some true
  free : ∀ place : Fin length, place ∉ taken → marks[place.val]? = some false

theorem marks_nil : Marks (Array.replicate length false) ([] : List (Fin length)) where
  marked := fun _ member => absurd member List.not_mem_nil
  free := by
    intro place _
    rw [Array.getElem?_replicate, if_pos place.isLt]

theorem Marks.cons {marks : Array Bool} {taken : List (Fin length)} {place : Fin length}
    (holds : Marks marks taken) (fresh : place ∉ taken) :
    Marks (marks.setIfInBounds place.val true) (place :: taken) where
  marked := by
    intro other member
    rcases List.mem_cons.mp member with rfl | before
    · obtain ⟨inside, _⟩ := Array.getElem?_eq_some_iff.mp (holds.free other fresh)
      exact Array.getElem?_setIfInBounds_self_of_lt inside
    · have apart : place.val ≠ other.val := by
        intro equal
        obtain rfl := Fin.ext equal
        exact fresh before
      rw [Array.getElem?_setIfInBounds_ne apart]
      exact holds.marked other before
  free := by
    intro other missing
    rw [List.mem_cons, not_or] at missing
    obtain ⟨apart, left⟩ := missing
    rw [Array.getElem?_setIfInBounds_ne fun equal => apart (Fin.ext equal).symm]
    exact holds.free other left

/-- As long as a place is free a free place is found, drawn or not. -/
theorem exists_fresh (positive : 0 < length) {marks : Array Bool}
    (free : ∃ place : Fin length, marks[place.val]? = some false) (tries : Nat) (stream : Stream) :
    ∃ place after, (fresh? positive marks tries).run stream = (some place, after) ∧
      marks[place.val]? = some false := by
  induction tries generalizing stream with
  | zero =>
      obtain ⟨place, unmarked⟩ := free
      have found : ((List.finRange length).find? fun place =>
          marks[place.val]? = some false).isSome := by
        rw [List.find?_isSome]
        exact ⟨place, List.mem_finRange place, by simpa using unmarked⟩
      obtain ⟨first, isFirst⟩ := Option.isSome_iff_exists.mp found
      refine ⟨first, stream, ?_, by simpa using List.find?_some isFirst⟩
      unfold fresh?
      rw [isFirst]
      rfl
  | succ tries inductionHypothesis =>
      unfold fresh?
      rw [StateT.run_bind]
      rcases (belowRepeated positive).run stream with ⟨drawn, after⟩
      change ∃ place last, (if marks[drawn.val]? = some false then pure (some drawn)
        else fresh? positive marks tries : Drawing _).run after = (some place, last) ∧ _
      by_cases unmarked : marks[drawn.val]? = some false
      · rw [if_pos unmarked]
        exact ⟨drawn, after, rfl, unmarked⟩
      · rw [if_neg unmarked]
        exact inductionHypothesis after

theorem isSelection_untilFresh (positive : 0 < length) {amount : Nat} (steps : Nat)
    (marks : Array Bool) (taken : List (Fin length)) (stream : Stream)
    (selects : IsSelection amount taken) (holds : Marks marks taken)
    (fits : amount + steps ≤ length) :
    IsSelection (amount + steps) ((untilFresh positive steps marks taken).run stream).1 := by
  induction steps generalizing amount marks taken stream with
  | zero => exact selects
  | succ steps inductionHypothesis =>
      obtain ⟨left, missing⟩ := selects.exists_notMem (by omega)
      obtain ⟨place, after, run, unmarked⟩ :=
        exists_fresh positive ⟨left, holds.free left missing⟩ patience stream
      have fresh : place ∉ taken := by
        intro again
        rw [holds.marked place again] at unmarked
        cases unmarked
      unfold untilFresh
      rw [StateT.run_bind, run]
      have selection := inductionHypothesis _ _ after (selects.cons fresh) (holds.cons fresh)
        (by omega)
      rw [Nat.add_right_comm] at selection
      exact selection

/-- However a selection is drawn, it consists of as many places as were asked for. -/
theorem isSelection_selection (length amount : Nat) (fits : amount ≤ length) (stream : Stream) :
    IsSelection amount ((selection length amount fits).run stream).1 := by
  unfold selection
  cases Plan.choose length amount with
  | partialShuffle =>
      rw [StateT.run_bind]
      exact isSelection_partialShuffle (List.Perm.of_eq Array.toList_ofFn) _ stream
  | growingRange =>
      have drawn := isSelection_growingRange amount fits [] stream .nil
        (fun place member => absurd member List.not_mem_nil)
      rw [Nat.zero_add] at drawn
      rw [StateT.run_bind]
      by_cases many : 50 ≤ amount
      · simp only [if_pos many]
        exact drawn
      · simp only [if_neg many]
        exact drawn
  | untilFresh =>
      by_cases positive : 0 < length
      · have drawn := isSelection_untilFresh positive amount (Array.replicate length false) []
          stream .nil marks_nil (by omega)
        rw [Nat.zero_add] at drawn
        simp only [dif_pos positive]
        exact drawn
      · obtain rfl : amount = 0 := by omega
        simp only [dif_neg positive]
        exact .nil

end Selection

end DatasetDepot.Drawing
