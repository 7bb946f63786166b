import DatasetDepot.Conversion.Sparsify
import DatasetDepot.Proofs.Compressed
import DatasetDepot.Proofs.Contents
import DatasetDepot.Proofs.Drawing
import Mathlib.Data.Finset.Card
import Mathlib.Data.Fintype.Prod
import Mathlib.Logic.Equiv.Fin.Basic

/-!
What a sparse representation keeps.

`Matrix.IsThinned` says that a matrix was copied save for a bounded number of entries that
now read as the positive zero.  Main statement: the sparse representation of a matrix,
expanded again, is the matrix thinned by no more entries than the ratio asks for.
-/

namespace DatasetDepot

/-- The other matrix has the same shape.  Wherever it does not have the same entry it reads
as the positive zero, and that has taken the place of at most `limit` entries that were
not zero. -/
def Matrix.IsThinned (dense thinned : Matrix) (limit : Nat) : Prop :=
  ∃ entries : Fin dense.rows → Fin dense.columns → Single,
    thinned = Matrix.ofFn .rowMajor dense.rows dense.columns entries ∧
    (∀ row column,
      entries row column = dense.entry row column ∨ entries row column = Single.ofBits 0) ∧
    (Finset.univ.filter fun place : Fin dense.rows × Fin dense.columns =>
      entries place.1 place.2 = Single.ofBits 0 ∧
        (dense.entry place.1 place.2 != 0) = true).card ≤ limit

theorem Matrix.IsThinned.mono {dense thinned : Matrix} {limit greater : Nat}
    (holds : dense.IsThinned thinned limit) (atMost : limit ≤ greater) :
    dense.IsThinned thinned greater := by
  obtain ⟨entries, reads, kept, lost⟩ := holds
  exact ⟨entries, reads, kept, lost.trans atMost⟩

theorem Matrix.IsThinned.reorder {dense thinned : Matrix} {limit : Nat}
    (holds : dense.IsThinned thinned limit) (order : Order) :
    (dense.reorder order).IsThinned thinned limit := by
  obtain ⟨entries, reads, kept, lost⟩ := holds
  refine ⟨entries, reads, ?_, ?_⟩
  · intro row column
    rw [Matrix.entry_reorder order dense row column]
    exact kept row column
  · refine (Finset.card_le_card ?_).trans lost
    intro place member
    obtain ⟨_, gone, stored⟩ := Finset.mem_filter.mp member
    rw [Matrix.entry_reorder order dense place.1 place.2] at stored
    exact Finset.mem_filter.mpr ⟨Finset.mem_univ _, gone, stored⟩

namespace Sparsify

theorem getElem?_foldl_marks {size : Nat} (places : List (Fin size)) (marks : Array Bool)
    (full : marks.size = size) (place : Fin size) :
    (places.foldl (fun marks place => marks.setIfInBounds place.val true) marks)[place.val]? =
      if place ∈ places then some true else marks[place.val]? := by
  induction places generalizing marks with
  | nil => simp
  | cons other rest inductionHypothesis =>
      rw [List.foldl_cons, inductionHypothesis _ (by simpa using full)]
      by_cases same : other = place
      · subst same
        simp [full]
      · have apart : other.val ≠ place.val := fun equal => same (Fin.ext equal)
        simp [apart, Ne.symm same]

theorem getElem_erase (entries : Array Single) (places : List (Fin entries.size))
    (place : Fin entries.size) :
    getElem (erase entries places) place.val (by rw [size_erase]; exact place.isLt) =
      if place ∈ places then 0 else getElem entries place.val place.isLt := by
  have marked := getElem?_foldl_marks places (Array.replicate entries.size false)
    Array.size_replicate place
  unfold erase
  simp only [Array.getElem_mapIdx, Array.getD_eq_getD_getElem?, marked]
  by_cases chosen : place ∈ places <;> simp [chosen]

/-- The place of an entry when the rows follow one another. -/
def placeOf (dense : Matrix) (row : Fin dense.rows) (column : Fin dense.columns) :
    Fin (dense.reorder .rowMajor).buffer.size :=
  ⟨Order.rowMajor.place dense.rows dense.columns row column, by
    rw [(dense.reorder .rowMajor).size_buffer]
    exact Order.rowMajor.place_lt row.isLt column.isLt⟩

theorem placeOf_injective (dense : Matrix) :
    Function.Injective fun place : Fin dense.rows × Fin dense.columns =>
      placeOf dense place.1 place.2 := by
  intro left right equal
  apply finProdFinEquiv.injective
  have places : left.1.val * dense.columns + left.2.val =
      right.1.val * dense.columns + right.2.val := congrArg Fin.val equal
  apply Fin.ext
  simp only [finProdFinEquiv_apply_val]
  rw [Nat.mul_comm dense.columns, Nat.mul_comm dense.columns, Nat.add_comm, places, Nat.add_comm]

theorem entry_erased (dense : Matrix)
    (places : List (Fin (dense.reorder .rowMajor).buffer.size))
    (row : Fin dense.rows) (column : Fin dense.columns) :
    (erased dense places).entry row column =
      if placeOf dense row column ∈ places then 0 else dense.entry row column := by
  refine (getElem_erase _ places (placeOf dense row column)).trans ?_
  congr 1
  exact Matrix.entry_reorder .rowMajor dense row column

/-- What an entry of an erased matrix reads as once it was compressed and expanded. -/
def remains (dense : Matrix) (places : List (Fin (dense.reorder .rowMajor).buffer.size))
    (row : Fin dense.rows) (column : Fin dense.columns) : Single :=
  if ((erased dense places).entry row column != 0) = true then
    (erased dense places).entry row column
  else 0

theorem remains_of_mem {dense : Matrix} {places : List (Fin (dense.reorder .rowMajor).buffer.size)}
    {row : Fin dense.rows} {column : Fin dense.columns}
    (chosen : placeOf dense row column ∈ places) : remains dense places row column = 0 := by
  unfold remains
  rw [entry_erased, if_pos chosen]
  exact ite_self 0

theorem remains_of_notMem {dense : Matrix}
    {places : List (Fin (dense.reorder .rowMajor).buffer.size)}
    {row : Fin dense.rows} {column : Fin dense.columns}
    (left : placeOf dense row column ∉ places) :
    remains dense places row column =
      if (dense.entry row column != 0) = true then dense.entry row column else 0 := by
  unfold remains
  rw [entry_erased, if_neg left]

theorem isThinned_erased (layout : Layout) (dense : Matrix)
    (places : List (Fin (dense.reorder .rowMajor).buffer.size)) :
    dense.IsThinned (Compressed.ofDense layout (erased dense places)).toDense places.length := by
  have zero : (0 : Single) = Single.ofBits 0 := by decide
  refine ⟨remains dense places, Compressed.toDense_ofDense layout (erased dense places), ?_, ?_⟩
  · intro row column
    by_cases chosen : placeOf dense row column ∈ places
    · exact Or.inr ((remains_of_mem chosen).trans zero)
    · rw [remains_of_notMem chosen]
      by_cases stored : (dense.entry row column != 0) = true
      · exact Or.inl (if_pos stored)
      · exact Or.inr ((if_neg stored).trans zero)
  · have lost : ∀ place : Fin dense.rows × Fin dense.columns,
        remains dense places place.1 place.2 = Single.ofBits 0 →
        (dense.entry place.1 place.2 != 0) = true →
        placeOf dense place.1 place.2 ∈ places := by
      intro place gone stored
      by_contra left
      rw [remains_of_notMem left, if_pos stored, ← zero] at gone
      rw [gone] at stored
      exact absurd stored (by decide)
    calc _ ≤ places.toFinset.card := by
          apply Finset.card_le_card_of_injOn fun place => placeOf dense place.1 place.2
          · intro place member
            obtain ⟨_, gone, stored⟩ := Finset.mem_filter.mp member
            exact List.mem_toFinset.mpr (lost place gone stored)
          · exact (placeOf_injective dense).injOn
      _ ≤ places.length := List.toFinset_card_le places

/-- Whatever is drawn, the sparse representation of a matrix expands to the matrix thinned
by no more entries than its share. -/
theorem compress_run (layout : Layout) (ratio : Double) (dense : Matrix) (stream : Stream) :
    ∃ compressed after, (compress layout ratio dense).run stream = (.sparse compressed, after) ∧
      dense.IsThinned compressed.toDense
        (Share.ofSize Rounding.toNearest (dense.rows * dense.columns) ratio.shareValue) := by
  let drawn := (places (dense.reorder .rowMajor).buffer.size ratio).run stream
  refine ⟨Compressed.ofDense layout (erased dense drawn.1), drawn.2, rfl, ?_⟩
  have few : drawn.1.length ≤
      Share.ofSize Rounding.toNearest (dense.rows * dense.columns) ratio.shareValue := by
    have size : (dense.reorder .rowMajor).buffer.size = dense.rows * dense.columns :=
      (dense.reorder .rowMajor).size_buffer
    rw [← size]
    exact (Drawing.isSelection_selection _ _ _ stream).length_eq.le
  exact (isThinned_erased layout dense drawn.1).mono few

end Sparsify

end DatasetDepot
