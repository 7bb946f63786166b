import DatasetDepot.Proofs.Conversion.Layout
import DatasetDepot.Proofs.Leading

/-!
Rows put one behind the other in a buffer.

Where all rows have one width, what is made of the buffer is the dataset of the rows.
-/

namespace DatasetDepot

variable {width : Nat} {rows : List (Single × Array Single)}

/-- An array is told by its entries up to its size. -/
theorem ofFn_getD {values : Array Single} (size : values.size = width) :
    (Array.ofFn fun place : Fin width => values.getD place 0) = values := by
  subst size
  apply Array.ext
  · exact Array.size_ofFn
  · intro place _ inside
    simp

/-- The buffer of a table: its rows, one behind the other. -/
def rowMajor (rows : List (Single × Array Single)) : Array Single :=
  (rows.flatMap fun row => row.2.toList).toArray

theorem size_rowMajor (sized : ∀ row ∈ rows, row.2.size = width) :
    (rowMajor rows).size = rows.length * width := by
  induction rows with
  | nil => exact (Nat.zero_mul width).symm
  | cons first rest inductionHypothesis =>
      obtain ⟨size, sized⟩ := List.forall_mem_cons.mp sized
      have others := inductionHypothesis sized
      simp only [rowMajor, List.size_toArray, List.flatMap_cons, List.length_append,
        Array.length_toList, List.length_cons] at others ⊢
      rw [others, size, Nat.succ_mul, Nat.add_comm]

theorem getElem?_rowMajor (sized : ∀ row ∈ rows, row.2.size = width) (row : Fin rows.length)
    {column : Nat} (inside : column < width) :
    (rowMajor rows)[row.val * width + column]? = rows[row].2[column]? := by
  obtain ⟨row, below⟩ := row
  induction rows generalizing row with
  | nil => cases below
  | cons first rest inductionHypothesis =>
      obtain ⟨size, sized⟩ := List.forall_mem_cons.mp sized
      simp only [rowMajor, List.getElem?_toArray, List.flatMap_cons] at inductionHypothesis ⊢
      cases row with
      | zero =>
          rw [Nat.zero_mul, Nat.zero_add, List.getElem?_append_left (by simpa [size] using inside)]
          simp
      | succ row =>
          have place : (row + 1) * width + column =
              first.2.toList.length + (row * width + column) := by
            rw [Array.length_toList, size, Nat.succ_mul]
            omega
          rw [place, List.getElem?_append_right (Nat.le_add_right _ _), Nat.add_sub_cancel_left]
          exact inductionHypothesis sized row (Nat.lt_of_succ_lt_succ below)

namespace Dataset

/-- The parts of a dataset make that dataset. -/
theorem ofParts_self (dataset : Dataset) :
    ofParts dataset.features dataset.labels? = .ok dataset := by
  obtain ⟨features, labels?, aligned⟩ := dataset
  cases labels? with
  | none => rfl
  | some labels => exact dif_pos (aligned labels rfl)

/-- The buffer of a table and its labels make a dataset, that of its rows. -/
theorem ofRowMajor_rowMajor (sized : ∀ row ∈ rows, row.2.size = width)
    (countable : max rows.length 1 * max width 1 ≤ maxEntries) :
    ofRowMajor rows.length width (rowMajor rows) (some (rows.map Prod.fst).toArray) =
      .ok (ofRows width rows.toArray) := by
  let dense : Matrix := ⟨rows.length, width, .rowMajor, rowMajor rows, size_rowMajor sized⟩
  have entries : dense.entry = fun row column => rows[row].2.getD column 0 := by
    funext row column
    apply Option.some.inj
    rw [← dense.getElem?_buffer row column]
    refine (getElem?_rowMajor sized row column.isLt).trans ?_
    have inside : column.val < rows[row].2.size :=
      Nat.lt_of_lt_of_eq column.isLt (sized _ (List.getElem_mem row.isLt)).symm
    rw [Array.getD_eq_getD_getElem?, Array.getElem?_eq_getElem inside, Option.getD_some]
  have features : dense = (ofRows width rows.toArray).features :=
    dense.ofFn_entry.symm.trans (congrArg (Matrix.ofFn .rowMajor rows.length width) entries)
  unfold ofRowMajor
  rw [if_pos countable, Matrix.ofBuffer?, dif_pos (size_rowMajor sized)]
  change ofParts dense _ = _
  rw [features, ← labels?_ofRows width rows, ofParts_self]

end Dataset

end DatasetDepot
