import DatasetDepot.Compressed
import Mathlib.Algebra.BigOperators.Group.List.Lemmas
import Mathlib.Algebra.GroupWithZero.Nat
import Mathlib.Order.Fin.Basic

/-!
Compressed matrices read back.

The bounds of packed lanes are the sums of the lengths before them, so that each lane is
found again between its bounds.  Main statement: a matrix that was compressed and expanded
again has its old entries, save that every zero comes back as the positive one.
-/

namespace DatasetDepot.Compressed

theorem toList_foldl_bounds (lengths : List Nat) (marks : Array Nat) (total : Nat) :
    (lengths.foldl (fun (marks, total) length => (marks.push (total + length), total + length))
      (marks, total)).1.toList =
      marks.toList ++
        (List.range lengths.length).map fun place => total + (lengths.take (place + 1)).sum := by
  induction lengths generalizing marks total with
  | nil => simp
  | cons length rest inductionHypothesis =>
      rw [List.foldl_cons, inductionHypothesis, List.length_cons, List.range_succ_eq_map]
      simp [Nat.add_assoc, Function.comp_def]

theorem toList_bounds (lengths : List Nat) :
    (bounds lengths).toList =
      (List.range (lengths.length + 1)).map fun place => (lengths.take place).sum := by
  unfold bounds
  rw [toList_foldl_bounds, List.range_succ_eq_map]
  simp [Function.comp_def]

/-- A lane starts where the lanes before it end. -/
theorem getElem?_bounds (lengths : List Nat) {place : Nat} (inside : place ≤ lengths.length) :
    (bounds lengths)[place]? = some (lengths.take place).sum := by
  rw [← Array.getElem?_toList, toList_bounds, List.getElem?_map,
    List.getElem?_range (by omega), Option.map_some]

theorem extract_flatten {Entry : Type} (lanes : List (List Entry)) (place : Nat)
    (inside : place < lanes.length) :
    lanes.flatten.extract ((lanes.map List.length).take place).sum
      ((lanes.map List.length).take (place + 1)).sum = lanes[place] := by
  rw [List.extract_eq_drop_take']
  exact List.drop_take_succ_flatten_eq_getElem lanes place inside

theorem extract_flatMap {Item : Type} (field : Nat × Single → Item)
    (lanes : List (List (Nat × Single))) {place : Nat} (inside : place < lanes.length) :
    (lanes.flatMap fun lane => lane.map field).extract
      ((lanes.map List.length).take place).sum
      ((lanes.map List.length).take (place + 1)).sum = lanes[place].map field := by
  have found := extract_flatten (lanes.map fun lane => lane.map field) place
    (by simpa using inside)
  simpa [List.flatMap_def, Function.comp_def] using found

theorem getElem?_indptr_ofLanes (layout : Layout) (rows columns : Nat)
    (lanes : List (List (Nat × Single))) {place : Nat} (inside : place ≤ lanes.length) :
    (ofLanes layout rows columns lanes).indptr[place]? =
      some ((lanes.map List.length).take place).sum :=
  getElem?_bounds _ (by simpa using inside)

/-- The stored entries of a lane are found between its bounds. -/
theorem lane_ofLanes (layout : Layout) (rows columns width : Nat)
    (lanes : List (List (Nat × Single))) {place : Nat} (inside : place < lanes.length) :
    (ofLanes layout rows columns lanes).lane width place =
      lanes[place].foldl (fun entries stored => entries.setIfInBounds stored.1 stored.2)
        (Array.replicate width 0) := by
  unfold lane
  rw [getElem?_indptr_ofLanes _ _ _ _ inside.le, getElem?_indptr_ofLanes _ _ _ _ inside]
  unfold ofLanes
  simp only [Option.getD_some]
  rw [← Array.foldl_toList, Array.toList_zip, Array.toList_extract, Array.toList_extract,
    extract_flatMap Prod.fst lanes inside, extract_flatMap Prod.snd lanes inside]
  rw [List.zip_map', List.map_id'']
  simp

/-- Entries are put in place whatever was put before, as each place has one value only. -/
theorem getElem?_foldl_laneEntries {width : Nat} (lane : Fin width → Single)
    (places : List (Fin width)) (entries : Array Single) (size : entries.size = width)
    (place : Fin width) :
    ((places.filterMap fun other =>
        if lane other != 0 then some (other.val, lane other) else none).foldl
      (fun entries stored => entries.setIfInBounds stored.1 stored.2) entries)[place.val]? =
      if place ∈ places ∧ (lane place != 0) = true then some (lane place)
      else entries[place.val]? := by
  induction places generalizing entries with
  | nil => simp
  | cons other rest inductionHypothesis =>
      by_cases stored : (lane other != 0) = true
      · rw [List.filterMap_cons, if_pos stored]
        simp only [List.foldl_cons]
        rw [inductionHypothesis _ (by simpa using size)]
        by_cases same : other = place
        · subst same
          simp [stored, size]
        · have apart : other.val ≠ place.val := fun equal => same (Fin.ext equal)
          simp [apart, Ne.symm same]
      · rw [List.filterMap_cons, if_neg stored]
        simp only
        rw [inductionHypothesis entries size]
        by_cases same : other = place
        · subst same
          simp [stored]
        · simp [Ne.symm same]

theorem getElem?_foldl_lane {width : Nat} (lane : Fin width → Single) (place : Fin width) :
    ((laneEntries lane).foldl (fun entries stored => entries.setIfInBounds stored.1 stored.2)
      (Array.replicate width 0))[place.val]? =
      some (if lane place != 0 then lane place else 0) := by
  unfold laneEntries
  rw [getElem?_foldl_laneEntries lane _ _ Array.size_replicate place]
  by_cases stored : (lane place != 0) = true <;> simp [stored]

theorem toDense_csr {compressed : Compressed} (byRows : compressed.layout = .csr) :
    compressed.toDense = Matrix.ofFn .rowMajor compressed.rows compressed.columns
      fun row column => ((compressed.lane compressed.columns row)[column.val]?).getD 0 := by
  simp [toDense, byRows]

theorem toDense_csc {compressed : Compressed} (byColumns : compressed.layout = .csc) :
    compressed.toDense = Matrix.ofFn .rowMajor compressed.rows compressed.columns
      fun row column => ((compressed.lane compressed.rows column)[row.val]?).getD 0 := by
  simp [toDense, byColumns]

/-- A matrix that was compressed and expanded again has its old entries, with every zero
the positive one. -/
theorem toDense_ofDense (layout : Layout) (dense : Matrix) :
    (ofDense layout dense).toDense =
      Matrix.ofFn .rowMajor dense.rows dense.columns fun row column =>
        if dense.entry row column != 0 then dense.entry row column else 0 := by
  cases layout with
  | csr =>
      rw [toDense_csr rfl]
      congr 1
      funext row column
      have found := getElem?_foldl_lane (fun column => dense.entry row column) column
      unfold ofDense
      rw [lane_ofLanes _ _ _ _ _ (by rw [List.length_map, List.length_finRange]; exact row.isLt),
        List.getElem_map, List.getElem_finRange]
      exact congrArg (fun entry? => entry?.getD 0) found
  | csc =>
      rw [toDense_csc rfl]
      congr 1
      funext row column
      have found := getElem?_foldl_lane (fun row => dense.entry row column) row
      unfold ofDense
      rw [lane_ofLanes _ _ _ _ _ (by rw [List.length_map, List.length_finRange]; exact column.isLt),
        List.getElem_map, List.getElem_finRange]
      exact congrArg (fun entry? => entry?.getD 0) found

end DatasetDepot.Compressed
