import DatasetDepot.Proofs.Compressed
import DatasetDepot.Proofs.Zero
import Mathlib.Algebra.Order.BigOperators.Group.List
import Mathlib.Algebra.Order.Group.Nat

/-!
What is stored of a compressed matrix.

`Compressed.IsWellFormed` says how the bounds, the places and the stored numbers go together, and
`Compressed.Stores` reads an entry off them.  Main statement: a matrix of any shape is compressed
to a well-formed one that stores the entries that are no zeros and nothing else, from which the
matrix comes back; compressing columns is compressing the rows of the transposed matrix.
-/

namespace DatasetDepot.Compressed

variable {layout : Layout} {rows columns : Nat}

def lanes (compressed : Compressed) : Nat :=
  match compressed.layout with
  | .csr => compressed.rows
  | .csc => compressed.columns

def width (compressed : Compressed) : Nat :=
  match compressed.layout with
  | .csr => compressed.columns
  | .csc => compressed.rows

/-- Where the entries of a lane start; they end where those of the next lane would start. -/
def start (compressed : Compressed) (lane : Nat) : Nat :=
  (compressed.indptr[lane]?).getD 0

/-- The places in a lane that something is stored for. -/
def indicesOf (compressed : Compressed) (lane : Nat) : List Nat :=
  (compressed.indices.extract (compressed.start lane) (compressed.start (lane + 1))).toList

def dataOf (compressed : Compressed) (lane : Nat) : List Single :=
  (compressed.data.extract (compressed.start lane) (compressed.start (lane + 1))).toList

/-- A number is stored for this row and this column. -/
def Stores (compressed : Compressed) (row column : Nat) (entry : Single) : Prop :=
  match compressed.layout with
  | .csr => (column, entry) ∈ (compressed.indicesOf row).zip (compressed.dataOf row)
  | .csc => (row, entry) ∈ (compressed.indicesOf column).zip (compressed.dataOf column)

/-- Every lane has its bounds, and they follow one another up to the end of what is stored.  The
places in a lane ascend and lie inside, and no zero is stored for them. -/
structure IsWellFormed (compressed : Compressed) : Prop where
  size_indptr : compressed.indptr.size = compressed.lanes + 1
  first : compressed.indptr[0]? = some 0
  bounds : compressed.indptr.toList.Pairwise (· ≤ ·)
  last : compressed.indptr[compressed.lanes]? = some compressed.stored
  size_indices : compressed.indices.size = compressed.stored
  ascending : ∀ lane < compressed.lanes, (compressed.indicesOf lane).Pairwise (· < ·)
  inside : ∀ lane < compressed.lanes, ∀ place ∈ compressed.indicesOf lane, place < compressed.width
  plain : ∀ number ∈ compressed.data, number ≠ 0 ∧ number ≠ negativeZero

section Lanes

variable (lanes : List (List (Nat × Single)))

theorem size_indptr_ofLanes :
    (ofLanes layout rows columns lanes).indptr.size = lanes.length + 1 := by
  rw [← Array.length_toList]
  change (bounds _).toList.length = _
  rw [toList_bounds, List.length_map, List.length_range, List.length_map]

theorem start_ofLanes {lane : Nat} (inside : lane ≤ lanes.length) :
    (ofLanes layout rows columns lanes).start lane = ((lanes.map List.length).take lane).sum := by
  unfold start
  rw [getElem?_indptr_ofLanes _ _ _ _ inside, Option.getD_some]

theorem indicesOf_ofLanes {lane : Nat} (inside : lane < lanes.length) :
    (ofLanes layout rows columns lanes).indicesOf lane = lanes[lane].map Prod.fst := by
  unfold indicesOf
  rw [start_ofLanes lanes inside.le, start_ofLanes lanes inside, Array.toList_extract]
  exact extract_flatMap Prod.fst lanes inside

theorem dataOf_ofLanes {lane : Nat} (inside : lane < lanes.length) :
    (ofLanes layout rows columns lanes).dataOf lane = lanes[lane].map Prod.snd := by
  unfold dataOf
  rw [start_ofLanes lanes inside.le, start_ofLanes lanes inside, Array.toList_extract]
  exact extract_flatMap Prod.snd lanes inside

/-- Behind the last lane there is nothing. -/
theorem indicesOf_of_le {lane : Nat} (above : lanes.length ≤ lane) :
    (ofLanes layout rows columns lanes).indicesOf lane = [] := by
  have past : (ofLanes layout rows columns lanes).start (lane + 1) = 0 := by
    unfold start
    rw [Array.getElem?_eq_none (by rw [size_indptr_ofLanes]; omega), Option.getD_none]
  unfold indicesOf
  rw [past]
  simp

theorem zip_ofLanes {lane : Nat} (inside : lane < lanes.length) :
    ((ofLanes layout rows columns lanes).indicesOf lane).zip
      ((ofLanes layout rows columns lanes).dataOf lane) = lanes[lane] := by
  rw [indicesOf_ofLanes lanes inside, dataOf_ofLanes lanes inside, List.zip_map']
  exact List.map_id _

theorem pairwise_bounds (lengths : List Nat) :
    (Compressed.bounds lengths).toList.Pairwise (· ≤ ·) := by
  rw [toList_bounds, List.pairwise_map]
  apply List.pairwise_lt_range.imp
  intro left right before
  exact (List.take_prefix_take_left before.le).sublist.sum_le_sum fun _ _ => Nat.zero_le _

/-- Lanes of ascending places are packed into a well-formed matrix. -/
theorem isWellFormed_ofLanes
    (count : (ofLanes layout rows columns lanes).lanes = lanes.length)
    (ascending : ∀ lane ∈ lanes, (lane.map Prod.fst).Pairwise (· < ·))
    (inside : ∀ lane ∈ lanes, ∀ stored ∈ lane,
      stored.1 < (ofLanes layout rows columns lanes).width)
    (plain : ∀ lane ∈ lanes, ∀ stored ∈ lane, stored.2 ≠ 0 ∧ stored.2 ≠ negativeZero) :
    (ofLanes layout rows columns lanes).IsWellFormed where
  size_indptr := by rw [count, size_indptr_ofLanes]
  first := getElem?_indptr_ofLanes _ _ _ lanes (Nat.zero_le _)
  bounds := pairwise_bounds _
  last := by
    rw [count, getElem?_indptr_ofLanes _ _ _ lanes le_rfl, List.take_of_length_le (by simp)]
    simp [stored, ofLanes]
  size_indices := by simp [stored, ofLanes]
  ascending := by
    intro lane below
    rw [count] at below
    rw [indicesOf_ofLanes lanes below]
    exact ascending _ (List.getElem_mem below)
  inside := by
    intro lane below place member
    rw [count] at below
    rw [indicesOf_ofLanes lanes below] at member
    obtain ⟨stored, isStored, rfl⟩ := List.mem_map.mp member
    exact inside _ (List.getElem_mem below) stored isStored
  plain := by
    intro number member
    obtain ⟨lane, isLane, found⟩ := List.mem_flatMap.mp (List.mem_toArray.mp member)
    obtain ⟨stored, isStored, rfl⟩ := List.mem_map.mp found
    exact plain lane isLane stored isStored

end Lanes

section Entries

variable {width : Nat} (lane : Fin width → Single)

theorem mem_laneEntries_iff (stored : Nat × Single) :
    stored ∈ laneEntries lane ↔
      ∃ place : Fin width, (place.val, lane place) = stored ∧ lane place ≠ 0 ∧
        lane place ≠ negativeZero := by
  unfold laneEntries
  rw [List.mem_filterMap]
  constructor
  · rintro ⟨place, _, kept⟩
    obtain ⟨some, same⟩ := Option.ite_none_right_eq_some.mp kept
    exact ⟨place, Option.some.inj same, (bne_zero_iff _).mp some⟩
  · rintro ⟨place, rfl, some⟩
    exact ⟨place, List.mem_finRange place, if_pos ((bne_zero_iff _).mpr some)⟩

theorem pairwise_laneEntries : ((laneEntries lane).map Prod.fst).Pairwise (· < ·) := by
  unfold laneEntries
  rw [List.pairwise_map, List.pairwise_filterMap]
  apply (List.pairwise_lt_finRange width).imp
  intro left right before first kept second keptToo
  obtain ⟨_, isFirst⟩ := Option.ite_none_right_eq_some.mp kept
  obtain ⟨_, isSecond⟩ := Option.ite_none_right_eq_some.mp keptToo
  rw [← Option.some.inj isFirst, ← Option.some.inj isSecond]
  exact before

/-- The sign of a zero makes no difference to what is stored. -/
theorem laneEntries_unsignZero :
    (laneEntries fun place => unsignZero (lane place)) = laneEntries lane := by
  unfold laneEntries
  apply List.filterMap_congr
  intro place _
  beta_reduce
  rw [← ite_bne_zero (lane place)]
  by_cases stored : (lane place != 0) = true
  · rw [if_pos stored]
  · rw [if_neg stored, if_neg stored]
    exact if_neg (by decide)

end Entries

section Packed

variable {count width : Nat} (entry : Fin count → Fin width → Single)

def pack (layout : Layout) (rows columns : Nat) : Compressed :=
  ofLanes layout rows columns ((List.finRange count).map fun lane => laneEntries (entry lane))

theorem isWellFormed_pack (isCount : (pack entry layout rows columns).lanes = count)
    (isWidth : (pack entry layout rows columns).width = width) :
    (pack entry layout rows columns).IsWellFormed := by
  apply isWellFormed_ofLanes
  · rw [List.length_map, List.length_finRange]
    exact isCount
  · intro lane member
    obtain ⟨place, _, rfl⟩ := List.mem_map.mp member
    exact pairwise_laneEntries (entry place)
  · intro lane member stored isStored
    obtain ⟨place, _, rfl⟩ := List.mem_map.mp member
    obtain ⟨inside, rfl, _⟩ := (mem_laneEntries_iff _ _).mp isStored
    exact inside.isLt.trans_eq isWidth.symm
  · intro lane member stored isStored
    obtain ⟨place, _, rfl⟩ := List.mem_map.mp member
    obtain ⟨inside, rfl, some⟩ := (mem_laneEntries_iff _ _).mp isStored
    exact some

theorem mem_zip_pack_iff (lane place : Nat) (number : Single) :
    (place, number) ∈ ((pack entry layout rows columns).indicesOf lane).zip
        ((pack entry layout rows columns).dataOf lane) ↔
      ∃ (first : Fin count) (second : Fin width), first.val = lane ∧ second.val = place ∧
        entry first second = number ∧ number ≠ 0 ∧ number ≠ negativeZero := by
  by_cases inside : lane < count
  · unfold pack
    rw [zip_ofLanes _ (by simpa using inside), List.getElem_map, List.getElem_finRange,
      mem_laneEntries_iff]
    constructor
    · rintro ⟨second, same, some⟩
      cases same
      exact ⟨⟨lane, inside⟩, second, rfl, rfl, rfl, some⟩
    · rintro ⟨first, second, rfl, rfl, rfl, some⟩
      exact ⟨second, rfl, some⟩
  · unfold pack
    rw [indicesOf_of_le _ (by simpa using inside), List.zip_nil_left]
    constructor
    · intro member
      cases member
    · rintro ⟨first, _, rfl, _⟩
      exact absurd first.isLt inside

end Packed

/-- A well-formed matrix in this layout that stores the entries that are no zeros and nothing
else.  It expands to all entries, save that every zero is the positive one, and is what
compressing those gives again. -/
structure Packs (packed : Compressed) (layout : Layout) (dense : Matrix) : Prop where
  layout_eq : packed.layout = layout
  rows_eq : packed.rows = dense.rows
  columns_eq : packed.columns = dense.columns
  wellFormed : packed.IsWellFormed
  stores : ∀ row column number, packed.Stores row column number ↔
    ∃ (atRow : Fin dense.rows) (atColumn : Fin dense.columns),
      atRow.val = row ∧ atColumn.val = column ∧ dense.entry atRow atColumn = number ∧
        number ≠ 0 ∧ number ≠ negativeZero
  undefined : ∀ (row : Fin dense.rows) (column : Fin dense.columns),
    (dense.entry row column).isNaN = true → packed.Stores row column (dense.entry row column)
  expands : packed.toDense = Matrix.ofFn .rowMajor dense.rows dense.columns fun row column =>
    unsignZero (dense.entry row column)
  again : ofDense layout packed.toDense = packed

theorem isWellFormed_ofDense (layout : Layout) (dense : Matrix) :
    (ofDense layout dense).IsWellFormed := by
  cases layout with
  | csr => exact isWellFormed_pack dense.entry rfl rfl
  | csc => exact isWellFormed_pack (fun column row => dense.entry row column) rfl rfl

theorem stores_ofDense_iff (layout : Layout) (dense : Matrix) (row column : Nat)
    (number : Single) :
    (ofDense layout dense).Stores row column number ↔
      ∃ (atRow : Fin dense.rows) (atColumn : Fin dense.columns),
        atRow.val = row ∧ atColumn.val = column ∧ dense.entry atRow atColumn = number ∧
          number ≠ 0 ∧ number ≠ negativeZero := by
  cases layout with
  | csr => exact mem_zip_pack_iff dense.entry row column number
  | csc =>
      refine (mem_zip_pack_iff (fun column row => dense.entry row column) column row
        number).trans ?_
      constructor
      · rintro ⟨atColumn, atRow, isColumn, isRow, some⟩
        exact ⟨atRow, atColumn, isRow, isColumn, some⟩
      · rintro ⟨atRow, atColumn, isRow, isColumn, some⟩
        exact ⟨atColumn, atRow, isColumn, isRow, some⟩

theorem toDense_ofDense_eq (layout : Layout) (dense : Matrix) :
    (ofDense layout dense).toDense =
      Matrix.ofFn .rowMajor dense.rows dense.columns fun row column =>
        unsignZero (dense.entry row column) := by
  simp only [toDense_ofDense, ite_bne_zero]

theorem ofDense_toDense (layout : Layout) (dense : Matrix) :
    ofDense layout (ofDense layout dense).toDense = ofDense layout dense := by
  rw [toDense_ofDense_eq]
  cases layout with
  | csr =>
      simp only [ofDense, Matrix.rows_ofFn, Matrix.columns_ofFn, Matrix.entry_ofFn,
        laneEntries_unsignZero]
  | csc =>
      simp only [ofDense, Matrix.rows_ofFn, Matrix.columns_ofFn, Matrix.entry_ofFn,
        laneEntries_unsignZero]

/-- Compressing columns stores what compressing the rows of the transposed matrix stores. -/
theorem ofDense_transpose (dense : Matrix) :
    ofDense .csr dense.transpose =
      { ofDense .csc dense with layout := .csr, rows := dense.columns, columns := dense.rows } := by
  simp only [ofDense, Matrix.transpose, Matrix.rows_ofFn, Matrix.columns_ofFn, Matrix.entry_ofFn,
    ofLanes]

theorem packs_ofDense (layout : Layout) (dense : Matrix) :
    (ofDense layout dense).Packs layout dense where
  layout_eq := rfl
  rows_eq := rfl
  columns_eq := rfl
  wellFormed := isWellFormed_ofDense layout dense
  stores := stores_ofDense_iff layout dense
  undefined := by
    intro row column undefined
    apply (stores_ofDense_iff layout dense row column _).mpr
    exact ⟨row, column, rfl, rfl, rfl, (bne_zero_iff _).mp (bne_zero_of_isNaN undefined)⟩
  expands := toDense_ofDense_eq layout dense
  again := ofDense_toDense layout dense

/-- A matrix of any shape is compressed without loss in either layout, and either is the other of
the transposed matrix. -/
theorem packs_and_transposes (dense : Matrix) :
    (∀ layout, (ofDense layout dense).Packs layout dense) ∧
      (ofDense .csc dense).indptr = (ofDense .csr dense.transpose).indptr ∧
      (ofDense .csc dense).indices = (ofDense .csr dense.transpose).indices ∧
      (ofDense .csc dense).data = (ofDense .csr dense.transpose).data := by
  refine ⟨fun layout => packs_ofDense layout dense, ?_, ?_, ?_⟩
  · rw [ofDense_transpose]
  · rw [ofDense_transpose]
  · rw [ofDense_transpose]

end DatasetDepot.Compressed
