import DatasetDepot.Proofs.Contents
import DatasetDepot.Proofs.Snapshot.Files
import DatasetDepot.Title

/-!
Datasets that begin as others do.

A dataset of few rows may be narrower than one of more: its rows then begin those of the other
one, which have zeros behind.  Main statement: cropped to as many rows as were asked for, a
dataset that begins another one gives the leading rows of that, or says how many rows that has.
-/

namespace DatasetDepot

/-- A row with zeros behind it, up to a width. -/
def padded (width : Nat) (row : Array Single) : Array Single :=
  row ++ Array.replicate (width - row.size) 0

theorem padded_of_size {width : Nat} {row : Array Single} (size : row.size = width) :
    padded width row = row := by
  rw [padded, size, Nat.sub_self, Array.replicate_zero, Array.append_empty]

namespace Matrix

theorem length_rowList (matrix : Matrix) : matrix.rowList.length = matrix.rows := by
  rw [rowList, List.length_map, List.length_finRange]

theorem size_of_mem_rowList {matrix : Matrix} {row : Array Single}
    (member : row ∈ matrix.rowList) : row.size = matrix.columns := by
  obtain ⟨place, _, rfl⟩ := List.mem_map.mp member
  exact Array.size_ofFn

/-- The rows of a matrix are as long as it is wide. -/
theorem map_take_rowList (matrix : Matrix) (count : Nat) :
    ((matrix.rowList.take count).map fun row => row.take matrix.columns) =
      matrix.rowList.take count := by
  refine (List.map_congr_left fun row member => ?_).trans (List.map_id _)
  rw [← size_of_mem_rowList (List.mem_of_mem_take member), Array.take_eq_extract,
    Array.extract_size, id]

end Matrix

namespace Dataset

/-! Datasets of rows. -/

theorem rows_ofRows (width : Nat) (rows : Array (Single × Array Single)) :
    (ofRows width rows).rows = rows.size := rfl

theorem columns_ofRows (width : Nat) (rows : Array (Single × Array Single)) :
    (ofRows width rows).columns = width := rfl

theorem rowList_ofRows (width : Nat) (rows : List (Single × Array Single)) :
    (ofRows width rows.toArray).features.rowList =
      rows.map fun row => Array.ofFn fun column : Fin width => row.2.getD column 0 := by
  have table := Matrix.contents_ofFn .rowMajor fun (row : Fin rows.toArray.size)
    (column : Fin width) => rows.toArray[row].2.getD column 0
  injection table with _ each
  refine each.trans ?_
  apply List.ext_getElem
  · simp
  · intro place _ _
    simp

theorem labels?_ofRows (width : Nat) (rows : List (Single × Array Single)) :
    (ofRows width rows.toArray).labels? = some (rows.map Prod.fst).toArray := by
  refine congrArg some (Array.ext ?_ fun place _ _ => ?_)
  · simp
  · simp

/-- A dataset whose rows are the leading ones of another one, up to zeros behind them: as many as
are asked for, or all. -/
structure Begins (part whole : Dataset) (limit : Nat) : Prop where
  enough : limit ≤ part.rows ∨ part.rows = whole.rows
  narrow : part.columns ≤ whole.columns
  features : part.features.rowList.map (padded whole.columns) =
    whole.features.rowList.take part.rows
  labels : part.labels? = whole.labels?.map (·.take part.rows)

/-- Leading rows of a list, each shown in few columns and in many. -/
theorem begins_ofRows {Item : Type} (items : List Item) (label : Item → Single)
    (features features' : Item → Array Single) {width width' count limit : Nat}
    (narrow : width ≤ width') (enough : limit ≤ count)
    (pads : ∀ item ∈ items.take count,
      (Array.ofFn fun column : Fin width' => (features' item).getD column 0) =
        padded width' (Array.ofFn fun column : Fin width => (features item).getD column 0)) :
    Begins (ofRows width ((items.take count).map fun item => (label item, features item)).toArray)
      (ofRows width' (items.map fun item => (label item, features' item)).toArray) limit where
  enough := by
    simp only [rows_ofRows, List.size_toArray, List.length_map, List.length_take]
    omega
  narrow := narrow
  features := by
    rw [rowList_ofRows, rowList_ofRows, rows_ofRows, columns_ofRows]
    simp only [List.size_toArray, List.length_map, List.length_take, List.map_map]
    rw [← List.map_take, ← List.take_eq_take_min]
    exact List.map_congr_left fun item member => (pads item member).symm
  labels := by
    rw [labels?_ofRows, labels?_ofRows, rows_ofRows, Option.map_some, List.map_map, List.map_map,
      List.size_toArray, List.length_map, List.length_take, List.take_toArray, ← List.map_take,
      ← List.take_eq_take_min]
    rfl

/-- Only the contents of the longer dataset count. -/
theorem Begins.congr {part whole other : Dataset} {limit : Nat} (begins : part.Begins whole limit)
    (agrees : whole.Agrees other) : part.Begins other limit := by
  have rows : whole.rows = other.rows := Matrix.rows_eq_of_contents agrees.features
  have columns : whole.columns = other.columns := Matrix.columns_eq_of_contents agrees.features
  injection agrees.features with _ each
  refine ⟨?_, ?_, ?_, ?_⟩
  · rw [← rows]
    exact begins.enough
  · rw [← columns]
    exact begins.narrow
  · rw [← columns, ← each]
    exact begins.features
  · rw [← agrees.labels]
    exact begins.labels

end Dataset

namespace Snapshot

/-- Asking for nothing in particular gives all. -/
theorem agrees_of_crop {name : String} {dataset whole : Dataset}
    (given : crop name dataset 0 0 = .ok whole) : dataset.Agrees whole := by
  have answers := answers_crop name dataset 0 0
  rw [given] at answers
  cases answers with
  | leading enoughColumns enoughRows features labels =>
      constructor
      · rw [features, if_pos rfl, if_pos rfl, Dataset.rows, Dataset.columns,
          Matrix.map_take_rowList, List.take_of_length_le (Matrix.length_rowList _).le]
        rfl
      · rw [labels, if_pos rfl]
        cases present : dataset.labels? with
        | none => rfl
        | some values =>
            have size := dataset.aligned values present
            rw [Dataset.rows, ← size, Option.map_some, Array.take_eq_extract, Array.extract_size]

end Snapshot

/-- What is answered when some rows of a dataset are asked for by its title: there are too few, or
the leading ones come.  Rows in sparse form may come in fewer columns, with zeros left out behind
them. -/
inductive Budgeted (title : Title) (whole : Dataset) (rows : Nat) :
    Except Fault Dataset → Prop where
  | few (few : whole.rows < rows) :
      Budgeted title whole rows (.error (.insufficientRows title.name whole.rows rows))
  | leading {part : Dataset} (enough : rows ≤ whole.rows) (height : part.rows = rows)
      (narrow : part.columns ≤ whole.columns)
      (wide : title ≠ .epsilon → part.columns = whole.columns)
      (features : part.features.rowList.map (padded whole.columns) =
        whole.features.rowList.take rows)
      (labels : part.labels? = whole.labels?.map (·.take rows)) :
      Budgeted title whole rows (.ok part)

/-- Cropping a dataset that begins another one. -/
theorem budgeted_crop {title : Title} {part whole : Dataset} {rows : Nat} (some : 1 ≤ rows)
    (begins : part.Begins whole rows) (wide : title ≠ .epsilon → part.columns = whole.columns) :
    Budgeted title whole rows (Snapshot.crop title.name part rows 0) := by
  have answers := Snapshot.answers_crop title.name part rows 0
  generalize Snapshot.crop title.name part rows 0 = answer at answers
  cases answers with
  | fewColumns few => exact absurd few (Nat.not_lt_zero _)
  | fewRows enough few =>
      have all := begins.enough.resolve_left (Nat.not_le.mpr few)
      rw [all]
      rw [all] at few
      exact .few few
  | @leading answer enoughColumns enoughRows features labels =>
      rw [if_pos rfl, if_neg (by omega)] at features
      rw [if_neg (by omega)] at labels
      rw [Dataset.columns, Matrix.map_take_rowList] at features
      injection features with columns each
      have short : rows ≤ whole.rows := by
        have length := congrArg List.length begins.features
        rw [List.length_map, List.length_take, Matrix.length_rowList, Matrix.length_rowList]
          at length
        exact enoughRows.trans (length.le.trans (Nat.min_le_right _ _))
      refine .leading short ?_ (columns.le.trans begins.narrow)
        (fun table => columns.trans (wide table)) ?_ ?_
      · have length := congrArg List.length each
        rw [List.length_take, Matrix.length_rowList, Matrix.length_rowList] at length
        exact length.trans (Nat.min_eq_left enoughRows)
      · rw [each, List.map_take, begins.features, List.take_take, Nat.min_eq_left enoughRows]
      · rw [labels, begins.labels, Option.map_map]
        congr 1
        funext values
        simp [Nat.min_eq_left enoughRows]

end DatasetDepot
