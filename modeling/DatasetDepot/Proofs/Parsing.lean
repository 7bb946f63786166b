import DatasetDepot.Csv
import DatasetDepot.Svmlight
import DatasetDepot.Proofs.Outcome

/-!
Reading no more rows than are asked for.

What is read of a file that can be read as a whole are its leading rows.  Of a table they keep
the width; rows in sparse form are as wide as the greatest feature among them, and wider rows are
the same with zeros behind.
-/

namespace DatasetDepot

namespace Csv

/-- How wide a dataset of these rows is. -/
def widthOf (rows : List (Single × Array Single)) : Nat :=
  match rows with
  | [] => 0
  | (_, features) :: _ => features.size

theorem read_eq_ok_iff {columns : Columns} {limit : Nat} {contents : Bytes} {dataset : Dataset} :
    read columns limit contents = .ok dataset ↔
      ∃ rows, (columns.dataRecords limit (records contents)).mapM
          (columns.row (width (records contents))) = .ok rows ∧
        dataset = Dataset.ofRows (widthOf rows) rows.toArray := by
  constructor
  · intro run
    obtain ⟨rows, each, run⟩ := exists_of_bind_eq_ok run
    cases run
    exact ⟨rows, each, rfl⟩
  · rintro ⟨rows, each, rfl⟩
    unfold read ofRecords
    rw [each]
    rfl

theorem widthOf_take {limit : Nat} (some : 1 ≤ limit) (rows : List (Single × Array Single)) :
    widthOf (rows.take limit) = widthOf rows := by
  obtain ⟨count, rfl⟩ := Nat.exists_eq_add_of_le' some
  cases rows with
  | nil => rfl
  | cons first rest => rfl

/-- Of a table that can be read, the leading rows can. -/
theorem exists_read_limit {columns : Columns} {limit : Nat} {contents : Bytes} {dataset : Dataset}
    (some : 1 ≤ limit) (whole : read columns 0 contents = .ok dataset) :
    ∃ rows : List (Single × Array Single),
      dataset = Dataset.ofRows (widthOf rows) rows.toArray ∧
        read columns limit contents =
          .ok (Dataset.ofRows (widthOf rows) (rows.take limit).toArray) := by
  obtain ⟨rows, each, rfl⟩ := read_eq_ok_iff.mp whole
  refine ⟨rows, rfl, read_eq_ok_iff.mpr ⟨rows.take limit, ?_, by rw [widthOf_take some]⟩⟩
  have leading : columns.dataRecords limit (records contents) =
      (columns.dataRecords 0 (records contents)).take limit := by
    unfold Columns.dataRecords
    rw [if_neg (by omega), if_pos rfl]
  rw [leading]
  exact mapM_take_eq_ok each limit

end Csv

namespace Svmlight

/-- The rows on lines that can all be read. -/
inductive Spells : List Bytes → List Row → Prop where
  | nil : Spells [] []
  | blank {line : Bytes} {rest : List Bytes} {text : List Char} {all : List Row}
      (decoded : Text.Utf8.decode? line = some text) (read : row? text = .ok none)
      (others : Spells rest all) : Spells (line :: rest) all
  | row {line : Bytes} {rest : List Bytes} {text : List Char} {first : Row} {all : List Row}
      (decoded : Text.Utf8.decode? line = some text) (read : row? text = .ok (some first))
      (others : Spells rest all) : Spells (line :: rest) (first :: all)

theorem spells_of_rows {number : Nat} {lines : List Bytes} {all : List Row}
    (whole : rows none number lines = .ok all) : Spells lines all := by
  induction lines generalizing number all with
  | nil =>
      cases whole
      exact .nil
  | cons line rest inductionHypothesis =>
      rw [rows, if_neg nofun] at whole
      cases decoded : Text.Utf8.decode? line with
      | none =>
          rw [decoded] at whole
          cases whole
      | some text =>
          simp only [decoded] at whole
          cases read : row? text with
          | error slip =>
              rw [read] at whole
              cases whole
          | ok row? =>
              cases row? with
              | none =>
                  simp only [read] at whole
                  exact .blank decoded read (inductionHypothesis whole)
              | some first =>
                  simp only [read] at whole
                  obtain ⟨others, tail, whole⟩ := exists_of_bind_eq_ok whole
                  cases whole
                  exact .row decoded read (inductionHypothesis tail)

theorem Spells.rows_budget {lines : List Bytes} {all : List Row} (spells : Spells lines all)
    (number budget : Nat) : rows (some budget) number lines = .ok (all.take budget) := by
  induction spells generalizing number budget with
  | nil =>
      rw [List.take_nil]
      rfl
  | blank decoded read _ inductionHypothesis =>
      cases budget with
      | zero => rfl
      | succ budget =>
          rw [rows, if_neg (by simp)]
          simp only [decoded, read]
          exact inductionHypothesis (number + 1) (budget + 1)
  | row decoded read _ inductionHypothesis =>
      cases budget with
      | zero => rfl
      | succ budget =>
          rw [rows, if_neg (by simp)]
          simp only [decoded, read, Option.map_some, Nat.add_sub_cancel,
            inductionHypothesis (number + 1) budget]
          rfl

theorem read_limit {limit : Nat} {contents : Bytes} {all : List Row} (some : 1 ≤ limit)
    (whole : read 0 contents = .ok all) : read limit contents = .ok (all.take limit) := by
  unfold read at whole ⊢
  rw [if_neg (by omega)]
  exact (spells_of_rows whole).rows_budget 1 limit

/-! Features are counted from one. -/

/-- A row whose features are counted from one. -/
def Row.IsCounted (row : Row) : Prop := ∀ pair ∈ row.pairs, 0 < pair.1

theorem positive_of_pair? {word : List Char} {pair : Nat × Single}
    (read : pair? word = .ok (some pair)) : 0 < pair.1 := by
  unfold pair? at read
  simp only at read
  split at read
  · cases read
  · split at read
    · cases read
    · split at read
      · cases read
      · rename_i feature found
        have positive := (Option.filter_eq_some_iff.mp found).2
        split at read
        · cases read
        · cases read
          exact of_decide_eq_true positive

theorem isCounted_of_row? {text : List Char} {row : Row} (read : row? text = .ok (some row)) :
    row.IsCounted := by
  unfold row? at read
  split at read
  · cases read
  · split at read
    · cases read
    · obtain ⟨pairs', found, read⟩ := exists_of_bind_eq_ok read
      cases read
      obtain ⟨results, each, found⟩ := exists_of_bind_eq_ok found
      cases found
      intro pair member
      obtain ⟨_, present, rfl⟩ := List.mem_filterMap.mp member
      obtain ⟨word, _, read⟩ := exists_of_mem_of_mapM_eq_ok each _ present
      exact positive_of_pair? read

theorem isCounted_of_rows {budget? : Option Nat} {number : Nat} {lines : List Bytes}
    {all : List Row} (run : rows budget? number lines = .ok all) : ∀ row ∈ all, row.IsCounted := by
  induction lines generalizing budget? number all with
  | nil =>
      cases run
      exact List.forall_mem_nil _
  | cons line rest inductionHypothesis =>
      by_cases spent : budget? = some 0
      · rw [rows, if_pos spent] at run
        cases run
        exact List.forall_mem_nil _
      · rw [rows, if_neg spent] at run
        cases decoded : Text.Utf8.decode? line with
        | none =>
            rw [decoded] at run
            cases run
        | some text =>
            simp only [decoded] at run
            rcases read : row? text with slip | _ | first
            · rw [read] at run
              cases run
            · simp only [read] at run
              exact inductionHypothesis run
            · simp only [read] at run
              obtain ⟨others, tail, run⟩ := exists_of_bind_eq_ok run
              cases run
              exact List.forall_mem_cons.mpr ⟨isCounted_of_row? read, inductionHypothesis tail⟩

theorem isCounted_of_read {limit : Nat} {contents : Bytes} {all : List Row}
    (run : read limit contents = .ok all) : ∀ row ∈ all, row.IsCounted :=
  isCounted_of_rows run

/-! Widths. -/

theorem foldl_max_le_iff {numbers : List Nat} {start bound : Nat} :
    numbers.foldl max start ≤ bound ↔ start ≤ bound ∧ ∀ number ∈ numbers, number ≤ bound := by
  induction numbers generalizing start with
  | nil => simp
  | cons first rest inductionHypothesis =>
      rw [List.foldl_cons, inductionHypothesis, Nat.max_le, List.forall_mem_cons, and_assoc]

theorem Row.width_le_iff {row : Row} {bound : Nat} :
    row.width ≤ bound ↔ ∀ pair ∈ row.pairs, pair.1 ≤ bound := by
  rw [Row.width, foldl_max_le_iff, List.forall_mem_map]
  exact and_iff_right (Nat.zero_le bound)

theorem width_le_iff {rows : List Row} {bound : Nat} :
    width rows ≤ bound ↔ ∀ row ∈ rows, row.width ≤ bound := by
  rw [width, foldl_max_le_iff, List.forall_mem_map]
  exact and_iff_right (Nat.zero_le bound)

theorem width_mono {rows more : List Row} (within : rows ⊆ more) : width rows ≤ width more :=
  width_le_iff.mpr fun row member => width_le_iff.mp (Nat.le_refl _) row (within member)

theorem size_foldl_set (pairs : List (Nat × Single)) (values : Array Single) :
    (pairs.foldl (fun values pair => values.setIfInBounds (pair.1 - 1) pair.2) values).size =
      values.size := by
  induction pairs generalizing values with
  | nil => rfl
  | cons pair rest inductionHypothesis =>
      rw [List.foldl_cons, inductionHypothesis, Array.size_setIfInBounds]

theorem size_dense (width : Nat) (row : Row) : (row.dense width).size = width := by
  rw [Row.dense, size_foldl_set, Array.size_replicate]

/-- Values that are put in front of others leave those alone. -/
theorem foldl_set_append {pairs : List (Nat × Single)} {values others : Array Single}
    (inside : ∀ pair ∈ pairs, pair.1 - 1 < values.size) :
    pairs.foldl (fun values pair => values.setIfInBounds (pair.1 - 1) pair.2) (values ++ others) =
      pairs.foldl (fun values pair => values.setIfInBounds (pair.1 - 1) pair.2) values ++
        others := by
  induction pairs generalizing values with
  | nil => rfl
  | cons pair rest inductionHypothesis =>
      have first := inside pair List.mem_cons_self
      rw [List.foldl_cons, List.foldl_cons, Array.setIfInBounds_append_left first]
      apply inductionHypothesis
      intro other member
      rw [Array.size_setIfInBounds]
      exact inside other (List.mem_cons_of_mem _ member)

/-- A row in more columns than it needs ends in zeros. -/
theorem Row.dense_eq_append {row : Row} (isCounted : row.IsCounted) {narrow wide : Nat}
    (fits : row.width ≤ narrow) (more : narrow ≤ wide) :
    row.dense wide = row.dense narrow ++ Array.replicate (wide - narrow) 0 := by
  have parted : Array.replicate wide (0 : Single) =
      Array.replicate narrow 0 ++ Array.replicate (wide - narrow) 0 := by
    rw [Array.replicate_append_replicate, Nat.add_sub_cancel' more]
  unfold Row.dense
  rw [parted]
  apply foldl_set_append
  intro pair member
  have counted := isCounted pair member
  have inside := Row.width_le_iff.mp fits pair member
  rw [Array.size_replicate]
  omega

end Svmlight

end DatasetDepot
