import DatasetDepot.Csv
import Mathlib.Algebra.GroupWithZero.Nat
import Mathlib.Algebra.Order.BigOperators.Group.List

/-!
How bytes become records.

A stage is all that scanning keeps of the bytes in front to read those behind.  A line break
outside quotes ends a record, whatever follows it, and no file has more cells than bytes.
-/

namespace DatasetDepot.Csv

/-- A byte that ends a line. -/
def IsBreak (byte : UInt8) : Prop := byte = 0x0A ∨ byte = 0x0D

/-- What the byte behind one is read as part of. -/
def Stage.advance (stage : Stage) (byte : UInt8) : Stage :=
  match stage.step byte with
  | .skip next => next
  | .keep next => next
  | .endField => .fieldStart
  | .endRecord => .betweenRecords

theorem Stage.advance_of_isBreak {stage : Stage} (unquoted : stage ≠ .quoted) {byte : UInt8}
    (isBreak : IsBreak byte) : stage.advance byte = .betweenRecords := by
  rcases isBreak with rfl | rfl <;> cases stage <;> first | rfl | exact absurd rfl unquoted

/-- What has been read stays as it is, whatever follows. -/
theorem exists_scan_append (stage : Stage) (start : Cursor) (fields : List Bytes) (field : Bytes)
    (cursor : Cursor) (front : Bytes) :
    ∃ found start' fields' field' cursor', ∀ behind,
      scan stage start fields field cursor (front ++ behind) =
        found ++ scan (front.foldl Stage.advance stage) start' fields' field' cursor' behind := by
  induction front generalizing stage start fields field cursor with
  | nil => exact ⟨[], start, fields, field, cursor, fun _ => rfl⟩
  | cons byte front inductionHypothesis =>
      simp only [List.cons_append, List.foldl_cons, scan, Stage.advance]
      cases stage.step byte with
      | skip next => exact inductionHypothesis next ..
      | keep next => exact inductionHypothesis next ..
      | endField => exact inductionHypothesis .fieldStart ..
      | endRecord =>
          obtain ⟨found, start', fields', field', cursor', others⟩ :=
            inductionHypothesis .betweenRecords _ [] [] _
          exact ⟨_ :: found, start', fields', field', cursor',
            fun behind => congrArg (List.cons _) (others behind)⟩

/-! Files. -/

/-- The contents behind a byte order mark, and the place where they start. -/
def opening (contents : Bytes) : Cursor × Bytes :=
  match contents with
  | 0xEF :: 0xBB :: 0xBF :: rest => ({ Cursor.start with byte := 3 }, rest)
  | contents => (Cursor.start, contents)

theorem records_eq_scan (contents : Bytes) :
    records contents =
      scan .betweenRecords Cursor.start [] [] (opening contents).1 (opening contents).2 := by
  by_cases marked : ∃ rest, contents = 0xEF :: 0xBB :: 0xBF :: rest
  · obtain ⟨rest, rfl⟩ := marked
    rfl
  · have unmarked : ∀ rest, contents = 0xEF :: 0xBB :: 0xBF :: rest → False := fun rest same =>
      marked ⟨rest, same⟩
    rw [records.eq_2 _ unmarked, opening.eq_2 _ unmarked]

theorem length_opening (contents : Bytes) : (opening contents).2.length ≤ contents.length := by
  unfold opening
  split
  · simp only [List.length_cons]
    omega
  · exact Nat.le_refl _

/-- No byte order mark is broken by the end of a line. -/
theorem opening_append (text : Bytes) {byte : UInt8} (isBreak : IsBreak byte) (behind : Bytes) :
    opening (text ++ byte :: behind) =
      ((opening text).1, (opening text).2 ++ byte :: behind) := by
  rcases text with _ | ⟨first, _ | ⟨second, _ | ⟨third, rest⟩⟩⟩
  · rcases isBreak with rfl | rfl <;> rfl
  · rcases isBreak with rfl | rfl <;> (unfold opening; split <;> simp_all)
  · rcases isBreak with rfl | rfl <;> (unfold opening; split <;> simp_all)
  · unfold opening
    split <;> split <;> simp_all

/-- A front of a file that ends with a line break outside quotes. -/
inductive Breaks : Bytes → Prop where
  | line {text : Bytes} {byte : UInt8} (isBreak : IsBreak byte)
      (unquoted : (opening text).2.foldl Stage.advance .betweenRecords ≠ .quoted) :
      Breaks (text ++ [byte])

/-- What stands behind the end of a line goes to records of its own. -/
theorem Breaks.exists_records_append {front : Bytes} (breaks : Breaks front) (behind : Bytes) :
    ∃ more, records (front ++ behind) = records front ++ more := by
  cases breaks with
  | @line text byte isBreak unquoted =>
      obtain ⟨found, start, fields, field, cursor, scanned⟩ := exists_scan_append .betweenRecords
        Cursor.start [] [] (opening text).1 ((opening text).2 ++ [byte])
      have ended : ((opening text).2 ++ [byte]).foldl Stage.advance .betweenRecords =
          .betweenRecords := by
        rw [List.foldl_append]
        exact Stage.advance_of_isBreak unquoted isBreak
      have front : records (text ++ [byte]) = found := by
        rw [records_eq_scan, opening_append text isBreak, ← List.append_nil (_ ++ [byte]), scanned,
          ended]
        exact List.append_nil found
      refine ⟨scan .betweenRecords start fields field cursor behind, ?_⟩
      rw [front, records_eq_scan, List.append_assoc, List.singleton_append,
        opening_append text isBreak]
      have whole := scanned behind
      rw [ended, List.append_assoc, List.singleton_append] at whole
      exact whole

theorem width_append {records : List Record} (some : records ≠ []) (more : List Record) :
    width (records ++ more) = width records := by
  obtain ⟨first, rest, rfl⟩ := List.exists_cons_of_ne_nil some
  rfl

theorem Columns.dataRecords_append {columns : Columns} {limit : Nat} {records : List Record}
    (some : 1 ≤ limit) (enough : limit ≤ (columns.dataRecords 0 records).length)
    (more : List Record) :
    columns.dataRecords limit (records ++ more) = columns.dataRecords limit records := by
  unfold dataRecords at enough ⊢
  rw [if_pos rfl] at enough
  rw [if_neg (Nat.ne_of_gt some), if_neg (Nat.ne_of_gt some)]
  by_cases hasHeader : columns.hasHeader = true
  · simp only [if_pos hasHeader] at enough ⊢
    rw [List.length_drop] at enough
    rw [List.drop_append_of_le_length (by omega),
      List.take_append_of_le_length (by rw [List.length_drop]; exact enough)]
  · simp only [if_neg hasHeader] at enough ⊢
    rw [List.take_append_of_le_length enough]

/-- Only as much is read as is asked for. -/
theorem Breaks.read_append {columns : Columns} {limit : Nat} {front : Bytes}
    (breaks : Breaks front) (some : 1 ≤ limit)
    (enough : limit ≤ (columns.dataRecords 0 (records front)).length) (behind : Bytes) :
    read columns limit (front ++ behind) = read columns limit front := by
  obtain ⟨more, found⟩ := breaks.exists_records_append behind
  have present : records front ≠ [] := by
    intro none
    have bare : columns.dataRecords 0 [] = [] := by
      unfold Columns.dataRecords
      cases columns.hasHeader <;> rfl
    rw [none, bare, List.length_nil] at enough
    omega
  unfold read ofRecords
  rw [found, Columns.dataRecords_append some enough, width_append present]

/-! Sizes. -/

/-- How many cells a record has, its first one apart if there are others. -/
def Record.weight (record : Record) : Nat := max (record.fields.length - 1) 1

/-- How many cells have been read of the record that is being read. -/
def pending (stage : Stage) (fields : List Bytes) : Nat :=
  if stage = .betweenRecords then 0 else max fields.length 1

theorem pending_of_ne {stage : Stage} (inside : stage ≠ .betweenRecords) (fields : List Bytes) :
    pending stage fields = max fields.length 1 :=
  if_neg inside

theorem pending_le (stage : Stage) (fields : List Bytes) :
    pending stage fields ≤ max fields.length 1 := by
  unfold pending
  split
  · exact Nat.zero_le _
  · exact Nat.le_refl _

theorem length_le_pending {stage : Stage} {fields : List Bytes}
    (fresh : stage = .betweenRecords → fields = []) : fields.length ≤ pending stage fields := by
  by_cases between : stage = .betweenRecords
  · rw [fresh between]
    exact Nat.zero_le _
  · rw [pending_of_ne between]
    exact Nat.le_max_left _ _

theorem Stage.eq_of_step_skip {stage : Stage} {byte : UInt8}
    (step : stage.step byte = .skip .betweenRecords) : stage = .betweenRecords := by
  cases stage <;> grind [Stage.step, Stage.stepStart, Stage.stepPlain]

theorem Stage.ne_of_step_keep {stage next : Stage} {byte : UInt8}
    (step : stage.step byte = .keep next) : next ≠ .betweenRecords := by
  cases stage <;> grind [Stage.step, Stage.stepStart, Stage.stepPlain]

theorem Stage.ne_of_step_endRecord {stage : Stage} {byte : UInt8}
    (step : stage.step byte = .endRecord) : stage ≠ .betweenRecords := by
  cases stage <;> grind [Stage.step, Stage.stepStart, Stage.stepPlain]

/-- Each byte adds one cell at most. -/
theorem sum_weight_scan {stage : Stage} {start : Cursor} {fields : List Bytes} {field : Bytes}
    {cursor : Cursor} (fresh : stage = .betweenRecords → fields = []) (bytes : Bytes) :
    ((scan stage start fields field cursor bytes).map Record.weight).sum ≤
      pending stage fields + bytes.length := by
  induction bytes generalizing stage start fields field cursor with
  | nil =>
      rw [scan, pending]
      split
      · exact Nat.zero_le _
      · simp [Record.weight, finish]
  | cons byte bytes inductionHypothesis =>
      have room := length_le_pending fresh
      rw [scan, List.length_cons]
      cases step : stage.step byte with
      | skip next =>
          refine Nat.le_trans (inductionHypothesis ?_) ?_
          · rintro rfl
            exact fresh (Stage.eq_of_step_skip step)
          · have more := pending_le next fields
            omega
      | keep next =>
          refine Nat.le_trans (inductionHypothesis fun between => ?_) ?_
          · exact absurd between (Stage.ne_of_step_keep step)
          · have more := pending_le next fields
            omega
      | endField =>
          refine Nat.le_trans (inductionHypothesis nofun) ?_
          have more := pending_le .fieldStart (field.reverse :: fields)
          rw [List.length_cons] at more
          omega
      | endRecord =>
          rw [List.map_cons, List.sum_cons]
          have weight : Record.weight ⟨start, finish fields field⟩ = pending stage fields := by
            rw [pending_of_ne (Stage.ne_of_step_endRecord step)]
            simp [Record.weight, finish]
          rw [weight]
          refine Nat.le_trans (Nat.add_le_add_left (inductionHypothesis fun _ => rfl) _) ?_
          have none : pending .betweenRecords [] = 0 := rfl
          omega

theorem sum_weight_records (contents : Bytes) :
    ((records contents).map Record.weight).sum ≤ contents.length := by
  rw [records_eq_scan]
  refine Nat.le_trans (sum_weight_scan (fun _ => rfl) _) ?_
  rw [pending, if_pos rfl, Nat.zero_add]
  exact length_opening contents

end DatasetDepot.Csv
