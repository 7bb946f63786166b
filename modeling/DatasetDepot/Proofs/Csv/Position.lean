import DatasetDepot.Proofs.Csv.Record
import DatasetDepot.Proofs.Csv.Scan
import DatasetDepot.Proofs.Lines

/-!
Where records stand in a file.

A record is taken to start right behind the byte that ends the record before it, while the line
breaks in between are read over only then.  Main statement: the line of a record is the number of
the line that goes on there.
-/

namespace DatasetDepot.Csv

/-- How a record stands in a file: behind the records before it come line breaks that are read over,
and then its own bytes, of which the last may be the break that ends it. -/
structure IsPlaced (front gap text : Bytes) (record : Record) : Prop where
  gap_breaks : ∀ byte ∈ gap, IsBreak byte
  first : ∃ byte rest, text = byte :: rest ∧ ¬IsBreak byte
  fields : ∀ start cursor, scan .betweenRecords start [] [] cursor text = [⟨start, record.fields⟩]
  unended : ∀ part, part <+: text → part ≠ [] → part ≠ text →
    part.foldl Stage.advance .betweenRecords ≠ .betweenRecords
  line : record.start.line = lineBehind front

/-- A front of a file holds these records and ends with the break that ends the last one; a mark at
the start of the file is in front of all of them. -/
inductive Covers (mark : Bytes) : Bytes → List Record → Prop where
  | mark : Covers mark mark []
  | record {front gap text : Bytes} {records : List Record} {record : Record}
      (covers : Covers mark front records) (placed : IsPlaced front gap text record)
      (ended : text.foldl Stage.advance .betweenRecords = .betweenRecords) :
      Covers mark (front ++ gap ++ text) (records ++ [record])

/-- What is known while a record is being read, or the breaks in front of it. -/
structure Underway (front gap text : Bytes) (stage : Stage) (start : Cursor)
    (fields : List Bytes) (field : Bytes) (cursor : Cursor) : Prop where
  gap_breaks : ∀ byte ∈ gap, IsBreak byte
  unended : ∀ part, part <+: text → part ≠ [] →
    part.foldl Stage.advance .betweenRecords ≠ .betweenRecords
  stage_eq : text.foldl Stage.advance .betweenRecords = stage
  reading : ∀ start cursor, ∃ cursor', ∀ behind,
    scan .betweenRecords start [] [] cursor (text ++ behind) =
      scan stage start fields field cursor' behind
  start_line : start.line = lineBehind front
  cursor_line : cursor.line = lineBehind (front ++ gap ++ text)

theorem Cursor.line_past (cursor : Cursor) (byte : UInt8) :
    (cursor.past byte).line = cursor.line + [byte].count 0x0A := by
  unfold past
  by_cases feed : byte = 0x0A
  · rw [if_pos feed, feed]
    rfl
  · rw [if_neg feed, List.count_eq_zero_of_not_mem (by simpa using Ne.symm feed)]
    rfl

theorem Underway.line_past {front gap text : Bytes} {stage : Stage} {start : Cursor}
    {fields : List Bytes} {field : Bytes} {cursor : Cursor}
    (underway : Underway front gap text stage start fields field cursor) (byte : UInt8) :
    (cursor.past byte).line = lineBehind (front ++ gap ++ (text ++ [byte])) := by
  rw [Cursor.line_past, underway.cursor_line, ← lineBehind_append, List.append_assoc]

theorem underway_start {front : Bytes} {start cursor : Cursor}
    (start_line : start.line = lineBehind front) (cursor_line : cursor.line = lineBehind front) :
    Underway front [] [] .betweenRecords start [] [] cursor where
  gap_breaks := List.forall_mem_nil _
  unended := fun part isPart some => absurd (List.prefix_nil.mp isPart) some
  stage_eq := rfl
  reading := fun _ cursor => ⟨cursor, fun _ => rfl⟩
  start_line := start_line
  cursor_line := by
    rw [List.append_nil, List.append_nil]
    exact cursor_line

section Steps

variable {front gap text : Bytes} {stage next : Stage} {start cursor : Cursor}
  {fields fields' : List Bytes} {field field' : Bytes} {byte : UInt8}

theorem Underway.text_eq_nil
    (underway : Underway front gap text .betweenRecords start fields field cursor) :
    text = [] := by
  by_contra some
  exact underway.unended text (List.prefix_refl text) some underway.stage_eq

theorem Underway.exists_first
    (underway : Underway front gap text stage start fields field cursor)
    (inside : stage ≠ .betweenRecords) : ∃ byte rest, text = byte :: rest ∧ ¬IsBreak byte := by
  cases text with
  | nil => exact absurd underway.stage_eq.symm inside
  | cons byte rest =>
      refine ⟨byte, rest, rfl, fun isBreak => ?_⟩
      have unquoted : Stage.betweenRecords ≠ .quoted := by decide
      exact underway.unended [byte] ⟨rest, rfl⟩ (List.cons_ne_nil _ _)
        (Stage.advance_of_isBreak unquoted isBreak)

/-- A byte that is read over in front of a record. -/
theorem Underway.skip
    (underway : Underway front gap text .betweenRecords start fields field cursor)
    (isBreak : IsBreak byte) :
    Underway front (gap ++ [byte]) [] .betweenRecords start fields field
      (cursor.past byte) where
  gap_breaks := List.forall_mem_append.mpr
    ⟨underway.gap_breaks, List.forall_mem_singleton.mpr isBreak⟩
  unended := fun part isPart some => absurd (List.prefix_nil.mp isPart) some
  stage_eq := rfl
  reading := underway.text_eq_nil ▸ underway.reading
  start_line := underway.start_line
  cursor_line := by
    rw [underway.line_past, underway.text_eq_nil]
    simp

theorem isBreak_of_step_skip (step : Stage.betweenRecords.step byte = .skip .betweenRecords) :
    IsBreak byte := by
  grind [Stage.step, Stage.stepStart, Stage.stepPlain, IsBreak]

/-- A byte that goes on with a record. -/
theorem Underway.advance
    (underway : Underway front gap text stage start fields field cursor)
    (inside : stage.advance byte ≠ .betweenRecords)
    (step : ∀ start cursor behind, scan stage start fields field cursor (byte :: behind) =
      scan (stage.advance byte) start fields' field' (cursor.past byte) behind) :
    Underway front gap (text ++ [byte]) (stage.advance byte) start fields' field'
      (cursor.past byte) where
  gap_breaks := underway.gap_breaks
  unended := by
    intro part isPart some
    rcases List.prefix_concat_iff.mp isPart with rfl | shorter
    · rw [List.foldl_append, underway.stage_eq]
      exact inside
    · exact underway.unended part shorter some
  stage_eq := by
    rw [List.foldl_append, underway.stage_eq]
    rfl
  reading := by
    intro start cursor
    obtain ⟨cursor', read⟩ := underway.reading start cursor
    refine ⟨cursor'.past byte, fun behind => ?_⟩
    rw [List.append_assoc, List.singleton_append, read, step]
  start_line := underway.start_line
  cursor_line := underway.line_past byte

/-- A byte that ends a record. -/
theorem Underway.isPlaced
    (underway : Underway front gap text stage start fields field cursor)
    (step : stage.step byte = .endRecord) :
    IsPlaced front gap (text ++ [byte]) ⟨start, finish fields field⟩ where
  gap_breaks := underway.gap_breaks
  first := by
    obtain ⟨first, rest, rfl, unbroken⟩ :=
      underway.exists_first (Stage.ne_of_step_endRecord step)
    exact ⟨first, rest ++ [byte], rfl, unbroken⟩
  fields := by
    intro start cursor
    obtain ⟨cursor', read⟩ := underway.reading start cursor
    rw [read, scan, step]
    rfl
  unended := by
    intro part isPart some proper
    rcases List.prefix_concat_iff.mp isPart with whole | shorter
    · exact absurd whole proper
    · exact underway.unended part shorter some
  line := underway.start_line

/-- The end of the file ends a record, too. -/
theorem Underway.isPlaced_of_end
    (underway : Underway front gap text stage start fields field cursor)
    (inside : stage ≠ .betweenRecords) :
    IsPlaced front gap text ⟨start, finish fields field⟩ where
  gap_breaks := underway.gap_breaks
  first := underway.exists_first inside
  fields := by
    intro start cursor
    obtain ⟨cursor', read⟩ := underway.reading start cursor
    rw [← List.append_nil text, read, scan, if_neg inside]
  unended := fun part isPart some _ => underway.unended part isPart some
  line := underway.start_line

/-- What a byte can do: it is read over in front of a record, or goes on with one, or ends it. -/
theorem Underway.scan_cases
    (underway : Underway front gap text stage start fields field cursor) (byte : UInt8)
    (bytes : Bytes) :
    (scan stage start fields field cursor (byte :: bytes) =
          scan .betweenRecords start fields field (cursor.past byte) bytes ∧ text = [] ∧
        Underway front (gap ++ [byte]) [] .betweenRecords start fields field
          (cursor.past byte)) ∨
      (∃ next fields' field', scan stage start fields field cursor (byte :: bytes) =
            scan next start fields' field' (cursor.past byte) bytes ∧
          Underway front gap (text ++ [byte]) next start fields' field' (cursor.past byte)) ∨
      ∃ after : Cursor, scan stage start fields field cursor (byte :: bytes) =
            ⟨start, finish fields field⟩ :: scan .betweenRecords after [] [] after bytes ∧
          after.line = lineBehind (front ++ gap ++ (text ++ [byte])) ∧
          IsPlaced front gap (text ++ [byte]) ⟨start, finish fields field⟩ ∧
          (text ++ [byte]).foldl Stage.advance .betweenRecords = .betweenRecords := by
  cases step : stage.step byte with
  | skip next =>
      by_cases ahead : next = .betweenRecords
      · subst ahead
        obtain rfl := Stage.eq_of_step_skip step
        refine .inl ⟨?_, underway.text_eq_nil, underway.skip (isBreak_of_step_skip step)⟩
        rw [scan, step]
      · have reached : stage.advance byte = next := by rw [Stage.advance, step]
        subst reached
        refine .inr (.inl ⟨_, fields, field, ?_, underway.advance ahead fun _ _ _ => ?_⟩) <;>
          rw [scan, step]
  | keep next =>
      have reached : stage.advance byte = next := by rw [Stage.advance, step]
      subst reached
      refine .inr (.inl ⟨_, fields, byte :: field, ?_,
        underway.advance (Stage.ne_of_step_keep step) fun _ _ _ => ?_⟩) <;> rw [scan, step]
  | endField =>
      have reached : stage.advance byte = .fieldStart := by rw [Stage.advance, step]
      have inside : stage.advance byte ≠ .betweenRecords := by
        rw [reached]
        decide
      refine .inr (.inl ⟨_, field.reverse :: fields, [], ?_,
        underway.advance inside fun _ _ _ => ?_⟩) <;> rw [scan, step, reached]
  | endRecord =>
      refine .inr (.inr ⟨{ cursor.past byte with record := (cursor.past byte).record + 1 }, ?_,
        underway.line_past byte, underway.isPlaced step, ?_⟩)
      · rw [scan, step]
      · rw [List.foldl_append, underway.stage_eq, List.foldl_cons, List.foldl_nil, Stage.advance,
          step]

end Steps

/-- Every record that is found from here on stands behind the records before it. -/
theorem exists_isPlaced_of_scan {mark front gap text : Bytes} {stage : Stage}
    {start cursor : Cursor} {fields : List Bytes} {field bytes : Bytes}
    {earlier before after : List Record} {record : Record} (covers : Covers mark front earlier)
    (underway : Underway front gap text stage start fields field cursor)
    (found : scan stage start fields field cursor bytes = before ++ record :: after) :
    ∃ front' gap' text' behind, front ++ gap ++ text ++ bytes = front' ++ gap' ++ text' ++ behind ∧
      Covers mark front' (earlier ++ before) ∧ IsPlaced front' gap' text' record := by
  induction bytes generalizing front gap text stage start fields field cursor earlier before with
  | nil =>
      rw [scan] at found
      by_cases between : stage = .betweenRecords
      · rw [if_pos between] at found
        exact absurd found.symm (by simp)
      · rw [if_neg between] at found
        cases before with
        | nil =>
            cases found
            refine ⟨front, gap, text, [], rfl, ?_, underway.isPlaced_of_end between⟩
            rw [List.append_nil]
            exact covers
        | cons first before => exact absurd found (by simp)
  | cons byte bytes inductionHypothesis =>
      rcases underway.scan_cases byte bytes with ⟨goes, rfl, underway'⟩ |
        ⟨next, fields', field', goes, underway'⟩ | ⟨cursor', goes, line, placed, ended⟩
      · have others := inductionHypothesis covers underway' (goes ▸ found)
        simpa using others
      · have others := inductionHypothesis covers underway' (goes ▸ found)
        simpa using others
      · rw [goes] at found
        cases before with
        | nil =>
            cases found
            refine ⟨front, gap, text ++ [byte], bytes, by simp, ?_, placed⟩
            rw [List.append_nil]
            exact covers
        | cons first before =>
            obtain ⟨rfl, rest⟩ := List.cons.inj found
            have others := inductionHypothesis (covers.record placed ended)
              (underway_start line line) rest
            simpa using others

/-- The byte order mark of a file, if it has one. -/
def mark (contents : Bytes) : Bytes :=
  match contents with
  | 0xEF :: 0xBB :: 0xBF :: _ => [0xEF, 0xBB, 0xBF]
  | _ => []

theorem mark_spec (contents : Bytes) :
    contents = mark contents ++ (opening contents).2 ∧ lineBehind (mark contents) = 1 ∧
      (opening contents).1.line = 1 := by
  by_cases marked : ∃ rest, contents = 0xEF :: 0xBB :: 0xBF :: rest
  · obtain ⟨rest, rfl⟩ := marked
    exact ⟨rfl, rfl, rfl⟩
  · have unmarked : ∀ rest, contents = 0xEF :: 0xBB :: 0xBF :: rest → False := fun rest same =>
      marked ⟨rest, same⟩
    rw [opening.eq_2 _ unmarked, mark.eq_2 _ unmarked]
    exact ⟨rfl, rfl, rfl⟩

/-- The line of a record is the one that goes on right behind the record before it. -/
theorem exists_isPlaced {contents : Bytes} {before after : List Record} {record : Record}
    (found : records contents = before ++ record :: after) :
    ∃ front gap text behind, contents = front ++ gap ++ text ++ behind ∧
      Covers (mark contents) front before ∧ IsPlaced front gap text record := by
  obtain ⟨marked, first, line⟩ := mark_spec contents
  rw [records_eq_scan] at found
  obtain ⟨front, gap, text, behind, parted, covers, placed⟩ :=
    exists_isPlaced_of_scan .mark (underway_start first.symm (line.trans first.symm)) found
  rw [List.append_nil, List.append_nil] at parted
  exact ⟨front, gap, text, behind, marked.trans parted, covers, placed⟩

end DatasetDepot.Csv
