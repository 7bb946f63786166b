import DatasetDepot.Proofs.Csv.Position
import DatasetDepot.Proofs.Csv.Table

/-!
Lines that faults name.

Main statement: in sparse files a fault names the line it is on.  In tables it names the line that
goes on behind the record before, which is the line of the record itself only if no line feed is
read over in between.
-/

namespace DatasetDepot

namespace Svmlight

/-- Lines are counted one by one, whatever is on them. -/
theorem exists_of_rows_eq_error {budget? : Option Nat} {number place : Nat} {lines : List Bytes}
    {slip : Slip} (run : rows budget? number lines = .error (.slip place slip)) :
    ∃ before line after text, lines = before ++ line :: after ∧ place = number + before.length ∧
      Text.Utf8.decode? line = some text ∧ row? text = .error slip := by
  induction lines generalizing budget? number with
  | nil => cases run
  | cons line lines inductionHypothesis =>
      rw [rows] at run
      by_cases spent : budget? = some 0
      · rw [if_pos spent] at run
        cases run
      rw [if_neg spent] at run
      have later : ∀ budget?, rows budget? (number + 1) lines = .error (.slip place slip) →
          ∃ before line' after text, line :: lines = before ++ line' :: after ∧
            place = number + before.length ∧ Text.Utf8.decode? line' = some text ∧
            row? text = .error slip := by
        intro budget? run
        obtain ⟨before, line', after, text, rfl, rfl, decoded, slips⟩ := inductionHypothesis run
        refine ⟨line :: before, line', after, text, rfl, ?_, decoded, slips⟩
        rw [List.length_cons]
        omega
      cases decoded : Text.Utf8.decode? line with
      | none =>
          rw [decoded] at run
          cases run
      | some text =>
          simp only [decoded] at run
          rcases read : row? text with slip' | (_ | row)
          · rw [read] at run
            cases run
            exact ⟨[], line, lines, text, rfl, rfl, decoded, read⟩
          · rw [read] at run
            exact later budget? run
          · rw [read] at run
            cases rest : rows (budget?.map (· - 1)) (number + 1) lines with
            | error defect =>
                simp only [rest] at run
                cases run
                exact later _ rest
            | ok others =>
                simp only [rest] at run
                cases run

end Svmlight

namespace Csv

variable {columns : Columns} {width limit : Nat} {record : Record} {defect : Defect}

theorem Columns.Slips.line_eq (slips : columns.Slips width record defect) :
    defect.line = record.start.line ∨
      defect.line = 1 ∧ ∃ field byte, defect = .notText Cursor.start field byte := by
  cases slips with
  | unequal => exact .inl rfl
  | garbled _ fails =>
      obtain ⟨_, _, ⟨field, undecoded⟩⟩ := fails.exists_mem
      unfold textStart
      split
      · exact .inr ⟨rfl, _, _, rfl⟩
      · exact .inl rfl
  | misread _ _ fails =>
      obtain ⟨_, _, ⟨_, _⟩⟩ := fails.exists_mem
      exact .inl rfl
  | unlabelled => exact .inl rfl

/-- Records that hold data are behind one another. -/
theorem Columns.exists_of_dataRecords_eq {found used : List Record}
    (data : columns.dataRecords limit found = used) :
    ∃ header rest, found = header ++ used ++ rest := by
  subst data
  have below : ∃ header, found = header ++ if columns.hasHeader then found.drop 1 else found := by
    split
    · exact ⟨found.take 1, (List.take_append_drop 1 found).symm⟩
    · exact ⟨[], rfl⟩
  obtain ⟨header, parted⟩ := below
  unfold dataRecords
  by_cases whole : limit = 0
  · refine ⟨header, [], ?_⟩
    rw [if_pos whole, List.append_nil]
    exact parted
  · refine ⟨header, (if columns.hasHeader then found.drop 1 else found).drop limit, ?_⟩
    rw [if_neg whole, List.append_assoc, List.take_append_drop]
    exact parted

/-- The first record that is no row, what is wrong with it, and where it stands in the file. -/
structure Refuses (columns : Columns) (limit : Nat) (contents : Bytes) (record : Record)
    (defect : Defect) (front gap text : Bytes) : Prop where
  first : ∃ before after rows,
    columns.dataRecords limit (records contents) = before ++ record :: after ∧
      List.Forall₂ (columns.Spells (Csv.width (records contents))) before rows
  slips : columns.Slips (Csv.width (records contents)) record defect
  parted : ∃ behind, contents = front ++ gap ++ text ++ behind
  covers : ∃ earlier later, records contents = earlier ++ record :: later ∧
    Covers (mark contents) front earlier
  placed : IsPlaced front gap text record

theorem exists_refuses {path : Path} {contents : Bytes} {number : Nat} {message : String}
    (run : (ofRecords columns limit (records contents)).mapError (Published.tableFault path) =
      .error (.parse path.text number message)) :
    ∃ record defect front gap text, Refuses columns limit contents record defect front gap text ∧
      number = defect.line ∧ message = defect.text := by
  have tabulates := tabulates_ofRecords path columns limit (records contents)
  rw [run] at tabulates
  generalize data : columns.dataRecords limit (records contents) = used at tabulates
  cases tabulates with
  | @slip before after record rows defect parted each slips =>
      subst parted
      obtain ⟨header, rest, whole⟩ := Columns.exists_of_dataRecords_eq data
      have found : records contents = (header ++ before) ++ record :: (after ++ rest) := by
        rw [whole]
        simp
      obtain ⟨front, gap, text, behind, parted, covers, placed⟩ := exists_isPlaced found
      exact ⟨record, defect, front, gap, text,
        ⟨⟨before, after, rows, data, each⟩, slips, ⟨behind, parted⟩,
          ⟨header ++ before, after ++ rest, found, covers⟩, placed⟩, rfl, rfl⟩

end Csv

/-- In a sparse file the line that a fault names is the one the fault is on.  In a table it is the
line that goes on behind the record before: the line of the record itself is as much further as
there are line feeds in between, be they of blank lines or of the end of the line before, when that
has a carriage return.  A record behind a header that is not text is put on the first line. -/
theorem names_lines {path : Path} {world : World} {contents : Bytes}
    (stored : world.store.read path = .ok contents) (limit number : Nat) (message : String) :
    (((Published.readRows limit path).run.run world).1 =
          .error (.parse path.text number message) →
        ∃ front line text slip, IsLine contents front line ∧
          Text.Utf8.decode? line = some text ∧ Svmlight.row? text = .error slip ∧
          message = slip.text ∧ number = lineBehind front) ∧
      ∀ columns : Csv.Columns,
        ((Published.readTable columns limit path).run.run world).1 =
            .error (.parse path.text number message) →
          ∃ record defect front gap text,
            Csv.Refuses columns limit contents record defect front gap text ∧
              message = defect.text ∧
              (number + gap.count 0x0A = lineBehind (front ++ gap) ∨
                number = 1 ∧ ∃ field byte, defect = .notText Csv.Cursor.start field byte) := by
  constructor
  · intro run
    rw [Published.run_readRows stored] at run
    rcases read : Svmlight.read limit contents with (_ | ⟨place, slip⟩) | rows
    · rw [read] at run
      cases run
    · rw [read] at run
      cases run
      obtain ⟨before, line, after, text, split, place, decoded, slips⟩ :=
        Svmlight.exists_of_rows_eq_error read
      obtain ⟨front, isLine, behind⟩ := exists_isLine split
      refine ⟨front, line, text, slip, isLine, decoded, slips, rfl, ?_⟩
      rw [behind, place, Nat.add_comm]
    · rw [read] at run
      cases run
  · intro columns run
    rw [Published.run_readTable stored] at run
    obtain ⟨record, defect, front, gap, text, refuses, rfl, rfl⟩ := Csv.exists_refuses run
    refine ⟨record, defect, front, gap, text, refuses, rfl, ?_⟩
    rcases refuses.slips.line_eq with line | garbled
    · refine .inl ?_
      rw [line, refuses.placed.line, lineBehind_append]
    · exact .inr garbled

/-- The text "1,2\n\n3,oops\n". -/
def gapped : Bytes := [0x31, 0x2C, 0x32, 0x0A, 0x0A, 0x33, 0x2C, 0x6F, 0x6F, 0x70, 0x73, 0x0A]

/-- The text "1,2\r\n3,oops\r\n". -/
def returned : Bytes :=
  [0x31, 0x2C, 0x32, 0x0D, 0x0A, 0x33, 0x2C, 0x6F, 0x6F, 0x70, 0x73, 0x0D, 0x0A]

theorem names_lines_of_gapped :
    ∃ record defect front gap text,
      Csv.Refuses ⟨false, false, false⟩ 0 gapped record defect front gap text ∧
        2 + gap.count 0x0A = lineBehind (front ++ gap) := by
  obtain ⟨record, defect, front, gap, text, refuses, -, line | ⟨first, -⟩⟩ :=
    (names_lines (by rfl : (Published.holding gapped).store.read (.ofString "rows") = .ok gapped)
      0 2 "`oops`: invalid float literal").2 ⟨false, false, false⟩ rfl
  · exact ⟨record, defect, front, gap, text, refuses, line⟩
  · exact absurd first (by decide)

/-- A blank line in front of a row is not counted, nor is the end of the line before if it has a
carriage return. -/
theorem names_line_above :
    ((Published.readTable ⟨false, false, false⟩ 0 (.ofString "rows")).run.run
          (Published.holding gapped)).1 =
        .error (.parse "rows" 2 "`oops`: invalid float literal") ∧
      IsLine gapped [0x31, 0x2C, 0x32, 0x0A, 0x0A] [0x33, 0x2C, 0x6F, 0x6F, 0x70, 0x73] ∧
      lineBehind [0x31, 0x2C, 0x32, 0x0A, 0x0A] = 3 ∧
      ((Published.readTable ⟨false, false, false⟩ 0 (.ofString "rows")).run.run
          (Published.holding returned)).1 =
        .error (.parse "rows" 1 "`oops`: invalid float literal") ∧
      IsLine returned [0x31, 0x2C, 0x32, 0x0D, 0x0A]
        [0x33, 0x2C, 0x6F, 0x6F, 0x70, 0x73, 0x0D] ∧
      lineBehind [0x31, 0x2C, 0x32, 0x0D, 0x0A] = 2 :=
  ⟨rfl, ⟨⟨[0x0A], rfl, .inr rfl⟩, .inr rfl, by decide⟩, rfl, rfl,
    ⟨⟨[0x0A], rfl, .inr rfl⟩, .inr rfl, by decide⟩, rfl⟩

end DatasetDepot
