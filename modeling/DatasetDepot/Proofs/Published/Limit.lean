import DatasetDepot.Proofs.Csv.Scan
import DatasetDepot.Proofs.Leading
import DatasetDepot.Proofs.Svmlight.Grammar

/-!
Reading a file up to a number of rows.

Neither reader looks behind the rows that it is asked for, whatever is there.  Main statement: files
that agree up to the end of the last of these rows give the same result, and that of a file which
can be read as a whole is its leading rows.
-/

namespace DatasetDepot

namespace Svmlight

/-- Whether there is anything on a line; what is not text is something. -/
def holds (line : Bytes) : Bool :=
  match Text.Utf8.decode? line with
  | none => true
  | some text => (Line.ofText? text).isSome

theorem rows_append {budget : Nat} {front : List Bytes} (enough : budget ≤ front.countP holds)
    (number : Nat) (behind : List Bytes) :
    rows (some budget) number (front ++ behind) = rows (some budget) number front := by
  induction front generalizing budget number with
  | nil =>
      obtain rfl : budget = 0 := Nat.le_zero.mp enough
      cases behind <;> rfl
  | cons line front inductionHypothesis =>
      by_cases spent : budget = 0
      · subst spent
        rfl
      · have unspent : some budget ≠ some 0 := by simpa using spent
        rw [List.cons_append, rows, rows, if_neg unspent, if_neg unspent]
        rw [List.countP_cons, holds] at enough
        cases decoded : Text.Utf8.decode? line with
        | none => rfl
        | some text =>
            simp only [decoded, row?_eq text] at enough ⊢
            cases line : Line.ofText? text with
            | none =>
                rw [line] at enough
                exact inductionHypothesis enough (number + 1)
            | some line' =>
                rw [line, Option.isSome_some, if_pos rfl] at enough
                have others : budget - 1 ≤ front.countP holds := by omega
                simp only [Option.map_some, inductionHypothesis others]
                cases line'.read <;> rfl

/-- Only as much is read as is asked for. -/
theorem read_append {limit : Nat} (some : 1 ≤ limit) {front : Bytes}
    (ended : front.getLast? = .some 0x0A)
    (enough : limit ≤ (front.splitOnP (· = 0x0A)).countP holds) (behind : Bytes) :
    read limit (front ++ behind) = read limit front := by
  obtain ⟨text, rfl⟩ := List.getLast?_eq_some_iff.mp ended
  have lines : ∀ behind : Bytes, (text ++ [0x0A] ++ behind).splitOnP (· = 0x0A) =
      text.splitOnP (· = 0x0A) ++ behind.splitOnP (· = 0x0A) := fun behind => by
    rw [List.append_assoc, List.singleton_append, List.splitOnP_append_cons _ _ (by decide)]
  have whole := lines []
  rw [List.append_nil] at whole
  rw [whole, List.countP_append] at enough
  have blank : ([] : Bytes).splitOnP (· = 0x0A) = [[]] := rfl
  have bare : List.countP holds [[]] = 0 := rfl
  rw [blank, bare, Nat.add_zero] at enough
  unfold read
  rw [if_neg (Nat.ne_of_gt some), lines, whole, rows_append enough, rows_append enough]

end Svmlight

/-- The leading rows of a dataset with their labels, as many as are asked for, or all. -/
structure Dataset.IsLeading (part whole : Dataset) (limit : Nat) : Prop where
  rows : part.rows = min limit whole.rows
  columns : part.columns = whole.columns
  features : part.features.rowList = whole.features.rowList.take limit
  labels : part.labels? = whole.labels?.map (·.take limit)

theorem Dataset.isLeading_ofRows (width limit : Nat) (rows : List (Single × Array Single)) :
    IsLeading (ofRows width (rows.take limit).toArray) (ofRows width rows.toArray) limit where
  rows := by
    rw [rows_ofRows, rows_ofRows, List.size_toArray, List.size_toArray, List.length_take]
  columns := rfl
  features := by
    rw [rowList_ofRows, rowList_ofRows, List.map_take]
  labels := by
    rw [labels?_ofRows, labels?_ofRows, Option.map_some, List.take_toArray, List.map_take]

namespace Published

open DatasetDepot.Action

variable {path : Path} {world : World} {limit : Nat}

theorem exists_of_run_readTable {columns : Csv.Columns} {dataset : Dataset}
    (run : ((readTable columns limit path).run.run world).1 = .ok dataset) :
    ∃ contents, world.store.read path = .ok contents := by
  unfold readTable at run
  rw [run_bind, run_store] at run
  cases read : world.store.read path with
  | error refusal =>
      simp only [read] at run
      cases run
  | ok contents => exact ⟨contents, rfl⟩

theorem exists_of_run_readRows {rows : List Svmlight.Row}
    (run : ((readRows limit path).run.run world).1 = .ok rows) :
    ∃ contents, world.store.read path = .ok contents := by
  unfold readRows at run
  rw [run_bind, run_store] at run
  cases read : world.store.read path with
  | error refusal =>
      simp only [read] at run
      cases run
  | ok contents => exact ⟨contents, rfl⟩

/-- Files that agree up to the rows that are asked for are read alike, and of a file that can be
read as a whole these are its leading rows. -/
theorem reads_leading_rows (some : 1 ≤ limit) (path : Path) :
    (∀ (columns : Csv.Columns) (front behind behind' : Bytes) (world world' : World),
      Csv.Breaks front → limit ≤ (columns.dataRecords 0 (Csv.records front)).length →
      world.store.read path = .ok (front ++ behind) →
      world'.store.read path = .ok (front ++ behind') →
        ((readTable columns limit path).run.run world).1 =
          ((readTable columns limit path).run.run world').1) ∧
    (∀ (front behind behind' : Bytes) (world world' : World),
      front.getLast? = .some 0x0A →
      limit ≤ (front.splitOnP (· = 0x0A)).countP Svmlight.holds →
      world.store.read path = .ok (front ++ behind) →
      world'.store.read path = .ok (front ++ behind') →
        ((readRows limit path).run.run world).1 = ((readRows limit path).run.run world').1) ∧
    (∀ (columns : Csv.Columns) (world : World) (whole : Dataset),
      ((readTable columns 0 path).run.run world).1 = .ok whole →
        ∃ part, ((readTable columns limit path).run.run world).1 = .ok part ∧
          part.IsLeading whole limit) ∧
    (∀ (world : World) (all : List Svmlight.Row),
      ((readRows 0 path).run.run world).1 = .ok all →
        ((readRows limit path).run.run world).1 = .ok (all.take limit) ∧
          (all.take limit).length = min limit all.length ∧
          Svmlight.IsWidest (all.take limit) (Svmlight.width (all.take limit))) := by
  refine ⟨?_, ?_, ?_, ?_⟩
  · intro columns front behind behind' world world' breaks enough stored stored'
    rw [run_readTable stored, run_readTable stored', breaks.read_append some enough,
      breaks.read_append some enough]
  · intro front behind behind' world world' ended enough stored stored'
    rw [run_readRows stored, run_readRows stored', Svmlight.read_append some ended enough,
      Svmlight.read_append some ended enough]
  · intro columns world whole run
    obtain ⟨contents, stored⟩ := exists_of_run_readTable run
    rw [run_readTable stored] at run ⊢
    obtain ⟨rows, rfl, part⟩ := Csv.exists_read_limit some (mapError_eq_ok_iff.mp run)
    refine ⟨_, ?_, Dataset.isLeading_ofRows _ limit rows⟩
    rw [part]
    rfl
  · intro world all run
    obtain ⟨contents, stored⟩ := exists_of_run_readRows run
    rw [run_readRows stored] at run ⊢
    rw [Svmlight.read_limit some (mapError_eq_ok_iff.mp run)]
    exact ⟨rfl, List.length_take, Svmlight.isWidest_width _⟩

/-- Behind one row of each kind stand an open quote and a byte that is no text, or a bad row. -/
theorem reads_leading_rows_of_damaged_rest :
    ((readTable ⟨false, false, false⟩ 1 (.ofString "rows")).run.run
        (holding ([0x31, 0x2C, 0x32, 0x0A] ++ [0x22, 0x33]))).1 =
      ((readTable ⟨false, false, false⟩ 1 (.ofString "rows")).run.run
        (holding ([0x31, 0x2C, 0x32, 0x0A] ++ [0xFF]))).1 ∧
    ((readRows 1 (.ofString "rows")).run.run
        (holding ([0x31, 0x20, 0x31, 0x3A, 0x32, 0x0A] ++ [0x78]))).1 =
      ((readRows 1 (.ofString "rows")).run.run
        (holding ([0x31, 0x20, 0x31, 0x3A, 0x32, 0x0A] ++ [0xFF]))).1 ∧
    (∃ whole part, ((readTable ⟨false, false, false⟩ 0 (.ofString "rows")).run.run
        (holding [0x31, 0x0A, 0x32, 0x0A])).1 = .ok whole ∧ whole.rows = 2 ∧
      ((readTable ⟨false, false, false⟩ 1 (.ofString "rows")).run.run
        (holding [0x31, 0x0A, 0x32, 0x0A])).1 = .ok part ∧ part.IsLeading whole 1) ∧
    ∃ first second, ((readRows 0 (.ofString "rows")).run.run
        (holding [0x31, 0x0A, 0x32, 0x20, 0x33, 0x3A, 0x31])).1 = .ok [first, second] ∧
      second.width = 3 ∧
      ((readRows 1 (.ofString "rows")).run.run
        (holding [0x31, 0x0A, 0x32, 0x20, 0x33, 0x3A, 0x31])).1 = .ok [first] ∧
      Svmlight.IsWidest [first] 0 := by
  obtain ⟨tables, rows, wholeTable, wholeRows⟩ :=
    reads_leading_rows (Nat.le_refl 1) (.ofString "rows")
  have breaks : Csv.Breaks ([0x31, 0x2C, 0x32] ++ [0x0A]) := .line (.inl rfl) (by decide)
  refine ⟨?_, ?_, ?_, ?_⟩
  · exact tables ⟨false, false, false⟩ _ [0x22, 0x33] [0xFF] _ _ breaks (by decide) rfl rfl
  · exact rows [0x31, 0x20, 0x31, 0x3A, 0x32, 0x0A] [0x78] [0xFF] _ _ rfl (by decide) rfl rfl
  · obtain ⟨whole, read, height⟩ : ∃ whole,
        ((readTable ⟨false, false, false⟩ 0 (.ofString "rows")).run.run
          (holding [0x31, 0x0A, 0x32, 0x0A])).1 = .ok whole ∧ whole.rows = 2 := ⟨_, rfl, rfl⟩
    obtain ⟨part, read', leading⟩ := wholeTable _ _ whole read
    exact ⟨whole, part, read, height, read', leading⟩
  · obtain ⟨first, second, read, bare, wide⟩ : ∃ first second,
        ((readRows 0 (.ofString "rows")).run.run
          (holding [0x31, 0x0A, 0x32, 0x20, 0x33, 0x3A, 0x31])).1 = .ok [first, second] ∧
        Svmlight.width [first] = 0 ∧ second.width = 3 := ⟨_, _, rfl, rfl, rfl⟩
    obtain ⟨read', _, widest⟩ := wholeRows _ _ read
    exact ⟨first, second, read, wide, read', bare ▸ widest⟩

end Published

end DatasetDepot
