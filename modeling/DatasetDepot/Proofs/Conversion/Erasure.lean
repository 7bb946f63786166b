import DatasetDepot.Proofs.Compressed.WellFormed
import DatasetDepot.Proofs.Conversion.Detour
import Mathlib.Data.Finset.Card

/-!
What the sparse formats erase.

The places are drawn from a number of entries and a ratio, and every value that counts as a matrix
of that many entries loses what stands at these places of its rows, one after the other.  Main
statement: that many places and no others are erased, whatever stands there, however the matrix is
shaped and stored, and in either layout.
-/

namespace DatasetDepot

/-- The matrix the sparse formats take a value for: a list is its only row, and the cells of single
precision columns are its entries, missing ones filled. -/
inductive Value.CountsAs : Value → Matrix → Prop
  | matrix (dense : Matrix) : CountsAs (.matrix dense) dense
  | vector (entries : Array Single) : CountsAs (.vector entries) (Matrix.ofRow entries)
  | series (cells : Series) : CountsAs (.series cells) (Matrix.ofRow cells.toValues)
  | frame {table : Frame} {dense : Matrix} (rows : dense.rows = table.rows)
      (columns : table.values? = some dense.columnList) : CountsAs (.frame table) dense

/-- The sparse formats take what counts as a matrix. -/
theorem Value.exists_countsAs_iff (value : Value) :
    (∃ dense, value.CountsAs dense) ↔ Format.sparseCsr.Accepts value := by
  cases value with
  | matrix dense => exact ⟨fun _ => trivial, fun _ => ⟨dense, .matrix dense⟩⟩
  | vector entries => exact ⟨fun _ => trivial, fun _ => ⟨_, .vector entries⟩⟩
  | series cells => exact ⟨fun _ => trivial, fun _ => ⟨_, .series cells⟩⟩
  | frame table =>
      constructor
      · rintro ⟨dense, counts⟩
        cases counts with
        | frame rows columns =>
            exact .inr (.inr (table.isSome_values?_iff.mp (by rw [columns]; rfl)))
      · rintro (other | other | single)
        · cases other
        · cases other
        · obtain ⟨dense, found⟩ :=
            Option.isSome_iff_exists.mp (table.isSome_toMatrix?_iff.mpr single)
          obtain ⟨values, read, rows, each, _⟩ := Frame.exists_of_toMatrix? found
          exact ⟨dense, .frame rows (by rw [read, each])⟩
  | device array =>
      constructor
      · rintro ⟨dense, counts⟩
        cases counts
      · rintro (other | other) <;> cases other
  | sparse packed =>
      constructor
      · rintro ⟨dense, counts⟩
        cases counts
      · exact False.elim

theorem Conversion.toSparse_of_countsAs {value : Value} {dense : Matrix}
    (counts : value.CountsAs dense) (format : Format) (layout : Layout) (ratio : Double) :
    toSparse format layout ratio value =
      (liftM (Sparsify.compress layout ratio dense) : Conversion Value) := by
  cases counts with
  | matrix | vector | series => rfl
  | @frame table dense rows columns =>
      have single : table.toMatrix?.isSome := by
        rw [table.isSome_toMatrix?_iff, ← table.isSome_values?_iff, columns]
        rfl
      obtain ⟨read, found⟩ := Option.isSome_iff_exists.mp single
      obtain ⟨values, isRead, readRows, each, _⟩ := Frame.exists_of_toMatrix? found
      rw [columns, Option.some.injEq] at isRead
      have contents : read.contents = dense.contents :=
        Matrix.contents_eq_of_columnList (readRows.trans rows.symm) (each.trans isRead.symm)
      simp only [toSparse, matrixOf_eq found, pure_bind,
        Sparsify.compress_eq_of_contents contents]

/-- The sparse representation of a matrix whose entries at these places, row by row, are erased. -/
structure Compressed.IsErased (packed : Compressed) (layout : Layout) (dense : Matrix)
    (erased : Finset Nat) : Prop where
  layout_eq : packed.layout = layout
  rows_eq : packed.rows = dense.rows
  columns_eq : packed.columns = dense.columns
  wellFormed : packed.IsWellFormed
  expands : packed.toDense = Matrix.ofFn .rowMajor dense.rows dense.columns fun row column =>
    if row.val * dense.columns + column.val ∈ erased then 0
    else unsignZero (dense.entry row column)
  stores : ∀ row column number, packed.Stores row column number ↔
    ∃ (atRow : Fin dense.rows) (atColumn : Fin dense.columns),
      atRow.val = row ∧ atColumn.val = column ∧ row * dense.columns + column ∉ erased ∧
        dense.entry atRow atColumn = number ∧ number ≠ 0 ∧ number ≠ negativeZero

namespace Sparsify

/-- The places that are drawn for so many entries. -/
def drawn (size : Nat) (ratio : Double) (stream : Stream) : Finset Nat :=
  (((places size ratio).run stream).1.map Fin.val).toFinset

theorem mem_drawn_iff (size : Nat) (ratio : Double) (stream : Stream) (place : Fin size) :
    place.val ∈ drawn size ratio stream ↔ place ∈ ((places size ratio).run stream).1 := by
  unfold drawn
  rw [List.mem_toFinset, List.mem_map_of_injective Fin.val_injective]

theorem lt_of_mem_drawn {size : Nat} {ratio : Double} {stream : Stream} {place : Nat}
    (member : place ∈ drawn size ratio stream) : place < size := by
  unfold drawn at member
  obtain ⟨inside, _, rfl⟩ := List.mem_map.mp (List.mem_toFinset.mp member)
  exact inside.isLt

theorem card_drawn (size : Nat) (ratio : Double) (stream : Stream) :
    (drawn size ratio stream).card =
      Share.ofSize Rounding.toNearest size ratio.shareValue := by
  have selects := Drawing.isSelection_selection size
    (Share.ofSize Rounding.toNearest size ratio.shareValue) (Nat.min_le_right _ _) stream
  have distinct := List.toFinset_card_of_nodup (selects.nodup.map Fin.val_injective)
  rw [List.length_map, selects.length_eq] at distinct
  exact distinct

theorem isErased_ofDense (layout : Layout) {dense : Matrix}
    {places : List (Fin (dense.reorder .rowMajor).buffer.size)} {erased : Finset Nat}
    (same : ∀ row column, row.val * dense.columns + column.val ∈ erased ↔
      placeOf dense row column ∈ places) :
    (Compressed.ofDense layout (Sparsify.erased dense places)).IsErased layout dense erased where
  layout_eq := rfl
  rows_eq := rfl
  columns_eq := rfl
  wellFormed := Compressed.isWellFormed_ofDense layout _
  expands := by
    refine (Compressed.toDense_ofDense_eq layout _).trans (congrArg _ ?_)
    funext row column
    refine (congrArg unsignZero (entry_erased dense places row column)).trans ?_
    by_cases chosen : placeOf dense row column ∈ places
    · rw [if_pos chosen, if_pos ((same row column).mpr chosen)]
      rfl
    · rw [if_neg chosen, if_neg (mt (same row column).mp chosen)]
  stores := by
    intro row column number
    refine (Compressed.stores_ofDense_iff layout _ row column number).trans ?_
    constructor
    · rintro ⟨atRow, atColumn, rfl, rfl, rfl, some⟩
      have entry := entry_erased dense places atRow atColumn
      have left : placeOf dense atRow atColumn ∉ places := by
        intro chosen
        rw [if_pos chosen] at entry
        exact some.1 entry
      rw [if_neg left] at entry
      exact ⟨atRow, atColumn, rfl, rfl, mt (same atRow atColumn).mp left, entry.symm, some⟩
    · rintro ⟨atRow, atColumn, rfl, rfl, left, rfl, some⟩
      have entry := entry_erased dense places atRow atColumn
      rw [if_neg (mt (same atRow atColumn).mpr left)] at entry
      exact ⟨atRow, atColumn, rfl, rfl, entry, some⟩

/-- A matrix loses what is drawn for its number of entries. -/
theorem compress_isErased (layout : Layout) (ratio : Double) (dense : Matrix) (stream : Stream)
    {size : Nat} (isSize : dense.rows * dense.columns = size) :
    ∃ packed, (compress layout ratio dense).run stream =
        (.sparse packed, ((places size ratio).run stream).2) ∧
      packed.IsErased layout dense (drawn size ratio stream) := by
  have same : size = (dense.reorder .rowMajor).buffer.size :=
    isSize.symm.trans (dense.reorder .rowMajor).size_buffer.symm
  subst same
  refine ⟨_, rfl, isErased_ofDense layout ?_⟩
  intro row column
  exact mem_drawn_iff _ ratio stream (placeOf dense row column)

end Sparsify

namespace Conversion

/-- What is erased depends on nothing but the number of entries, the ratio and the stream: as many
places as the ratio asks for are overwritten, and all other entries stay, in both layouts. -/
theorem erases_drawn (ratio : Double) (size : Nat) (stream : Stream) :
    (∀ value : Value, (∃ dense, value.CountsAs dense) ↔ Format.sparseCsr.Accepts value) ∧
    ∃ (erased : Finset Nat) (after : Stream),
      erased.card = Share.ofSize Rounding.toNearest size ratio.shareValue ∧
      erased.card ≤ size ∧ (∀ place ∈ erased, place < size) ∧
      ∀ (value : Value) (dense : Matrix), value.CountsAs dense →
        dense.rows * dense.columns = size →
        ∃ byRows byColumns,
          (ofValue ratio .sparseCsr value).run.run stream = (.ok (.sparse byRows), after) ∧
          (ofValue ratio .sparseCsc value).run.run stream = (.ok (.sparse byColumns), after) ∧
          byRows.IsErased .csr dense erased ∧ byColumns.IsErased .csc dense erased ∧
          byRows.toDense = byColumns.toDense := by
  refine ⟨Value.exists_countsAs_iff, Sparsify.drawn size ratio stream,
    ((Sparsify.places size ratio).run stream).2, Sparsify.card_drawn size ratio stream, ?_,
    fun place => Sparsify.lt_of_mem_drawn, ?_⟩
  · rw [Sparsify.card_drawn]
    exact Nat.min_le_right _ _
  · intro value dense counts isSize
    obtain ⟨byRows, run, erased⟩ := Sparsify.compress_isErased .csr ratio dense stream isSize
    obtain ⟨byColumns, run', erased'⟩ := Sparsify.compress_isErased .csc ratio dense stream isSize
    refine ⟨byRows, byColumns, ?_, ?_, erased, erased', erased.expands.trans erased'.expands.symm⟩
    · simp only [ofValue, toSparse_of_countsAs counts]
      exact congrArg (fun drawing : Value × Stream => (Except.ok drawing.1, drawing.2)) run
    · simp only [ofValue, toSparse_of_countsAs counts]
      exact congrArg (fun drawing : Value × Stream => (Except.ok drawing.1, drawing.2)) run'

/-- Half of two numbers is one of them, and a row loses it at the same place as a column does. -/
theorem erases_drawn_of_two :
    let half : Double := ⟨0x3FE0000000000000⟩
    let row := Matrix.ofRow #[1, 2]
    let column := Matrix.ofFn .columnMajor 2 1 fun row _ => if row = 0 then 3 else 4
    ∃ (erased : Finset Nat) (fromRow fromColumn : Compressed), erased.card = 1 ∧
      fromRow.IsErased .csr row erased ∧ fromColumn.IsErased .csc column erased ∧
      ((ofValue half .sparseCsr (.vector #[1, 2])).run.run (Stream.ofSeed 7)).1 =
        .ok (.sparse fromRow) ∧
      ((ofValue half .sparseCsc (.matrix column)).run.run (Stream.ofSeed 7)).1 =
        .ok (.sparse fromColumn) := by
  intro half row column
  obtain ⟨_, erased, after, drawn, _, _, erases⟩ := erases_drawn half 2 (Stream.ofSeed 7)
  have one : Share.ofSize Rounding.toNearest 2 half.shareValue = 1 := by decide +kernel
  obtain ⟨fromRow, _, run, _, rowErased, _⟩ := erases _ row (.vector #[1, 2]) rfl
  obtain ⟨_, fromColumn, _, run', _, columnErased, _⟩ := erases _ column (.matrix column) rfl
  exact ⟨erased, fromRow, fromColumn, drawn.trans one, rowErased, columnErased,
    congrArg Prod.fst run, congrArg Prod.fst run'⟩

end Conversion

end DatasetDepot
