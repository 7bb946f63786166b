import DatasetDepot.Proofs.Conversion.Detour

/-!
How arrays for a device lie in memory.

The two device formats differ in the order of their buffers alone.  A buffer in a given order is
told by the entries, so that it does not matter what held them before, nor how often they were laid
out.  Main statement: every entry stands at the place that the order gives it, and the buffer holds
nothing else; a detour by the other order changes nothing, and nor does the order that is held.
-/

namespace DatasetDepot

namespace Order

/-- Every place of a buffer is that of an entry. -/
theorem exists_place_eq (order : Order) {rows columns place : Nat}
    (inside : place < rows * columns) :
    ∃ (row : Fin rows) (column : Fin columns), order.place rows columns row column = place := by
  cases order with
  | rowMajor =>
      have split : place / columns * columns + place % columns = place :=
        Nat.div_add_mod' place columns
      exact ⟨lane ⟨place, inside⟩, within ⟨place, inside⟩, split⟩
  | columnMajor =>
      have split : place / rows * rows + place % rows = place := Nat.div_add_mod' place rows
      have inside' : place < columns * rows := Nat.mul_comm rows columns ▸ inside
      exact ⟨within ⟨place, inside'⟩, lane ⟨place, inside'⟩, split⟩

/-- The format of arrays for a device in this order. -/
def deviceFormat : Order → Format
  | .columnMajor => .gpuarray
  | .rowMajor => .gpuarrayC

end Order

namespace Matrix

theorem getElem?_buffer (dense : Matrix) (row : Fin dense.rows) (column : Fin dense.columns) :
    dense.buffer[dense.order.place dense.rows dense.columns row column]? =
      some (dense.entry row column) :=
  Array.getElem?_eq_getElem _

/-- A matrix in the order it is held in is the same matrix. -/
theorem ofFn_entry (dense : Matrix) :
    ofFn dense.order dense.rows dense.columns dense.entry = dense := by
  have size : (ofFn dense.order dense.rows dense.columns dense.entry).buffer.size =
      dense.buffer.size := (size_buffer _).trans dense.size_buffer.symm
  have same : (ofFn dense.order dense.rows dense.columns dense.entry).buffer = dense.buffer := by
    apply Array.ext_getElem?
    intro place
    by_cases inside : place < dense.rows * dense.columns
    · obtain ⟨row, column, rfl⟩ := dense.order.exists_place_eq inside
      exact ((ofFn _ _ _ dense.entry).getElem?_buffer row column).trans
        ((congrArg some (entry_ofFn _ _ row column)).trans (dense.getElem?_buffer row column).symm)
    · rw [Array.getElem?_eq_none, Array.getElem?_eq_none]
      · rw [dense.size_buffer]
        omega
      · rw [size, dense.size_buffer]
        omega
  obtain ⟨rows, columns, order, buffer, full⟩ := dense
  exact (Matrix.mk.injEq ..).mpr ⟨rfl, rfl, rfl, same⟩

/-- The buffer of a matrix whose columns follow one another is that of the transpose, whose rows
do. -/
theorem buffer_ofFn_exchanged {rows columns : Nat} (entries : Fin rows → Fin columns → Single) :
    (ofFn .columnMajor rows columns entries).buffer =
      (ofFn .rowMajor columns rows fun column row => entries row column).buffer := rfl

/-- A matrix as it lies in memory: the buffer has a place for each of these entries and no other,
and each stands at the place that the order gives it. -/
structure IsLaidOut (dense : Matrix) (order : Order) (rows columns : Nat)
    (entries : Fin rows → Fin columns → Single) : Prop where
  order_eq : dense.order = order
  rows_eq : dense.rows = rows
  columns_eq : dense.columns = columns
  size_eq : dense.buffer.size = rows * columns
  entry_eq : ∀ (row : Fin rows) (column : Fin columns),
    dense.buffer[order.place rows columns row column]? = some (entries row column)

theorem isLaidOut_ofFn (order : Order) {rows columns : Nat}
    (entries : Fin rows → Fin columns → Single) :
    (ofFn order rows columns entries).IsLaidOut order rows columns entries where
  order_eq := rfl
  rows_eq := rfl
  columns_eq := rfl
  size_eq := size_buffer _
  entry_eq row column := ((ofFn order rows columns entries).getElem?_buffer row column).trans
    (congrArg some (entry_ofFn order entries row column))

end Matrix

/-- The entries of what reads as a table of single precision numbers: a matrix, for a device or not,
and a frame, of which a missing cell is no number. -/
inductive Value.Tabulates :
    Value → (rows columns : Nat) → (Fin rows → Fin columns → Single) → Prop
  | matrix (dense : Matrix) : Tabulates (.matrix dense) dense.rows dense.columns dense.entry
  | device (dense : Matrix) :
      Tabulates (.device (.matrix dense)) dense.rows dense.columns dense.entry
  | frame {table : Frame} {series : Fin table.columns.length → Series}
      {cells : Fin table.rows → Fin table.columns.length → Option Single}
      (single : ∀ column : Fin table.columns.length,
        table.columns[column].cells = .float32 (series column))
      (read : ∀ row column, (series column)[row.val]? = some (cells row column)) :
      Tabulates (.frame table) table.rows table.columns.length
        fun row column => (cells row column).getD missing

namespace Frame

variable {table : Frame} {series : Fin table.columns.length → Series}
  {cells : Fin table.rows → Fin table.columns.length → Option Single}

theorem values?_of_series
    (single : ∀ column : Fin table.columns.length,
      table.columns[column].cells = .float32 (series column)) :
    table.values? =
      some ((List.finRange table.columns.length).map fun column => (series column).toValues) := by
  have listed : (List.finRange table.columns.length).map (fun column => table.columns[column]) =
      table.columns := List.map_getElem_finRange table.columns
  have each : ∀ column : Fin table.columns.length,
      table.columns[column].cells.series?.map Series.toValues = some (series column).toValues := by
    intro column
    rw [single column]
    rfl
  unfold values?
  calc
    table.columns.mapM (fun column => column.cells.series?.map Series.toValues) =
        ((List.finRange table.columns.length).map fun column => table.columns[column]).mapM
          fun column => column.cells.series?.map Series.toValues := by rw [listed]
    _ = (List.finRange table.columns.length).mapM fun column => some (series column).toValues := by
        rw [List.mapM_map]
        exact congrArg (fun read => (List.finRange _).mapM read) (funext each)
    _ = some ((List.finRange table.columns.length).map fun column => (series column).toValues) :=
        List.mapM_pure

theorem size_series
    (single : ∀ column : Fin table.columns.length,
      table.columns[column].cells = .float32 (series column)) (column : Fin table.columns.length) :
    (series column).size = table.rows := by
  rw [← table.heights _ (List.getElem_mem column.isLt),
    show table.columns[column.val].cells = _ from single column]
  rfl

/-- A frame of single precision is read as the matrix of its cells, the missing ones filled. -/
theorem toMatrix?_of_cells
    (single : ∀ column : Fin table.columns.length,
      table.columns[column].cells = .float32 (series column))
    (read : ∀ row column, (series column)[row.val]? = some (cells row column)) :
    table.toMatrix? = some (Matrix.ofFn .rowMajor table.rows table.columns.length
      fun row column => (cells row column).getD missing) := by
  have values := values?_of_series single
  have isSome : table.toMatrix?.isSome := by
    rw [isSome_toMatrix?_iff, ← isSome_values?_iff, values]
    rfl
  obtain ⟨matrix, found⟩ := Option.isSome_iff_exists.mp isSome
  obtain ⟨_, values', rows, columnList, plain⟩ := exists_of_toMatrix? found
  rw [values, Option.some.injEq] at values'
  have same : matrix.columnList = (Matrix.ofFn .rowMajor table.rows table.columns.length
      fun row column => (cells row column).getD missing).columnList := by
    rw [columnList, ← values', Matrix.columnList_ofFn]
    apply List.map_congr_left
    intro column _
    apply Array.ext
    · simp [Series.toValues, size_series single column]
    · intro row inside inside'
      have cell := read ⟨row, by simpa using inside'⟩ column
      obtain ⟨_, cell⟩ := Array.getElem?_eq_some_iff.mp cell
      simp only [Series.toValues, Array.getElem_map, Array.getElem_ofFn]
      rw [← cell]
  rw [found, ← plain, Matrix.reorder_eq_of_contents (Matrix.contents_eq_of_columnList rows same),
    Matrix.reorder_ofFn]

theorem exists_cells_iff (table : Frame) :
    (∃ rows columns entries, (Value.frame table).Tabulates rows columns entries) ↔
      table.IsSingle := by
  constructor
  · rintro ⟨_, _, _, tabulates⟩ column present
    cases tabulates with
    | frame single read =>
        obtain ⟨place, inside, rfl⟩ := List.mem_iff_getElem.mp present
        exact ⟨_, single ⟨place, inside⟩⟩
  · intro isSingle
    choose series single using
      fun column : Fin table.columns.length => isSingle _ (List.getElem_mem column.isLt)
    let cells (row : Fin table.rows) (column : Fin table.columns.length) : Option Single :=
      ((series column)[row.val]?).getD none
    have read : ∀ row column, (series column)[row.val]? = some (cells row column) := by
      intro row column
      have inside : row.val < (series column).size :=
        row.isLt.trans_eq (size_series single column).symm
      simp only [cells, Array.getElem?_eq_getElem inside, Option.getD_some]
    exact ⟨_, _, _, .frame single read⟩

end Frame

namespace Value

/-- Of what a device format takes, all but lists read as tables. -/
theorem exists_tabulates_iff (order : Order) (value : Value) :
    (∃ rows columns entries, value.Tabulates rows columns entries) ↔
      order.deviceFormat.Accepts value ∧ value.columns?.isSome := by
  cases value with
  | matrix dense => exact ⟨fun _ => ⟨trivial, rfl⟩, fun _ => ⟨_, _, _, .matrix dense⟩⟩
  | vector | series =>
      constructor
      · rintro ⟨_, _, _, tabulates⟩
        cases tabulates
      · rintro ⟨_, listed⟩
        cases listed
  | frame table =>
      rw [table.exists_cells_iff]
      constructor
      · intro single
        exact ⟨.inr (.inr single), rfl⟩
      · rintro ⟨other | other | single, _⟩
        · cases order <;> cases other
        · cases order <;> cases other
        · exact single
  | device array =>
      cases array with
      | matrix dense =>
          refine ⟨fun _ => ⟨?_, rfl⟩, fun _ => ⟨_, _, _, .device dense⟩⟩
          cases order with
          | rowMajor => exact .inr rfl
          | columnMajor => exact .inl rfl
      | vector entries =>
          constructor
          · rintro ⟨_, _, _, tabulates⟩
            cases tabulates
          · rintro ⟨_, listed⟩
            cases listed
  | sparse packed =>
      constructor
      · rintro ⟨_, _, _, tabulates⟩
        cases tabulates
      · rintro ⟨accepted, _⟩
        exact accepted.elim

/-- The transpose of a matrix has its entries, with rows and columns exchanged. -/
theorem tabulates_transpose (dense : Matrix) :
    (Value.matrix dense.transpose).Tabulates dense.columns dense.rows
      fun column row => dense.entry row column := by
  have exchanged : dense.transpose.entry = fun column row => dense.entry row column := by
    funext column row
    exact Matrix.entry_ofFn _ _ column row
  exact exchanged ▸ Tabulates.matrix dense.transpose

end Value

namespace Conversion

variable {value : Value} {rows columns : Nat}
  {entries : Fin rows → Fin columns → Single}

/-- What reads as a table is laid out by its entries. -/
theorem ofValue_of_tabulates (tabulates : value.Tabulates rows columns entries) (ratio : Double)
    (order : Order) :
    ofValue ratio order.deviceFormat value =
      pure (.device (.matrix (Matrix.ofFn order rows columns entries))) := by
  have device : ofValue ratio order.deviceFormat = toDevice order.deviceFormat order := by
    cases order <;> rfl
  rw [device]
  cases tabulates with
  | matrix dense => rfl
  | device dense => rfl
  | frame single read =>
      simp only [toDevice, matrixOf_eq (Frame.toMatrix?_of_cells single read), pure_bind,
        Matrix.reorder_ofFn]

/-- What was laid out is laid out again by the same entries. -/
theorem ofValue_ofFn (ratio : Double) (order held : Order)
    (entries : Fin rows → Fin columns → Single) :
    ofValue ratio order.deviceFormat (.device (.matrix (Matrix.ofFn held rows columns entries))) =
      pure (.device (.matrix (Matrix.ofFn order rows columns entries))) := by
  have same : (Matrix.ofFn held rows columns entries).entry = entries := by
    funext row column
    exact Matrix.entry_ofFn held entries row column
  refine (ofValue_of_tabulates (.device _) ratio order).trans ?_
  rw [same]
  rfl

/-- Tables of single precision are laid out for a device in either order, whatever holds them: each
entry stands at the place of the order, back from the other order all is as before, and what is held
in the order already is left as it is.  By columns, a table lies in memory as its transpose does by
rows. -/
theorem lays_out_entries (ratio : Double) (order : Order) :
    (∀ value : Value, (∃ rows columns entries, value.Tabulates rows columns entries) ↔
      order.deviceFormat.Accepts value ∧ value.columns?.isSome) ∧
    (∀ (value : Value) (rows columns : Nat) (entries : Fin rows → Fin columns → Single),
      value.Tabulates rows columns entries →
      ∃ dense : Matrix, dense.IsLaidOut order rows columns entries ∧
        ofValue ratio order.deviceFormat value = pure (.device (.matrix dense)) ∧
        ∀ other : Order,
          (ofValue ratio order.deviceFormat value >>= fun first =>
            ofValue ratio other.deviceFormat first >>= ofValue ratio order.deviceFormat) =
              pure (.device (.matrix dense))) ∧
    (∀ dense : Matrix, dense.order = order →
      ofValue ratio order.deviceFormat (.device (.matrix dense)) =
        pure (.device (.matrix dense))) ∧
    (∀ (value exchanged : Value) (rows columns : Nat) (entries : Fin rows → Fin columns → Single),
      value.Tabulates rows columns entries →
      exchanged.Tabulates columns rows (fun column row => entries row column) →
      ∃ byColumns byRows : Matrix,
        ofValue ratio .gpuarray value = pure (.device (.matrix byColumns)) ∧
        ofValue ratio .gpuarrayC exchanged = pure (.device (.matrix byRows)) ∧
        byColumns.buffer = byRows.buffer) ∧
    ∀ dense : Matrix, (Value.matrix dense.transpose).Tabulates dense.columns dense.rows
      fun column row => dense.entry row column := by
  refine ⟨Value.exists_tabulates_iff order, ?_, ?_, ?_, Value.tabulates_transpose⟩
  · intro value rows columns entries tabulates
    have first := ofValue_of_tabulates tabulates ratio order
    refine ⟨_, Matrix.isLaidOut_ofFn order entries, first, fun other => ?_⟩
    rw [first, pure_bind, ofValue_ofFn, pure_bind, ofValue_ofFn]
  · rintro dense rfl
    refine (ofValue_of_tabulates (.device dense) ratio dense.order).trans ?_
    rw [dense.ofFn_entry]
  · intro value exchanged rows columns entries tabulates tabulates'
    exact ⟨_, _, ofValue_of_tabulates tabulates ratio .columnMajor,
      ofValue_of_tabulates tabulates' ratio .rowMajor, Matrix.buffer_ofFn_exchanged entries⟩

/-- A frame with a missing cell, by columns and back from an order by rows, and a matrix of one
column next to its transpose. -/
theorem lays_out_entries_of_gapped_frame :
    let ratio := ConverterSet.defaultRatio
    let gapped : Frame := ⟨2, [⟨"0", .float32 #[none, some 7]⟩, ⟨"1", .float32 #[some 8, some 9]⟩],
      by simp [Cells.size]⟩
    let column := Matrix.ofFn .columnMajor 2 1 fun row _ => if row = 0 then 3 else 4
    (∃ dense : Matrix, ofValue ratio .gpuarray (.frame gapped) = pure (.device (.matrix dense)) ∧
      dense.buffer.size = 4 ∧ dense.buffer[0]? = some missing ∧ dense.buffer[1]? = some 7 ∧
      (ofValue ratio .gpuarray (.frame gapped) >>= fun first =>
        ofValue ratio .gpuarrayC first >>= ofValue ratio .gpuarray) =
          pure (.device (.matrix dense))) ∧
    ofValue ratio .gpuarray (.device (.matrix column)) = pure (.device (.matrix column)) ∧
    ∃ byColumns byRows : Matrix,
      ofValue ratio .gpuarray (.matrix column) = pure (.device (.matrix byColumns)) ∧
      ofValue ratio .gpuarrayC (.matrix column.transpose) = pure (.device (.matrix byRows)) ∧
      byColumns.buffer = byRows.buffer := by
  intro ratio gapped column
  obtain ⟨_, lays, held, exchanges, transposes⟩ := lays_out_entries ratio .columnMajor
  let series (column : Fin 2) : Series :=
    if column = 0 then #[none, some 7] else #[some 8, some 9]
  let cells (row column : Fin 2) : Option Single :=
    if column = 0 then if row = 0 then none else some 7
    else if row = 0 then some 8 else some 9
  have single : ∀ column : Fin gapped.columns.length,
      gapped.columns[column].cells = .float32 (series column) := by
    intro column
    match column with
    | 0 | 1 => rfl
  have read : ∀ row column, (series column)[row.val]? = some (cells row column) := by
    intro row column
    match row, column with
    | 0, 0 | 0, 1 | 1, 0 | 1, 1 => rfl
  obtain ⟨dense, laidOut, first, back⟩ := lays _ _ _ _ (.frame single read)
  refine ⟨⟨dense, first, laidOut.size_eq, laidOut.entry_eq 0 0, laidOut.entry_eq 1 0,
    back .rowMajor⟩, held column rfl, ?_⟩
  exact exchanges _ _ _ _ _ (.matrix column) (transposes column)

end Conversion

end DatasetDepot
