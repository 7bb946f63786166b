import DatasetDepot.Proofs.Conversion.Traversal

/-!
Conversions by way of another format.

What a format makes of a matrix it makes of the contents, and a frame made of a matrix reads as
that matrix again.  Main statement: a detour by plain matrices, or by frames for what is no frame
itself, changes neither the result nor the draws, and nor does the storage of a matrix.
-/

namespace DatasetDepot

namespace Matrix

@[simp]
theorem reorder_ofFn (first second : Order) {rows columns : Nat}
    (entries : Fin rows → Fin columns → Single) :
    (ofFn first rows columns entries).reorder second = ofFn second rows columns entries := by
  change ofFn second rows columns (ofFn first rows columns entries).entry = _
  congr 1
  funext row column
  exact entry_ofFn first entries row column

/-- Only the contents of a matrix show in another storage of it. -/
theorem reorder_eq_of_contents {left right : Matrix} (same : left.contents = right.contents)
    (order : Order) : left.reorder order = right.reorder order :=
  congr_of_contents (fun rows columns => ofFn order rows columns) same

theorem columnList_ofColumns {rows : Nat} {columns : Array (Array Single)}
    (heights : ∀ column ∈ columns, column.size = rows) :
    (ofColumns rows columns heights).columnList = columns.toList := by
  unfold ofColumns
  rw [columnList_ofFn]
  apply List.ext_getElem
  · simp
  · intro column _ inside
    have height := heights columns[column] (Array.getElem_mem (by simpa using inside))
    apply Array.ext
    · simp [height]
    · intro row _ _
      simp

end Matrix

namespace Frame

theorem ofMatrix_eq_of_contents {left right : Matrix} (same : left.contents = right.contents)
    (name : Nat → String) : ofMatrix left name = ofMatrix right name :=
  Matrix.congr_of_contents (fun rows columns entry => (⟨rows,
    (List.finRange columns).map fun (column : Fin columns) =>
      plainColumn (name column) (Array.ofFn fun row => entry row column), by
    intro column present
    obtain ⟨place, _, rfl⟩ := List.mem_map.mp present
    simp [plainColumn, Cells.size, Series.ofValues]⟩ : Frame)) same

theorem exists_of_toMatrix? {frame : Frame} {matrix : Matrix}
    (found : frame.toMatrix? = some matrix) :
    ∃ values, frame.values? = some values ∧ matrix.rows = frame.rows ∧
      matrix.columnList = values ∧ matrix.reorder .rowMajor = matrix := by
  unfold toMatrix? at found
  split at found
  · cases found
  · rename_i values read
    cases found
    exact ⟨values, read, rfl, Matrix.columnList_ofColumns _, Matrix.reorder_ofFn _ _ _⟩

theorem values?_ofMatrix (matrix : Matrix) (name : Nat → String) :
    (ofMatrix matrix name).values? = some matrix.columnList := by
  unfold values? ofMatrix
  simp only [List.mapM_map, plainColumn, Function.comp_def, Cells.series?, Option.map_some,
    Series.toValues_ofValues]
  exact List.mapM_pure

/-- A frame made of a matrix reads as that matrix, row by row. -/
theorem toMatrix?_ofMatrix (matrix : Matrix) (name : Nat → String) :
    (ofMatrix matrix name).toMatrix? = some (matrix.reorder .rowMajor) := by
  have single : (ofMatrix matrix name).toMatrix?.isSome := by
    rw [isSome_toMatrix?_iff, ← isSome_values?_iff, values?_ofMatrix]
    rfl
  obtain ⟨read, found⟩ := Option.isSome_iff_exists.mp single
  obtain ⟨values, columns, rows, each, plain⟩ := exists_of_toMatrix? found
  rw [values?_ofMatrix, Option.some.injEq] at columns
  have contents : read.contents = matrix.contents :=
    Matrix.contents_eq_of_columnList rows (each.trans columns.symm)
  rw [found, ← plain, Matrix.reorder_eq_of_contents contents]

end Frame

namespace Sparsify

theorem matrix_eq_of_contents {left right : Matrix} (same : left.contents = right.contents)
    (ratio : Double) : matrix left ratio = matrix right ratio :=
  Matrix.congr_of_contents (fun rows columns entry => do
    let plain := Matrix.ofFn .rowMajor rows columns entry
    let drawn ← places plain.buffer.size ratio
    return (⟨rows, columns, .rowMajor, erase plain.buffer drawn,
      (size_erase _ _).trans plain.size_buffer⟩ : Matrix)) same

/-- The places are drawn, and the entries kept, row by row, however the matrix is stored. -/
theorem compress_eq_of_contents {left right : Matrix} (same : left.contents = right.contents)
    (layout : Layout) (ratio : Double) :
    compress layout ratio left = compress layout ratio right := by
  unfold compress
  rw [matrix_eq_of_contents same]

end Sparsify

/-- Frames of single precision and series, whether or not cells are missing. -/
inductive Value.IsColumnar : Value → Prop
  | frame {table : Frame} (single : table.IsSingle) : IsColumnar (.frame table)
  | series (cells : Series) : IsColumnar (.series cells)

namespace Format

theorem accepts_of_isDense (format : Format) {value : Value} (dense : value.IsDense) :
    format.Accepts value := by
  cases dense <;> exact trivial

theorem accepts_of_isColumnar (format : Format) {value : Value} (columnar : value.IsColumnar) :
    format.Accepts value := by
  cases columnar with
  | frame single => exact .inr (.inr single)
  | series cells => exact trivial

end Format

namespace Conversion

/-- Brought into a first format and from there into another, the value ends up as if it had been
brought into the other right away, and as much is drawn. -/
def Passes (ratio : Double) (first target : Format) (value : Value) : Prop :=
  ∀ stream, ∃ result after,
    (ofValue ratio first value >>= ofValue ratio target).run.run stream = (.ok result, after) ∧
    (ofValue ratio target value).run.run stream = (.ok result, after)

variable {ratio : Double} {first target : Format}

theorem passes_of_pure {value between : Value} (accepted : target.Accepts value)
    (plain : ofValue ratio first value = pure between)
    (same : ofValue ratio target between = ofValue ratio target value) :
    Passes ratio first target value := by
  intro stream
  obtain ⟨result, after, run, _⟩ := (ofValue_takes ratio target value).yields accepted stream
  refine ⟨result, after, ?_, run⟩
  rw [plain, pure_bind, same]
  exact run

theorem matrixOf_eq {frame : Frame} {matrix : Matrix} (found : frame.toMatrix? = some matrix)
    (format : Format) : matrixOf format frame = pure matrix := by
  unfold matrixOf
  rw [found]

theorem ofValue_matrix_eq {left right : Matrix} (same : left.contents = right.contents)
    (ratio : Double) (target : Format) :
    ofValue ratio target (.matrix left) = ofValue ratio target (.matrix right) := by
  cases target with
  | numpy => simp only [ofValue, toDense, Matrix.reorder_eq_of_contents same]
  | cudf => simp only [ofValue, toFrame, Frame.ofMatrix_eq_of_contents same]
  | pandas => simp only [ofValue, toFrame, Frame.ofMatrix_eq_of_contents same]
  | gpuarray => simp only [ofValue, toDevice, Matrix.reorder_eq_of_contents same]
  | gpuarrayC => simp only [ofValue, toDevice, Matrix.reorder_eq_of_contents same]
  | sparseCsr => simp only [ofValue, toSparse, Sparsify.compress_eq_of_contents same]
  | sparseCsc => simp only [ofValue, toSparse, Sparsify.compress_eq_of_contents same]

/-- Every format but those of frames reads a frame as its matrix. -/
theorem ofValue_frame {frame : Frame} {matrix : Matrix} (found : frame.toMatrix? = some matrix)
    (noPandas : target ≠ .pandas) (noCudf : target ≠ .cudf) :
    ofValue ratio target (.frame frame) = ofValue ratio target (.matrix matrix) := by
  obtain ⟨_, _, _, _, plain⟩ := Frame.exists_of_toMatrix? found
  cases target with
  | cudf => exact absurd rfl noCudf
  | pandas => exact absurd rfl noPandas
  | numpy => simp only [ofValue, toDense, matrixOf_eq found, pure_bind, plain]
  | gpuarray => simp only [ofValue, toDevice, matrixOf_eq found, pure_bind]
  | gpuarrayC => simp only [ofValue, toDevice, matrixOf_eq found, pure_bind]
  | sparseCsr => simp only [ofValue, toSparse, matrixOf_eq found, pure_bind]
  | sparseCsc => simp only [ofValue, toSparse, matrixOf_eq found, pure_bind]

theorem ofValue_series (series : Series) (noPandas : target ≠ .pandas)
    (noCudf : target ≠ .cudf) :
    ofValue ratio target (.series series) = ofValue ratio target (.vector series.toValues) := by
  cases target with
  | cudf => exact absurd rfl noCudf
  | pandas => exact absurd rfl noPandas
  | numpy | gpuarray | gpuarrayC | sparseCsr | sparseCsc => rfl

theorem ofValue_ofMatrix (ratio : Double) (target : Format) (dense : Matrix) :
    ofValue ratio target (.frame (Frame.ofMatrix dense toString)) =
      ofValue ratio target (.matrix dense) := by
  cases target with
  | cudf | pandas => rfl
  | numpy | gpuarray | gpuarrayC | sparseCsr | sparseCsc =>
      rw [ofValue_frame (Frame.toMatrix?_ofMatrix dense toString) (by decide) (by decide)]
      exact ofValue_matrix_eq (dense.contents_reorder .rowMajor) ratio _

theorem ofValue_ofValues (ratio : Double) (target : Format) (entries : Array Single) :
    ofValue ratio target (.series (Series.ofValues entries)) =
      ofValue ratio target (.vector entries) := by
  cases target with
  | cudf | pandas => rfl
  | numpy | gpuarray | gpuarrayC | sparseCsr | sparseCsc =>
      rw [ofValue_series _ (by decide) (by decide), Series.toValues_ofValues]

theorem passes_toDense {value : Value} (dense : value.IsDense) :
    Passes ratio .numpy target value := by
  have accepted := target.accepts_of_isDense dense
  cases dense with
  | matrix dense =>
      have same := ofValue_matrix_eq (dense.contents_reorder .rowMajor) ratio target
      exact passes_of_pure accepted rfl same
  | vector entries => exact passes_of_pure accepted rfl rfl

theorem passes_toFrame (framed : first = .cudf ∨ first = .pandas) {value : Value}
    (dense : value.IsDense) : Passes ratio first target value := by
  have accepted := target.accepts_of_isDense dense
  cases dense with
  | matrix dense =>
      apply passes_of_pure accepted _ (ofValue_ofMatrix ratio target dense)
      rcases framed with rfl | rfl <;> rfl
  | vector entries =>
      apply passes_of_pure accepted _ (ofValue_ofValues ratio target entries)
      rcases framed with rfl | rfl <;> rfl

theorem passes_columnar {value : Value} (columnar : value.IsColumnar)
    (noPandas : target ≠ .pandas) (noCudf : target ≠ .cudf) :
    Passes ratio .numpy target value := by
  have accepted := target.accepts_of_isColumnar columnar
  cases columnar with
  | @frame table single =>
      obtain ⟨matrix, found⟩ :=
        Option.isSome_iff_exists.mp (table.isSome_toMatrix?_iff.mpr single)
      apply passes_of_pure accepted _ (ofValue_frame found noPandas noCudf).symm
      simp only [ofValue, toDense, matrixOf_eq found, pure_bind]
  | series cells =>
      exact passes_of_pure accepted rfl (ofValue_series cells noPandas noCudf).symm

theorem ofValue_eq_of_contents {left right : Value} (leftDense : left.IsDense)
    (rightDense : right.IsDense) (same : left.contents? = right.contents?) (ratio : Double)
    (target : Format) : ofValue ratio target left = ofValue ratio target right := by
  cases leftDense with
  | matrix dense =>
      cases rightDense with
      | matrix other => exact ofValue_matrix_eq (Option.some.inj same) ratio target
      | vector => cases same
  | vector entries =>
      cases rightDense with
      | matrix => cases same
      | vector others =>
          have equal : entries = others := by simpa [Value.contents?] using same
          rw [equal]

/-- However it gets there, a plain value ends up the same in every format, and only what it holds
counts.  The same goes for columns of single precision that become plain values on the way to a
format without frames. -/
theorem passes_standard (ratio : Double) (target : Format) :
    (∀ value : Value, value.IsDense → ∀ first : Format,
      first = .numpy ∨ first = .cudf ∨ first = .pandas → Passes ratio first target value) ∧
    (∀ left right : Value, left.IsDense → right.IsDense → left.contents? = right.contents? →
      ofValue ratio target left = ofValue ratio target right) ∧
    ∀ value : Value, value.IsColumnar → target ≠ .pandas → target ≠ .cudf →
      Passes ratio .numpy target value := by
  refine ⟨?_, ?_, ?_⟩
  · rintro value dense first (rfl | framed)
    · exact passes_toDense dense
    · exact passes_toFrame framed dense
  · intro left right leftDense rightDense same
    exact ofValue_eq_of_contents leftDense rightDense same ratio target
  · intro value columnar noPandas noCudf
    exact passes_columnar columnar noPandas noCudf

/-- A column stored as such goes by way of a frame, and one with a missing cell by way of a
matrix. -/
theorem passes_standard_of_two_columns :
    let ratio := ConverterSet.defaultRatio
    let plain := Matrix.ofFn .columnMajor 2 1 fun row _ => if row = 0 then missing else 0
    let gapped : Frame := ⟨2, [⟨"0", .float32 #[none, some 0]⟩], by simp [Cells.size]⟩
    Passes ratio .pandas .sparseCsc (.matrix plain) ∧
      ofValue ratio .cudf (.matrix (plain.reorder .rowMajor)) =
        ofValue ratio .cudf (.matrix plain) ∧
      Passes ratio .numpy .gpuarray (.frame gapped) := by
  intro ratio plain gapped
  have single : gapped.IsSingle := by
    intro column present
    obtain rfl := List.mem_singleton.mp present
    exact ⟨_, rfl⟩
  refine ⟨?_, ?_, ?_⟩
  · exact (passes_standard ratio .sparseCsc).1 _ (.matrix plain) .pandas (.inr (.inr rfl))
  · exact (passes_standard ratio .cudf).2.1 _ _ (.matrix _) (.matrix plain)
      (congrArg some (plain.contents_reorder .rowMajor))
  · exact (passes_standard ratio .gpuarray).2.2 _ (.frame single) (by decide) (by decide)

end Conversion

end DatasetDepot
