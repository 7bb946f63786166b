import DatasetDepot.Proofs.Conversion

/-!
How a conversion goes through a bundle.

`Threads` is a list of values that are converted one after the other, each drawing from where the
one before left the stream.  Which values a format takes is said once, as a table.  Main
statement: a standard converter visits the values of a bundle from left to right and keeps its
shape; it stops at the first value that its format does not take, having drawn for those before
and for nothing else.
-/

namespace DatasetDepot

/-- The same tree, whatever the values. -/
inductive Bundle.Alike : Bundle → Bundle → Prop
  | absent : Alike .absent .absent
  | value (left right : Value) : Alike (.value left) (.value right)
  | tuple {items others : List Bundle} (each : List.Forall₂ Alike items others) :
      Alike (.tuple items) (.tuple others)

/-- Values that are converted in turn, from one state of the stream to another. -/
inductive Threads (act : Value → Conversion Value) :
    Stream → List Value → List Value → Stream → Prop
  | nil {stream : Stream} : Threads act stream [] [] stream
  | cons {stream middle after : Stream} {value result : Value} {values results : List Value}
      (first : (act value).run.run stream = (.ok result, middle))
      (rest : Threads act middle values results after) :
      Threads act stream (value :: values) (result :: results) after

namespace Threads

variable {act : Value → Conversion Value} {stream middle after : Stream}
  {values others results more : List Value}

theorem append (first : Threads act stream values results middle)
    (second : Threads act middle others more after) :
    Threads act stream (values ++ others) (results ++ more) after := by
  induction first with
  | nil => exact second
  | cons run _ inductionHypothesis => exact .cons run (inductionHypothesis second)

end Threads

namespace Conversion

theorem run_bind {Input Output : Type} (conversion : Conversion Input)
    (next : Input → Conversion Output) (stream : Stream) :
    (conversion >>= next).run.run stream =
      match conversion.run.run stream with
      | (.ok input, middle) => (next input).run.run middle
      | (.error fault, middle) => (.error fault, middle) := by
  rw [ExceptT.run_bind, StateT.run_bind]
  rcases conversion.run.run stream with ⟨_ | _, _⟩ <;> rfl

end Conversion

/-! Which values a format takes. -/

/-- Every column is single precision, whether or not cells are missing. -/
def Frame.IsSingle (frame : Frame) : Prop :=
  ∀ column ∈ frame.columns, ∃ cells, column.cells = .float32 cells

/-- The values a format takes. -/
def Format.Accepts (format : Format) : Value → Prop
  | .matrix _ | .vector _ | .series _ => True
  | .frame frame => format = .cudf ∨ format = .pandas ∨ frame.IsSingle
  | .device _ => format = .gpuarray ∨ format = .gpuarrayC
  | .sparse _ => False

/-- What a value is called by a format that does not take it. -/
def Value.refusedKind : Value → String
  | .frame _ => "frame with non-Float32 columns"
  | value => value.kind

theorem Cells.isSome_series?_iff (cells : Cells) :
    cells.series?.isSome ↔ ∃ series, cells = .float32 series := by
  cases cells <;> simp [series?]

namespace Frame

theorem isSome_values?_iff (frame : Frame) : frame.values?.isSome ↔ frame.IsSingle := by
  unfold values? IsSingle
  generalize frame.columns = columns
  induction columns with
  | nil => simp
  | cons first rest inductionHypothesis =>
      rw [List.forall_mem_cons, ← Cells.isSome_series?_iff, ← inductionHypothesis, List.mapM_cons]
      cases first.cells.series? with
      | none => simp
      | some series =>
          cases rest.mapM fun column => column.cells.series?.map Series.toValues <;> simp

theorem isSome_toMatrix?_iff (frame : Frame) : frame.toMatrix?.isSome ↔ frame.IsSingle := by
  rw [← isSome_values?_iff]
  unfold toMatrix?
  split <;> simp [*]

end Frame

namespace Conversion

/-- A conversion succeeds exactly if its input is accepted; otherwise it draws nothing. -/
structure Takes (conversion : Conversion Value) (accepted : Prop) (fault : Fault) : Prop where
  yields : accepted → conversion.Yields fun _ => True
  refuses : ¬ accepted → ∀ stream, conversion.run.run stream = (.error fault, stream)

theorem takes_of_yields {conversion : Conversion Value} {accepted : Prop} {fault : Fault}
    (holds : accepted) (yields : conversion.Yields fun _ => True) :
    conversion.Takes accepted fault :=
  ⟨fun _ => yields, fun fails => absurd holds fails⟩

theorem takes_throw {accepted : Prop} (fails : ¬ accepted) (fault : Fault) :
    (throw fault : Conversion Value).Takes accepted fault :=
  ⟨fun holds => absurd holds fails, fun _ _ => rfl⟩

theorem takes_matrixOf {format : Format} {frame : Frame} {next : Matrix → Conversion Value}
    {accepted : Prop} (same : accepted ↔ frame.IsSingle)
    (yields : ∀ matrix, (next matrix).Yields fun _ => True) :
    (matrixOf format frame >>= next).Takes accepted
      (.unsupportedInput format.name "frame with non-Float32 columns") := by
  rw [same, ← Frame.isSome_toMatrix?_iff]
  unfold matrixOf
  cases frame.toMatrix? with
  | none => exact takes_throw (by simp) _
  | some matrix => exact takes_of_yields rfl (yields matrix)

theorem yields_pure (value : Value) : (pure value : Conversion Value).Yields fun _ => True :=
  Yields.pure trivial

theorem yields_compress (layout : Layout) (ratio : Double) (dense : Matrix) :
    (liftM (Sparsify.compress layout ratio dense) : Conversion Value).Yields fun _ => True :=
  (compress_yields layout ratio dense).mono fun _ _ => trivial

theorem toDense_takes (value : Value) :
    (toDense value).Takes (Format.numpy.Accepts value)
      (.unsupportedInput Format.numpy.name value.refusedKind) := by
  cases value with
  | matrix dense => exact takes_of_yields trivial (yields_pure _)
  | vector entries => exact takes_of_yields trivial (yields_pure _)
  | series cells => exact takes_of_yields trivial (yields_pure _)
  | frame table => exact takes_matrixOf (by simp [Format.Accepts]) fun matrix => yields_pure _
  | device array => exact takes_throw (by simp [Format.Accepts]) _
  | sparse packed => exact takes_throw (by simp [Format.Accepts]) _

theorem toFrame_takes {format : Format} (framed : format = .cudf ∨ format = .pandas)
    (value : Value) :
    (toFrame format value).Takes (format.Accepts value)
      (.unsupportedInput format.name value.refusedKind) := by
  cases value with
  | matrix dense => exact takes_of_yields trivial (yields_pure _)
  | vector entries => exact takes_of_yields trivial (yields_pure _)
  | series cells => exact takes_of_yields trivial (yields_pure _)
  | frame table =>
      apply takes_of_yields _ (yields_pure _)
      rcases framed with rfl | rfl <;> simp [Format.Accepts]
  | device array => exact takes_throw (by rcases framed with rfl | rfl <;> simp [Format.Accepts]) _
  | sparse packed => exact takes_throw (by simp [Format.Accepts]) _

theorem toDevice_takes {format : Format} (laid : format = .gpuarray ∨ format = .gpuarrayC)
    (order : Order) (value : Value) :
    (toDevice format order value).Takes (format.Accepts value)
      (.unsupportedInput format.name value.refusedKind) := by
  cases value with
  | matrix dense => exact takes_of_yields trivial (yields_pure _)
  | vector entries => exact takes_of_yields trivial (yields_pure _)
  | series cells => exact takes_of_yields trivial (yields_pure _)
  | frame table =>
      apply takes_matrixOf _ fun matrix => yields_pure _
      rcases laid with rfl | rfl <;> simp [Format.Accepts]
  | device array =>
      cases array with
      | matrix dense => exact takes_of_yields laid (yields_pure _)
      | vector entries => exact takes_of_yields laid (yields_pure _)
  | sparse packed => exact takes_throw (by simp [Format.Accepts]) _

theorem toSparse_takes {format : Format} (sparse : format = .sparseCsr ∨ format = .sparseCsc)
    (layout : Layout) (ratio : Double) (value : Value) :
    (toSparse format layout ratio value).Takes (format.Accepts value)
      (.unsupportedInput format.name value.refusedKind) := by
  cases value with
  | matrix dense => exact takes_of_yields trivial (yields_compress _ _ _)
  | vector entries => exact takes_of_yields trivial (yields_compress _ _ _)
  | series cells => exact takes_of_yields trivial (yields_compress _ _ _)
  | frame table =>
      apply takes_matrixOf _ fun matrix => yields_compress _ _ _
      rcases sparse with rfl | rfl <;> simp [Format.Accepts]
  | device array => exact takes_throw (by rcases sparse with rfl | rfl <;> simp [Format.Accepts]) _
  | sparse packed => exact takes_throw (by simp [Format.Accepts]) _

theorem ofValue_takes (ratio : Double) (format : Format) (value : Value) :
    (ofValue ratio format value).Takes (format.Accepts value)
      (.unsupportedInput format.name value.refusedKind) := by
  cases format with
  | numpy => exact toDense_takes value
  | cudf => exact toFrame_takes (.inl rfl) value
  | pandas => exact toFrame_takes (.inr rfl) value
  | gpuarray => exact toDevice_takes (.inl rfl) .columnMajor value
  | gpuarrayC => exact toDevice_takes (.inr rfl) .rowMajor value
  | sparseCsr => exact toSparse_takes (.inl rfl) .csr ratio value
  | sparseCsc => exact toSparse_takes (.inr rfl) .csc ratio value

end Conversion

/-- What comes of acting on the values of a tree, or of several: a tree of the same shape, or the
fault of the first value that fails. -/
inductive Traverses {Tree : Type} (values : Tree → List Value) (alike : Tree → Tree → Prop)
    (act : Value → Conversion Value) (tree : Tree) (stream : Stream) :
    Except Fault Tree × Stream → Prop
  | done {result : Tree} {after : Stream} (shape : alike tree result)
      (threads : Threads act stream (values tree) (values result) after) :
      Traverses values alike act tree stream (.ok result, after)
  | stopped {before rest results : List Value} {value : Value} {middle after : Stream}
      {fault : Fault} (leaves : values tree = before ++ value :: rest)
      (threads : Threads act stream before results middle)
      (failed : (act value).run.run middle = (.error fault, after)) :
      Traverses values alike act tree stream (.error fault, after)

namespace Bundle

variable {act : Value → Conversion Value}

theorem traverses_value (leaf : Value) (stream : Stream) :
    Traverses values Alike act (.value leaf) stream
      ((traverse act (.value leaf)).run.run stream) := by
  rw [traverse, Conversion.run_bind]
  rcases run : (act leaf).run.run stream with ⟨fault | result, after⟩
  · have leaves : values (.value leaf) = [] ++ leaf :: [] := by rw [values, List.nil_append]
    exact .stopped leaves .nil run
  · apply Traverses.done (.value leaf result)
    rw [values, values]
    exact .cons run .nil

theorem traverses_tuple {items : List Bundle} {stream : Stream}
    (each : Traverses valuesOfAll (List.Forall₂ Alike) act items stream
      ((traverseAll act items).run.run stream)) :
    Traverses values Alike act (.tuple items) stream
      ((traverse act (.tuple items)).run.run stream) := by
  rw [traverse, Conversion.run_bind]
  rcases run : (traverseAll act items).run.run stream with ⟨fault | results, after⟩
  · rw [run] at each
    cases each with
    | stopped leaves threads failed => exact .stopped leaves threads failed
  · rw [run] at each
    cases each with
    | done shape threads => exact .done (.tuple shape) threads

theorem traverses_cons {item : Bundle} {rest : List Bundle} {stream : Stream}
    (first : Traverses values Alike act item stream ((traverse act item).run.run stream))
    (others : ∀ middle, Traverses valuesOfAll (List.Forall₂ Alike) act rest middle
      ((traverseAll act rest).run.run middle)) :
    Traverses valuesOfAll (List.Forall₂ Alike) act (item :: rest) stream
      ((traverseAll act (item :: rest)).run.run stream) := by
  have leaves : valuesOfAll (item :: rest) = values item ++ valuesOfAll rest := by
    rw [valuesOfAll]
  rw [traverseAll, Conversion.run_bind]
  rcases run : (traverse act item).run.run stream with ⟨fault | result, middle⟩
  · rw [run] at first
    cases first with
    | stopped leaves' threads failed =>
        rw [leaves', List.append_assoc, List.cons_append] at leaves
        exact .stopped leaves threads failed
  · rw [run] at first
    cases first with
    | done shape threads =>
        have others := others middle
        simp only
        rw [Conversion.run_bind]
        rcases run' : (traverseAll act rest).run.run middle with ⟨fault | results, after⟩
        · rw [run'] at others
          cases others with
          | stopped leaves' threads' failed =>
              rw [leaves', ← List.append_assoc] at leaves
              exact .stopped leaves (threads.append threads') failed
        · rw [run'] at others
          cases others with
          | done shape' threads' =>
              apply Traverses.done (.cons shape shape')
              rw [leaves, valuesOfAll]
              exact threads.append threads'

mutual

theorem traverses (act : Value → Conversion Value) : ∀ (bundle : Bundle) (stream : Stream),
    Traverses values Alike act bundle stream ((traverse act bundle).run.run stream)
  | .absent, _ => .done .absent .nil
  | .value leaf, stream => traverses_value leaf stream
  | .tuple items, _ => traverses_tuple (traverses_all act items _)

theorem traverses_all (act : Value → Conversion Value) : ∀ (items : List Bundle) (stream : Stream),
    Traverses valuesOfAll (List.Forall₂ Alike) act items stream
      ((traverseAll act items).run.run stream)
  | [], _ => .done .nil .nil
  | item :: rest, stream => traverses_cons (traverses act item stream) (traverses_all act rest)

end

theorem Alike.exists_value {leaf : Value} {bundle : Bundle} (alike : Alike (.value leaf) bundle) :
    ∃ other, bundle = .value other := by
  cases alike with
  | value _ other => exact ⟨other, rfl⟩

theorem Alike.exists_option {value? : Option Value} {bundle : Bundle}
    (alike : Alike (ofOption value?) bundle) : ∃ other?, bundle = ofOption other? := by
  cases value? with
  | none =>
      cases alike
      exact ⟨none, rfl⟩
  | some leaf =>
      obtain ⟨other, rfl⟩ := alike.exists_value
      exact ⟨some other, rfl⟩

/-- What has the shape of a split is one. -/
theorem Alike.exists_split {split : Split} {bundle : Bundle}
    (alike : Alike (ofSplit split) bundle) :
    ∃ other, bundle = ofSplit other := by
  cases alike with
  | tuple each =>
      obtain _ | ⟨first, each⟩ := each
      obtain _ | ⟨second, each⟩ := each
      obtain _ | ⟨third, each⟩ := each
      obtain _ | ⟨fourth, each⟩ := each
      obtain rfl := List.forall₂_nil_left_iff.mp each
      obtain ⟨trainX, rfl⟩ := first.exists_value
      obtain ⟨trainY?, rfl⟩ := second.exists_option
      obtain ⟨testX?, rfl⟩ := third.exists_option
      obtain ⟨testY?, rfl⟩ := fourth.exists_option
      exact ⟨⟨trainX, trainY?, testX?, testY?⟩, rfl⟩

end Bundle

/-- What comes of bringing a bundle into a format. -/
inductive Bundle.Converts (ratio : Double) (format : Format) (bundle : Bundle) (stream : Stream) :
    Except Fault Bundle × Stream → Prop
  | done {result : Bundle} {after : Stream}
      (accepted : ∀ value ∈ bundle.values, format.Accepts value) (shape : bundle.Alike result)
      (threads : Threads (Conversion.ofValue ratio format) stream bundle.values result.values
        after) :
      Converts ratio format bundle stream (.ok result, after)
  | refused {before rest results : List Value} {value : Value} {after : Stream}
      (leaves : bundle.values = before ++ value :: rest)
      (accepted : ∀ other ∈ before, format.Accepts other) (rejected : ¬ format.Accepts value)
      (threads : Threads (Conversion.ofValue ratio format) stream before results after) :
      Converts ratio format bundle stream
        (.error (.unsupportedInput format.name value.refusedKind), after)

/-- A split is converted as the bundle of its parts, and the same parts come back. -/
inductive Split.Converts (ratio : Double) (format : Format) (split : Split) (stream : Stream) :
    Except Fault Split × Stream → Prop
  | done {converted : Split} {after : Stream}
      (parts : (Bundle.ofSplit split).Converts ratio format stream
        (.ok (.ofSplit converted), after)) :
      Converts ratio format split stream (.ok converted, after)
  | refused {fault : Fault} {after : Stream}
      (parts : (Bundle.ofSplit split).Converts ratio format stream (.error fault, after)) :
      Converts ratio format split stream (.error fault, after)

section Standard

variable {ratio : Double} {format : Format} {stream after : Stream}

theorem Threads.accepts {values results : List Value}
    (threads : Threads (Conversion.ofValue ratio format) stream values results after) :
    ∀ value ∈ values, format.Accepts value := by
  induction threads with
  | nil => exact fun _ member => absurd member List.not_mem_nil
  | cons run _ inductionHypothesis =>
      apply List.forall_mem_cons.mpr ⟨_, inductionHypothesis⟩
      by_contra rejected
      rw [(Conversion.ofValue_takes ratio format _).refuses rejected] at run
      cases run

theorem Bundle.converts (ratio : Double) (format : Format) (bundle : Bundle) (stream : Stream) :
    bundle.Converts ratio format stream
      (((Converter.standard ratio format).convert bundle).run.run stream) := by
  change bundle.Converts ratio format stream
    ((traverse (Conversion.ofValue ratio format) bundle).run.run stream)
  have traverses := traverses (Conversion.ofValue ratio format) bundle stream
  generalize (traverse (Conversion.ofValue ratio format) bundle).run.run stream = result
    at traverses
  cases traverses with
  | done shape threads => exact .done threads.accepts shape threads
  | @stopped _ _ _ value middle _ _ leaves threads failed =>
      have takes := Conversion.ofValue_takes ratio format value
      have rejected : ¬ format.Accepts value := by
        intro accepted
        obtain ⟨_, _, run, _⟩ := takes.yields accepted middle
        rw [run] at failed
        cases failed
      rw [takes.refuses rejected] at failed
      cases failed
      exact .refused leaves threads.accepts rejected threads

theorem Bundle.Converts.isOk_iff {bundle : Bundle} {result : Except Fault Bundle × Stream}
    (converts : bundle.Converts ratio format stream result) :
    (∃ converted, result.1 = .ok converted) ↔ ∀ value ∈ bundle.values, format.Accepts value := by
  cases converts with
  | done accepted shape threads => exact ⟨fun _ => accepted, fun _ => ⟨_, rfl⟩⟩
  | @refused _ _ _ value _ leaves accepted rejected threads =>
      constructor
      · rintro ⟨converted, given⟩
        cases given
      · intro all
        exact absurd (all value (by simp [leaves])) rejected

theorem Split.converts (ratio : Double) (format : Format) (split : Split) (stream : Stream) :
    split.Converts ratio format stream
      (((ConverterSet.standard ratio).convertSplit format split).run.run stream) := by
  have parts := Bundle.converts ratio format (.ofSplit split) stream
  change split.Converts ratio format stream
    (((Converter.standard ratio format).convert (.ofSplit split) >>= fun converted =>
      liftM converted.toSplit).run.run stream)
  rw [Conversion.run_bind]
  rcases run : ((Converter.standard ratio format).convert (.ofSplit split)).run.run stream with
    ⟨fault | bundle, after⟩
  · rw [run] at parts
    exact .refused parts
  · rw [run] at parts
    have alike : (Bundle.ofSplit split).Alike bundle := by
      cases parts with
      | done accepted shape threads => exact shape
    obtain ⟨converted, rfl⟩ := alike.exists_split
    simp only
    rw [Bundle.toSplit_ofSplit]
    exact .done parts

/-- Bundles of any shape are converted value by value from left to right: all of them, if the
format takes all of them, and else those before the first that it does not take.  The parts of a
split are no exception, and they come back as a split. -/
theorem converts_standard (ratio : Double) (format : Format) (stream : Stream) :
    (∀ bundle : Bundle, bundle.Converts ratio format stream
      (((Converter.standard ratio format).convert bundle).run.run stream)) ∧
    (∀ bundle : Bundle, (∃ converted,
        (((Converter.standard ratio format).convert bundle).run.run stream).1 = .ok converted) ↔
      ∀ value ∈ bundle.values, format.Accepts value) ∧
    ∀ split : Split, split.Converts ratio format stream
      (((ConverterSet.standard ratio).convertSplit format split).run.run stream) :=
  ⟨fun bundle => bundle.converts ratio format stream,
    fun bundle => (bundle.converts ratio format stream).isOk_iff,
    fun split => split.converts ratio format stream⟩

end Standard

end DatasetDepot
