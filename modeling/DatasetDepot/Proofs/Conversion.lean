import DatasetDepot.Conversion
import DatasetDepot.Proofs.Sparsify
import Mathlib.Data.Option.Defs

/-!
What the standard converters do to the parts of a split.

`Conversion.Yields` says that a conversion succeeds whatever it draws, and what holds of its
result.  Every part of a split of a dataset is a matrix or a vector; main statement: the
standard converters never fail on such a split, keep the parts that are there, and hand out
values that agree with the plain ones.
-/

namespace DatasetDepot

/-- The formats that erase a share of the entries. -/
def Format.isSparse : Format → Bool
  | .sparseCsr | .sparseCsc => true
  | .numpy | .cudf | .pandas | .gpuarray | .gpuarrayC => false

namespace Value

/-- The values a dataset is split into. -/
inductive IsDense : Value → Prop where
  | matrix (dense : Matrix) : IsDense (.matrix dense)
  | vector (entries : Array Single) : IsDense (.vector entries)

/-- A matrix with its rows one after the other; other values stay what they are. -/
def rowMajor : Value → Value
  | .matrix dense => .matrix (dense.reorder .rowMajor)
  | other => other

/-- A plain matrix, or a plain vector as the only row of a matrix. -/
def asMatrix? : Value → Option Matrix
  | .matrix dense => some dense
  | .vector entries => some (Matrix.ofRow entries)
  | .frame _ | .series _ | .device _ | .sparse _ => none

end Value

/-- How a value in a format stands to the plain value of the same data: it has the same
shape and contents, or for a sparse format it expands to the plain matrix thinned by no more
entries than the share says. -/
def Format.Agrees (format : Format) (ratio : Double) (plain converted : Value) : Prop :=
  if format.isSparse then
    ∃ dense compressed, plain.asMatrix? = some dense ∧ converted = .sparse compressed ∧
      dense.IsThinned compressed.toDense
        (Share.ofSize Rounding.toNearest (dense.rows * dense.columns) ratio.shareValue)
  else
    converted.rows = plain.rows ∧ converted.columns? = plain.columns? ∧
      ∃ contents, plain.contents? = some contents ∧ converted.contents? = some contents

namespace Format

theorem agrees_of_contents {format : Format} (plain : format.isSparse = false) (ratio : Double)
    {value converted : Value} {contents : Contents} (rows : converted.rows = value.rows)
    (columns : converted.columns? = value.columns?) (reads : value.contents? = some contents)
    (alike : converted.contents? = some contents) : format.Agrees ratio value converted := by
  unfold Agrees
  rw [plain]
  exact ⟨rows, columns, contents, reads, alike⟩

theorem agrees_of_isThinned {format : Format} (sparse : format.isSparse = true) {ratio : Double}
    {value : Value} {dense : Matrix} {compressed : Compressed}
    (reads : value.asMatrix? = some dense)
    (thinned : dense.IsThinned compressed.toDense
      (Share.ofSize Rounding.toNearest (dense.rows * dense.columns) ratio.shareValue)) :
    format.Agrees ratio value (.sparse compressed) := by
  unfold Agrees
  rw [if_pos sparse]
  exact ⟨dense, compressed, reads, rfl, thinned⟩

end Format

namespace Conversion

variable {Input Output : Type}

/-- The conversion succeeds whatever it draws, with a result of which this holds. -/
def Yields (conversion : Conversion Output) (holds : Output → Prop) : Prop :=
  ∀ stream, ∃ result after, conversion.run.run stream = (.ok result, after) ∧ holds result

theorem Yields.pure {result : Output} {holds : Output → Prop} (satisfied : holds result) :
    (Pure.pure result : Conversion Output).Yields holds :=
  fun stream => ⟨result, stream, rfl, satisfied⟩

theorem Yields.bind {conversion : Conversion Input} {next : Input → Conversion Output}
    {between : Input → Prop} {holds : Output → Prop} (first : conversion.Yields between)
    (rest : ∀ input, between input → (next input).Yields holds) :
    (conversion >>= next).Yields holds := by
  intro stream
  obtain ⟨input, middle, run, reached⟩ := first stream
  obtain ⟨result, after, runNext, satisfied⟩ := rest input reached middle
  refine ⟨result, after, ?_, satisfied⟩
  rw [ExceptT.run_bind, StateT.run_bind, run]
  exact runNext

theorem Yields.mono {conversion : Conversion Output} {holds weaker : Output → Prop}
    (yields : conversion.Yields holds) (implies : ∀ result, holds result → weaker result) :
    conversion.Yields weaker := by
  intro stream
  obtain ⟨result, after, run, satisfied⟩ := yields stream
  exact ⟨result, after, run, implies result satisfied⟩

theorem ofValue_numpy_yields (ratio : Double) {value : Value} (dense : value.IsDense) :
    (ofValue ratio .numpy value).Yields (· = value.rowMajor) := by
  cases dense with
  | matrix _ => exact Yields.pure rfl
  | vector _ => exact Yields.pure rfl

theorem Yields.liftM {drawing : Drawing Output} {holds : Output → Prop}
    (satisfied : ∀ stream, holds (drawing.run stream).1) :
    (MonadLiftT.monadLift drawing : Conversion Output).Yields holds :=
  fun stream => ⟨_, (drawing.run stream).2, rfl, satisfied stream⟩

theorem compress_yields (layout : Layout) (ratio : Double) (dense : Matrix) :
    (liftM (Sparsify.compress layout ratio dense) : Conversion Value).Yields fun converted =>
      ∃ compressed, converted = .sparse compressed ∧ dense.IsThinned compressed.toDense
        (Share.ofSize Rounding.toNearest (dense.rows * dense.columns) ratio.shareValue) := by
  apply Yields.liftM
  intro stream
  obtain ⟨compressed, after, run, thinned⟩ := Sparsify.compress_run layout ratio dense stream
  rw [run]
  exact ⟨compressed, rfl, thinned⟩

theorem toSparse_yields {format : Format} (sparse : format.isSparse = true) (layout : Layout)
    (ratio : Double) {value : Value} (dense : value.IsDense) :
    (toSparse format layout ratio value).Yields (format.Agrees ratio value.rowMajor) := by
  cases dense with
  | matrix dense =>
      apply (compress_yields layout ratio dense).mono
      rintro _ ⟨compressed, rfl, thinned⟩
      exact Format.agrees_of_isThinned sparse rfl (thinned.reorder .rowMajor)
  | vector entries =>
      apply (compress_yields layout ratio (Matrix.ofRow entries)).mono
      rintro _ ⟨compressed, rfl, thinned⟩
      exact Format.agrees_of_isThinned sparse rfl thinned

theorem toFrame_yields {format : Format} (plain : format.isSparse = false) (ratio : Double)
    {value : Value} (dense : value.IsDense) :
    (toFrame format value).Yields (format.Agrees ratio value.rowMajor) := by
  cases dense with
  | matrix dense =>
      apply Yields.pure
      apply Format.agrees_of_contents plain ratio
      · rfl
      · simp [Value.columns?, Value.rowMajor, Frame.ofMatrix, Matrix.reorder]
      · exact congrArg some (dense.contents_reorder .rowMajor)
      · exact Frame.contents?_ofMatrix dense toString
  | vector entries =>
      apply Yields.pure
      apply Format.agrees_of_contents plain ratio
      · simp [Value.rows, Value.rowMajor, Series.ofValues]
      · rfl
      · rfl
      · simp [Value.contents?]

theorem toDevice_yields {format : Format} (plain : format.isSparse = false) (ratio : Double)
    (order : Order) {value : Value} (dense : value.IsDense) :
    (toDevice format order value).Yields (format.Agrees ratio value.rowMajor) := by
  cases dense with
  | matrix dense =>
      apply Yields.pure
      exact Format.agrees_of_contents plain ratio rfl rfl
        (congrArg some (dense.contents_reorder .rowMajor))
        (congrArg some (dense.contents_reorder order))
  | vector entries =>
      apply Yields.pure
      exact Format.agrees_of_contents plain ratio rfl rfl rfl rfl

theorem toDense_yields (ratio : Double) {value : Value} (dense : value.IsDense) :
    (toDense value).Yields (Format.Agrees .numpy ratio value.rowMajor) := by
  cases dense with
  | matrix dense => exact Yields.pure (Format.agrees_of_contents rfl ratio rfl rfl rfl rfl)
  | vector entries => exact Yields.pure (Format.agrees_of_contents rfl ratio rfl rfl rfl rfl)

/-- No format fails on a plain value, and what it hands out agrees with it. -/
theorem ofValue_yields (ratio : Double) (format : Format) {value : Value}
    (dense : value.IsDense) :
    (ofValue ratio format value).Yields (format.Agrees ratio value.rowMajor) := by
  cases format with
  | numpy => exact toDense_yields ratio dense
  | cudf => exact toFrame_yields rfl ratio dense
  | pandas => exact toFrame_yields rfl ratio dense
  | gpuarray => exact toDevice_yields rfl ratio .columnMajor dense
  | gpuarrayC => exact toDevice_yields rfl ratio .rowMajor dense
  | sparseCsr => exact toSparse_yields rfl .csr ratio dense
  | sparseCsc => exact toSparse_yields rfl .csc ratio dense

end Conversion

/-- The parts of one split stand to the parts of another like this, and the same parts are
there. -/
structure Split.Related (related : Value → Value → Prop) (left right : Split) : Prop where
  trainX : related left.trainX right.trainX
  trainY : Option.Rel related left.trainY? right.trainY?
  testX : Option.Rel related left.testX? right.testX?
  testY : Option.Rel related left.testY? right.testY?

/-- Every part of a split is a matrix or a vector. -/
structure Split.IsDense (split : Split) : Prop where
  trainX : split.trainX.IsDense
  trainY : ∀ value ∈ split.trainY?, value.IsDense
  testX : ∀ value ∈ split.testX?, value.IsDense
  testY : ∀ value ∈ split.testY?, value.IsDense

namespace Bundle

theorem toOption_ofOption (value? : Option Value) : (ofOption value?).toOption = .ok value? := by
  cases value? <;> rfl

theorem toSplit_ofSplit (split : Split) : (ofSplit split).toSplit = .ok split := by
  unfold ofSplit toSplit
  simp only [toOption_ofOption]
  rfl

theorem traverse_ofOption_yields {act : Value → Conversion Value}
    {related : Value → Value → Prop} {value? : Option Value}
    (each : ∀ value ∈ value?, (act value).Yields (related value)) :
    (traverse act (ofOption value?)).Yields fun bundle =>
      ∃ converted?, bundle = ofOption converted? ∧ Option.Rel related value? converted? := by
  cases value? with
  | none => exact Conversion.Yields.pure ⟨none, rfl, .none⟩
  | some value =>
      apply (each value rfl).bind
      intro converted agrees
      exact Conversion.Yields.pure ⟨some converted, rfl, .some agrees⟩

theorem traverseAll_cons_yields {act : Value → Conversion Value} {item : Bundle}
    {rest : List Bundle} {first : Bundle → Prop} {others : List Bundle → Prop}
    (head : (traverse act item).Yields first) (tail : (traverseAll act rest).Yields others) :
    (traverseAll act (item :: rest)).Yields fun bundles =>
      ∃ bundle remaining, bundles = bundle :: remaining ∧ first bundle ∧ others remaining := by
  apply head.bind
  intro bundle holdsFirst
  apply tail.bind
  intro remaining holdsOthers
  exact Conversion.Yields.pure ⟨bundle, remaining, rfl, holdsFirst, holdsOthers⟩

theorem traverse_ofSplit_yields {act : Value → Conversion Value}
    {related : Value → Value → Prop} {split : Split} (dense : split.IsDense)
    (each : ∀ value, value.IsDense → (act value).Yields (related value)) :
    (traverse act (ofSplit split)).Yields fun bundle =>
      ∃ converted, bundle = ofSplit converted ∧ split.Related related converted := by
  have trainX : (traverse act (.value split.trainX)).Yields fun bundle =>
      ∃ converted, bundle = .value converted ∧ related split.trainX converted := by
    apply (each split.trainX dense.trainX).bind
    intro converted agrees
    exact Conversion.Yields.pure ⟨converted, rfl, agrees⟩
  have part {value? : Option Value} (plain : ∀ value ∈ value?, value.IsDense) :
      (traverse act (ofOption value?)).Yields fun bundle =>
        ∃ converted?, bundle = ofOption converted? ∧ Option.Rel related value? converted? :=
    traverse_ofOption_yields fun value present => each value (plain value present)
  have nothing : (traverseAll act []).Yields (· = []) := Conversion.Yields.pure rfl
  have all := traverseAll_cons_yields trainX (traverseAll_cons_yields (part dense.trainY)
    (traverseAll_cons_yields (part dense.testX)
      (traverseAll_cons_yields (part dense.testY) nothing)))
  apply all.bind
  rintro _ ⟨_, _, rfl, ⟨trainX, rfl, agreesX⟩, _, _, rfl, ⟨trainY?, rfl, agreesY⟩,
    _, _, rfl, ⟨testX?, rfl, agreesTestX⟩, _, _, rfl, ⟨testY?, rfl, agreesTestY⟩, rfl⟩
  exact Conversion.Yields.pure
    ⟨⟨trainX, trainY?, testX?, testY?⟩, rfl, agreesX, agreesY, agreesTestX, agreesTestY⟩

end Bundle

namespace Split

theorem Related.mono {related weaker : Value → Value → Prop} {left right : Split}
    (holds : left.Related related right)
    (implies : ∀ value result, related value result → weaker value result) :
    left.Related weaker right := by
  have part {value? result? : Option Value} (parts : Option.Rel related value? result?) :
      Option.Rel weaker value? result? := by
    cases parts with
    | none => exact .none
    | some both => exact .some (implies _ _ both)
  exact ⟨implies _ _ holds.trainX, part holds.trainY, part holds.testX, part holds.testY⟩

theorem Related.through {first second joined : Value → Value → Prop} {before left right : Split}
    (toLeft : before.Related first left) (toRight : before.Related second right)
    (joins : ∀ value leftValue rightValue,
      first value leftValue → second value rightValue → joined leftValue rightValue) :
    left.Related joined right := by
  have part {value? leftValue? rightValue? : Option Value}
      (relatedLeft : Option.Rel first value? leftValue?)
      (relatedRight : Option.Rel second value? rightValue?) :
      Option.Rel joined leftValue? rightValue? := by
    cases relatedLeft with
    | none =>
        cases relatedRight
        exact .none
    | some holdsLeft =>
        cases relatedRight with
        | some holdsRight => exact .some (joins _ _ _ holdsLeft holdsRight)
  exact ⟨joins _ _ _ toLeft.trainX toRight.trainX, part toLeft.trainY toRight.trainY,
    part toLeft.testX toRight.testX, part toLeft.testY toRight.testY⟩

end Split

namespace ConverterSet

theorem convertSplit_yields {converters : ConverterSet} {format : Format} {ratio : Double}
    (builtIn : converters.find format = Converter.standard ratio format)
    {related : Value → Value → Prop} {split : Split} (dense : split.IsDense)
    (each : ∀ value, value.IsDense →
      (Conversion.ofValue ratio format value).Yields (related value)) :
    (converters.convertSplit format split).Yields (Split.Related related split) := by
  unfold convertSplit
  rw [builtIn]
  apply (Bundle.traverse_ofSplit_yields dense each).bind
  rintro _ ⟨converted, rfl, agrees⟩
  rw [Bundle.toSplit_ofSplit]
  exact Conversion.Yields.pure agrees

end ConverterSet

end DatasetDepot
