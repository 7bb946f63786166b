import DatasetDepot.Proofs.Conversion.Traversal

/-!
Which bundles are splits.

A split is handed to a converter as a bundle, and the converter may hand back any bundle.  Main
statement: only the bundle of a split is read as a split, and as that one; any other is refused for
the first thing about it that does not fit.  So a conversion gives exactly what its converter gave,
or the fault of the converter, or the misfit.
-/

namespace DatasetDepot

namespace Bundle

/-- The first thing about a bundle that makes it no split, as a size that is expected and the one
that is there: it is no tuple, or not one of four, or lacks the features to train on, or has a tuple
in the place of a value. -/
inductive Misfits : Bundle → (expected actual : Nat) → Prop
  | absent : Misfits .absent 4 1
  | value (leaf : Value) : Misfits (.value leaf) 4 1
  | tuple {items : List Bundle} (other : items.length ≠ 4) : Misfits (.tuple items) 4 items.length
  | untrained (trainY testX testY : Bundle) : Misfits (.tuple [.absent, trainY, testX, testY]) 1 0
  | trainX (items : List Bundle) (trainY testX testY : Bundle) :
      Misfits (.tuple [.tuple items, trainY, testX, testY]) 1 items.length
  | trainY (trainX : Value) (items : List Bundle) (testX testY : Bundle) :
      Misfits (.tuple [.value trainX, .tuple items, testX, testY]) 1 items.length
  | testX (trainX : Value) (trainY? : Option Value) (items : List Bundle) (testY : Bundle) :
      Misfits (.tuple [.value trainX, ofOption trainY?, .tuple items, testY]) 1 items.length
  | testY (trainX : Value) (trainY? testX? : Option Value) (items : List Bundle) :
      Misfits (.tuple [.value trainX, ofOption trainY?, ofOption testX?, .tuple items])
        1 items.length

theorem ofOption_or_tuple (bundle : Bundle) :
    (∃ value?, bundle = ofOption value?) ∨ ∃ items, bundle = .tuple items := by
  cases bundle with
  | absent => exact .inl ⟨none, rfl⟩
  | value leaf => exact .inl ⟨some leaf, rfl⟩
  | tuple items => exact .inr ⟨items, rfl⟩

theorem toSplit_of_length_ne {items : List Bundle} (other : items.length ≠ 4) :
    (tuple items).toSplit = .error (.shapeMismatch 4 items.length) := by
  match items, other with
  | [], _ => rfl
  | [_], _ => rfl
  | [_, _], _ => rfl
  | [_, _, _], _ => rfl
  | [_, _, _, _], other => exact absurd rfl other
  | _ :: _ :: _ :: _ :: _ :: _, _ => rfl

theorem toSplit_of_misfits {bundle : Bundle} {expected actual : Nat}
    (misfits : bundle.Misfits expected actual) :
    bundle.toSplit = .error (.shapeMismatch expected actual) := by
  cases misfits with
  | absent | value | untrained | trainX | trainY => rfl
  | tuple other => exact toSplit_of_length_ne other
  | testX | testY =>
      unfold toSplit
      simp only [toOption_ofOption]
      rfl

/-- There are no other bundles than those of splits and those that misfit. -/
theorem ofSplit_or_misfits (bundle : Bundle) :
    (∃ split, bundle = ofSplit split) ∨ ∃ expected actual, bundle.Misfits expected actual := by
  cases bundle with
  | absent => exact .inr ⟨4, 1, .absent⟩
  | value leaf => exact .inr ⟨4, 1, .value leaf⟩
  | tuple items =>
      by_cases four : items.length = 4
      · match items, four with
        | [trainX, trainY, testX, testY], _ =>
            rcases trainX.ofOption_or_tuple with ⟨_ | trainX, rfl⟩ | ⟨items, rfl⟩
            · exact .inr ⟨1, 0, .untrained trainY testX testY⟩
            · rcases trainY.ofOption_or_tuple with ⟨trainY?, rfl⟩ | ⟨items, rfl⟩
              · rcases testX.ofOption_or_tuple with ⟨testX?, rfl⟩ | ⟨items, rfl⟩
                · rcases testY.ofOption_or_tuple with ⟨testY?, rfl⟩ | ⟨items, rfl⟩
                  · exact .inl ⟨⟨trainX, trainY?, testX?, testY?⟩, rfl⟩
                  · exact .inr ⟨1, _, .testY trainX trainY? testX? items⟩
                · exact .inr ⟨1, _, .testX trainX trainY? items testY⟩
              · exact .inr ⟨1, _, .trainY trainX items testX testY⟩
            · exact .inr ⟨1, _, .trainX items trainY testX testY⟩
      · exact .inr ⟨4, _, .tuple four⟩

theorem toSplit_eq_ok_iff {bundle : Bundle} {split : Split} :
    bundle.toSplit = .ok split ↔ bundle = ofSplit split := by
  constructor
  · intro read
    rcases bundle.ofSplit_or_misfits with ⟨other, rfl⟩ | ⟨expected, actual, misfits⟩
    · rw [toSplit_ofSplit, Except.ok.injEq] at read
      rw [read]
    · rw [toSplit_of_misfits misfits] at read
      cases read
  · rintro rfl
    exact toSplit_ofSplit split

theorem toSplit_eq_error_iff {bundle : Bundle} {fault : Fault} :
    bundle.toSplit = .error fault ↔
      ∃ expected actual, bundle.Misfits expected actual ∧
        fault = .shapeMismatch expected actual := by
  constructor
  · intro refused
    rcases bundle.ofSplit_or_misfits with ⟨split, rfl⟩ | ⟨expected, actual, misfits⟩
    · rw [toSplit_ofSplit] at refused
      cases refused
    · rw [toSplit_of_misfits misfits, Except.error.injEq] at refused
      exact ⟨expected, actual, misfits, refused.symm⟩
  · rintro ⟨expected, actual, misfits, rfl⟩
    exact toSplit_of_misfits misfits

end Bundle

namespace ConverterSet

theorem run_convertSplit (converters : ConverterSet) (format : Format) (split : Split)
    (stream : Stream) :
    (converters.convertSplit format split).run.run stream =
      match ((converters.find format).convert (.ofSplit split)).run.run stream with
      | (.ok parts, after) => (parts.toSplit, after)
      | (.error fault, after) => (.error fault, after) := by
  unfold convertSplit
  rw [Conversion.run_bind]
  rcases ((converters.find format).convert (.ofSplit split)).run.run stream with
    ⟨fault | parts, after⟩
  · rfl
  · change (liftM parts.toSplit : Conversion Split).run.run after = (parts.toSplit, after)
    cases parts.toSplit with
    | error fault => rfl
    | ok converted => rfl

theorem run_convertSplit_eq_ok_iff (converters : ConverterSet) (format : Format)
    (split whole : Split) (stream after : Stream) :
    (converters.convertSplit format split).run.run stream = (.ok whole, after) ↔
      ((converters.find format).convert (.ofSplit split)).run.run stream =
        (.ok (.ofSplit whole), after) := by
  rw [run_convertSplit]
  rcases ((converters.find format).convert (.ofSplit split)).run.run stream with
    ⟨fault | parts, middle⟩
  · constructor <;> intro given <;> cases given
  · constructor
    · intro given
      obtain ⟨read, rfl⟩ := Prod.mk.inj given
      rw [Bundle.toSplit_eq_ok_iff.mp read]
    · rintro ⟨⟩
      exact congrArg (·, after) (Bundle.toSplit_ofSplit whole)

theorem run_convertSplit_eq_error_iff (converters : ConverterSet) (format : Format)
    (split : Split) (stream after : Stream) (fault : Fault) :
    (converters.convertSplit format split).run.run stream = (.error fault, after) ↔
      ((converters.find format).convert (.ofSplit split)).run.run stream = (.error fault, after) ∨
        ∃ parts expected actual,
          ((converters.find format).convert (.ofSplit split)).run.run stream =
            (.ok parts, after) ∧
          parts.Misfits expected actual ∧ fault = .shapeMismatch expected actual := by
  rw [run_convertSplit]
  rcases ((converters.find format).convert (.ofSplit split)).run.run stream with
    ⟨refusal | parts, middle⟩
  · constructor
    · rintro ⟨⟩
      exact .inl rfl
    · rintro (⟨⟨⟩⟩ | ⟨parts, _, _, given, _⟩)
      · rfl
      · cases given
  · constructor
    · intro given
      obtain ⟨refused, rfl⟩ := Prod.mk.inj given
      obtain ⟨expected, actual, misfits, rfl⟩ := Bundle.toSplit_eq_error_iff.mp refused
      exact .inr ⟨parts, expected, actual, rfl, misfits, rfl⟩
    · rintro (given | ⟨_, expected, actual, ⟨⟩, misfits, rfl⟩)
      · cases given
      · exact congrArg (·, after) (Bundle.toSplit_of_misfits misfits)

/-- Reading a bundle as a split undoes making one of it and nothing else.  Whatever converter stands
in the place of a format, a conversion gives a split exactly if the converter gave its bundle; the
only other outcomes are the fault of the converter and a misfit. -/
theorem reassembles_split (bundle : Bundle) (converters : ConverterSet) (format : Format)
    (split : Split) (stream : Stream) :
    let converted := ((converters.find format).convert (.ofSplit split)).run.run stream
    let result := (converters.convertSplit format split).run.run stream
    (∀ whole, bundle.toSplit = .ok whole ↔ bundle = .ofSplit whole) ∧
    (∀ fault, bundle.toSplit = .error fault ↔ ∃ expected actual,
      bundle.Misfits expected actual ∧ fault = .shapeMismatch expected actual) ∧
    (∀ whole after, result = (.ok whole, after) ↔ converted = (.ok (.ofSplit whole), after)) ∧
    ∀ fault after, result = (.error fault, after) ↔
      converted = (.error fault, after) ∨
        ∃ parts expected actual, converted = (.ok parts, after) ∧
          parts.Misfits expected actual ∧ fault = .shapeMismatch expected actual := by
  intro converted result
  refine ⟨fun _ => Bundle.toSplit_eq_ok_iff, fun _ => Bundle.toSplit_eq_error_iff, ?_, ?_⟩
  · intro whole after
    exact converters.run_convertSplit_eq_ok_iff format split whole stream after
  · intro fault after
    exact converters.run_convertSplit_eq_error_iff format split stream after fault

end ConverterSet

end DatasetDepot
