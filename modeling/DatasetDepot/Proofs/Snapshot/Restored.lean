import DatasetDepot.Proofs.Snapshot.Format

/-!
Datasets survive being written.

The table of a dataset has plain columns, so that it is read back as what it was made of.
Main statement: whatever batches the reader makes, the dataset in the file of a dataset has
its rows, columns, entries and labels.  Only a dataset without columns and without labels has
nothing in its table that tells its rows, and comes back empty.
-/

namespace DatasetDepot

namespace Dataset

/-- Datasets of the same entries and labels, however the entries are stored. -/
structure Agrees (left right : Dataset) : Prop where
  features : left.features.contents = right.features.contents
  labels : left.labels? = right.labels?

/-- The dataset without rows, columns and labels. -/
def empty : Dataset := ⟨Matrix.ofFn .rowMajor 0 0 fun _ _ => 0, none, by simp⟩

end Dataset

namespace Snapshot

/-- What is left of a dataset in its file. -/
def kept (dataset : Dataset) : Dataset :=
  if dataset.columns = 0 ∧ dataset.labels? = none then Dataset.empty else dataset

/-- The name of the column of a feature. -/
def featureName (column : Nat) : String := s!"f{column}"

theorem featureName_ne_labelName (column : Nat) : featureName column ≠ labelName := by
  intro same
  have letters := congrArg (fun name : String => name.toList.head?) same
  simp [featureName, labelName, show (toString "f").toList = ['f'] from rfl] at letters

theorem featureName_inj {column other : Nat} :
    featureName column = featureName other ↔ column = other := by
  refine ⟨fun same => ?_, congrArg featureName⟩
  have letters := congrArg String.toList same
  rw [featureName, featureName, String.toList_append, String.toList_append] at letters
  exact Nat.repr_inj.mp (String.toList_inj.mp (List.append_cancel_left letters))

/-- The columns of the table of a dataset. -/
def columnsOf (dataset : Dataset) : List (String × Array Single) :=
  ((List.finRange dataset.columns).map fun (column : Fin dataset.columns) =>
    (featureName column, dataset.features.column column)) ++
    dataset.labels?.toList.map fun labels => (labelName, labels)

theorem featuresOf_columnsOf (dataset : Dataset) :
    featuresOf (columnsOf dataset) = dataset.features.columnList := by
  simp [featuresOf, columnsOf, List.filter_append, List.filter_map, Function.comp_def,
    featureName_ne_labelName, Matrix.columnList, Dataset.columns]

theorem labelsOf_columnsOf (dataset : Dataset) :
    labelsOf (columnsOf dataset) = dataset.labels?.toList := by
  simp [labelsOf, columnsOf, List.filter_append, List.filter_map, Function.comp_def,
    featureName_ne_labelName]

theorem size_of_mem_columnsOf (dataset : Dataset) :
    ∀ column ∈ columnsOf dataset, column.2.size = dataset.rows := by
  intro column member
  rcases List.mem_append.mp member with feature | label
  · obtain ⟨place, _, rfl⟩ := List.mem_map.mp feature
    exact Array.size_ofFn
  · obtain ⟨labels, present, rfl⟩ := List.mem_map.mp label
    exact dataset.aligned labels (Option.mem_toList.mp present)

theorem columns_tableOf (dataset : Dataset) :
    (tableOf dataset).columns =
      (columnsOf dataset).map fun column => Frame.plainColumn column.1 column.2 := by
  have features : (Frame.ofMatrix dataset.features fun column => s!"f{column}").columns =
      (List.finRange dataset.columns).map fun (column : Fin dataset.columns) =>
        Frame.plainColumn (featureName column) (dataset.features.column column) := rfl
  rw [columnsOf, List.map_append, List.map_map, List.map_map]
  unfold tableOf
  split
  · rename_i unlabelled
    rw [features, unlabelled]
    simp [Function.comp_def]
  · rename_i labels labelled
    simp only [Frame.addColumn, features]
    rw [labelled]
    simp [Function.comp_def]

theorem rows_tableOf (dataset : Dataset) : (tableOf dataset).rows = dataset.rows := by
  unfold tableOf
  split
  · rfl
  · rfl

theorem tableOf_eq (dataset : Dataset) :
    tableOf dataset =
      Frame.ofPlain dataset.rows (columnsOf dataset) (size_of_mem_columnsOf dataset) :=
  Frame.eq_of_columns (rows_tableOf dataset) (columns_tableOf dataset)

theorem columnsOf_eq_nil_iff (dataset : Dataset) :
    columnsOf dataset = [] ↔ dataset.columns = 0 ∧ dataset.labels? = none := by
  simp [columnsOf, List.append_eq_nil_iff]

theorem kept_of_columnsOf {dataset : Dataset} (some : columnsOf dataset ≠ []) :
    kept dataset = dataset :=
  if_neg (mt (columnsOf_eq_nil_iff dataset).mpr some)

theorem legible_tableOf (dataset : Dataset) :
    legible (tableOf dataset) = tableOf (kept dataset) := by
  by_cases nothing : columnsOf dataset = []
  · have columns : (tableOf dataset).columns = [] := by
      rw [columns_tableOf, nothing, List.map_nil]
    have bare : kept dataset = Dataset.empty := if_pos ((columnsOf_eq_nil_iff dataset).mp nothing)
    rw [legible, columns, bare]
    rfl
  · rw [kept_of_columnsOf nothing, legible_of_columns]
    rw [columns_tableOf]
    exact mt List.map_eq_nil_iff.mp nothing

theorem rows_kept {dataset : Dataset} (nothing : columnsOf (kept dataset) = []) :
    (kept dataset).rows = 0 := by
  unfold kept at nothing ⊢
  split
  · rfl
  · rename_i some
    rw [if_neg some] at nothing
    exact absurd ((columnsOf_eq_nil_iff dataset).mp nothing) some

theorem agrees_of_reads {dataset restored : Dataset}
    (reads : Reads (columnsOf dataset) dataset.rows restored) : restored.Agrees dataset where
  features := by
    apply Matrix.contents_eq_of_columnList reads.rows
    rw [reads.features, featuresOf_columnsOf]
  labels := by
    rw [reads.labels, labelsOf_columnsOf, Option.head?_toList]

theorem isPlain_of_mem_tableOf (dataset : Dataset) :
    ∀ column ∈ (tableOf dataset).columns, column.IsPlain := by
  intro column member
  rw [columns_tableOf] at member
  obtain ⟨named, _, rfl⟩ := List.mem_map.mp member
  exact ⟨named.2, rfl⟩

theorem names_tableOf (dataset : Dataset) :
    (tableOf dataset).columns.map Column.name = (columnsOf dataset).map Prod.fst := by
  rw [columns_tableOf, List.map_map]
  rfl

/-- The columns of a dataset have names of their own. -/
theorem nodup_names_tableOf (dataset : Dataset) :
    ((tableOf dataset).columns.map Column.name).Nodup := by
  have features : ((List.finRange dataset.columns).map fun (column : Fin dataset.columns) =>
      featureName column).Nodup :=
    (List.nodup_finRange _).map fun _ _ same => Fin.ext (featureName_inj.mp same)
  have labels : (dataset.labels?.toList.map fun _ => labelName).Nodup := by
    cases dataset.labels? with
    | none => exact List.nodup_nil
    | some labels => exact List.nodup_singleton _
  rw [names_tableOf, columnsOf, List.map_append, List.map_map, List.map_map]
  refine List.nodup_append.mpr ⟨features, labels, ?_⟩
  intro feature member label member' same
  obtain ⟨column, _, rfl⟩ := List.mem_map.mp member
  obtain ⟨_, _, rfl⟩ := List.mem_map.mp member'
  exact featureName_ne_labelName column same

/-- The table of what is left of a dataset reads as just that. -/
theorem exists_restored (dataset : Dataset) {batches : List Frame}
    (cut : (tableOf (kept dataset)).IsCut batches) :
    ∃ restored, ofBatches ((tableOf (kept dataset)).columns.map Column.name) batches =
      .ok (.ok restored) ∧ restored.Agrees (kept dataset) := by
  have few : (labelsOf (columnsOf (kept dataset))).length ≤ 1 := by
    rw [labelsOf_columnsOf]
    exact Option.length_toList_le
  rw [tableOf_eq] at cut
  obtain ⟨restored, accepted, reads⟩ := reads_ofBatches_ofPlain _ cut few rows_kept
  exact ⟨restored, by rw [names_tableOf, accepted], agrees_of_reads reads⟩

/-- Whatever the format, what is written of a dataset reads as what is left of it. -/
theorem exists_read_write {tables : TableFormat} (faithful : tables.IsFaithful)
    (dataset : Dataset) :
    ∃ reading, tables.read (tables.write (tableOf dataset)) = .ok reading ∧
      ∃ restored, ofReading reading = .ok (.ok restored) ∧ restored.Agrees (kept dataset) := by
  obtain ⟨reading, read, tells⟩ := faithful (tableOf dataset) (isPlain_of_mem_tableOf dataset)
    (nodup_names_tableOf dataset)
  have cut := tells.cut
  have names := tells.names
  rw [← columns_legible] at names
  rw [legible_tableOf] at cut names
  obtain ⟨restored, accepted, agrees⟩ := exists_restored dataset cut
  refine ⟨reading, read, restored, ?_, agrees⟩
  rw [ofReading, tells.whole, names]
  exact accepted

/-- The file of a dataset reads as the dataset, bit by bit, whatever the format and however its
rows are cut into batches; a dataset without columns and without labels reads as the empty one. -/
theorem restores_of_cut {tables : TableFormat} (faithful : tables.IsFaithful) (dataset : Dataset) :
    (∃ reading, tables.read (tables.write (tableOf dataset)) = .ok reading ∧
      ∃ restored, ofReading reading = .ok (.ok restored) ∧
        restored.Agrees
          (if dataset.columns = 0 ∧ dataset.labels? = none then Dataset.empty else dataset)) ∧
    ∀ batches, (legible (tableOf dataset)).IsCut batches →
      ∃ restored, ofBatches ((tableOf dataset).columns.map Column.name) batches =
        .ok (.ok restored) ∧
        restored.Agrees
          (if dataset.columns = 0 ∧ dataset.labels? = none then Dataset.empty else dataset) := by
  refine ⟨exists_read_write faithful dataset, fun batches cut => ?_⟩
  rw [← columns_legible]
  rw [legible_tableOf] at cut ⊢
  exact exists_restored dataset cut

/-- Three labelled rows with two numbers that are none, by different bits, and a negative zero: they
come back from a file, and from batches of one row and two. -/
theorem restores_of_cut_uneven :
    let dataset := Dataset.ofRows 2 #[(0, #[Single.ofBits 0xFFC12345, 1]),
      (1, #[Single.ofBits 0x80000000, Single.ofBits 0x7FC00001]), (0, #[2, 3])]
    let batches := (tableOf dataset).cut 0 [1, 2]
    TableFormat.packed.IsFaithful ∧ (legible (tableOf dataset)).IsCut batches ∧
      batches.length = 2 ∧
      (∃ reading, TableFormat.packed.read (TableFormat.packed.write (tableOf dataset)) =
          .ok reading ∧
        ∃ restored, ofReading reading = .ok (.ok restored) ∧ restored.Agrees dataset) ∧
      ∃ restored, ofBatches ((tableOf dataset).columns.map Column.name) batches =
        .ok (.ok restored) ∧ restored.Agrees dataset ∧
        restored.features.rowList.map (fun row => row.map Single.toBits) =
          [#[0xFFC12345, 0x3F800000], #[0x80000000, 0x7FC00001], #[0x40000000, 0x40400000]] := by
  intro dataset batches
  have some : ¬ (dataset.columns = 0 ∧ dataset.labels? = none) := fun nothing =>
    absurd nothing.1 (Nat.succ_ne_zero 1)
  have cut : (legible (tableOf dataset)).IsCut batches := by
    rw [legible_tableOf, kept, if_neg some]
    refine ⟨[1, 2], (rows_tableOf dataset).symm, ?_, rfl⟩
    rw [rows_tableOf]
    exact fun none => absurd none (Nat.succ_ne_zero 2)
  obtain ⟨stored, each⟩ := restores_of_cut TableFormat.isFaithful_packed dataset
  rw [if_neg some] at stored
  obtain ⟨restored, accepted, agrees⟩ := each batches cut
  rw [if_neg some] at agrees
  refine ⟨TableFormat.isFaithful_packed, cut, rfl, stored, restored, accepted, agrees, ?_⟩
  have rows : restored.features.rowList = dataset.features.rowList :=
    (Contents.table.inj agrees.features).2
  rw [rows]
  decide +kernel

end Snapshot

end DatasetDepot
