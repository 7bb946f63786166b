import DatasetDepot.Proofs.Numeric.Single
import DatasetDepot.Proofs.Synthesis.Corners
import Mathlib.Data.Int.CardIntervalMod

/-!
Drawing more rows.

Main statement: what is drawn with more rows begins with what is drawn with fewer, every fit demand
is answered in the size it asks for, and labels go round the classes, so that no class is ahead of
another by more than one row.
-/

namespace DatasetDepot.Synthesis

/-- How many rows have this label. -/
def classSize (count rows label : Nat) : Nat := rows.count fun row => row % count = label

theorem classSize_eq {count label : Nat} (inside : label < count) (rows : Nat) :
    classSize count rows label = rows / count + if label < rows % count then 1 else 0 := by
  have residues := Nat.count_modEq_card rows (Nat.zero_lt_of_lt inside) label
  simp only [Nat.ModEq, Nat.mod_eq_of_lt inside] at residues
  exact residues

theorem classSize_le {count label other : Nat} (inside : label < count) (inside' : other < count)
    (rows : Nat) : classSize count rows label ≤ classSize count rows other + 1 := by
  rw [classSize_eq inside, classSize_eq inside']
  split <;> split <;> omega

theorem countP_range (holds : Nat → Bool) (rows : Nat) :
    (List.range rows).countP holds = rows.count fun row => holds row = true := by
  induction rows with
  | zero => rfl
  | succ rows inductionHypothesis =>
      rw [List.range_succ, List.countP_append, inductionHypothesis, Nat.count_succ,
        List.countP_singleton]

/-- Labels go round the classes, one row after the other. -/
structure GoesRound (count : Nat) (dataset : Dataset) : Prop where
  labels?_eq : dataset.labels? =
    some (Array.ofFn fun row : Fin dataset.features.rows => single (row % count))
  even : ∀ label < count, ∀ other < count,
    classSize count dataset.features.rows label ≤ classSize count dataset.features.rows other + 1
  /-- Labels that single precision tells apart are read back from the numbers they are stored as. -/
  named : count ≤ 2 ^ 24 → ∀ labels ∈ dataset.labels?, ∀ (row : Nat) (label : Single),
    labels[row]? = some label → label.toUInt64.toNat = row % count
  sized : count ≤ 2 ^ 24 → ∀ labels ∈ dataset.labels?, ∀ label < count,
    labels.toList.countP (· = single label) = classSize count dataset.features.rows label

theorem goesRound_tabulated {count : Nat} (positive : 0 < count) (rows columns : Nat)
    (entry : Nat → Nat → Single) :
    GoesRound count (.tabulated rows columns entry fun row => single (row % count)) where
  labels?_eq := rfl
  even := fun _ inside _ inside' => classSize_le inside inside' rows
  named := by
    intro few labels present row label stored
    obtain rfl := Option.some_inj.mp present
    obtain ⟨inside, rfl⟩ := Array.getElem?_eq_some_iff.mp stored
    rw [Array.getElem_ofFn]
    exact Single.toNat_toUInt64 (Nat.lt_of_lt_of_le (Nat.mod_lt _ positive) few)
  sized := by
    intro few labels present label inside
    obtain rfl := Option.some_inj.mp present
    have numbers : (Array.ofFn fun row : Fin rows => single (row % count)).toList =
        (List.range rows).map fun row => single (row % count) := by
      apply List.ext_getElem <;> simp
    have named : ∀ row, single (row % count) = single label ↔ row % count = label := fun row =>
      Single.single_eq_iff (Nat.lt_of_lt_of_le (Nat.mod_lt _ positive) few)
        (Nat.lt_of_lt_of_le inside few)
    calc
      _ = ((List.range rows).map fun row => single (row % count)).countP (· = single label) :=
        congrArg (List.countP _) numbers
      _ = (List.range rows).countP fun row => row % count = label := by
        rw [List.countP_map]
        apply List.countP_congr
        intro row _
        simp [named]
      _ = classSize count rows label := by
        rw [countP_range]
        simp [classSize]

theorem orDefault_of_pos {size : Nat} (positive : 0 < size) (default : Nat) :
    orDefault size default = size :=
  if_neg (Nat.ne_of_gt positive)

/-- How many rows are asked for has no part in what is refused. -/
theorem blobs_resized (demand : Demand) (rows : Nat) :
    blobs { demand with rows := rows } = (blobs demand).map fun _ =>
      draw demand.seed (clusters (orDefault rows defaultRows) demand.width demand.centers) := by
  obtain ⟨checked, -, run⟩ := exists_checked_centers demand
  rw [run, show blobs demand = _ from run demand.rows]
  cases checked <;> rfl

theorem classification_resized (demand : Demand) (rows : Nat) :
    classification { demand with rows := rows } = (classification demand).map fun _ =>
      draw demand.seed (classes (orDefault rows defaultRows) demand.width demand.classes
        (informative demand.classes demand.width)) := by
  obtain ⟨checked, -, run⟩ := exists_screens demand
  rw [run, show classification demand = _ from run demand.rows]
  cases checked <;> rfl

theorem regression_resized (demand : Demand) (rows : Nat) :
    regression { demand with rows := rows } = (regression demand).map fun _ =>
      draw demand.seed (targets (orDefault rows defaultRows) demand.width) := by
  unfold regression
  rcases demand.parameters.check .regression with fault | accepted <;> rfl

theorem blobs_crop (demand : Demand) {fewer more : Nat} (positive : 0 < fewer)
    (ordered : fewer ≤ more) :
    blobs { demand with rows := fewer } =
      (blobs { demand with rows := more }).map (·.crop fewer demand.width) := by
  rw [blobs_resized demand fewer, blobs_resized demand more]
  cases made : blobs demand with
  | error fault => rfl
  | ok dataset =>
      obtain ⟨-, centered, -⟩ := blobs_eq_ok_iff.mp made
      change Except.ok _ = Except.ok (Dataset.crop (draw _ _) fewer demand.width)
      rw [orDefault_of_pos positive, orDefault_of_pos (Nat.lt_of_lt_of_le positive ordered),
        draw_clusters _ _ _ centered, draw_clusters _ _ _ centered,
        Dataset.crop_tabulated ordered]

theorem classification_crop (demand : Demand) {fewer more : Nat} (positive : 0 < fewer)
    (ordered : fewer ≤ more) :
    classification { demand with rows := fewer } =
      (classification { demand with rows := more }).map (·.crop fewer demand.width) := by
  rw [classification_resized demand fewer, classification_resized demand more]
  cases classification demand with
  | error fault => rfl
  | ok dataset =>
      change Except.ok _ = Except.ok (Dataset.crop (draw _ _) fewer demand.width)
      rw [orDefault_of_pos positive, orDefault_of_pos (Nat.lt_of_lt_of_le positive ordered),
        draw_classes, draw_classes, Dataset.crop_tabulated ordered]

theorem regression_crop (demand : Demand) {fewer more : Nat} (positive : 0 < fewer)
    (ordered : fewer ≤ more) :
    (regression { demand with rows := fewer }).map Dataset.features =
      (regression { demand with rows := more }).map (·.features.crop fewer demand.width) := by
  rw [regression_resized demand fewer, regression_resized demand more]
  cases regression demand with
  | error fault => rfl
  | ok dataset =>
      change Except.ok (Dataset.features (draw _ _)) =
        Except.ok (Matrix.crop (Dataset.features (draw _ _)) _ _)
      rw [orDefault_of_pos positive, orDefault_of_pos (Nat.lt_of_lt_of_le positive ordered),
        features_draw_targets, features_draw_targets, Matrix.crop_tabulated ordered]

/-- A demand is answered exactly if it is fit, with as many rows and columns as it asks for. -/
structure Answers (demand : Demand) (fit : Prop) (answer : Except Fault Dataset) : Prop where
  fit_iff : (∃ dataset, answer = .ok dataset) ↔ fit
  rows : ∀ dataset, answer = .ok dataset → dataset.rows = demand.height
  columns : ∀ dataset, answer = .ok dataset → dataset.columns = demand.width

theorem answers_of_iff {demand : Demand} {fit : Prop} {drawn : Dataset}
    {answer : Except Fault Dataset}
    (answered : ∀ dataset, answer = .ok dataset ↔ fit ∧ dataset = drawn)
    (rows : drawn.rows = demand.height) (columns : drawn.columns = demand.width) :
    Answers demand fit answer where
  fit_iff := by
    constructor
    · rintro ⟨dataset, made⟩
      exact ((answered dataset).mp made).1
    · intro fit
      exact ⟨drawn, (answered drawn).mpr ⟨fit, rfl⟩⟩
  rows dataset made := by
    obtain ⟨-, rfl⟩ := (answered dataset).mp made
    exact rows
  columns dataset made := by
    obtain ⟨-, rfl⟩ := (answered dataset).mp made
    exact columns

theorem answers_blobs (demand : Demand) :
    Answers demand (demand.parameters.check .blobs = .ok () ∧ 0 < demand.centers)
      (blobs demand) :=
  answers_of_iff (fun _ => blobs_eq_ok_iff.trans and_assoc.symm) rfl rfl

theorem answers_classification (demand : Demand) :
    Answers demand (demand.parameters.check .classification = .ok () ∧
        2 ≤ demand.classes ∧ demand.classes ≤ 2 ^ demand.width)
      (classification demand) := by
  rw [← le_corners_iff]
  exact answers_of_iff (fun _ => classification_eq_ok_iff.trans and_assoc.symm) rfl rfl

theorem answers_regression (demand : Demand) :
    Answers demand (demand.parameters.check .regression = .ok ()) (regression demand) :=
  answers_of_iff (fun _ => regression_eq_ok_iff) rfl rfl

/-- Every row lies around the center that its label names; centers have no part in the number of
rows. -/
def LiesAround (demand : Demand) (dataset : Dataset) : Prop :=
  ∀ (row : Fin dataset.features.rows) (column : Fin dataset.features.columns),
    dataset.features.entry row column =
      middle demand.seed demand.width (row % demand.centers) column +
        noise (behindMiddles demand.seed demand.width demand.centers) demand.width row column

/-- Every row lies around the corner that its label names. -/
def LiesAtCorner (demand : Demand) (dataset : Dataset) : Prop :=
  ∀ (row : Fin dataset.features.rows) (column : Fin dataset.features.columns),
    dataset.features.entry row column =
      if column < informative demand.classes demand.width then
        noise (Stream.ofSeed demand.seed) demand.width row column +
          corner (row % demand.classes) column
      else noise (Stream.ofSeed demand.seed) demand.width row column

theorem appends_rows (demand : Demand) {fewer more : Nat} (positive : 0 < fewer)
    (ordered : fewer ≤ more) :
    blobs { demand with rows := fewer } =
        (blobs { demand with rows := more }).map (·.crop fewer demand.width) ∧
      classification { demand with rows := fewer } =
        (classification { demand with rows := more }).map (·.crop fewer demand.width) ∧
      (regression { demand with rows := fewer }).map Dataset.features =
        (regression { demand with rows := more }).map (·.features.crop fewer demand.width) ∧
      Answers demand (demand.parameters.check .blobs = .ok () ∧ 0 < demand.centers)
        (blobs demand) ∧
      Answers demand (demand.parameters.check .classification = .ok () ∧
          2 ≤ demand.classes ∧ demand.classes ≤ 2 ^ demand.width)
        (classification demand) ∧
      Answers demand (demand.parameters.check .regression = .ok ()) (regression demand) ∧
      (∀ dataset, blobs demand = .ok dataset →
        GoesRound demand.centers dataset ∧ LiesAround demand dataset) ∧
      ∀ dataset, classification demand = .ok dataset →
        GoesRound demand.classes dataset ∧ LiesAtCorner demand dataset := by
  refine ⟨blobs_crop demand positive ordered, classification_crop demand positive ordered,
    regression_crop demand positive ordered, answers_blobs demand, answers_classification demand,
    answers_regression demand, ?_, ?_⟩
  · intro dataset made
    obtain ⟨-, centered, rfl⟩ := blobs_eq_ok_iff.mp made
    rw [draw_clusters _ _ _ centered]
    exact ⟨goesRound_tabulated centered _ _ _, Matrix.entry_tabulated _ _ _⟩
  · intro dataset made
    obtain ⟨-, ⟨enough, -⟩, rfl⟩ := classification_eq_ok_iff.mp made
    rw [draw_classes]
    exact ⟨goesRound_tabulated (Nat.lt_of_lt_of_le Nat.zero_lt_two enough) _ _ _,
      Matrix.entry_tabulated _ _ _⟩

/-- Two rows and five, of each kind. -/
theorem appends_rows_of_two :
    let demand : Demand := ⟨5, 3, 42, {}⟩
    blobs { demand with rows := 2 } = (blobs demand).map (·.crop 2 3) ∧
      classification { demand with rows := 2 } = (classification demand).map (·.crop 2 3) ∧
      (regression { demand with rows := 2 }).map Dataset.features =
        (regression demand).map (·.features.crop 2 3) ∧
      (∃ dataset, blobs demand = .ok dataset ∧ dataset.rows = 5 ∧ dataset.columns = 3 ∧
        GoesRound 3 dataset ∧ LiesAround demand dataset) ∧
      (∃ dataset, classification demand = .ok dataset ∧ dataset.rows = 5 ∧ dataset.columns = 3 ∧
        GoesRound 2 dataset ∧ LiesAtCorner demand dataset) ∧
      ∃ dataset, regression demand = .ok dataset ∧ dataset.rows = 5 ∧ dataset.columns = 3 := by
  intro demand
  obtain ⟨clusters, classes, targets, clustered, classified, targeted, around, corners⟩ :=
    appends_rows demand Nat.zero_lt_two (Nat.le_add_right 2 3)
  obtain ⟨points, drawn⟩ := clustered.fit_iff.mpr ⟨rfl, by decide⟩
  obtain ⟨cases, drawn'⟩ := classified.fit_iff.mpr ⟨rfl, by decide⟩
  obtain ⟨values, drawn''⟩ := targeted.fit_iff.mpr rfl
  exact ⟨clusters, classes, targets,
    ⟨points, drawn, clustered.rows _ drawn, clustered.columns _ drawn, around _ drawn⟩,
    ⟨cases, drawn', classified.rows _ drawn', classified.columns _ drawn', corners _ drawn'⟩,
    ⟨values, drawn'', targeted.rows _ drawn'', targeted.columns _ drawn''⟩⟩

end DatasetDepot.Synthesis
