import DatasetDepot.Synthesis
import Mathlib.Algebra.Group.Nat.Defs

/-!
Datasets that are drawn, entry by entry.

What is drawn at a place of an array depends on the draws before it alone, not on how many follow.
Main statement: a drawn dataset is a table of entries and labels that do not depend on its height.
-/

namespace DatasetDepot

namespace Drawing

variable {Entry : Type}

/-- The stream after so many draws. -/
def after (entry : Drawing Entry) (stream : Stream) : Nat → Stream
  | 0 => stream
  | count + 1 => (entry.run (after entry stream count)).2

/-- What is drawn after so many draws. -/
def nth (entry : Drawing Entry) (stream : Stream) (count : Nat) : Entry :=
  (entry.run (after entry stream count)).1

/-- Draws go on where the ones before ended, whatever was drawn. -/
theorem run_go (entry : Drawing Entry) (stream : Stream) (size drawn : Nat) :
    (array.go entry size ((List.range drawn).map (nth entry stream)).toArray).run
        (after entry stream drawn) =
      (((List.range (drawn + size)).map (nth entry stream)).toArray,
        after entry stream (drawn + size)) := by
  induction size generalizing drawn with
  | zero => rfl
  | succ more inductionHypothesis =>
      have next := inductionHypothesis (drawn + 1)
      rw [List.range_succ, List.map_append, List.map_singleton, ← List.push_toArray] at next
      rw [array.go, StateT.run_bind, Nat.add_comm more, ← Nat.add_assoc]
      exact next

/-- An array holds what is drawn at each of its places. -/
theorem run_array (entry : Drawing Entry) (size : Nat) (stream : Stream) :
    (array entry size).run stream =
      (((List.range size).map (nth entry stream)).toArray, after entry stream size) := by
  have run := run_go entry stream size 0
  rw [Nat.zero_add] at run
  exact run

theorem getD_array (entry : Drawing Entry) {size place : Nat} (inside : place < size)
    (stream : Stream) (other : Entry) :
    ((array entry size).run stream).1.getD place other = nth entry stream place := by
  rw [run_array]
  simp [inside]

end Drawing

namespace Matrix

/-- A matrix whose entries are given for every place. -/
def tabulated (rows columns : Nat) (entry : Nat → Nat → Single) : Matrix :=
  ofFn .rowMajor rows columns fun row column => entry row column

theorem ofFn_eq_tabulated {rows columns : Nat} {entries : Fin rows → Fin columns → Single}
    {entry : Nat → Nat → Single} (same : ∀ row column, entries row column = entry row column) :
    ofFn .rowMajor rows columns entries = tabulated rows columns entry := by
  have each : entries = fun (row : Fin rows) (column : Fin columns) => entry row column := by
    funext row column
    exact same row column
  rw [each]
  rfl

theorem entry_tabulated (rows columns : Nat) (entry : Nat → Nat → Single) (row : Fin rows)
    (column : Fin columns) :
    (tabulated rows columns entry).entry row column = entry row column :=
  entry_ofFn _ _ _ _

/-- A lower table of the same entries is the front of a higher one. -/
theorem crop_tabulated {rows more : Nat} (fewer : rows ≤ more) (columns : Nat)
    (entry : Nat → Nat → Single) :
    (tabulated more columns entry).crop rows columns = tabulated rows columns entry := by
  have entries : (tabulated more columns entry).crop rows columns =
      tabulated (min rows more) (min columns columns) entry :=
    ofFn_eq_tabulated fun row column => entry_tabulated more columns entry ⟨row, by omega⟩
      ⟨column, by omega⟩
  rw [entries, Nat.min_eq_left fewer, Nat.min_self]

end Matrix

namespace Dataset

/-- A dataset whose entries and labels are given for every place. -/
def tabulated (rows columns : Nat) (entry : Nat → Nat → Single) (label : Nat → Single) :
    Dataset :=
  labelled (.tabulated rows columns entry) fun row => label row

theorem labelled_congr {left right : Matrix} (same : left = right) (label : Nat → Single) :
    labelled left (fun row => label row) = labelled right fun row => label row := by
  cases same
  rfl

theorem eq_of_parts {left right : Dataset} (features : left.features = right.features)
    (labels : left.labels? = right.labels?) : left = right := by
  cases left
  cases right
  cases features
  cases labels
  rfl

theorem crop_tabulated {rows more : Nat} (fewer : rows ≤ more) (columns : Nat)
    (entry : Nat → Nat → Single) (label : Nat → Single) :
    (tabulated more columns entry label).crop rows columns =
      tabulated rows columns entry label := by
  apply eq_of_parts (Matrix.crop_tabulated fewer columns entry)
  change some ((Array.ofFn fun row : Fin more => label row).extract 0 (min rows more)) =
    some (Array.ofFn fun row : Fin rows => label row)
  rw [Nat.min_eq_left fewer]
  congr 1
  apply Array.ext
  · simp [fewer]
  · intro row _ _
    simp

end Dataset

namespace Synthesis

/-- The coordinate of the center of a class. -/
def middle (seed : UInt64) (columns number column : Nat) : Single :=
  Drawing.nth (Drawing.between (-reach) reach) (Stream.ofSeed seed) (number * columns + column)

/-- The stream behind the centers. -/
def behindMiddles (seed : UInt64) (columns centers : Nat) : Stream :=
  Drawing.after (Drawing.between (-reach) reach) (Stream.ofSeed seed) (centers * columns)

/-- The noise in a row and a column, when it is drawn from this stream on. -/
def noise (stream : Stream) (columns row column : Nat) : Single :=
  Drawing.nth Drawing.standardNormal stream (row * columns + column)

theorem getD_noise (stream : Stream) {rows columns : Nat} (row : Fin rows)
    (column : Fin columns) :
    ((Drawing.array Drawing.standardNormal (rows * columns)).run stream).1.getD
      (row * columns + column) 0 = noise stream columns row column :=
  Drawing.getD_array _ (Order.place_lt .rowMajor row.isLt column.isLt) _ _

/-- The centers are drawn in front of all noise. -/
theorem draw_clusters (seed : UInt64) (rows columns : Nat) {centers : Nat}
    (positive : 0 < centers) :
    draw seed (clusters rows columns centers) =
      .tabulated rows columns
        (fun row column => middle seed columns (row % centers) column +
          noise (behindMiddles seed columns centers) columns row column)
        fun row => single (row % centers) := by
  refine Dataset.labelled_congr (Matrix.ofFn_eq_tabulated ?_) fun row => single (row % centers)
  intro row column
  have inside : row.val % centers < centers := Nat.mod_lt _ positive
  have middles := Drawing.getD_array (Drawing.between (-reach) reach)
    (Order.place_lt .rowMajor inside column.isLt) (Stream.ofSeed seed) 0
  have behind : ((Drawing.array (Drawing.between (-reach) reach) (centers * columns)).run
      (Stream.ofSeed seed)).2 = behindMiddles seed columns centers :=
    congrArg Prod.snd (Drawing.run_array _ _ _)
  have noises := getD_noise (behindMiddles seed columns centers) row column
  rw [← behind] at noises ⊢
  exact congrArg₂ (· + ·) middles noises

theorem draw_classes (seed : UInt64) (rows columns count informative : Nat) :
    draw seed (classes rows columns count informative) =
      .tabulated rows columns
        (fun row column =>
          if column < informative then
            noise (Stream.ofSeed seed) columns row column + corner (row % count) column
          else noise (Stream.ofSeed seed) columns row column)
        fun row => single (row % count) := by
  refine Dataset.labelled_congr (Matrix.ofFn_eq_tabulated ?_) fun row => single (row % count)
  intro row column
  have drawn := getD_noise (Stream.ofSeed seed) row column
  exact congrArg (fun centered => if column.val < informative then
    centered + corner (row % count) column else centered) drawn

theorem features_draw_targets (seed : UInt64) (rows columns : Nat) :
    (draw seed (targets rows columns)).features =
      .tabulated rows columns (noise (Stream.ofSeed seed) columns) :=
  Matrix.ofFn_eq_tabulated (getD_noise _)

end Synthesis

namespace Demand

open Synthesis

/-- Rows that are drawn. -/
def height (demand : Demand) : Nat := orDefault demand.rows defaultRows

/-- Columns that are drawn. -/
def width (demand : Demand) : Nat := orDefault demand.columns defaultColumns

def centers (demand : Demand) : Nat := demand.parameters.centers?.getD defaultCenters

def classes (demand : Demand) : Nat := demand.parameters.classes?.getD defaultClasses

end Demand

namespace Synthesis

variable {demand : Demand} {dataset : Dataset}

/-- Clusters are refused for their parameters or for want of a center, not for their rows. -/
theorem exists_checked_centers (demand : Demand) :
    ∃ checked : Except Fault Unit,
      (checked = .ok () ↔ demand.parameters.check .blobs = .ok () ∧ 0 < demand.centers) ∧
      ∀ rows, blobs { demand with rows := rows } = checked.map fun _ =>
        draw demand.seed (clusters (orDefault rows defaultRows) demand.width demand.centers) := by
  unfold blobs
  rcases taken : demand.parameters.check .blobs with fault | _
  · refine ⟨.error fault, ⟨nofun, nofun⟩, fun _ => ?_⟩
    simp only [taken]
    rfl
  simp only [taken]
  by_cases none : demand.centers = 0
  · exact ⟨.error _, ⟨nofun, fun fit => absurd none (Nat.ne_of_gt fit.2)⟩, fun _ => if_pos none⟩
  · exact ⟨.ok (), ⟨fun _ => ⟨trivial, Nat.pos_of_ne_zero none⟩, fun _ => rfl⟩,
      fun _ => if_neg none⟩

theorem map_eq_ok_iff {checked : Except Fault Unit} {drawn : Dataset} :
    (checked.map fun _ => drawn) = .ok dataset ↔ checked = .ok () ∧ dataset = drawn := by
  cases checked with
  | error fault => exact ⟨nofun, nofun⟩
  | ok =>
      constructor
      · intro made
        cases made
        exact ⟨rfl, rfl⟩
      · rintro ⟨-, rfl⟩
        rfl

theorem blobs_eq_ok_iff :
    blobs demand = .ok dataset ↔
      demand.parameters.check .blobs = .ok () ∧ 0 < demand.centers ∧
        dataset = draw demand.seed (clusters demand.height demand.width demand.centers) := by
  obtain ⟨checked, accepts, run⟩ := exists_checked_centers demand
  rw [show blobs demand = _ from run demand.rows, map_eq_ok_iff, accepts, and_assoc]
  rfl

/-- How many leading coordinates tell the classes apart. -/
def informative (count columns : Nat) : Nat := min (dimensions count) columns

/-- What is checked before classes are drawn: that the parameters are taken, and then that there are
corners for so many classes. -/
inductive Screens (demand : Demand) : Except Fault Unit → Prop where
  | untaken {fault : Fault} (refused : demand.parameters.check .classification = .error fault) :
      Screens demand (.error fault)
  | misfit (taken : demand.parameters.check .classification = .ok ())
      (misfit : ¬(2 ≤ demand.classes ∧
        demand.classes ≤ 2 ^ informative demand.classes demand.width)) (message : String) :
      Screens demand (.error (.invalidParameter "n_classes" message))
  | fit (taken : demand.parameters.check .classification = .ok ())
      (enough : 2 ≤ demand.classes)
      (fit : demand.classes ≤ 2 ^ informative demand.classes demand.width) :
      Screens demand (.ok ())

/-- How many rows are asked for has no part in what is checked. -/
theorem exists_screens (demand : Demand) :
    ∃ checked, Screens demand checked ∧ ∀ rows,
      classification { demand with rows := rows } = checked.map fun _ =>
        draw demand.seed (classes (orDefault rows defaultRows) demand.width demand.classes
          (informative demand.classes demand.width)) := by
  unfold classification
  rcases taken : demand.parameters.check .classification with fault | _
  · exact ⟨.error fault, .untaken taken, fun _ => by simp only [taken]; rfl⟩
  simp only [taken]
  by_cases few : demand.classes < 2
  · exact ⟨_, .misfit taken (fun fit => absurd few (Nat.not_lt.mpr fit.1)) _,
      fun _ => if_pos few⟩
  by_cases crowded : 2 ^ informative demand.classes demand.width < demand.classes
  · exact ⟨_, .misfit taken (fun fit => absurd crowded (Nat.not_lt.mpr fit.2)) _,
      fun _ => (if_neg few).trans (if_pos crowded)⟩
  · exact ⟨_, .fit taken (Nat.not_lt.mp few) (Nat.not_lt.mp crowded),
      fun _ => (if_neg few).trans (if_neg crowded)⟩

theorem classification_eq_ok_iff :
    classification demand = .ok dataset ↔
      demand.parameters.check .classification = .ok () ∧
        (2 ≤ demand.classes ∧ demand.classes ≤ 2 ^ informative demand.classes demand.width) ∧
        dataset = draw demand.seed (classes demand.height demand.width demand.classes
          (informative demand.classes demand.width)) := by
  obtain ⟨checked, screens, run⟩ := exists_screens demand
  rw [show classification demand = _ from run demand.rows]
  cases screens with
  | untaken refused =>
      rw [refused]
      exact ⟨nofun, nofun⟩
  | misfit _ misfit => exact ⟨nofun, fun made => absurd made.2.1 misfit⟩
  | fit taken enough fit =>
      rw [map_eq_ok_iff]
      exact ⟨fun made => ⟨taken, ⟨enough, fit⟩, made.2⟩, fun made => ⟨rfl, made.2.2⟩⟩

theorem regression_eq_ok_iff :
    regression demand = .ok dataset ↔
      demand.parameters.check .regression = .ok () ∧
        dataset = draw demand.seed (targets demand.height demand.width) := by
  have run : regression demand = (demand.parameters.check .regression).map fun _ =>
      draw demand.seed (targets demand.height demand.width) := by
    unfold regression
    cases demand.parameters.check .regression <;> rfl
  rw [run, map_eq_ok_iff]

end Synthesis

end DatasetDepot
