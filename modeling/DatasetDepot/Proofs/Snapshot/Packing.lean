import DatasetDepot.Snapshot.Format
import Mathlib

/-!
Tables survive being written.

Every packing that the file of a table is made of is faithful.  Main statement: reading the
file of a table gives the table, columns, names, types and missing cells alike; only a table
without columns cannot tell how many rows it had.
-/

namespace DatasetDepot.Snapshot

namespace Packing

variable {Item : Type}

theorem isFaithful_text : text.IsFaithful := by
  apply IsFaithful.via (IsFaithful.list isFaithful_count)
  intro content
  simp [List.map_map, Function.comp_def, Char.ofNat_toNat]

theorem isFaithful_single : single.IsFaithful := by
  apply IsFaithful.via isFaithful_count
  intro number
  simp [Nat.toUInt32]

theorem isFaithful_double : double.IsFaithful := by
  apply IsFaithful.via isFaithful_count
  intro number
  simp [Nat.toUInt64]

theorem isFaithful_integer : integer.IsFaithful := by
  apply IsFaithful.via isFaithful_count
  intro number
  simp [Nat.toUInt32]

theorem isFaithful_truth : truth.IsFaithful := by
  apply IsFaithful.via isFaithful_count
  intro value
  cases value <;> rfl

theorem IsFaithful.array {packing : Packing Item} (faithful : packing.IsFaithful) :
    packing.array.IsFaithful := by
  apply IsFaithful.via (IsFaithful.list faithful)
  intro content
  simp

theorem IsFaithful.cellsOf {packing : Packing Item} (faithful : packing.IsFaithful) :
    packing.cellsOf.IsFaithful :=
  IsFaithful.array (IsFaithful.option faithful)

theorem isFaithful_cells : cells.IsFaithful := by
  have reads : ∀ number rest, unpackCount? (packCount number ++ rest) = some (number, rest) :=
    isFaithful_count
  intro content rest
  cases content with
  | float32 content =>
      simp [cells, List.append_assoc, reads, isFaithful_single.cellsOf content rest]
  | float64 content =>
      simp [cells, List.append_assoc, reads, isFaithful_double.cellsOf content rest]
  | int32 content =>
      simp [cells, List.append_assoc, reads, isFaithful_integer.cellsOf content rest]
  | utf8 content =>
      simp [cells, List.append_assoc, reads, isFaithful_text.cellsOf content rest]
  | boolean content =>
      simp [cells, List.append_assoc, reads, isFaithful_truth.cellsOf content rest]
  | other type missing =>
      have faithful := IsFaithful.both isFaithful_text isFaithful_truth.array (type, missing) rest
      simp [cells, List.append_assoc, reads, faithful]

theorem isFaithful_column : column.IsFaithful :=
  IsFaithful.via (IsFaithful.both isFaithful_text isFaithful_cells) fun _ => rfl

end Packing

/-- What is left of a table in its file: without columns, nothing tells the rows. -/
def legible (table : Frame) : Frame :=
  match table.columns with
  | [] => ⟨0, [], by simp⟩
  | _ :: _ => table

theorem legible_of_columns {table : Frame} (some : table.columns ≠ []) : legible table = table := by
  unfold legible
  split
  · contradiction
  · rfl

theorem ofColumns?_height (table : Frame) :
    Frame.ofColumns? ((table.columns.head?.map fun column => column.cells.size).getD 0)
      table.columns = some (legible table) := by
  obtain ⟨rows, columns, heights⟩ := table
  cases columns with
  | nil => rfl
  | cons first rest =>
      have height : first.cells.size = rows := heights first List.mem_cons_self
      subst height
      exact dif_pos heights

theorem decode?_encode (table : Frame) : decode? (encode table) = some (legible table) := by
  have columns : Packing.column.list.unpack? (Packing.column.list.pack table.columns) =
      some (table.columns, []) := by
    have faithful := Packing.IsFaithful.list Packing.isFaithful_column table.columns []
    rwa [List.append_nil] at faithful
  have frame : Packing.frame.unpack? (Packing.frame.pack table) = some (legible table, []) := by
    simp [Packing.frame, Packing.via, columns, ofColumns?_height]
  have marked : mark.isPrefixOf (encode table) = true :=
    List.isPrefixOf_iff_prefix.mpr (List.prefix_append _ _)
  have body : (encode table).drop mark.length = Packing.frame.pack table := List.drop_left
  rw [decode?, if_pos marked, body, frame]

end DatasetDepot.Snapshot
