import DatasetDepot.Proofs.Snapshot.Batches
import DatasetDepot.Proofs.Snapshot.Packing

/-!
What is relied on of a format of tables.

A format carries no law.  The law is a predicate of it, about tables such as a depot writes: what
is written reads back, in whatever batches.  Main statement: the packed format keeps the law.
-/

namespace DatasetDepot

open Snapshot

/-- What a table is to read as: the names of its columns, and all its rows in consecutive batches.
Of a table without rows there is no batch, and without columns there are no rows. -/
structure TableReading.Tells (reading : TableReading) (table : Frame) : Prop where
  names : reading.names = table.columns.map Column.name
  cut : (legible table).IsCut reading.batches
  whole : reading.failure? = none

/-- A table of plain columns, each of a name of its own, reads back once it is written. -/
def TableFormat.IsFaithful (tables : TableFormat) : Prop :=
  ∀ table : Frame, (∀ column ∈ table.columns, column.IsPlain) →
    (table.columns.map Column.name).Nodup →
      ∃ reading, tables.read (tables.write table) = .ok reading ∧ reading.Tells table

theorem Snapshot.columns_legible (table : Frame) : (legible table).columns = table.columns := by
  unfold legible
  split
  · rename_i none
    exact none.symm
  · rfl

theorem TableReading.tells_ofTable (table : Frame) :
    (ofTable (legible table)).Tells table where
  names := congrArg (List.map Column.name) (columns_legible table)
  cut := isCut_batches (legible table)
  whole := rfl

/-- Packing keeps even more than is relied on: columns of all types, and missing cells. -/
theorem TableFormat.isFaithful_packed : TableFormat.packed.IsFaithful := by
  intro table _ _
  refine ⟨.ofTable (legible table), ?_, TableReading.tells_ofTable table⟩
  simp only [packed, decode?_encode]

end DatasetDepot
