import DatasetDepot.Snapshot.Packing

/-!
Formats of tables.

A format says what the file of a table holds and what a file reads as: the names of columns, and
rows batch after batch.  How rows are cut into batches is up to the format.  A depot is given a
format along with all else it calls on; the packed one serves where none is given.
-/

namespace DatasetDepot

/-- What a file reads as. -/
structure TableReading where
  names : List String
  batches : List Frame
  /-- Every batch has all the columns. -/
  named : ∀ batch ∈ batches, batch.columns.map Column.name = names
  /-- Why reading breaks off behind the batches, if it does. -/
  failure? : Option String

structure TableFormat where
  write : Frame → Bytes
  /-- What a file reads as, or why it is not a table. -/
  read : Bytes → Except String TableReading

/-! The packed format. -/

namespace Snapshot

/-- Rows of a batch. -/
def batchRows : Nat := 1024

/-- A table cut into batches, of which only the last may have fewer rows. -/
def batches (table : Frame) : List Frame :=
  (List.range ((table.rows + batchRows - 1) / batchRows)).map fun batch =>
    table.slice (batch * batchRows) batchRows

/-- What the file of a table starts with. -/
def mark : Bytes := Text.Utf8.encode "dataset table 1\n"

/-- The file of a table. -/
def encode (table : Frame) : Bytes := mark ++ Packing.frame.pack table

/-- The table in a file. -/
def decode? (contents : Bytes) : Option Frame :=
  if mark.isPrefixOf contents then
    match Packing.frame.unpack? (contents.drop mark.length) with
    | some (table, []) => some table
    | _ => none
  else none

end Snapshot

/-- A table, read batch by batch. -/
def TableReading.ofTable (table : Frame) : TableReading where
  names := table.columns.map Column.name
  batches := Snapshot.batches table
  named := by
    intro batch member
    obtain ⟨_, _, rfl⟩ := List.mem_map.mp member
    simp [Frame.slice]
  failure? := none

/-- Tables as they are packed. -/
def TableFormat.packed : TableFormat where
  write := Snapshot.encode
  read contents :=
    match Snapshot.decode? contents with
    | none => .error "the file is not a table"
    | some table => .ok (.ofTable table)

end DatasetDepot
