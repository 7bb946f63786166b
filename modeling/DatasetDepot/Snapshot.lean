import DatasetDepot.Snapshot.Table
import DatasetDepot.World

/-!
Snapshots: datasets that are kept once they are loaded.

There is one snapshot for each name and each number of rows that was asked for.  The
first load with both stores it, later ones read it back; either way the dataset is then
cropped to what was asked for.
-/

namespace DatasetDepot.Snapshot

/-- The file of a snapshot. -/
def path (cache : Path) (name : String) (rows : Nat) : Path :=
  cache.join s!"{name}-{rows}-samples.parquet".toList

/-- The dataset in a file. -/
def read (path : Path) (tables : TableFormat := .packed) : Action Dataset := do
  let refuse (defect : Defect) : Action Dataset := throw (.snapshot path.text defect.text)
  match (← Action.store).read path with
  | .error .isDirectory => refuse (.unreadable Refusal.isDirectory.text)
  | .error refusal => throw (.io path.text refusal.text)
  | .ok contents =>
      match tables.read contents with
      | .error reason => refuse (.unreadable reason)
      | .ok reading =>
          match ofReading reading with
          | .error defect => refuse defect
          | .ok dataset => liftM dataset

/-- The file of a dataset, as far as the disk takes it. -/
def encoded (path : Path) (dataset : Dataset) (tables : TableFormat) (disk : Disk) :
    Action Bytes :=
  let contents := tables.write (tableOf dataset)
  Action.unlessRefused (disk.flush path.unfinished) (.io path.text)
    (Action.unlessRefused (disk.spill path.unfinished) (.snapshot path.text) (pure contents))

/-- Puts the dataset into a file. -/
def write (cache path : Path) (dataset : Dataset) (tables : TableFormat := .packed)
    (disk : Disk := .sound) : Action Unit := do
  Action.ensureDirectory cache
  Action.writeWhole path (encoded path dataset tables disk) disk

/-- The leading rows and columns, as many as asked for; zero asks for all. -/
def crop (name : String) (dataset : Dataset) (rows columns : Nat) : Except Fault Dataset :=
  let wantedRows := if rows = 0 then dataset.rows else rows
  let wantedColumns := if columns = 0 then dataset.columns else columns
  if dataset.columns < wantedColumns then
    .error (.insufficientFeatures name dataset.columns wantedColumns)
  else if dataset.rows < wantedRows then
    .error (.insufficientRows name dataset.rows wantedRows)
  else .ok (dataset.crop wantedRows wantedColumns)

/-- A dataset of this name, from its snapshot or else from the loader, which is told how
many rows are asked for. -/
def load (cache : Path) (name : String) (rows columns : Nat) (loader : Nat → Action Dataset)
    (tables : TableFormat := .packed) (disk : Disk := .sound) : Action Dataset := do
  let path := path cache name rows
  if (← Action.store).has path then
    liftM (crop name (← read path tables) rows columns)
  else
    let dataset ← loader rows
    write cache path dataset tables disk
    liftM (crop name dataset rows columns)

end DatasetDepot.Snapshot
