import DatasetDepot.Proofs.Action
import DatasetDepot.Proofs.Snapshot.Restored
import DatasetDepot.Snapshot

/-!
The files of snapshots.

Different snapshots have different files, whatever the names of the datasets, and none of them
is the unfinished file of another.  Main statements: what is answered to a request only depends
on the contents of the dataset, reading the file of a snapshot answers as the dataset itself
would, and writing it leaves every other snapshot as it was.
-/

namespace DatasetDepot

namespace Snapshot

/-! Names. -/

/-- The name of the file of a snapshot. -/
def fileName (name : String) (rows : Nat) : Name := s!"{name}-{rows}-samples.parquet".toList

/-- What the name of every file of a snapshot ends in. -/
def ending : List Char := "-samples.parquet".toList

theorem path_eq (cache : Path) (name : String) (rows : Nat) :
    path cache name rows = cache.join (fileName name rows) := rfl

theorem fileName_eq (name : String) (rows : Nat) :
    fileName name rows = name.toList ++ '-' :: rows.repr.toList ++ ending := by
  have whole : fileName name rows =
      (name ++ "-" ++ rows.repr ++ "-samples.parquet").toList := rfl
  rw [whole]
  simp only [String.toList_append, List.append_assoc]
  rfl

theorem notMem_repr {letter : Char} (noDigit : letter.isDigit = false) (rows : Nat) :
    letter ∉ rows.repr.toList := by
  intro member
  rw [Nat.toList_repr] at member
  have digit := Nat.isDigit_of_mem_toDigits (by decide) (by decide) member
  rw [noDigit] at digit
  cases digit

/-- Names may have dashes and digits in them: the last dash before the ending parts the two. -/
theorem fileName_inj {name other : String} {rows count : Nat} :
    fileName name rows = fileName other count ↔ name = other ∧ rows = count := by
  constructor
  · intro same
    rw [fileName_eq, fileName_eq] at same
    obtain ⟨front, digits⟩ := Name.append_cons_inj (notMem_repr rfl rows) (notMem_repr rfl count)
      (List.append_cancel_right same)
    exact ⟨String.toList_inj.mp front, Nat.repr_inj.mp (String.toList_inj.mp digits)⟩
  · rintro ⟨rfl, rfl⟩
    rfl

theorem fileName_ne_unfinished (name other : String) (rows count : Nat) :
    fileName name rows ≠ fileName other count ++ Name.mark := by
  intro same
  have ends : (fileName name rows).reverse.take 2 = ['t', 'e'] := by
    rw [fileName_eq, List.reverse_append]
    rfl
  rw [same, List.reverse_append] at ends
  cases ends

theorem isPlain_fileName {name : String} (noSlash : '/' ∉ name.toList) (rows : Nat) :
    (fileName name rows).IsPlain := by
  have digits : '/' ∉ rows.repr.toList := notMem_repr rfl rows
  have rest : '/' ∉ ending := by decide
  apply Name.isPlain_of_long
  · rw [fileName_eq, List.length_append]
    exact Nat.lt_of_lt_of_le (by decide : 2 < ending.length) (Nat.le_add_left _ _)
  · rw [fileName_eq, List.mem_append, List.mem_append, List.mem_cons]
    exact not_or.mpr ⟨not_or.mpr ⟨noSlash, not_or.mpr ⟨by decide, digits⟩⟩, rest⟩

/-! Requests. -/

/-- What is answered to a request for leading rows and columns of a dataset; zero asks for
all. -/
inductive Answers (name : String) (dataset : Dataset) (rows columns : Nat) :
    Except Fault Dataset → Prop where
  | fewColumns (few : dataset.columns < columns) :
      Answers name dataset rows columns
        (.error (.insufficientFeatures name dataset.columns columns))
  | fewRows (enough : columns ≤ dataset.columns) (few : dataset.rows < rows) :
      Answers name dataset rows columns (.error (.insufficientRows name dataset.rows rows))
  | leading {answer : Dataset} (enoughColumns : columns ≤ dataset.columns)
      (enoughRows : rows ≤ dataset.rows)
      (features : answer.features.contents =
        .table (if columns = 0 then dataset.columns else columns)
          ((dataset.features.rowList.take (if rows = 0 then dataset.rows else rows)).map
            fun row => row.take (if columns = 0 then dataset.columns else columns)))
      (labels : answer.labels? =
        dataset.labels?.map (·.take (if rows = 0 then dataset.rows else rows))) :
      Answers name dataset rows columns (.ok answer)

theorem answers_crop (name : String) (dataset : Dataset) (rows columns : Nat) :
    Answers name dataset rows columns (crop name dataset rows columns) := by
  unfold crop
  by_cases fewColumns : dataset.columns < columns
  · have asked : columns ≠ 0 := by omega
    simp only [if_neg asked, if_pos fewColumns]
    exact .fewColumns fewColumns
  · have enoughColumns : columns ≤ dataset.columns := Nat.le_of_not_lt fewColumns
    have wide : ¬ dataset.columns < if columns = 0 then dataset.columns else columns := by
      split <;> omega
    simp only [if_neg wide]
    by_cases fewRows : dataset.rows < rows
    · have asked : rows ≠ 0 := by omega
      simp only [if_neg asked, if_pos fewRows]
      exact .fewRows enoughColumns fewRows
    · have enoughRows : rows ≤ dataset.rows := Nat.le_of_not_lt fewRows
      have high : ¬ dataset.rows < if rows = 0 then dataset.rows else rows := by
        split <;> omega
      simp only [if_neg high]
      refine .leading enoughColumns enoughRows ?_ ?_
      · have width := Nat.min_eq_left (Nat.le_of_not_lt wide)
        rw [Dataset.crop, Matrix.contents_crop, ← Dataset.columns, width]
      · have height := Nat.min_eq_left (Nat.le_of_not_lt high)
        simp only [Dataset.crop, height]

/-- Only the contents of a dataset show in an answer. -/
theorem crop_eq_of_agrees {left right : Dataset} (agrees : left.Agrees right) (name : String)
    (rows columns : Nat) : crop name left rows columns = crop name right rows columns := by
  have height : left.rows = right.rows := Matrix.rows_eq_of_contents agrees.features
  have width : left.columns = right.columns := Matrix.columns_eq_of_contents agrees.features
  have cropped : ∀ rows columns, left.crop rows columns = right.crop rows columns := by
    intro rows columns
    unfold Dataset.crop
    simp only [Matrix.crop_eq_of_contents agrees.features, agrees.labels, height]
  unfold crop
  simp only [height, width, cropped]

/-! Reading and loading. -/

section Loading

variable {tables : TableFormat}

theorem run_read_of_stored (faithful : tables.IsFaithful) {path : Path} {start : World}
    {dataset : Dataset} (stored : start.store.read path = .ok (tables.write (tableOf dataset))) :
    ∃ restored, (read path tables).run.run start = (.ok restored, start) ∧
      restored.Agrees (kept dataset) := by
  obtain ⟨reading, found, restored, accepted, agrees⟩ := exists_read_write faithful dataset
  refine ⟨restored, ?_, agrees⟩
  unfold read
  rw [Action.run_bind, Action.run_store]
  simp only [stored, found, accepted]
  rw [Action.run_liftM]

/-- The whole of what loading a dataset does. -/
theorem run_load (cache : Path) (name : String) (rows columns : Nat)
    (loader : Nat → Action Dataset) (tables : TableFormat) (disk : Disk) (start : World) :
    (load cache name rows columns loader tables disk).run.run start =
      if start.store.has (path cache name rows) then
        match (read (path cache name rows) tables).run.run start with
        | (.ok dataset, after) => (crop name dataset rows columns, after)
        | (.error fault, after) => (.error fault, after)
      else
        match (loader rows).run.run start with
        | (.error fault, after) => (.error fault, after)
        | (.ok dataset, loaded) =>
            match (write cache (path cache name rows) dataset tables disk).run.run loaded with
            | (.ok (), after) => (crop name dataset rows columns, after)
            | (.error fault, after) => (.error fault, after) := by
  unfold load
  rw [Action.run_bind, Action.run_store]
  simp only
  split
  · rw [Action.run_bind]
    rcases (read (path cache name rows) tables).run.run start with ⟨fault | dataset, after⟩
    · rfl
    · rfl
  · rw [Action.run_bind]
    rcases (loader rows).run.run start with ⟨fault | dataset, loaded⟩
    · rfl
    · simp only
      rw [Action.run_bind]
      rcases (write cache (path cache name rows) dataset tables disk).run.run loaded with
        ⟨fault | done, after⟩
      · rfl
      · rfl

theorem run_load_of_loaded {cache : Path} {name : String} {rows : Nat} {start loaded : World}
    {loader : Nat → Action Dataset} {dataset : Dataset}
    (fresh : start.store.has (path cache name rows) = false)
    (given : (loader rows).run.run start = (.ok dataset, loaded)) (columns : Nat)
    (tables : TableFormat) (disk : Disk) :
    (load cache name rows columns loader tables disk).run.run start =
      match (write cache (path cache name rows) dataset tables disk).run.run loaded with
      | (.ok (), after) => (crop name dataset rows columns, after)
      | (.error fault, after) => (.error fault, after) := by
  simp only [run_load, fresh, Bool.false_eq_true, if_false, given]

/-- A loader is only told the rows that are asked for. -/
theorem run_load_congr {loader other : Nat → Action Dataset} {rows : Nat}
    (same : loader rows = other rows) (cache : Path) (name : String) (columns : Nat)
    (tables : TableFormat) (disk : Disk) (start : World) :
    (load cache name rows columns loader tables disk).run.run start =
      (load cache name rows columns other tables disk).run.run start := by
  rw [run_load, run_load, same]

/-- A dataset that is there is answered from, whatever the loader is. -/
theorem run_load_of_stored (faithful : tables.IsFaithful) {cache : Path} {name : String}
    {rows : Nat} {start : World} {dataset : Dataset}
    (stored : start.store.read (path cache name rows) = .ok (tables.write (tableOf dataset)))
    (columns : Nat) (loader : Nat → Action Dataset) (disk : Disk) :
    (load cache name rows columns loader tables disk).run.run start =
      (crop name (kept dataset) rows columns, start) := by
  obtain ⟨restored, readBack, agrees⟩ := run_read_of_stored faithful stored
  rw [run_load, if_pos (Store.has_of_read stored), readBack]
  simp only [crop_eq_of_agrees agrees]

end Loading

/-! Writing. -/

/-- A cache on a directory: its path leads there, or at least will as soon as the directory is
there. -/
structure IsOn (store : Store) (directory : Location) (cache : Path) : Prop where
  place : cache.place store.base = directory
  way : (∃ place, store.Leads cache.isAbsolute cache.steps place) ∨
    ∀ step ∈ cache.steps, step ≠ ['.', '.']

namespace IsOn

variable {before after store : Store} {directory : Location} {cache : Path}

theorem start_append (on : IsOn store directory cache)
    (noDots : ∀ step ∈ cache.steps, step ≠ ['.', '.']) :
    store.start cache.isAbsolute ++ cache.steps = directory := by
  have noDot : ∀ step ∈ cache.steps, step ≠ ['.'] := by
    rintro step member rfl
    cases Path.isStep_of_mem_steps member
  rw [← on.place]
  exact (Location.follow_eq_append noDot noDots _).symm

theorem leads (on : IsOn store directory cache) (reaches : store.Reaches directory) :
    store.Leads cache.isAbsolute cache.steps directory := by
  rcases on.way with ⟨place, leads⟩ | noDots
  · obtain rfl : place = directory := leads.eq_place.trans on.place
    exact leads
  · have steps := on.start_append noDots
    rw [← steps] at reaches ⊢
    exact reaches.leads

/-- The place of the file of a snapshot. -/
theorem place_path (on : IsOn store directory cache) {name : String} (noSlash : '/' ∉ name.toList)
    (rows : Nat) :
    (path cache name rows).place store.base = directory ++ [fileName name rows] := by
  rw [path_eq, (Path.endsAt_join cache (isPlain_fileName noSlash rows)).place_eq, ← on.place]
  rfl

theorem mono (on : IsOn before directory cache) (base : after.base = before.base)
    (kept : ∀ place, before.Leads cache.isAbsolute cache.steps place →
      after.Leads cache.isAbsolute cache.steps place) : IsOn after directory cache where
  place := by rw [base, on.place]
  way := on.way.imp_left fun leads => leads.imp kept

/-- Directories on the way to that of the cache are not in it. -/
theorem lookup_of_opens (on : IsOn before directory cache)
    (noDots : ∀ step ∈ cache.steps, step ≠ ['.', '.'])
    (opens : Store.Opens (Store.OnWay (before.start cache.isAbsolute) cache.steps) before after)
    (name : Name) : after.lookup (directory ++ [name]) = before.lookup (directory ++ [name]) := by
  rcases opens.opened (directory ++ [name]) with same | ⟨⟨above, short, place⟩, _⟩
  · exact same
  · have longer := congrArg List.length place
    have length := (List.IsPrefix.length_le short)
    have noDot : ∀ step ∈ above, step ≠ ['.'] := by
      rintro step member rfl
      cases Path.isStep_of_mem_steps (short.subset member)
    rw [Location.follow_eq_append noDot fun step member => noDots step (short.subset member),
      ← on.start_append noDots, List.length_append, List.length_append, List.length_append,
      List.length_singleton] at longer
    omega

/-- Making sure of the directory of a cache changes nothing in the directory. -/
theorem lookup_ensureDirectory (on : IsOn before directory cache)
    (made : before.ensureDirectory cache = .ok after) (name : Name) :
    after.lookup (directory ++ [name]) = before.lookup (directory ++ [name]) := by
  rcases on.way with ⟨place, leads⟩ | noDots
  · rw [Store.ensureDirectory_of_leads leads, Except.ok.injEq] at made
    rw [made]
  · exact on.lookup_of_opens noDots (Store.opens_ensureDirectory made).1 name

theorem lookup_begunDirectory (on : IsOn before directory cache) {refusal : Refusal}
    (refused : before.ensureDirectory cache = .error refusal) (name : Name) :
    (before.begunDirectory cache).lookup (directory ++ [name]) =
      before.lookup (directory ++ [name]) := by
  rcases on.way with ⟨place, leads⟩ | noDots
  · rw [Store.ensureDirectory_of_leads leads] at refused
    cases refused
  · exact on.lookup_of_opens noDots (Store.opens_begunDirectory before cache) name

end IsOn

/-- What comes of putting a file into a directory where it was not. -/
structure Puts (directory : Location) (name : Name) (contents : Bytes) (before after : Store) :
    Prop where
  spares : Store.Spares {directory ++ [name ++ Name.mark], directory ++ [name]} before after
  others : ∀ other, other ≠ name → other ≠ name ++ Name.mark →
    after.lookup (directory ++ [other]) = before.lookup (directory ++ [other])
  stored : after.lookup (directory ++ [name]) = some (.file contents)
  reaches : after.Reaches directory
  fits : name.Fits

/-- A file that is written whole into a directory where it was not. -/
theorem puts_writeWhole {directory : Location} {cache : Path} {name : Name} {contents : Bytes}
    {start after : World} (plain : name.IsPlain)
    (leads : start.store.Leads cache.isAbsolute cache.steps directory)
    (reaches : start.store.Reaches directory)
    (written : (Action.writeWhole (cache.join name) (pure contents)).run.run start =
      (.ok (), after)) :
    ∃ store, after = { start with store := store } ∧
      Puts directory name contents start.store store := by
  have ends := Path.endsAt_join cache plain
  have target : (cache.join name).place start.store.base = directory ++ [name] := by
    rw [ends.place_eq, leads.eq_place]
    rfl
  have scratch : (cache.join name).unfinished.place start.store.base =
      directory ++ [name ++ Name.mark] := by
    rw [ends.unfinished.place_eq, leads.eq_place]
    rfl
  have writes : Action.Writes .sound (cache.join name) (pure contents) start (.ok (), after) := by
    rw [← written]
    exact Action.writes_writeWhole ends (Action.isQuiet_pure contents) .sound start
  cases writes with
  | done opens produced touches cleared read =>
      cases produced
      rename_i filled
      obtain ⟨location, resolved, there⟩ := Store.read_eq_ok_iff.mp read
      obtain ⟨_, _, fits, _⟩ := (Store.resolve_of_endsAt ends).mp resolved
      rw [Store.eq_place_of_resolve resolved, touches.base, target] at there
      rw [scratch, target] at touches
      refine ⟨filled, rfl, ?_, ?_, there, ?_, fits⟩
      · exact touches.spares fun location member => .inl (by simpa using member)
      · intro other ne notScratch
        exact touches.elsewhere _ (by simp [ne, notScratch])
      · exact reaches.mono fun place => (touches.directories place).mpr

/-- All of a snapshot is taken by a disk that refuses nothing. -/
theorem encoded_sound (path : Path) (dataset : Dataset) (tables : TableFormat) :
    encoded path dataset tables .sound = pure (tables.write (tableOf dataset)) := by
  unfold encoded
  rw [Action.flushed_sound]
  exact Action.unlessRefused_none _ _

theorem run_write (cache path : Path) (dataset : Dataset) (tables : TableFormat) (disk : Disk)
    (start : World) :
    (write cache path dataset tables disk).run.run start =
      match start.store.ensureDirectory cache with
      | .error refusal =>
          (.error (.io cache.text refusal.text),
            { start with store := start.store.begunDirectory cache })
      | .ok store =>
          (Action.writeWhole path (encoded path dataset tables disk) disk).run.run
            { start with store := store } := by
  unfold write
  rw [Action.run_bind, Action.run_ensureDirectory]
  cases start.store.ensureDirectory cache with
  | error refusal => rfl
  | ok store => rfl

/-- Writing a snapshot that is accepted puts it into the directory of the cache. -/
theorem puts_write {directory : Location} {cache : Path} {name : String} {rows : Nat}
    {dataset : Dataset} {tables : TableFormat} {start after : World} (noSlash : '/' ∉ name.toList)
    (on : IsOn start.store directory cache) (reaches : start.store.Reaches start.store.base)
    (written : (write cache (path cache name rows) dataset tables).run.run start =
      (.ok (), after)) :
    ∃ store, after = { start with store := store } ∧
      Puts directory (fileName name rows) (tables.write (tableOf dataset)) start.store store := by
  rw [run_write, encoded_sound] at written
  cases made : start.store.ensureDirectory cache with
  | error refusal =>
      rw [made] at written
      cases written
  | ok opened =>
      rw [made] at written
      have opens := (Store.opens_ensureDirectory made).1
      have unchanged := on.lookup_ensureDirectory made
      obtain ⟨place, leads⟩ := Store.leads_of_ensureDirectory reaches made
      obtain rfl : place = directory := by rw [leads.eq_place, opens.base, on.place]
      have reaches' : opened.Reaches opened.base := by
        rw [opens.base]
        exact reaches.mono fun _ => (opens.spares ∅).directory
      obtain ⟨store, rfl, puts⟩ := puts_writeWhole (isPlain_fileName noSlash rows) leads
        (leads.reaches reaches') written
      exact ⟨store, rfl, (opens.spares _).trans puts.spares,
        fun other ne notScratch => (puts.others other ne notScratch).trans (unchanged other),
        puts.stored, puts.reaches, puts.fits⟩

end Snapshot

end DatasetDepot
