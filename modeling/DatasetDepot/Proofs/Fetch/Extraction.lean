import DatasetDepot.Proofs.Codec.Entry
import DatasetDepot.Proofs.Fetch.Within

/-!
What unpacking an archive gives.

The file an archive stands for is decoded into an unfinished file next to it.  Main statements:
unpacking a zip archive gives the outcome that is called for by the header of its first entry, and
no file when it fails; and an entry that is stored as it is and cut short is unpacked as well, as
far as it goes.
-/

namespace DatasetDepot.Fetch

open DatasetDepot.Action

/-- What comes of unpacking an archive whose file is missing, by what comes of decoding it.  The
unfinished file cannot be opened, or the file appears with all that was decoded, or the archive is
damaged and nothing appears. -/
inductive Unpacks (archive : Path) (start : World) :
    Except Damage Bytes → Except Fault Path × World → Prop where
  | refused {decoded : Except Damage Bytes} {refusal : Refusal}
      (opening : start.store.write archive.withoutExtension.unfinished [] = .error refusal) :
      Unpacks archive start decoded
        (.error (.io archive.withoutExtension.unfinished.text refusal.text), start)
  | damaged {damage : Damage} {opened after : Store}
      (opening : start.store.write archive.withoutExtension.unfinished [] = .ok opened)
      (touches : Store.Touches [archive.withoutExtension.unfinished.place start.store.base]
        start.store after)
      (missing : after.has archive.withoutExtension = false) :
      Unpacks archive start (.error damage)
        (.error (.decompress archive.text damage.text), { start with store := after })
  | written {contents : Bytes} {opened after : Store}
      (opening : start.store.write archive.withoutExtension.unfinished [] = .ok opened)
      (touches : Store.Touches [archive.withoutExtension.unfinished.place start.store.base,
        archive.withoutExtension.place start.store.base] start.store after)
      (read : after.read archive.withoutExtension = .ok contents) :
      Unpacks archive start (.ok contents)
        (.ok archive.withoutExtension, { start with store := after })

namespace IsArchive

variable {cache archive : Path} {front tail : List Name} {before ending : Name} {store : Store}
  {bytes : Bytes}

/-- An archive that can be read is not the directory of the cache. -/
theorem within_of_read (isArchive : IsArchive cache archive front before ending tail)
    (read : store.read archive = .ok bytes) :
    tail = [] ∧ front.filter Path.isStep = cache.steps := by
  refine isArchive.within.resolve_right fun beside => ?_
  refine Store.read_ne_of_dot ?_ bytes read
  have behind : tail ≠ [] := by
    intro nothing
    rw [nothing] at beside
    cases beside.1
  rw [isArchive.splits.parts, List.getLast?_append, List.getLast?_cons_of_ne_nil behind, beside.1]
  rfl

theorem leads_of_read (isArchive : IsArchive cache archive front before ending tail)
    (read : store.read archive = .ok bytes) :
    ∃ place, store.Leads cache.isAbsolute cache.steps place := by
  obtain ⟨within, steps⟩ := isArchive.within_of_read read
  obtain ⟨location, resolved, _⟩ := Store.read_eq_ok_iff.mp read
  obtain ⟨place, leads, _⟩ := (Store.resolve_of_endsAt (isArchive.endsAt within)).mp resolved
  exact ⟨place, steps ▸ leads⟩

/-- Opening an unfinished file leaves an archive as it is. -/
theorem read_of_touches (isArchive : IsArchive cache archive front before ending tail)
    {path : Path} {opened : Store}
    (opens : Store.Touches [path.unfinished.place store.base] store opened)
    (read : store.read archive = .ok bytes) : opened.read archive = .ok bytes := by
  refine (opens.read_iff ?_).mpr read
  rw [List.mem_singleton]
  exact isArchive.place_ne_unfinished path store.base

end IsArchive

/-- A file that was missing is missing after a failure. -/
theorem Unpacks.missing {archive : Path} {start after : World} {decoded : Except Damage Bytes}
    {fault : Fault} (unpacks : Unpacks archive start decoded (.error fault, after))
    (absent : start.store.has archive.withoutExtension = false) :
    after.store.has archive.withoutExtension = false := by
  cases unpacks with
  | refused opening => exact absent
  | damaged opening touches missing => exact missing

section Archived

variable {cache : Path} {name : Name} {start : World} {bytes rest : Bytes}

/-- What is decoded is all there is to unpacking. -/
theorem unpacks {codec : Codec}
    (part : name.IsPart) (known : Codec.ofPath (cache.join name) = .ok codec)
    (read : start.store.read (cache.join name) = .ok bytes)
    (absent : start.store.has (cache.join name).withoutExtension = false) :
    Unpacks (cache.join name) start (codec.decode bytes)
      ((unpack (cache.join name)).run.run start) := by
  obtain ⟨front, before, ending, tail, isArchive, _⟩ := exists_isArchive part known
  rw [run_unpack known, provide_of_absent absent, extraction_sound]
  cases opening : start.store.write (cache.join name).withoutExtension.unfinished [] with
  | error refusal =>
      rw [run_writeWhole, opening]
      exact .refused opening
  | ok opened =>
      have quiet := isQuiet_decode codec (cache.join name)
      have opens := (touches_write opening).1
      have produced : (decode codec (cache.join name)).run.run { start with store := opened } = _ :=
        run_decode_of_read (isArchive.read_of_touches opens read)
      rw [← flushed_sound (cache.join name).withoutExtension.unfinished
        (.io (cache.join name).withoutExtension.unfinished.text) (decode _ _)] at produced
      cases decoded : codec.decode bytes with
      | error damage =>
          rw [decoded] at produced
          obtain ⟨after, run, touches, _⟩ :=
            run_writeWhole_of_failed quiet opening produced
          rw [run]
          refine .damaged opening touches ((touches.has_eq ?_).trans absent)
          rw [List.mem_singleton]
          exact (Path.unfinished_place_ne _ _).symm
      | ok contents =>
          rw [decoded] at produced
          have ends := (isArchive.target_cases fun _ => isArchive.leads_of_read read).resolve_right
            (by
              rintro (there | refused)
              · rw [absent] at there
                cases there
              · exact refused absent opened opening)
          obtain ⟨after, run, touches, _, full⟩ := run_writeWhole_of_produced ends quiet
            (Store.find_ne_of_absent absent _) opening produced rfl
          rw [run]
          exact .written opening touches full

/-- The first entry of a zip archive is all that is unpacked of it.  An archive too short for a
header or without its signature is damaged; of any other, the header calls for the outcome, and no
file appears on a failure. -/
theorem extracts_first_entry (part : name.IsPart)
    (known : Codec.ofPath (cache.join name) = .ok .zip)
    (read : start.store.read (cache.join name) = .ok bytes)
    (absent : start.store.has (cache.join name).withoutExtension = false) :
    let run := (unpack (cache.join name)).run.run start
    (bytes.length < Zip.headerSize ∨ bytes.take 4 ≠ Zip.signature ∨
      ∃ (header : Zip.LocalHeader) (behind : Bytes), bytes = header.bytes ++ behind) ∧
    (∀ outcome, Zip.Extracts bytes outcome →
      Codec.zip.decode bytes = outcome ∧ Unpacks (cache.join name) start outcome run) ∧
    ∀ fault after, run = (.error fault, after) →
      after.store.has (cache.join name).withoutExtension = false := by
  intro run
  have unpacked : Unpacks (cache.join name) start (Codec.zip.decode bytes) run :=
    unpacks part known read absent
  refine ⟨?_, ?_, ?_⟩
  · by_cases long : bytes.length < Zip.headerSize
    · exact .inl long
    · by_cases signed : bytes.take 4 = Zip.signature
      · exact .inr (.inr (Zip.exists_header (Nat.not_lt.mp long) signed))
      · exact .inr (.inl signed)
  · intro outcome extracts
    have decoded : Codec.zip.decode bytes = outcome := Zip.decode_of_extracts extracts
    exact ⟨decoded, decoded ▸ unpacked⟩
  · intro fault after failed
    rw [failed] at unpacked
    exact unpacked.missing absent

/-- An entry with a name, extra data and bytes behind it. -/
theorem extracts_first_entry_of_more :
    let header : Zip.LocalHeader := ⟨20, 0, 0, 0, 0, 0, 1, 1, 1, 2⟩
    let bytes := header.bytes ++ ([120, 0, 0] ++ [65, 7, 7])
    let archive := (Path.ofString "c").join "x.zip".toList
    let start : World :=
      ⟨⟨[], [([['c']], .directory), ([['c'], "x.zip".toList], .file bytes)]⟩, []⟩
    Codec.zip.decode bytes = .ok [65] ∧
      Unpacks archive start (.ok [65]) ((unpack archive).run.run start) := by
  intro header bytes archive start
  have extracts : Zip.Extracts bytes (.ok [65]) :=
    @Zip.Extracts.stored header [120, 0, 0] [65, 7, 7] rfl rfl (by decide) (by decide)
  have part : Name.IsPart "x.zip".toList := ⟨by decide, by decide⟩
  have read : start.store.read archive = .ok bytes := by decide
  exact (extracts_first_entry part (by decide) read (by decide)).2.1 _ extracts

/-- An entry that is stored as it is is unpacked however the archive is cut behind the header.  It
only has the size its header declares if the cut is behind all of it. -/
theorem unpacks_stored {header : Zip.LocalHeader} (part : name.IsPart)
    (known : Codec.ofPath (cache.join name) = .ok .zip)
    (read : start.store.read (cache.join name) = .ok (header.bytes ++ rest))
    (absent : start.store.has (cache.join name).withoutExtension = false)
    (method : header.method = 0) (before : header.sizeAfterData = false) :
    let size := header.compressedSize.toNat
    let entry := (rest.drop header.gap).take size
    Unpacks (cache.join name) start (.ok entry) ((unpack (cache.join name)).run.run start) ∧
      (entry.length = size ↔ size = 0 ∨ header.gap + size ≤ rest.length) := by
  intro size entry
  have decoded : Codec.zip.decode (header.bytes ++ rest) = .ok entry :=
    Zip.decode_stored method before rest
  constructor
  · rw [← decoded]
    exact unpacks part known read absent
  · have count : entry.length = min size (rest.length - header.gap) := by
      rw [List.length_take, List.length_drop]
    rw [count]
    omega

/-- Two bytes that are all there. -/
theorem unpacks_stored_of_two :
    let header : Zip.LocalHeader := ⟨20, 0, 0, 0, 0, 0, 2, 2, 0, 0⟩
    let archive := (Path.ofString "c").join "x.zip".toList
    let start : World := ⟨⟨[], [([['c']], .directory),
      ([['c'], "x.zip".toList], .file (header.bytes ++ [65, 66]))]⟩, []⟩
    Unpacks archive start (.ok [65, 66]) ((unpack archive).run.run start) := by
  intro header archive start
  have part : Name.IsPart "x.zip".toList := ⟨by decide, by decide⟩
  have read : start.store.read archive = .ok (header.bytes ++ [65, 66]) := by decide
  exact (unpacks_stored part (by decide) read (by decide) rfl (by decide)).1

/-- Of two bytes that a header declares only one is there: the fetch succeeds and gives a file of
one byte. -/
theorem fetch_accepts_cut_entry :
    let header : Zip.LocalHeader := ⟨20, 0, 0, 0, 0, 0, 2, 2, 0, 0⟩
    let services : Services := {
      download := fun _ => ⟨header.bytes ++ [65], none⟩
      launch := fun _ store => (store, .exited 0) }
    let result := (fetch services (.ofString "c") "http://host/x.zip").run.run ⟨⟨[], []⟩, []⟩
    header.method = 0 ∧ header.sizeAfterData = false ∧ result.1 = .ok (.ofString "c/x") ∧
      result.2.store.read (.ofString "c/x") = .ok [65] ∧
        ([65] : Bytes).length ≠ header.compressedSize.toNat := by
  intro header services result
  exact ⟨rfl, by decide, by decide +kernel, by decide +kernel, by decide⟩

end Archived

end DatasetDepot.Fetch
