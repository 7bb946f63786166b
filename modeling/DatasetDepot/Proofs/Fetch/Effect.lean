import DatasetDepot.Proofs.Fetch.Archive

/-!
What one fetch does.

A fetch makes sure of the directory and then provides two files, one after the other: it uses
what is there and writes what is missing.  Main statements: a fetch only spoils what is
unfinished, and an address that was fetched is fetched again without doing anything, as long as
its two files stay.
-/

namespace DatasetDepot

open DatasetDepot.Action

/-! Providing a file. -/

/-- What comes of writing a file unless it is there. -/
def Action.provide (disk : Disk) (path : Path) (produce : Action Bytes) (start : World) :
    Except Fault Unit × World :=
  if start.store.has path then (.ok (), start) else (writeWhole path produce disk).run.run start

structure Action.Provides (scratch : Set Location) (path : Path) (start : World)
    (result : Except Fault Unit × World) : Prop where
  spares : Store.Spares scratch start.store result.2.store
  has : result.1 = .ok () → result.2.store.has path = true

/-- How a file is provided: it is there, or it is written whole where it was not. -/
inductive Action.Provision (disk : Disk) (path : Path) (produce : Action Bytes) (start : World) :
    Except Fault Unit × World → Prop where
  | there (has : start.store.has path = true) : Provision disk path produce start (.ok (), start)
  | written {result : Except Fault Unit × World} (absent : start.store.has path = false)
      (writes : Writes disk path produce start result) : Provision disk path produce start result

namespace Action

variable {disk : Disk} {scratch : Set Location} {path : Path} {produce : Action Bytes}
  {start : World}

theorem provide_of_has (there : start.store.has path = true) :
    provide disk path produce start = (.ok (), start) := if_pos there

theorem provide_of_absent (absent : start.store.has path = false) :
    provide disk path produce start = (writeWhole path produce disk).run.run start :=
  if_neg (by simp [absent])

theorem provides_of_has (there : start.store.has path = true) :
    Provides scratch path start (provide disk path produce start) := by
  rw [provide_of_has there]
  exact ⟨Store.Spares.refl _ _, fun _ => there⟩

/-- Nothing is written where the unfinished file cannot be opened. -/
theorem exists_provide_of_refused (produce : Action Bytes) (absent : start.store.has path = false)
    (refused : ∀ after, start.store.write path.unfinished [] ≠ .ok after) :
    ∃ refusal : Refusal, provide disk path produce start =
      (.error (.io path.unfinished.text refusal.text), start) := by
  rw [provide_of_absent absent, run_writeWhole]
  cases opening : start.store.write path.unfinished [] with
  | error refusal => exact ⟨refusal, rfl⟩
  | ok opened => exact absurd opening (refused opened)

theorem provides_of_refused (refused : start.store.has path = false →
      ∀ after, start.store.write path.unfinished [] ≠ .ok after) :
    Provides scratch path start (provide disk path produce start) := by
  cases there : start.store.has path with
  | true => exact provides_of_has there
  | false =>
      obtain ⟨refusal, provided⟩ := exists_provide_of_refused produce there (refused there)
      rw [provided]
      exact ⟨Store.Spares.refl _ _, fun done => nomatch done⟩

theorem provision_of_has (there : start.store.has path = true) :
    Provision disk path produce start (provide disk path produce start) := by
  rw [provide_of_has there]
  exact .there there

theorem provision_of_endsAt {absolute : Bool} {above : List Name} {name : Name}
    (ends : path.EndsAt absolute above name) (quiet : produce.IsQuiet) :
    Provision disk path produce start (provide disk path produce start) := by
  cases there : start.store.has path with
  | true => exact provision_of_has there
  | false =>
      rw [provide_of_absent there]
      exact .written there (writes_writeWhole ends quiet disk start)

theorem provision_of_refused (refused : start.store.has path = false →
      ∀ after, start.store.write path.unfinished [] ≠ .ok after) :
    Provision disk path produce start (provide disk path produce start) := by
  cases there : start.store.has path with
  | true => exact provision_of_has there
  | false =>
      obtain ⟨refusal, provided⟩ := exists_provide_of_refused produce there (refused there)
      rw [provided]
      exact .written there (.refused refusal)

namespace Provision

variable {result : Except Fault Unit × World}

/-- What was there stays, but for an unfinished file. -/
theorem spares (provision : Provision disk path produce start result) :
    Store.Spares {path.unfinished.place start.store.base} start.store result.2.store := by
  cases provision with
  | there has => exact Store.Spares.refl _ _
  | written absent writes => exact writes.spares absent

theorem touches (provision : Provision disk path produce start result) :
    Store.Touches [path.unfinished.place start.store.base, path.place start.store.base]
      start.store result.2.store := by
  cases provision with
  | there has => exact Store.Touches.refl _ _
  | written absent writes => exact writes.touches

theorem touches_of_error {fault : Fault} {after : World}
    (provision : Provision disk path produce start (.error fault, after)) :
    Store.Touches [path.unfinished.place start.store.base] start.store after.store := by
  cases provision with
  | written absent writes => exact writes.touches_of_error

/-- Where nothing was, there is nothing but what was produced. -/
theorem lookup_eq_none_or (provision : Provision disk path produce start result)
    {location : Location} (nothing : start.store.lookup location = none) :
    result.2.store.lookup location = none ∨ start.store.has path = false ∧
      ∃ contents, Writes.Leaves disk path produce start result location contents ∧
        result.2.store.lookup location = some (.file contents) := by
  cases provision with
  | there has => exact .inl nothing
  | written absent writes =>
      exact (writes.lookup_eq_none_or nothing).imp_right fun left => ⟨absent, left⟩

theorem provides (provision : Provision disk path produce start result)
    (unfinished : path.unfinished.place start.store.base ∈ scratch) :
    Provides scratch path start result where
  spares := by
    apply provision.spares.mono
    rintro location rfl
    exact unfinished
  has done := by
    cases provision with
    | there has => exact has
    | written absent writes =>
        rcases result with ⟨_ | _, after⟩
        · cases done
        · exact writes.has

end Provision

theorem journal_provide (silent : ∀ start, (produce.run.run start).2.journal = start.journal)
    (path : Path) (disk : Disk) (start : World) :
    (provide disk path produce start).2.journal = start.journal := by
  cases there : start.store.has path with
  | true => rw [provide_of_has there]
  | false =>
      rw [provide_of_absent there]
      exact journal_writeWhole silent path disk start

end Action

namespace Fetch

/-! The two files of a fetch. -/

theorem run_decode_of_read {codec : Codec} {archive : Path} {start : World} {bytes : Bytes}
    (read : start.store.read archive = .ok bytes) :
    (decode codec archive).run.run start =
      ((codec.decode bytes).mapError fun damage => .decompress archive.text damage.text,
        start) := by
  unfold decode
  rw [run_bind, run_store]
  simp only [read]
  cases codec.decode bytes with
  | error damage => rfl
  | ok contents => rfl

/-- What comes of decoding an archive.  Nothing changes. -/
inductive Decodes (codec : Codec) (archive : Path) (start : World) :
    Except Fault Bytes × World → Prop where
  | unread (refusal : Refusal) :
      Decodes codec archive start (.error (.io archive.text refusal.text), start)
  | damaged (message : String) :
      Decodes codec archive start (.error (.decompress archive.text message), start)
  | decoded {bytes contents : Bytes} (read : start.store.read archive = .ok bytes)
      (decoded : codec.decode bytes = .ok contents) :
      Decodes codec archive start (.ok contents, start)

theorem decodes_of_run {codec : Codec} {archive : Path} {start : World}
    {result : Except Fault Bytes × World} (run : (decode codec archive).run.run start = result) :
    Decodes codec archive start result := by
  rw [← run]
  cases read : start.store.read archive with
  | error refusal =>
      unfold decode
      rw [run_bind, run_store]
      simp only [read]
      cases refusal with
      | isDirectory => exact .damaged _
      | _ => exact .unread _
  | ok bytes =>
      rw [run_decode_of_read read]
      cases decoded : codec.decode bytes with
      | error damage => exact .damaged _
      | ok contents => exact .decoded read decoded

theorem run_decode (codec : Codec) (archive : Path) (start : World) :
    ((decode codec archive).run.run start).2 = start := by
  generalize run : (decode codec archive).run.run start = result
  cases decodes_of_run run <;> rfl

theorem isQuiet_decode (codec : Codec) (archive : Path) : (decode codec archive).IsQuiet :=
  fun start => congrArg World.store (run_decode codec archive start)

theorem isQuiet_extraction (codec : Codec) (archive : Path) (disk : Disk) :
    (extraction codec archive disk).IsQuiet :=
  (isQuiet_decode codec archive).unlessRefused _ _

theorem isQuiet_arrival (services : Services) (url : String) (archive : Path) (disk : Disk) :
    (arrival services url archive disk).IsQuiet :=
  (isQuiet_download services url).unlessRefused _ _

/-- All that a download brings is taken by a disk that refuses nothing. -/
theorem arrival_sound (services : Services) (url : String) (archive : Path) :
    arrival services url archive .sound = download services url :=
  unlessRefused_none _ _

theorem extraction_sound (codec : Codec) (archive : Path) :
    extraction codec archive .sound = decode codec archive :=
  unlessRefused_none _ _

theorem journal_provide_extraction {codec : Codec} {archive path : Path} {disk : Disk}
    {start after : World} {result : Except Fault Unit}
    (provided : provide disk path (extraction codec archive disk) start = (result, after)) :
    after.journal = start.journal := by
  have silent : ∀ start, ((extraction codec archive disk).run.run start).2.journal =
      start.journal := by
    intro start
    rw [extraction, run_unlessRefused]
    have same := run_decode codec archive start
    rcases run : (decode codec archive).run.run start with ⟨fault | contents, after⟩
    · rw [run] at same
      exact congrArg World.journal same
    · rw [run] at same
      simp only
      cases disk.spill archive.withoutExtension.unfinished contents <;>
        exact congrArg World.journal same
  have kept := journal_provide silent path disk start
  rwa [provided] at kept

theorem run_unpack {archive : Path} {codec : Codec} (decoded : Codec.ofPath archive = .ok codec)
    (disk : Disk) (start : World) :
    (unpack archive disk).run.run start =
      match provide disk archive.withoutExtension (extraction codec archive disk) start with
      | (.ok (), after) => (.ok archive.withoutExtension, after)
      | (.error fault, after) => (.error fault, after) := by
  unfold unpack
  rw [decoded, run_bind, run_liftM]
  simp only
  rw [run_bind, run_store]
  simp only
  cases there : start.store.has archive.withoutExtension with
  | true =>
      rw [provide_of_has there]
      rfl
  | false =>
      rw [provide_of_absent there]
      simp only [Bool.not_false, if_true]
      rw [run_bind]
      rcases (writeWhole archive.withoutExtension (extraction codec archive disk) disk).run.run
        start with
        ⟨_ | _, after⟩ <;> rfl

theorem run_fetch (services : Services) (cache : Path) (url : String) (disk : Disk)
    (start : World) :
    (fetch services cache url disk).run.run start =
      match nameOf? url.toList with
      | none => (.error (.invalidParameter "url" s!"`{url}` does not name a file"), start)
      | some name =>
          match Codec.ofPath (cache.join name) with
          | .error fault => (.error fault, start)
          | .ok _ =>
              match start.store.ensureDirectory cache with
              | .error refusal =>
                  (.error (.io cache.text refusal.text),
                    { start with store := start.store.begunDirectory cache })
              | .ok opened =>
                  match provide disk (cache.join name) (arrival services url (cache.join name) disk)
                      { start with store := opened } with
                  | (.ok (), middle) => (unpack (cache.join name) disk).run.run middle
                  | (.error fault, middle) => (.error fault, middle) := by
  unfold fetch
  cases nameOf? url.toList with
  | none => rfl
  | some name =>
      simp only
      rw [run_bind, run_liftM]
      cases Codec.ofPath (cache.join name) with
      | error fault => rfl
      | ok codec =>
          simp only
          rw [run_bind, run_ensureDirectory]
          cases start.store.ensureDirectory cache with
          | error refusal => rfl
          | ok opened =>
              simp only
              rw [run_bind, run_store]
              simp only
              cases there : opened.has (cache.join name) with
              | true =>
                  rw [provide_of_has there]
                  rfl
              | false =>
                  rw [provide_of_absent there]
                  simp only [Bool.not_false, if_true]
                  rw [run_bind]
                  rcases (writeWhole (cache.join name) (arrival services url (cache.join name) disk)
                    disk).run.run { start with store := opened } with ⟨_ | _, after⟩ <;> rfl

namespace IsArchive

variable {cache archive : Path} {front tail : List Name} {before ending : Name} {store : Store}
  {disk : Disk}

theorem endsAt (isArchive : IsArchive cache archive front before ending tail)
    (within : tail = []) :
    archive.EndsAt cache.isAbsolute (front.filter Path.isStep) (before ++ '.' :: ending) where
  isAbsolute := isArchive.isAbsolute
  steps := isArchive.splits.steps
  last := by rw [isArchive.splits.parts, within, List.getLast?_concat]
  plain := isArchive.splits.plain

/-- The directory of a cache is there, so that it needs no download. -/
theorem has_of_behind (isArchive : IsArchive cache archive front before ending tail)
    (behind : tail ≠ [])
    (leads : cache.steps ≠ [] → ∃ place, store.Leads cache.isAbsolute cache.steps place) :
    store.has archive = true := by
  have steps : cache.steps = archive.steps := by
    rw [isArchive.splits.steps]
    exact (isArchive.within.resolve_left fun within => behind within.1).2
  have some : archive.letters ≠ [] := by
    intro nothing
    have none : archive.steps = [] := by
      rw [show archive = ⟨[]⟩ from congrArg Path.mk nothing]
      rfl
    rw [isArchive.splits.steps] at none
    simp at none
  obtain ⟨place, leads⟩ := leads (by simp [steps, isArchive.splits.steps])
  rw [steps, ← isArchive.isAbsolute] at leads
  exact Store.has_of_leads some leads

theorem provides_archive (isArchive : IsArchive cache archive front before ending tail)
    (start : World)
    (leads : cache.steps ≠ [] → ∃ place, start.store.Leads cache.isAbsolute cache.steps place)
    {produce : Action Bytes} (quiet : produce.IsQuiet) (disk : Disk) :
    Provides (scratch (cache.place start.store.base)) archive start
      (provide disk archive produce start) := by
  by_cases within : tail = []
  · exact (provision_of_endsAt (isArchive.endsAt within) quiet).provides
      (isArchive.archive_unfinished_mem within _)
  · exact provides_of_has (isArchive.has_of_behind within leads)

theorem exists_leads_above (isArchive : IsArchive cache archive front before ending tail)
    (leads : cache.steps ≠ [] → ∃ place, store.Leads cache.isAbsolute cache.steps place)
    (some : front.filter Path.isStep ≠ []) :
    ∃ place, store.Leads cache.isAbsolute (front.filter Path.isStep) place := by
  rcases isArchive.within with ⟨_, steps⟩ | ⟨_, steps⟩
  · rw [steps] at some ⊢
    exact leads some
  · obtain ⟨place, leads⟩ := leads (by simp [steps])
    rw [steps] at leads
    exact leads.exists_above

/-- The file an archive stands for has a name in a directory, unless it is there anyway or cannot
be written. -/
theorem target_cases (isArchive : IsArchive cache archive front before ending tail)
    (leads : cache.steps ≠ [] → ∃ place, store.Leads cache.isAbsolute cache.steps place) :
    archive.withoutExtension.EndsAt cache.isAbsolute (front.filter Path.isStep) before ∨
      store.has archive.withoutExtension = true ∨
        (store.has archive.withoutExtension = false →
          ∀ after, store.write archive.withoutExtension.unfinished [] ≠ .ok after) := by
  cases isArchive.stands with
  | file ends => exact .inl ends
  | place behind isAbsolute steps some =>
      by_cases none : front.filter Path.isStep = []
      · refine .inr (.inr fun absent after opened => ?_)
        rw [Store.has_of_write_unfinished some
          (Path.name?_eq_none_of_steps (steps.trans none)) opened] at absent
        cases absent
      · obtain ⟨place, leads⟩ := isArchive.exists_leads_above leads none
        rw [← steps, ← isAbsolute] at leads
        exact .inr (.inl (Store.has_of_leads some leads))
  | up dotted isAbsolute steps some unnamed =>
      refine .inr (.inr fun absent after opened => ?_)
      rw [Store.has_of_write_unfinished some unnamed opened] at absent
      cases absent

theorem provides_target (isArchive : IsArchive cache archive front before ending tail)
    (start : World)
    (leads : cache.steps ≠ [] → ∃ place, start.store.Leads cache.isAbsolute cache.steps place)
    {produce : Action Bytes} (quiet : produce.IsQuiet) (disk : Disk) :
    Provides (scratch (cache.place start.store.base)) archive.withoutExtension start
      (provide disk archive.withoutExtension produce start) := by
  rcases isArchive.target_cases leads with ends | there | refused
  · exact (provision_of_endsAt ends quiet).provides (isArchive.target_unfinished_mem ends _)
  · exact provides_of_has there
  · exact provides_of_refused refused

theorem provision_archive (isArchive : IsArchive cache archive front before ending tail)
    (start : World)
    (leads : cache.steps ≠ [] → ∃ place, start.store.Leads cache.isAbsolute cache.steps place)
    {produce : Action Bytes} (quiet : produce.IsQuiet) :
    Provision disk archive produce start (provide disk archive produce start) := by
  by_cases within : tail = []
  · exact provision_of_endsAt (isArchive.endsAt within) quiet
  · exact provision_of_has (isArchive.has_of_behind within leads)

theorem provision_target (isArchive : IsArchive cache archive front before ending tail)
    (start : World)
    (leads : cache.steps ≠ [] → ∃ place, start.store.Leads cache.isAbsolute cache.steps place)
    {produce : Action Bytes} (quiet : produce.IsQuiet) :
    Provision disk archive.withoutExtension produce start
      (provide disk archive.withoutExtension produce start) := by
  rcases isArchive.target_cases leads with ends | there | refused
  · exact provision_of_endsAt ends quiet
  · exact provision_of_has there
  · exact provision_of_refused refused

end IsArchive

/-! One fetch. -/

/-- The name of an archive that stands for something unfinished. -/
def IsUnfinished (name : Name) : Prop :=
  ∃ before ending, before ≠ [] ∧ '.' ∉ ending ∧ name = before ++ Name.mark ++ '.' :: ending

/-- A name of an archive in the directory of a cache, which an address stands for. -/
structure IsArchiveOf (cache : Path) (url : String) (name : Name) : Prop where
  named : nameOf? url.toList = some name
  decoded : ∃ codec, Codec.ofPath (cache.join name) = .ok codec

namespace IsArchiveOf

variable {cache : Path} {url : String} {name : Name} {before after : Store}

theorem exists_isArchive (isArchiveOf : IsArchiveOf cache url name) :
    ∃ front before ending tail, IsArchive cache (cache.join name) front before ending tail ∧
      (tail = [] → name = before ++ '.' :: ending) := by
  obtain ⟨codec, decoded⟩ := isArchiveOf.decoded
  exact Fetch.exists_isArchive (isPart_of_nameOf? isArchiveOf.named) decoded

theorem has (isArchiveOf : IsArchiveOf cache url name)
    (there : before.has (cache.join name) = true)
    (spares : Store.Spares (scratch (cache.place before.base)) before after) :
    after.has (cache.join name) = true := by
  obtain ⟨_, _, _, _, isArchive, _⟩ := isArchiveOf.exists_isArchive
  exact spares.has there (isArchive.archive_notMem_scratch _)

/-- The files that archives stand for stay, unless one is named like something unfinished. -/
theorem has_target (isArchiveOf : IsArchiveOf cache url name) (finished : ¬ IsUnfinished name)
    (there : before.has (cache.join name).withoutExtension = true)
    (spares : Store.Spares (scratch (cache.place before.base)) before after) :
    after.has (cache.join name).withoutExtension = true := by
  obtain ⟨_, _, ending, _, isArchive, whole⟩ := isArchiveOf.exists_isArchive
  refine spares.has there (isArchive.target_notMem_scratch ?_ _)
  rintro within other some rfl
  exact finished ⟨other, ending, some, isArchive.isEnding.noDot, whole within⟩

end IsArchiveOf

/-- An address that names an archive, and a directory that was made sure of. -/
structure Ready (cache : Path) (url : String) (start : World) (name : Name) (codec : Codec)
    (opened : Store) : Prop where
  named : nameOf? url.toList = some name
  decoded : Codec.ofPath (cache.join name) = .ok codec
  made : start.store.ensureDirectory cache = .ok opened

/-- What comes of a fetch: it does nothing, or stops at the directory or at the archive, or goes on
to the file the archive stands for. -/
inductive Fetches (disk : Disk) (services : Services) (cache : Path) (url : String)
    (start : World) : Except Fault Path × World → Prop where
  | refused (fault : Fault) : Fetches disk services cache url start (.error fault, start)
  | unopened {name : Name} {refusal : Refusal} (isArchiveOf : IsArchiveOf cache url name)
      (refused : start.store.ensureDirectory cache = .error refusal) :
      Fetches disk services cache url start (.error (.io cache.text refusal.text),
        { start with store := start.store.begunDirectory cache })
  | failed {name : Name} {codec : Codec} {opened : Store} {middle : World} {fault : Fault}
      (ready : Ready cache url start name codec opened)
      (archived : provide disk (cache.join name) (arrival services url (cache.join name) disk)
        { start with store := opened } = (.error fault, middle)) :
      Fetches disk services cache url start (.error fault, middle)
  | unpacked {name : Name} {codec : Codec} {opened : Store} {middle after : World}
      {result : Except Fault Unit} (ready : Ready cache url start name codec opened)
      (archived : provide disk (cache.join name) (arrival services url (cache.join name) disk)
        { start with store := opened } = (.ok (), middle))
      (decoded : provide disk (cache.join name).withoutExtension
        (extraction codec (cache.join name) disk) middle = (result, after)) :
      Fetches disk services cache url start
        (result.map fun _ => (cache.join name).withoutExtension, after)

theorem fetches (services : Services) (cache : Path) (url : String) (disk : Disk) (start : World) :
    Fetches disk services cache url start ((fetch services cache url disk).run.run start) := by
  rw [run_fetch]
  cases named : nameOf? url.toList with
  | none => exact .refused _
  | some name =>
      cases decoded : Codec.ofPath (cache.join name) with
      | error fault =>
          simp only [decoded]
          exact .refused _
      | ok codec =>
          cases made : start.store.ensureDirectory cache with
          | error refusal =>
              simp only [decoded]
              exact .unopened ⟨named, codec, decoded⟩ made
          | ok opened =>
              have ready : Ready cache url start name codec opened := ⟨named, decoded, made⟩
              rcases archived : provide disk (cache.join name)
                (arrival services url (cache.join name) disk) { start with store := opened } with
                ⟨fault | done, middle⟩
              · simp only [decoded, archived]
                exact .failed ready archived
              · simp only [decoded, archived, run_unpack decoded]
                rcases unpacked : provide disk (cache.join name).withoutExtension
                  (extraction codec (cache.join name) disk) middle with ⟨fault | done, after⟩
                · exact .unpacked ready archived unpacked
                · exact .unpacked ready archived unpacked

namespace Ready

variable {disk : Disk} {services : Services} {cache : Path} {url : String}
  {start middle after : World} {name : Name} {codec : Codec} {opened : Store}
  {result : Except Fault Unit}

theorem isArchiveOf (ready : Ready cache url start name codec opened) :
    IsArchiveOf cache url name :=
  ⟨ready.named, codec, ready.decoded⟩

theorem spares_opened (ready : Ready cache url start name codec opened) (scratch : Set Location) :
    Store.Spares scratch start.store opened :=
  (Store.opens_ensureDirectory ready.made).1.spares scratch

theorem place_eq (ready : Ready cache url start name codec opened) :
    cache.place opened.base = cache.place start.store.base := by
  rw [(ready.spares_opened ∅).base]

theorem archived (ready : Ready cache url start name codec opened)
    (provided : provide disk (cache.join name) (arrival services url (cache.join name) disk)
      { start with store := opened } = (result, middle)) :
    Store.Spares (scratch (cache.place start.store.base)) opened middle.store ∧
      (result = .ok () → middle.store.has (cache.join name) = true) := by
  obtain ⟨front, before, ending, tail, isArchive, _⟩ := ready.isArchiveOf.exists_isArchive
  have provides := isArchive.provides_archive { start with store := opened }
    (Store.opens_ensureDirectory ready.made).2
    (isQuiet_arrival services url (cache.join name) disk) disk
  rw [provided, ready.place_eq] at provides
  exact ⟨provides.spares, provides.has⟩

theorem unpacked (ready : Ready cache url start name codec opened)
    (spares : Store.Spares (scratch (cache.place start.store.base)) opened middle.store)
    (provided : provide disk (cache.join name).withoutExtension
      (extraction codec (cache.join name) disk) middle = (result, after)) :
    Store.Spares (scratch (cache.place start.store.base)) middle.store after.store ∧
      (result = .ok () → after.store.has (cache.join name).withoutExtension = true) := by
  obtain ⟨front, before, ending, tail, isArchive, _⟩ := ready.isArchiveOf.exists_isArchive
  have leads : cache.steps ≠ [] →
      ∃ place, middle.store.Leads cache.isAbsolute cache.steps place := fun some =>
    ((Store.opens_ensureDirectory ready.made).2 some).imp fun _ => spares.leads
  have provides := isArchive.provides_target middle leads
    (isQuiet_extraction codec (cache.join name) disk) disk
  rw [provided, spares.base, ready.place_eq] at provides
  exact ⟨provides.spares, provides.has⟩

theorem provision_archive (ready : Ready cache url start name codec opened)
    (provided : provide disk (cache.join name) (arrival services url (cache.join name) disk)
      { start with store := opened } = (result, middle)) :
    Provision disk (cache.join name) (arrival services url (cache.join name) disk)
      { start with store := opened } (result, middle) := by
  obtain ⟨_, _, _, _, isArchive, _⟩ := ready.isArchiveOf.exists_isArchive
  rw [← provided]
  exact isArchive.provision_archive { start with store := opened }
    (Store.opens_ensureDirectory ready.made).2 (isQuiet_arrival services url (cache.join name) disk)

theorem provision_target (ready : Ready cache url start name codec opened) {scratch : Set Location}
    (spares : Store.Spares scratch opened middle.store)
    (provided : provide disk (cache.join name).withoutExtension
      (extraction codec (cache.join name) disk) middle = (result, after)) :
    Provision disk (cache.join name).withoutExtension
      (extraction codec (cache.join name) disk) middle (result, after) := by
  obtain ⟨_, _, _, _, isArchive, _⟩ := ready.isArchiveOf.exists_isArchive
  rw [← provided]
  exact isArchive.provision_target middle
    (fun some => ((Store.opens_ensureDirectory ready.made).2 some).imp fun _ => spares.leads)
    (isQuiet_extraction codec (cache.join name) disk)

/-- The download is only asked for when the archive is not there. -/
theorem journal (ready : Ready cache url start name codec opened)
    (provided : provide .sound (cache.join name)
      (arrival services url (cache.join name) .sound) { start with store := opened } =
        (result, middle)) :
    middle.journal = start.journal ∨
      middle.journal = start.journal ++ [.downloaded url] ∧
        start.store.has (cache.join name) = false ∧
          ((services.download url).failure? = none → result = .ok ()) := by
  obtain ⟨front, before, ending, tail, isArchive, _⟩ := ready.isArchiveOf.exists_isArchive
  cases there : opened.has (cache.join name) with
  | true =>
      rw [provide_of_has there] at provided
      cases provided
      exact .inl rfl
  | false =>
      have within : tail = [] := by
        by_contra behind
        rw [isArchive.has_of_behind behind (Store.opens_ensureDirectory ready.made).2] at there
        cases there
      have writes := writes_writeWhole (isArchive.endsAt within)
        (isQuiet_arrival services url (cache.join name) .sound) .sound
        { start with store := opened }
      rw [← provide_of_absent there, provided, arrival_sound] at writes
      have free : ({ start with store := opened } : World).store.find (cache.join name) ≠ _ :=
        Store.find_ne_of_absent there .directory
      refine (writes.download free).imp_right fun asked => ⟨asked.1, ?_, asked.2⟩
      cases former : start.store.has (cache.join name) with
      | false => rfl
      | true =>
          rw [(ready.spares_opened ∅).has former id] at there
          cases there

end Ready

/-- An address whose two files are there. -/
structure Fetched (cache : Path) (url : String) (name : Name) (store : Store) : Prop
    extends IsArchiveOf cache url name where
  made : store.ensureDirectory cache = .ok store
  archive : store.has (cache.join name) = true
  target : store.has (cache.join name).withoutExtension = true

namespace Fetches

variable {disk : Disk} {services : Services} {cache : Path} {url : String} {start after : World}

/-- A fetch only spoils what is unfinished. -/
theorem spares {result : Except Fault Path × World}
    (fetches : Fetches disk services cache url start result) :
    Store.Spares (scratch (cache.place start.store.base)) start.store result.2.store := by
  cases fetches with
  | refused fault => exact Store.Spares.refl _ _
  | unopened isArchiveOf refused => exact (Store.opens_begunDirectory _ _).spares _
  | failed ready provided => exact (ready.spares_opened _).trans (ready.archived provided).1
  | unpacked ready provided decoded =>
      have spares := (ready.archived provided).1
      exact (ready.spares_opened _).trans (spares.trans (ready.unpacked spares decoded).1)

/-- After a fetch that gives a path, the archive and the file at that path are there. -/
theorem fetched {result : Except Fault Path × World} {path : Path}
    (fetches : Fetches disk services cache url start result) (given : result.1 = .ok path) :
    ∃ name, Fetched cache url name result.2.store ∧
      path = (cache.join name).withoutExtension := by
  cases fetches with
  | refused fault => cases given
  | unopened isArchiveOf refused => cases given
  | failed ready provided => cases given
  | @unpacked name codec opened middle after result ready provided decoded =>
      obtain ⟨spares, archive⟩ := ready.archived provided
      obtain ⟨spares', target⟩ := ready.unpacked spares decoded
      cases result with
      | error fault => cases given
      | ok done =>
          cases given
          refine ⟨name, ⟨ready.isArchiveOf, (spares.trans spares').ensureDirectory ready.made, ?_,
            target rfl⟩, rfl⟩
          apply ready.isArchiveOf.has (archive rfl)
          rw [spares.base, ready.place_eq]
          exact spares'

/-- The only thing a fetch may ask for is one download, for an archive that is not there; if it
comes, the archive is. -/
theorem journal {result : Except Fault Path × World}
    (fetches : Fetches .sound services cache url start result) :
    result.2.journal = start.journal ∨
      result.2.journal = start.journal ++ [.downloaded url] ∧
        ∃ name, IsArchiveOf cache url name ∧ start.store.has (cache.join name) = false ∧
          ((services.download url).failure? = none →
            result.2.store.has (cache.join name) = true) := by
  cases fetches with
  | refused fault => exact .inl rfl
  | unopened isArchiveOf refused => exact .inl rfl
  | failed ready provided =>
      refine (ready.journal provided).imp_right fun asked =>
        ⟨asked.1, _, ready.isArchiveOf, asked.2.1, fun came => ?_⟩
      cases asked.2.2 came
  | @unpacked name codec opened middle after result ready provided decoded =>
      obtain ⟨spares, archive⟩ := ready.archived provided
      rw [journal_provide_extraction decoded]
      refine (ready.journal provided).imp_right fun asked =>
        ⟨asked.1, name, ready.isArchiveOf, asked.2.1, fun _ => ?_⟩
      apply ready.isArchiveOf.has (archive rfl)
      rw [spares.base, ready.place_eq]
      exact (ready.unpacked spares decoded).1

end Fetches

namespace Fetched

variable {cache : Path} {url : String} {name : Name} {start : World} {before after : Store}

/-- An address whose files are there is fetched without doing anything. -/
theorem run_fetch (fetched : Fetched cache url name start.store) (services : Services) :
    (fetch services cache url).run.run start =
      (.ok (cache.join name).withoutExtension, start) := by
  obtain ⟨codec, decoded⟩ := fetched.decoded
  have archived : provide .sound (cache.join name)
      (arrival services url (cache.join name) .sound) start = (.ok (), start) :=
    provide_of_has fetched.archive
  have unpacked : provide .sound (cache.join name).withoutExtension
      (extraction codec (cache.join name) .sound) start = (.ok (), start) :=
    provide_of_has fetched.target
  rw [Fetch.run_fetch, fetched.named]
  simp only [decoded, fetched.made]
  rw [archived]
  simp only [run_unpack decoded, unpacked]

theorem spares (fetched : Fetched cache url name before) (finished : ¬ IsUnfinished name)
    (spares : Store.Spares (scratch (cache.place before.base)) before after) :
    Fetched cache url name after where
  toIsArchiveOf := fetched.toIsArchiveOf
  made := spares.ensureDirectory fetched.made
  archive := fetched.has fetched.archive spares
  target := fetched.has_target finished fetched.target spares

end Fetched

end Fetch

end DatasetDepot
