import DatasetDepot.Proofs.Atomic
import DatasetDepot.Proofs.Careful
import DatasetDepot.Proofs.Published

/-!
When the command for the production line measurements runs.

A call runs it if neither a snapshot nor the archive nor the file in it is there; everything else
that a call does is careful, and so an archive that was brought stays.  Main statement: along
every run of calls on one cache directory, each call runs the command exactly if nothing that it
could use is there, and once the archive was brought no call does so any more.
-/

namespace DatasetDepot.Published

open DatasetDepot.Action

/-- A cache directory, and where published data comes from. -/
structure Site where
  cache : Path
  sources : Sources

structure Call where
  demand : Demand
  services : Services

namespace Site

def archive (site : Site) : Path := site.cache.join site.sources.boschFile.toList

/-- The file in the archive. -/
def file (site : Site) : Path := site.archive.withoutExtension

def snapshot (site : Site) (rows : Nat) : Path := Snapshot.path site.cache Title.bosch.name rows

def context (site : Site) (call : Call) : Context := ⟨site.cache, site.sources, call.services⟩

def command (site : Site) (call : Call) : Command := competitionCommand (site.context call)

/-- What the command leaves of a store, and how it ends. -/
def launch (site : Site) (call : Call) (store : Store) : Store × Outcome :=
  call.services.launch (site.command call) store

/-- The world that the command leaves. -/
def left (site : Site) (call : Call) (opened : Store) (journal : List Event) : World :=
  ⟨(site.launch call opened).1, journal ++ [.launched (site.command call)]⟩

/-- What is answered to a call, and the world it leaves. -/
def perform (site : Site) (call : Call) (start : World) : Except Fault Dataset × World :=
  (bosch call.demand (site.context call)).run.run start

def run (site : Site) (calls : List Call) (start : World) : World :=
  calls.foldl (fun world call => (site.perform call world).2) start

/-- Nothing that the call could use is there, and the call is one that can be answered. -/
structure Lacks (site : Site) (call : Call) (store : Store) : Prop where
  noCenters : call.demand.parameters.centers? = none
  noClasses : call.demand.parameters.classes? = none
  noSnapshot : store.has (site.snapshot call.demand.rows) = false
  noArchive : store.has site.archive = false
  noFile : store.has site.file = false

def Stands (site : Site) (store : Store) : Prop := store.ensureDirectory site.cache = .ok store

/-- The command leaves the cache directory in its place. -/
def Keeps (site : Site) (call : Call) : Prop :=
  ∀ store, site.Stands store → site.Stands (site.launch call store).1

inductive Performs (site : Site) (call : Call) (start : World) :
    Except Fault Dataset × World → Prop where
  /-- The command does not run. -/
  | spared {result : Except Fault Dataset} {after : World} (usable : ¬ site.Lacks call start.store)
      (journal : after.journal = start.journal) : Performs site call start (result, after)
  /-- The command fails, which is the answer, and nothing is done with what it left. -/
  | failed {opened : Store} (lacks : site.Lacks call start.store)
      (opens : start.store.ensureDirectory site.cache = .ok opened)
      (ended : (site.launch call opened).2.succeeded = false) :
      Performs site call start
        (.error (.externalCommand (site.command call).text (site.launch call opened).2.text),
          site.left call opened start.journal)
  /-- The command runs once and succeeds, whatever the answer is then. -/
  | launched {opened : Store} {result : Except Fault Dataset} {after : World}
      (lacks : site.Lacks call start.store)
      (opens : start.store.ensureDirectory site.cache = .ok opened)
      (ended : (site.launch call opened).2.succeeded = true)
      (journal : after.journal = start.journal ++ [.launched (site.command call)]) :
      Performs site call start (result, after)

/-- A call runs the command, which brings the archive. -/
def Delivers (site : Site) (call : Call) (start : World) : Prop :=
  site.Lacks call start.store ∧ ∃ opened, start.store.ensureDirectory site.cache = .ok opened ∧
    (site.launch call opened).1.has site.archive = true

end Site

/-! One call. -/

theorem isCareful_readTable (columns : Csv.Columns) (limit : Nat) (path : Path) :
    (readTable columns limit path).IsCareful := by
  apply isCareful_store.bind
  intro store
  cases store.read path with
  | error refusal => exact isCareful_throw _
  | ok contents =>
      simp only
      cases Csv.read columns limit contents with
      | error defect => exact isCareful_throw _
      | ok dataset => exact isCareful_pure dataset

theorem readTable_snd (columns : Csv.Columns) (limit : Nat) (path : Path) (start : World) :
    ((readTable columns limit path).run.run start).2 = start := by
  unfold readTable
  rw [run_bind, run_store]
  simp only
  cases start.store.read path with
  | error refusal => rfl
  | ok contents =>
      simp only
      cases Csv.read columns limit contents <;> rfl

theorem check_bosch_eq_ok_iff (parameters : Parameters) :
    parameters.check .bosch = .ok () ↔
      parameters.centers? = none ∧ parameters.classes? = none := by
  obtain ⟨_ | _, _ | _⟩ := parameters <;> simp [Parameters.check, Parameters.given, Title.takes]

namespace Site

variable {site : Site} {call : Call} {start middle after : World}

/-- How a call gets at the archive. -/
inductive Obtains (site : Site) (call : Call) (start : World) : Except Fault Path × World → Prop
    where
  | there (found : start.store.has site.archive = true ∨ start.store.has site.file = true) :
      Obtains site call start (.ok site.archive, start)
  | refused {refusal : Refusal} (noArchive : start.store.has site.archive = false)
      (noFile : start.store.has site.file = false)
      (refused : start.store.ensureDirectory site.cache = .error refusal) :
      Obtains site call start (.error (.io site.cache.text refusal.text),
        { start with store := start.store.begunDirectory site.cache })
  | failed {opened : Store} (noArchive : start.store.has site.archive = false)
      (noFile : start.store.has site.file = false)
      (opens : start.store.ensureDirectory site.cache = .ok opened)
      (ended : (site.launch call opened).2.succeeded = false) :
      Obtains site call start
        (.error (.externalCommand (site.command call).text (site.launch call opened).2.text),
          site.left call opened start.journal)
  | launched {opened : Store} (noArchive : start.store.has site.archive = false)
      (noFile : start.store.has site.file = false)
      (opens : start.store.ensureDirectory site.cache = .ok opened)
      (ended : (site.launch call opened).2.succeeded = true) :
      Obtains site call start (.ok site.archive,
        site.left call opened start.journal)

theorem obtains (site : Site) (call : Call) (start : World) :
    site.Obtains call start ((boschArchive (site.context call)).run.run start) := by
  have archive : (site.context call).cache.join (site.context call).sources.boschFile.toList =
      site.archive := rfl
  have cache : (site.context call).cache = site.cache := rfl
  unfold boschArchive
  rw [run_bind, run_store, archive, cache]
  simp only
  split
  · rename_i found
    exact .there (Bool.or_eq_true_iff.mp found)
  · rename_i absent
    obtain ⟨noArchive, noFile⟩ := Bool.or_eq_false_iff.mp (Bool.eq_false_iff.mpr absent)
    rw [run_bind, run_ensureDirectory]
    cases opens : start.store.ensureDirectory site.cache with
    | error refusal => exact .refused noArchive noFile opens
    | ok opened =>
        simp only
        rw [run_bind, run_launch]
        change Obtains site call start ((ite ((!(site.launch call opened).2.succeeded) = true)
          _ _ : Action Path).run.run _)
        cases ended : (site.launch call opened).2.succeeded with
        | false => exact .failed noArchive noFile opens ended
        | true => exact .launched noArchive noFile opens ended

def table (site : Site) (rows : Nat) : Action Dataset :=
  Fetch.unpack site.archive >>= readTable ⟨true, true, false⟩ rows

/-- What a call does once it has an archive. -/
def build (site : Site) (demand : Demand) (tables : TableFormat) : Action Dataset := do
  let dataset ← site.table demand.rows
  Snapshot.write site.cache (site.snapshot demand.rows) dataset tables
  liftM (Snapshot.crop Title.bosch.name dataset demand.rows demand.columns)

theorem isCareful_table (site : Site) (rows : Nat) : (site.table rows).IsCareful :=
  (Fetch.isCareful_unpack site.archive .sound).bind fun path => isCareful_readTable _ rows path

theorem isCareful_build (site : Site) (demand : Demand) (tables : TableFormat) :
    (site.build demand tables).IsCareful := by
  apply (site.isCareful_table demand.rows).bind
  intro dataset
  apply (Snapshot.isCareful_write site.cache _ dataset tables .sound).bind
  exact fun _ => isCareful_liftM _

/-- The whole of what a call does that can be answered. -/
theorem perform_of_checked (checked : call.demand.parameters.check .bosch = .ok ()) :
    site.perform call start =
      if start.store.has (site.snapshot call.demand.rows) then
        match (Snapshot.read (site.snapshot call.demand.rows) call.services.tables).run.run
          start with
        | (.ok dataset, after) =>
            (Snapshot.crop Title.bosch.name dataset call.demand.rows call.demand.columns, after)
        | (.error fault, after) => (.error fault, after)
      else
        match (loadBosch (site.context call) call.demand.rows).run.run start with
        | (.error fault, after) => (.error fault, after)
        | (.ok dataset, loaded) =>
            match (Snapshot.write site.cache (site.snapshot call.demand.rows) dataset
              call.services.tables).run.run loaded with
            | (.ok (), after) =>
                (Snapshot.crop Title.bosch.name dataset call.demand.rows call.demand.columns, after)
            | (.error fault, after) => (.error fault, after) := by
  unfold perform bosch
  rw [run_keep, checked]
  exact Snapshot.run_load site.cache Title.bosch.name _ _ _ call.services.tables .sound start

theorem perform_of_archive (checked : call.demand.parameters.check .bosch = .ok ())
    (fresh : start.store.has (site.snapshot call.demand.rows) = false)
    (obtained : (boschArchive (site.context call)).run.run start = (.ok site.archive, middle)) :
    site.perform call start =
      (site.build call.demand call.services.tables).run.run middle := by
  have loads : (loadBosch (site.context call) call.demand.rows).run.run start =
      (site.table call.demand.rows).run.run middle := by
    unfold loadBosch
    rw [run_bind, obtained]
    rfl
  rw [perform_of_checked checked, if_neg (Bool.eq_false_iff.mp fresh), loads]
  unfold build
  rw [run_bind]
  rcases (site.table call.demand.rows).run.run middle with ⟨fault | dataset, loaded⟩
  · rfl
  · simp only
    rw [run_bind]
    rcases (Snapshot.write site.cache (site.snapshot call.demand.rows) dataset
      call.services.tables).run.run loaded with ⟨fault | done, after⟩ <;> rfl

theorem perform_of_fault (checked : call.demand.parameters.check .bosch = .ok ())
    (fresh : start.store.has (site.snapshot call.demand.rows) = false) {fault : Fault}
    (failed : (boschArchive (site.context call)).run.run start = (.error fault, after)) :
    site.perform call start = (.error fault, after) := by
  have loads : (loadBosch (site.context call) call.demand.rows).run.run start =
      (.error fault, after) := by
    unfold loadBosch
    rw [run_bind, failed]
  rw [perform_of_checked checked, if_neg (Bool.eq_false_iff.mp fresh), loads]

inductive Goes (site : Site) (call : Call) (start : World) : Except Fault Dataset × World → Prop
    where
  | idle {result : Except Fault Dataset} (usable : ¬ site.Lacks call start.store) :
      Goes site call start (result, start)
  | refused {fault : Fault} {refusal : Refusal} (lacks : site.Lacks call start.store)
      (refused : start.store.ensureDirectory site.cache = .error refusal) :
      Goes site call start
        (.error fault, { start with store := start.store.begunDirectory site.cache })
  | failed {opened : Store} (lacks : site.Lacks call start.store)
      (opens : start.store.ensureDirectory site.cache = .ok opened)
      (ended : (site.launch call opened).2.succeeded = false) :
      Goes site call start
        (.error (.externalCommand (site.command call).text (site.launch call opened).2.text),
          site.left call opened start.journal)
  | used (found : start.store.has site.archive = true ∨ start.store.has site.file = true) :
      Goes site call start ((site.build call.demand call.services.tables).run.run start)
  | launched {opened : Store} (lacks : site.Lacks call start.store)
      (opens : start.store.ensureDirectory site.cache = .ok opened)
      (ended : (site.launch call opened).2.succeeded = true) :
      Goes site call start
        ((site.build call.demand call.services.tables).run.run
          (site.left call opened start.journal))

theorem goes (site : Site) (call : Call) (start : World) :
    site.Goes call start (site.perform call start) := by
  cases checked : call.demand.parameters.check .bosch with
  | error fault =>
      have usable : ¬ site.Lacks call start.store := by
        intro lacks
        rw [(check_bosch_eq_ok_iff _).mpr ⟨lacks.noCenters, lacks.noClasses⟩] at checked
        cases checked
      unfold perform bosch
      rw [run_keep, checked]
      exact .idle usable
  | ok done =>
      cases stored : start.store.has (site.snapshot call.demand.rows) with
      | true =>
          have usable : ¬ site.Lacks call start.store := by
            intro lacks
            rw [lacks.noSnapshot] at stored
            cases stored
          have unmoved :=
            Snapshot.run_read (site.snapshot call.demand.rows) call.services.tables start
          rw [perform_of_checked checked, if_pos stored]
          rcases run : (Snapshot.read (site.snapshot call.demand.rows)
            call.services.tables).run.run start with ⟨read, after⟩
          obtain rfl : after = start := (congrArg Prod.snd run).symm.trans unmoved
          cases read with
          | error fault => exact .idle usable
          | ok dataset => exact .idle usable
      | false =>
          have obtains := site.obtains call start
          obtain ⟨noCenters, noClasses⟩ := (check_bosch_eq_ok_iff _).mp checked
          generalize run : (boschArchive (site.context call)).run.run start = result at obtains
          cases obtains with
          | there found =>
              rw [perform_of_archive checked stored run]
              exact .used found
          | refused noArchive noFile refused =>
              rw [perform_of_fault checked stored run]
              exact .refused ⟨noCenters, noClasses, stored, noArchive, noFile⟩ refused
          | failed noArchive noFile opens ended =>
              rw [perform_of_fault checked stored run]
              exact .failed ⟨noCenters, noClasses, stored, noArchive, noFile⟩ opens ended
          | launched noArchive noFile opens ended =>
              rw [perform_of_archive checked stored run]
              exact .launched ⟨noCenters, noClasses, stored, noArchive, noFile⟩ opens ended

/-! What stays. -/

theorem Stands.retains {scratch : Set Location} {before after : Store} (stands : site.Stands before)
    (retains : before.Retains scratch after) : site.Stands after :=
  retains.toSpares.ensureDirectory stands

/-- An archive of an unknown kind is not even looked at. -/
theorem has_archive_of_build (demand : Demand) (tables : TableFormat)
    (there : start.store.has site.archive = true) :
    ((site.build demand tables).run.run start).2.store.has site.archive = true := by
  cases decoded : Codec.ofPath site.archive with
  | error fault =>
      have failed : (site.build demand tables).run.run start = (.error fault, start) := by
        unfold build table Fetch.unpack
        rw [decoded]
        rfl
      rwa [failed]
  | ok codec =>
      exact ((site.isCareful_build demand tables).retains start).has there
        (Codec.place_notMem_unfinished decoded _)

theorem table_snd_of_file (rows : Nat) (there : start.store.has site.file = true) :
    ((site.table rows).run.run start).2 = start := by
  cases decoded : Codec.ofPath site.archive with
  | error fault =>
      unfold table Fetch.unpack
      rw [decoded]
      rfl
  | ok codec =>
      have brought : start.store.has site.archive.withoutExtension = true := there
      unfold table
      rw [run_bind, Fetch.run_unpack decoded, provide_of_has brought]
      exact readTable_snd _ rows _ start

/-- Either the cache directory is there, or it is not needed. -/
def Stocked (site : Site) (store : Store) : Prop :=
  site.Stands store ∨ store.has site.archive = true ∨ store.has site.file = true

theorem stocked_write (path : Path) (dataset : Dataset) (tables : TableFormat)
    (stocked : site.Stocked start.store) :
    site.Stocked ((Snapshot.write site.cache path dataset tables).run.run start).2.store := by
  rw [Snapshot.run_write]
  cases opens : start.store.ensureDirectory site.cache with
  | error refusal =>
      have spares := (start.store.opens_begunDirectory site.cache).spares ∅
      rcases stocked with stands | there | there
      · cases stands.symm.trans opens
      · exact .inr (.inl (spares.has there (Set.notMem_empty _)))
      · exact .inr (.inr (spares.has there (Set.notMem_empty _)))
  | ok opened =>
      have careful := isCareful_writeWhole
        (Snapshot.isCareful_encoded path dataset tables .sound) path .sound
      have written := careful.retains { start with store := opened }
      exact .inl (written.toSpares.ensureDirectory opens)

theorem stocked_build (demand : Demand) (tables : TableFormat)
    (stocked : site.Stocked start.store) :
    site.Stocked ((site.build demand tables).run.run start).2.store := by
  rcases stocked with stands | there | there
  · exact .inl (stands.retains ((site.isCareful_build demand tables).retains start))
  · exact .inr (.inl (has_archive_of_build demand tables there))
  · have unmoved := table_snd_of_file demand.rows there
    unfold build
    rw [run_bind]
    rcases run : (site.table demand.rows).run.run start with ⟨fault | dataset, loaded⟩
    · obtain rfl : loaded = start := (congrArg Prod.snd run).symm.trans unmoved
      exact .inr (.inr there)
    · obtain rfl : loaded = start := (congrArg Prod.snd run).symm.trans unmoved
      have stocked := stocked_write (site.snapshot demand.rows) dataset tables (.inr (.inr there))
      simp only
      rw [run_bind]
      rcases written : (Snapshot.write site.cache (site.snapshot demand.rows) dataset
        tables).run.run loaded with ⟨fault | done, after⟩
      · rwa [written] at stocked
      · rwa [written] at stocked

/-- The cache directory can be made, or it is not needed. -/
def Settled (site : Site) (store : Store) : Prop :=
  (∃ opened, store.ensureDirectory site.cache = .ok opened) ∨
    store.has site.archive = true ∨ store.has site.file = true

theorem Stocked.settled {store : Store} (stocked : site.Stocked store) : site.Settled store :=
  stocked.imp_left fun stands => ⟨store, stands⟩

theorem Lacks.exists_opened (lacks : site.Lacks call start.store)
    (settled : site.Settled start.store) :
    ∃ opened, start.store.ensureDirectory site.cache = .ok opened := by
  rcases settled with opens | there | there
  · exact opens
  · rw [lacks.noArchive] at there
    cases there
  · rw [lacks.noFile] at there
    cases there

theorem Keeps.stands (keeps : site.Keeps call) {before opened : Store}
    (opens : before.ensureDirectory site.cache = .ok opened) :
    site.Stands (site.launch call opened).1 :=
  keeps opened ((Store.Spares.refl ∅ opened).ensureDirectory opens)

theorem settled_perform (settled : site.Settled start.store) (keeps : site.Keeps call) :
    site.Settled (site.perform call start).2.store := by
  have goes := site.goes call start
  generalize site.perform call start = result at goes
  cases goes with
  | idle usable => exact settled
  | refused lacks refused =>
      obtain ⟨opened, opens⟩ := lacks.exists_opened settled
      cases opens.symm.trans refused
  | failed lacks opens ended => exact .inl ⟨_, keeps.stands opens⟩
  | used found => exact (stocked_build call.demand call.services.tables (.inr found)).settled
  | @launched opened lacks opens ended =>
      have stocked : site.Stocked (site.left call opened start.journal).store :=
        .inl (keeps.stands opens)
      exact (stocked_build call.demand call.services.tables stocked).settled

theorem has_archive_of_perform (there : start.store.has site.archive = true) :
    (site.perform call start).2.store.has site.archive = true := by
  have goes := site.goes call start
  generalize site.perform call start = result at goes
  cases goes with
  | idle usable => exact there
  | used found => exact has_archive_of_build call.demand call.services.tables there
  | refused lacks | failed lacks | launched lacks => exact absurd there (by simp [lacks.noArchive])

theorem performs (call : Call) (settled : site.Settled start.store) :
    site.Performs call start (site.perform call start) := by
  have goes := site.goes call start
  generalize site.perform call start = result at goes
  cases goes with
  | idle usable => exact .spared usable rfl
  | refused lacks refused =>
      obtain ⟨opened, opens⟩ := lacks.exists_opened settled
      cases opens.symm.trans refused
  | failed lacks opens ended => exact .failed lacks opens ended
  | used found =>
      have usable : ¬ site.Lacks call start.store := by
        rintro ⟨_, _, _, noArchive, noFile⟩
        simp [noArchive, noFile] at found
      exact .spared usable ((site.isCareful_build call.demand call.services.tables).journal start)
  | launched lacks opens ended =>
      exact .launched lacks opens ended
        ((site.isCareful_build call.demand call.services.tables).journal _)

theorem Delivers.has (delivers : site.Delivers call start) :
    (site.perform call start).2.store.has site.archive = true := by
  obtain ⟨lacks, opened, opens, there⟩ := delivers
  have goes := site.goes call start
  generalize site.perform call start = result at goes
  cases goes with
  | idle usable => exact absurd lacks usable
  | refused _ refused => cases opens.symm.trans refused
  | used found => simp [lacks.noArchive, lacks.noFile] at found
  | failed _ opens' ended =>
      cases opens.symm.trans opens'
      exact there
  | launched _ opens' ended =>
      cases opens.symm.trans opens'
      exact has_archive_of_build call.demand call.services.tables there

/-! Calls one after the other. -/

theorem run_append (site : Site) (before after : List Call) (start : World) :
    site.run (before ++ after) start = site.run after (site.run before start) :=
  List.foldl_append

theorem settled_run {calls : List Call} (settled : site.Settled start.store)
    (keeps : ∀ call ∈ calls, site.Keeps call) : site.Settled (site.run calls start).store := by
  induction calls generalizing start with
  | nil => exact settled
  | cons call calls inductionHypothesis =>
      apply inductionHypothesis
      · exact settled_perform settled (keeps call List.mem_cons_self)
      · exact fun other member => keeps other (List.mem_cons_of_mem call member)

/-- Where the archive is, no call runs the command. -/
theorem journal_run_of_archive (calls : List Call)
    (there : start.store.has site.archive = true) :
    (site.run calls start).journal = start.journal := by
  induction calls generalizing start with
  | nil => rfl
  | cons call calls inductionHypothesis =>
      have performs := performs call (.inr (.inl there))
      have same : (site.perform call start).2.journal = start.journal := by
        generalize site.perform call start = result at performs
        cases performs with
        | spared usable journal => exact journal
        | failed lacks | launched lacks => exact absurd there (by simp [lacks.noArchive])
      exact (inductionHypothesis (has_archive_of_perform there)).trans same

/-- Along calls on a cache directory that can be made, each call runs the command if and only if
nothing that it could use is there, and once the command brought the archive it never runs
again. -/
theorem performs_run {calls before after : List Call} (opens : ∃ opened,
      start.store.ensureDirectory site.cache = .ok opened)
    (keeps : ∀ call ∈ calls, site.Keeps call) (split : calls = before ++ call :: after) :
    site.Performs call (site.run before start) (site.perform call (site.run before start)) ∧
      (site.Delivers call (site.run before start) →
        (site.run calls start).journal =
          (site.perform call (site.run before start)).2.journal) := by
  constructor
  · apply performs
    apply settled_run (.inl opens)
    exact fun other member => keeps other (split ▸ List.mem_append_left _ member)
  · intro delivers
    rw [split, run_append]
    exact journal_run_of_archive after delivers.has

/-- A store after these bytes, if any, were put where the archive belongs. -/
def leave (site : Site) (bytes? : Option Bytes) (store : Store) : Store :=
  match bytes? with
  | none => store
  | some bytes => (store.write site.archive bytes).toOption.getD store

/-- Services without downloads, and with a command that leaves these bytes and ends like this. -/
def leaving (site : Site) (bytes? : Option Bytes) (outcome : Outcome)
    (tables : TableFormat := .packed) : Services where
  download _ := ⟨[], none⟩
  launch _ store := (site.leave bytes? store, outcome)
  tables := tables

theorem keeps_leaving (site : Site) (demand : Demand) (bytes? : Option Bytes) (outcome : Outcome) :
    site.Keeps ⟨demand, site.leaving bytes? outcome⟩ := by
  intro store stands
  cases bytes? with
  | none => exact stands
  | some bytes =>
      change site.Stands ((store.write site.archive bytes).toOption.getD store)
      cases written : store.write site.archive bytes with
      | error refusal => exact stands
      | ok after => exact stands.retains (Store.retains_write written ∅)

/-- An empty archive is brought by the first of two calls, and neither can use it. -/
theorem performs_run_of_two_calls :
    let site : Site := ⟨.ofString "c", {}⟩
    let services := site.leaving (some []) (.exited 0)
    let first : Call := ⟨⟨0, 0, 0, {}⟩, services⟩
    let second : Call := ⟨⟨5, 0, 0, {}⟩, services⟩
    let start : World := ⟨⟨[], []⟩, []⟩
    let before := site.run [first] start
    site.Delivers first start ∧ site.Performs second before (site.perform second before) ∧
      (site.run [first, second] start).journal = [.launched (site.command first)] := by
  intro site services first second start before
  have opens : ∃ opened, start.store.ensureDirectory site.cache = .ok opened := ⟨_, rfl⟩
  have keeps : ∀ call ∈ [first, second], site.Keeps call := by
    intro call member
    rcases List.mem_pair.mp member with rfl | rfl
    · exact site.keeps_leaving _ _ _
    · exact site.keeps_leaving _ _ _
  have lacks : site.Lacks first start.store :=
    ⟨rfl, rfl, by decide +kernel, by decide +kernel, by decide +kernel⟩
  have delivers : site.Delivers first start := ⟨lacks, _, rfl, by decide +kernel⟩
  have split : [first, second] = [] ++ first :: [second] := rfl
  have split' : [first, second] = [first] ++ second :: [] := rfl
  refine ⟨delivers, (performs_run opens keeps split').1, ?_⟩
  rw [(performs_run opens keeps split).2 delivers]
  decide +kernel

end Site

end DatasetDepot.Published
