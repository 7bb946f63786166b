import DatasetDepot.Proofs.Fetch.Effect

/-!
Archives are downloaded at most once.

Along a run of fetches into one directory, whatever was there at first and whatever comes of the
downloads, finished files stay.  Main statement: an address that was fetched once is fetched
again without doing anything, and a download is only asked for again, by the same name, when the
one before failed.
-/

namespace DatasetDepot.Fetch

/-- A fetch of an address, while the services are these. -/
structure Call where
  services : Services
  url : String

namespace Call

/-- What a call gives, and the world it leaves. -/
def perform (cache : Path) (call : Call) (start : World) : Except Fault Path × World :=
  (fetch call.services cache call.url).run.run start

/-- Whether a call asks for a download. -/
def asks (cache : Path) (call : Call) (start : World) : Bool :=
  (call.perform cache start).2.journal ≠ start.journal

/-- Whether the download fails that a call may ask for. -/
def Fails (call : Call) : Prop := (call.services.download call.url).failure? ≠ none

def name? (call : Call) : Option Name := nameOf? call.url.toList

end Call

/-- The world that calls leave, one after the other. -/
def run (cache : Path) (calls : List Call) (start : World) : World :=
  calls.foldl (fun world call => (call.perform cache world).2) start

/-- The calls of a run that ask for a download. -/
def requests (cache : Path) : List Call → World → List Call
  | [], _ => []
  | call :: calls, start =>
      if call.asks cache start then call :: requests cache calls (call.perform cache start).2
      else requests cache calls (call.perform cache start).2

variable {cache : Path} {call : Call} {start : World}

theorem run_append (before after : List Call) :
    run cache (before ++ after) start = run cache after (run cache before start) :=
  List.foldl_append

/-! One call. -/

theorem spares_perform (cache : Path) (call : Call) (start : World) :
    Store.Spares (scratch (cache.place start.store.base)) start.store
      (call.perform cache start).2.store :=
  (fetches call.services cache call.url .sound start).spares

theorem asks_eq_false_iff :
    call.asks cache start = false ↔ (call.perform cache start).2.journal = start.journal := by
  simp [Call.asks]

theorem journal_perform (cache : Path) (call : Call) (start : World) :
    (call.perform cache start).2.journal =
      start.journal ++ if call.asks cache start then [.downloaded call.url] else [] := by
  cases asks : call.asks cache start with
  | false => exact (asks_eq_false_iff.mp asks).trans (List.append_nil _).symm
  | true =>
      rcases (fetches call.services cache call.url .sound start).journal with same | ⟨asked, _⟩
      · rw [asks_eq_false_iff.mpr same] at asks
        cases asks
      · exact asked

theorem exists_name_of_asks (asks : call.asks cache start = true) :
    ∃ name, IsArchiveOf cache call.url name ∧ start.store.has (cache.join name) = false ∧
      (¬ call.Fails → (call.perform cache start).2.store.has (cache.join name) = true) := by
  rcases (fetches call.services cache call.url .sound start).journal with
    same | ⟨_, name, isArchive, rest⟩
  · rw [asks_eq_false_iff.mpr same] at asks
    cases asks
  · exact ⟨name, isArchive, rest.1, fun came => rest.2 (not_not.mp came)⟩

/-! Runs. -/

theorem spares_run (cache : Path) (calls : List Call) (start : World) :
    Store.Spares (scratch (cache.place start.store.base)) start.store
      (run cache calls start).store := by
  induction calls generalizing start with
  | nil => exact Store.Spares.refl _ _
  | cons call calls inductionHypothesis =>
      have first := spares_perform cache call start
      have rest := inductionHypothesis (call.perform cache start).2
      rw [first.base] at rest
      exact first.trans rest

theorem journal_run (cache : Path) (calls : List Call) (start : World) :
    (run cache calls start).journal =
      start.journal ++ (requests cache calls start).map fun call => .downloaded call.url := by
  induction calls generalizing start with
  | nil => exact (List.append_nil _).symm
  | cons call calls inductionHypothesis =>
      have rest := inductionHypothesis (call.perform cache start).2
      rw [journal_perform] at rest
      rw [requests]
      refine rest.trans ?_
      cases call.asks cache start with
      | true => simp
      | false => simp

theorem name?_ne_of_mem_requests {url : String} {name : Name} {calls : List Call}
    (isArchive : IsArchiveOf cache url name) (there : start.store.has (cache.join name) = true) :
    ∀ call ∈ requests cache calls start, call.name? ≠ some name := by
  induction calls generalizing start with
  | nil => simp [requests]
  | cons first calls inductionHypothesis =>
      have rest := inductionHypothesis (isArchive.has there (spares_perform cache first start))
      rw [requests]
      cases asks : first.asks cache start with
      | false => exact rest
      | true =>
          intro call member same
          rcases List.mem_cons.mp member with rfl | later
          · obtain ⟨other, ⟨named, _⟩, absent, _⟩ := exists_name_of_asks asks
            rw [show call.name? = _ from named, Option.some.injEq] at same
            rw [same, there] at absent
            cases absent
          · exact rest call later same

/-- Of two downloads for one name that are asked for, the earlier fails. -/
theorem pairwise_requests (cache : Path) (calls : List Call) (start : World) :
    (requests cache calls start).Pairwise fun earlier later =>
      earlier.name? = later.name? → earlier.Fails := by
  induction calls generalizing start with
  | nil => exact List.Pairwise.nil
  | cons call calls inductionHypothesis =>
      rw [requests]
      cases asks : call.asks cache start with
      | false => exact inductionHypothesis _
      | true =>
          refine List.Pairwise.cons (fun later member same => ?_) (inductionHypothesis _)
          obtain ⟨name, isArchive, _, came⟩ := exists_name_of_asks asks
          by_contra succeeded
          exact name?_ne_of_mem_requests isArchive (came succeeded) later member
            (same.symm.trans isArchive.named)

/-- Whether this name is asked for and the download comes. -/
def Call.brings (name : Name) (call : Call) : Bool :=
  call.name? = some name && (call.services.download call.url).failure?.isNone

/-- At most one of the downloads that are asked for by one name comes. -/
theorem length_filter_requests_le (cache : Path) (calls : List Call) (start : World) (name : Name) :
    ((requests cache calls start).filter (Call.brings name)).length ≤ 1 := by
  have pairwise := (pairwise_requests cache calls start).filter (Call.brings name)
  cases brought : (requests cache calls start).filter (Call.brings name) with
  | nil => simp
  | cons first rest =>
      cases rest with
      | nil => simp
      | cons second rest =>
          have brings : ∀ call ∈ first :: second :: rest,
              call.name? = some name ∧ (call.services.download call.url).failure? = none := by
            intro call member
            rw [← brought] at member
            simpa [Call.brings] using (List.mem_filter.mp member).2
          rw [brought] at pairwise
          have failed := List.rel_of_pairwise_cons pairwise (List.mem_cons_self (a := second))
          obtain ⟨named, came⟩ := brings first (by simp)
          exact absurd came (failed (named.trans (brings second (by simp)).1.symm))

/-- An address that was fetched once in a run is fetched again, after it, without doing anything,
and gives the same path, unless its file is named like something unfinished. -/
theorem run_fetch_again {calls before after : List Call} {path : Path}
    (split : calls = before ++ call :: after)
    (finished : ∀ name, call.name? = some name → ¬ IsUnfinished name)
    (given : (call.perform cache (run cache before start)).1 = .ok path) (services : Services) :
    (fetch services cache call.url).run.run (run cache calls start) =
      (.ok path, run cache calls start) := by
  obtain ⟨name, fetched, rfl⟩ :=
    (fetches call.services cache call.url .sound (run cache before start)).fetched given
  have spares := spares_run cache after (call.perform cache (run cache before start)).2
  rw [split, run_append]
  exact (fetched.spares (finished name fetched.named) spares).run_fetch services

/-- What a run of fetches into one directory comes to. -/
structure IsOnce (cache : Path) (calls : List Call) (start : World) : Prop where
  /-- What was fetched is fetched again, after the run, without doing anything. -/
  again : ∀ before call after path, calls = before ++ call :: after →
    (∀ name, call.name? = some name → ¬ IsUnfinished name) →
      (call.perform cache (run cache before start)).1 = .ok path →
        ∀ services, (fetch services cache call.url).run.run (run cache calls start) =
          (.ok path, run cache calls start)
  /-- Only these downloads are asked for. -/
  journal : (run cache calls start).journal =
    start.journal ++ (requests cache calls start).map fun call => .downloaded call.url
  /-- Each is only asked for after all earlier ones by the same name failed. -/
  failed : (requests cache calls start).Pairwise fun earlier later =>
    earlier.name? = later.name? → earlier.Fails
  /-- At most one by each name comes. -/
  once : ∀ name, ((requests cache calls start).filter (Call.brings name)).length ≤ 1

/-- Archives are downloaded at most once, and what was fetched stays. -/
theorem isOnce_run (cache : Path) (calls : List Call) (start : World) :
    IsOnce cache calls start where
  again _ _ _ _ split finished given := run_fetch_again split finished given
  journal := journal_run cache calls start
  failed := pairwise_requests cache calls start
  once := length_filter_requests_le cache calls start

/-- An address whose files are there, a download that fails, and one that comes and is no archive:
the third is not asked for again, and the first file stays. -/
theorem isOnce_run_of_four_calls :
    let failing : Services := {
      download := fun _ => ⟨[], some "offline"⟩
      launch := fun _ store => (store, .exited 0) }
    let bringing : Services := { failing with download := fun _ => ⟨[0], none⟩ }
    let stored : Call := ⟨failing, "http://host/y.gz"⟩
    let calls : List Call := [stored, ⟨failing, "http://host/x.gz"⟩,
      ⟨bringing, "http://host/x.gz"⟩, ⟨bringing, "http://other/x.gz"⟩]
    let cache := Path.ofString "c"
    let start : World := ⟨⟨[], [([['c']], .directory), ([['c'], ['y', '.', 'g', 'z']], .file [0]),
      ([['c'], ['y']], .file [1])]⟩, []⟩
    (requests cache calls start).length = 2 ∧
      ∀ services, (fetch services cache stored.url).run.run (run cache calls start) =
        (.ok (.ofString "c/y"), run cache calls start) := by
  intro failing bringing stored calls cache start
  have fetched : Fetched cache stored.url ['y', '.', 'g', 'z'] start.store :=
    ⟨⟨by decide, .gzip, by decide⟩, by rfl, by decide, by decide⟩
  have target : (cache.join ['y', '.', 'g', 'z']).withoutExtension = .ofString "c/y" := by decide
  have given : (stored.perform cache start).1 = .ok (.ofString "c/y") := by
    rw [← target]
    exact congrArg Prod.fst (fetched.run_fetch failing)
  have finished : ∀ name, stored.name? = some name → ¬ IsUnfinished name := by
    rintro name named ⟨before, ending, some, _, rfl⟩
    have length := congrArg List.length (Option.some.inj (fetched.named.symm.trans named))
    have more := List.length_pos_iff.mpr some
    simp [Name.mark] at length
    omega
  exact ⟨by decide, (isOnce_run cache calls start).again [] stored _ _ rfl finished given⟩

end DatasetDepot.Fetch
