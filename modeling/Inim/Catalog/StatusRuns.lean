import Inim.Catalog.StatusHistory

/-!
# When the derived status is the documented one

`StepsOk` says of each step of a history what the tables need: a row that is dated is listed by its
text where it belongs in time, a new manifest text brings a new plan text, and a run is stored only
while its plan's manifest is imported with the snapshot its revision names. Then plans and manifest
revisions go in lockstep (`Sound.rows`), every run points to what it was made from (`Sound.runs`), and
the listings start with the latest rows, so the derived status is the documented one after every step
(`statusFollows_of_stepsOk`).

* **Bug**: the ticket changes, its manifest does not. The import finds the revision by its hash, with
  the *first* snapshot it was imported with, and a run of its plan stays `Stale`, whenever it is made
  (`rerun_stays_stale`).
* **Bug**: a manifest edited in what the plan's text leaves out finds the plan of the earlier
  revision, to the same effect.
* **Bug**: times are compared as texts, and times of one text in no particular order.
-/

namespace Inim

open Inim.Lib

section History

variable (env : HistoryEnv)

/-! ## The condition -/

/-- The texts of a step's manifest. -/
def HistoryOp.manifestText : HistoryOp → Option String
  | .manifest _ m => some m.input.payload
  | .payload _ | .publish _ | .record _ => none

/-- The statuses a run is stored with. -/
def runStatuses : List String := ["Running", "Complete", "Failed", "Incomplete"]

/-- Condition on a step, in terms of the rows it adds. -/
structure StepOk (s : Ledger) (op : HistoryOp) : Prop where
  /-- A snapshot is listed before the latest one if it is as late, else after it. -/
  snapshot : ∀ x, (s.step env op).tables.snapshots = s.tables.snapshots ++ [x] →
    Fits (fun r => env.instant r.1.fetchedAt) (fun r => r.1.fetchedAt)
      (rowsOf EventSnapshot.eventId x.eventId s.tables.snapshots) (x, s.tables.snapshots.length)
  /-- A new manifest revision comes with a new plan. -/
  plan : ∀ x, (s.step env op).tables.manifestRevisions = s.tables.manifestRevisions ++ [x] →
    (s.step env op).tables.plans ≠ s.tables.plans
  /-- A manifest text whose hash is stored is the stored text. -/
  text : ∀ text, op.manifestText = some text → ∀ rev ∈ s.tables.manifestRevisions,
    rev.sha256 = env.imports.sha256 text → rev.payload = text
  /-- A run starts no earlier than the latest run of its event, and is listed before it. -/
  order : ∀ r, (s.step env op).runs.runs = s.runs.runs ++ [r] → ∀ event,
    eventOfPlan (s.step env op).tables r.planId = some event → ∀ l, s.latestRun env event = some l →
    env.instant l.1.startedAt ≤ env.instant r.startedAt ∧ l.1.startedAt < r.startedAt
  status : ∀ r, (s.step env op).runs.runs = s.runs.runs ++ [r] → r.status ∈ runStatuses
  /-- The plan's manifest was last imported with the snapshot that its revision names. -/
  source : ∀ r, (s.step env op).runs.runs = s.runs.runs ++ [r] → ∀ p rev,
    (s.step env op).tables.plans[r.planId]? = some p →
    (s.step env op).tables.manifestRevisions[p.manifestRevisionId]? = some rev →
    (sourceOf (s.step env op).imported r.planId).map Prod.snd = some rev.snapshotId

/-! ## What a step adds -/

section Added

theorem insertUnique_cases {α κ : Type} [DecidableEq κ] (key : α → κ) (row : α) (t : List α) :
    (insertUnique key row t).1 = t ∧ (∃ i a, t[i]? = some a ∧ key a = key row ∧
        (insertUnique key row t).2 = i) ∨
      (insertUnique key row t).1 = t ++ [row] ∧ (∀ a ∈ t, key a ≠ key row) ∧
        (insertUnique key row t).2 = t.length := by
  unfold insertUnique
  cases hf : t.findIdx? fun a => decide (key a = key row) with
  | some i =>
    obtain ⟨hlt, hkey, -⟩ := List.findIdx?_eq_some_iff_getElem.1 hf
    exact .inl ⟨rfl, i, _, List.getElem?_eq_getElem hlt, by simpa using hkey, rfl⟩
  | none =>
    refine .inr ⟨rfl, fun a ha => ?_, rfl⟩
    simpa using List.findIdx?_eq_none_iff.1 hf a ha

theorem insertUnique_eq_or_concat {α κ : Type} [DecidableEq κ] (key : α → κ) (row : α) (t : List α) :
    (insertUnique key row t).1 = t ∨ ∃ x, (insertUnique key row t).1 = t ++ [x] := by
  rcases insertUnique_cases key row t with ⟨h, -⟩ | ⟨h, -⟩
  · exact .inl h
  · exact .inr ⟨row, h⟩

variable {env}

theorem upsertEvent_manifests (c : CatalogTables) (kind ext seen : String) :
    (upsertEvent c kind ext seen).1.manifestRevisions = c.manifestRevisions ∧
      (upsertEvent c kind ext seen).1.plans = c.plans := by
  unfold upsertEvent
  split <;> exact ⟨rfl, rfl⟩

theorem storePayload_manifests (senv : SyncEnv) (c : CatalogTables) (f : Fetched) :
    (storePayload senv c f).manifestRevisions = c.manifestRevisions ∧
      (storePayload senv c f).plans = c.plans :=
  upsertEvent_manifests c _ _ _

variable (env) in
/-- What a step does to the catalog's tables. -/
theorem step_tables (s : Ledger) (op : HistoryOp) :
    ((s.step env op).imported = s.imported ∧ ((s.step env op).tables = s.tables ∨
        ∃ f, (s.step env op).tables = storePayload env.sync s.tables f)) ∨
      ∃ i m, op.manifestText = some i.payload ∧ loadManifest env.imports i = .ok m ∧
        (s.step env op).tables = (writeManifest env.imports s.tables m i).1 ∧
        (s.step env op).imported = s.imported ++ [(writeManifest env.imports s.tables m i).2] := by
  cases op with
  | payload f => exact .inl ⟨rfl, .inr ⟨f, rfl⟩⟩
  | publish p => exact .inl ⟨rfl, .inl rfl⟩
  | record r =>
    left
    unfold Ledger.step
    dsimp only
    split <;> exact ⟨rfl, .inl rfl⟩
  | manifest cmd m =>
    cases h : importManifest env.imports env.files cmd (s.tables, s.runs) m with
    | error e =>
      have hstep : s.step env (.manifest cmd m) = s := by rw [Ledger.step, h]
      rw [hstep]
      exact .inl ⟨rfl, .inl rfl⟩
    | ok q =>
      have hstep : s.step env (.manifest cmd m) = { s with
          tables := q.1
          imported := s.imported ++ (importedIds env.imports s.tables m).toList }.setRuns q.2 := by
        rw [Ledger.step, h]
      rw [hstep]
      obtain ⟨man, hload, h⟩ := importManifest_cases h
      rcases h with ⟨hex, rfl⟩ | ⟨hex, htables, -⟩
      · refine .inl ⟨?_, .inl rfl⟩
        simp [Ledger.setRuns, importedIds, hload, hex]
      · refine .inr ⟨m.input, man, rfl, hload, htables, ?_⟩
        simp [Ledger.setRuns, importedIds, hload, hex]

variable (env) in
theorem step_snapshots (s : Ledger) (op : HistoryOp) :
    (s.step env op).tables.snapshots = s.tables.snapshots ∨
      ∃ x, (s.step env op).tables.snapshots = s.tables.snapshots ++ [x] := by
  rcases step_tables env s op with ⟨-, h | ⟨f, h⟩⟩ | ⟨i, man, -, -, h, -⟩
  · exact .inl (by rw [h])
  · rw [h]
    unfold storePayload insertSnapshot
    dsimp only
    rw [upsertEvent_snapshots]
    exact insertUnique_eq_or_concat EventSnapshot.key _ _
  · rw [h, (writeManifest_parts env.imports s.tables man i).2.1]
    exact insertUnique_eq_or_concat _ _ _

/-! ### Runs -/

theorem setRuns_same {s : Ledger} {runs : RunTables} (h : runs.runs = s.runs.runs) :
    (s.setRuns runs).sources = s.sources := by
  simp [Ledger.setRuns, h]

theorem setRuns_concat {s : Ledger} {runs : RunTables} {r : AnalysisRun}
    (h : runs.runs = s.runs.runs ++ [r]) :
    (s.setRuns runs).sources = s.sources ++ [sourceOf s.imported r.planId] := by
  simp [Ledger.setRuns, h]

theorem insertRun_row {t u : RunTables} {plans id : Nat} {r : AnalysisRun}
    (h : t.insertRun plans r = .ok (u, id)) :
    u.runs = t.runs ∨ u.runs = t.runs ++ [r] ∧ r.planId < plans := by
  unfold RunTables.insertRun at h
  split at h
  · cases h
    exact .inl rfl
  · split at h
    · next hplan =>
      cases h
      exact .inr ⟨rfl, hplan⟩
    · cases h

theorem importFinalizedRun_plan {t u : RunTables} {files : List RunFile} {p : PublishInputs}
    {plans id : Nat} (h : importFinalizedRun env.files plans t files p = .ok (u, id)) :
    u.runs = t.runs ∨ ∃ r, u.runs = t.runs ++ [r] ∧ r.planId < plans := by
  obtain ⟨report, -, h⟩ := bind_ok h
  obtain ⟨⟨t', runId⟩, hins, h⟩ := bind_ok h
  obtain ⟨u', hchildren, h⟩ := bind_ok h
  cases h
  have hruns : u.runs = t'.runs := (importChildren_extends (fun a ha => by
    obtain ⟨f, -, rfl⟩ := List.mem_map.1 ha
    rfl) hchildren).runs
  rw [hruns]
  rcases insertRun_row (mapError_ok_iff.1 hins) with h | ⟨h, hplan⟩
  · exact .inl h
  · exact .inr ⟨_, h, hplan⟩

variable (env) in
theorem publishStagedRun_plan (c : RunCatalog) (p : Publication) :
    (publishStagedRun env.files c p).1.runs.runs = c.runs.runs ∨
      ∃ r, (publishStagedRun env.files c p).1.runs.runs = c.runs.runs ++ [r] ∧
        r.planId < c.tables.plans.length := by
  unfold publishStagedRun
  split
  · exact .inl rfl
  · split
    · exact .inl rfl
    · dsimp only
      split
      · next hok => exact importFinalizedRun_plan hok
      · exact .inl rfl

variable (env) in
/-- A step stores at most one run, with the source of its plan. -/
theorem step_runs (s : Ledger) (op : HistoryOp) :
    ((s.step env op).runs.runs = s.runs.runs ∧ (s.step env op).sources = s.sources) ∨
      ∃ r, (s.step env op).runs.runs = s.runs.runs ++ [r] ∧
        r.planId < (s.step env op).tables.plans.length ∧
        (s.step env op).sources = s.sources ++ [sourceOf (s.step env op).imported r.planId] := by
  cases op with
  | payload f => exact .inl ⟨rfl, rfl⟩
  | publish p =>
    rcases publishStagedRun_plan env ⟨s.tables, s.runs, s.finalDirs⟩ p with h | ⟨r, h, hplan⟩
    · exact .inl ⟨h, setRuns_same h⟩
    · exact .inr ⟨r, h, hplan, setRuns_concat h⟩
  | record r =>
    cases h : s.runs.insertRun s.tables.plans.length r with
    | error e =>
      have hstep : s.step env (.record r) = s := by rw [Ledger.step, h]
      rw [hstep]
      exact .inl ⟨rfl, rfl⟩
    | ok q =>
      have hstep : s.step env (.record r) = s.setRuns q.1 := by rw [Ledger.step, h]
      rw [hstep]
      rcases insertRun_row h with h | ⟨h, hplan⟩
      · exact .inl ⟨h, setRuns_same h⟩
      · exact .inr ⟨r, h, hplan, setRuns_concat h⟩
  | manifest cmd m =>
    cases h : importManifest env.imports env.files cmd (s.tables, s.runs) m with
    | error e =>
      have hstep : s.step env (.manifest cmd m) = s := by rw [Ledger.step, h]
      rw [hstep]
      exact .inl ⟨rfl, rfl⟩
    | ok q =>
      have hstep : s.step env (.manifest cmd m) = { s with
          tables := q.1
          imported := s.imported ++ (importedIds env.imports s.tables m).toList }.setRuns q.2 := by
        rw [Ledger.step, h]
      rw [hstep]
      obtain ⟨man, -, h⟩ := importManifest_cases h
      rcases h with ⟨-, rfl⟩ | ⟨-, htables, ⟨-, hruns⟩ | ⟨files, -, hrun⟩⟩
      · exact .inl ⟨rfl, setRuns_same rfl⟩
      · have hruns' : q.2.runs = s.runs.runs := by rw [hruns]
        exact .inl ⟨hruns', setRuns_same hruns'⟩
      · rcases importRun_row hrun with hruns | ⟨f, report, -, -, hruns⟩
        · exact .inl ⟨hruns, setRuns_same hruns⟩
        · refine .inr ⟨_, hruns, ?_, setRuns_concat hruns⟩
          -- the plan is the one just obtained
          show (writeManifest env.imports s.tables man m.input).2.plan < q.1.plans.length
          obtain ⟨-, -, -, hp, hids⟩ := writeManifest_parts env.imports s.tables man m.input
          rw [htables, hp, hids]
          exact (List.getElem?_eq_some_iff.1 (insertUnique_row AnalysisPlanRecord.sha256 _ _)).1

end Added

/-! ## The invariant -/

/-- The manifest revision `i` was read from its text, and plan `i` was built from it. -/
structure RevisionSound (ienv : ImportEnv) (c : CatalogTables) (i : Nat) (rev : ManifestRevision) :
    Prop where
  read : ∃ input m, input.payload = rev.payload ∧ loadManifest ienv input = .ok m ∧
    c.plans[i]? = some (buildPlanRecord ienv i m true) ∧
    rev.reviewStatus = if m.target.transitPredicate.isReady then "Reviewed" else "Unresolved"
  hash : rev.sha256 = ienv.sha256 rev.payload
  snapshot : ∃ sn, c.snapshots[rev.snapshotId]? = some sn ∧ sn.eventId = rev.eventId

structure Sound (s : Ledger) : Prop where
  lockstep : s.tables.plans.length = s.tables.manifestRevisions.length
  rows : ∀ i rev, s.tables.manifestRevisions[i]? = some rev →
    RevisionSound env.imports s.tables i rev
  planKeys : (s.tables.plans.map (·.sha256)).Nodup
  imported : ∀ ids ∈ s.imported, ids.plan = ids.manifestRevision
  obtained : ∀ p < s.tables.plans.length, ∃ ids ∈ s.imported, ids.plan = p
  sources : s.sources.length = s.runs.runs.length
  runs : ∀ (i : Nat) (r : AnalysisRun), s.runs.runs[i]? = some r → r.status ∈ runStatuses ∧
    ∃ rev : ManifestRevision, s.tables.manifestRevisions[r.planId]? = some rev ∧
      s.sources[i]? = some (some (r.planId, rev.snapshotId))
  snapshots : ∀ event, LeadsListing (fun r => env.instant r.1.fetchedAt) (fun r => r.1.fetchedAt)
    (rowsOf EventSnapshot.eventId event s.tables.snapshots)
  order : ∀ event, LeadsListing (fun r => env.instant r.1.startedAt) (fun r => r.1.startedAt)
    (s.eventRuns event)

section Invariant

variable {env} {s : Ledger}

theorem sound_empty : Sound env .empty where
  lockstep := rfl
  rows _ _ h := by cases h
  planKeys := List.nodup_nil
  imported _ h := by cases h
  obtained _ h := by cases h
  sources := rfl
  runs _ _ h := by cases h
  snapshots _ := .nil
  order _ := .nil

/-- The source of a plan that was imported as the plan of its own revision. -/
theorem sourceOf_fst {imported : List ImportedIds} {plan : Nat}
    (hids : ∀ ids ∈ imported, ids.plan = ids.manifestRevision)
    (hplan : ∃ ids ∈ imported, ids.plan = plan) :
    (sourceOf imported plan).map Prod.fst = some plan := by
  obtain ⟨ids, hmem, hp⟩ := hplan
  have hne : imported.filter (·.plan = plan) ≠ [] :=
    List.ne_nil_of_mem (List.mem_filter.2 ⟨hmem, decide_eq_true hp⟩)
  have hlast := List.mem_filter.1 (List.getLast_mem hne)
  rw [decide_eq_true_eq] at hlast
  unfold sourceOf
  rw [List.getLast?_eq_some_getLast hne, Option.map_some, Option.map_some, ← hids _ hlast.1, hlast.2]

theorem RevisionSound.grows {ienv : ImportEnv} {c c' : CatalogTables} {i : Nat}
    {rev : ManifestRevision} (h : RevisionSound ienv c i rev) (hsnap : c.snapshots <+: c'.snapshots)
    (hplans : c.plans <+: c'.plans) : RevisionSound ienv c' i rev := by
  obtain ⟨⟨input, m, hpayload, hload, hplan, hstatus⟩, hhash, sn, hsn, hevent⟩ := h
  exact ⟨⟨input, m, hpayload, hload, getElem?_of_initial hplans hplan, hstatus⟩, hhash, sn,
    getElem?_of_initial hsnap hsn, hevent⟩

namespace Sound
variable (h : Sound env s)
include h

/-- Plan `i` is a plan of revision `i`. -/
theorem plan_revision {i : Nat} {p : AnalysisPlanRecord} (hp : s.tables.plans[i]? = some p) :
    p.manifestRevisionId = i ∧ ∃ rev, s.tables.manifestRevisions[i]? = some rev := by
  have hi : i < s.tables.manifestRevisions.length :=
    h.lockstep ▸ (List.getElem?_eq_some_iff.1 hp).1
  obtain ⟨input, m, -, -, hplan, -⟩ := (h.rows i _ (List.getElem?_eq_getElem hi)).read
  rw [hp] at hplan
  exact ⟨by rw [Option.some.inj hplan]; rfl, _, List.getElem?_eq_getElem hi⟩

theorem eventOfPlan_eq (plan : Nat) :
    eventOfPlan s.tables plan = s.tables.manifestRevisions[plan]?.map (·.eventId) := by
  unfold eventOfPlan
  cases hp : s.tables.plans[plan]? with
  | none =>
    rw [List.getElem?_eq_none_iff, h.lockstep, ← List.getElem?_eq_none_iff] at hp
    rw [hp]
    rfl
  | some p => rw [Option.bind_some, (h.plan_revision hp).1]

end Sound

/-! ### A manifest -/

/-- An import finds both its revision and that revision's plan, or adds both. -/
theorem Sound.write (h : Sound env s) {i : ImportInput} {m : Manifest}
    (hload : loadManifest env.imports i = .ok m)
    (htext : ∀ rev ∈ s.tables.manifestRevisions, rev.sha256 = env.imports.sha256 i.payload →
      rev.payload = i.payload)
    (hplan : ∀ x, (writeManifest env.imports s.tables m i).1.manifestRevisions =
      s.tables.manifestRevisions ++ [x] →
        (writeManifest env.imports s.tables m i).1.plans ≠ s.tables.plans) :
    let w := writeManifest env.imports s.tables m i
    (w.1.manifestRevisions = s.tables.manifestRevisions ∧ w.1.plans = s.tables.plans ∧
        w.2.manifestRevision < s.tables.plans.length ∧ w.2.plan = w.2.manifestRevision) ∨
      ∃ rev, w.1.manifestRevisions = s.tables.manifestRevisions ++ [rev] ∧
        w.1.plans = s.tables.plans ++ [buildPlanRecord env.imports s.tables.plans.length m true] ∧
        w.2.manifestRevision = s.tables.plans.length ∧ w.2.plan = s.tables.plans.length ∧
        RevisionSound env.imports w.1 s.tables.plans.length rev := by
  obtain ⟨-, hsnap, hrevs, hplans, hids⟩ := writeManifest_parts env.imports s.tables m i
  generalize hw : writeManifest env.imports s.tables m i = w at *
  dsimp only at hsnap hrevs hplans hids ⊢
  generalize insertUnique id ("local-repository", m.eventId) s.tables.eventKeys = e at *
  generalize hsn : insertUnique EventSnapshot.key (eventSnapshot env.imports m i e.2)
    s.tables.snapshots = sn at *
  rcases insertUnique_cases ManifestRevision.sha256 (manifestRevision env.imports m i e.2 sn.2)
    s.tables.manifestRevisions with ⟨hr, k, row, hk, hkey, hr₂⟩ | ⟨hr, hnew, hr₂⟩
  · -- the revision is there, so is the plan built from its text
    have hpayload := htext row (List.mem_of_getElem? hk) hkey
    obtain ⟨input, m', hpay', hload', hplan', -⟩ := (h.rows k row hk).read
    have hsame : loadManifest env.imports input = loadManifest env.imports i := by
      unfold loadManifest
      rw [hpay', hpayload]
    rw [hsame, hload] at hload'
    obtain rfl := Except.ok.inj hload'
    rw [hr₂] at hplans hids
    left
    rcases insertUnique_cases AnalysisPlanRecord.sha256 (buildPlanRecord env.imports k m true)
      s.tables.plans with ⟨hp, j, p, hj, hpkey, hp₂⟩ | ⟨-, hp, -⟩
    · have hjk : j = k := id_eq_of_key h.planKeys hj hplan' hpkey
      rw [hrevs, hr, hplans, hp, hids, hp₂]
      exact ⟨rfl, rfl, (List.getElem?_eq_some_iff.1 hplan').1, hjk⟩
    · exact absurd rfl (hp _ (List.mem_of_getElem? hplan'))
  · -- the revision is new, so the plan is
    have hrevs' := hrevs.trans hr
    rcases insertUnique_cases AnalysisPlanRecord.sha256 (buildPlanRecord env.imports
      (insertUnique ManifestRevision.sha256 (manifestRevision env.imports m i e.2 sn.2)
        s.tables.manifestRevisions).2 m true) s.tables.plans with ⟨hp, -⟩ | ⟨hp, -, hp₂⟩
    · exact absurd (hplans.trans hp) (hplan _ hrevs')
    · right
      rw [hr₂, ← h.lockstep] at hp hp₂ hplans hids
      refine ⟨_, hrevs', hplans.trans hp, by rw [hids], by rw [hids, hp₂], ?_⟩
      refine ⟨⟨i, m, rfl, hload, ?_, rfl⟩, rfl, ?_⟩
      · rw [hplans, hp]
        simp
      · have hkey := insertUnique_key EventSnapshot.key (eventSnapshot env.imports m i e.2)
          s.tables.snapshots
        rw [hsn, ← hsnap] at hkey
        obtain ⟨row, hrow, hrowkey⟩ := Option.map_eq_some_iff.1 hkey
        refine ⟨row, hrow, (congrArg Prod.fst hrowkey).trans ?_⟩
        unfold eventSnapshot
        split <;> rfl

/-! ### A step -/

variable (env) in
/-- What the two tables of manifests become. -/
structure ManifestsStep (s s' : Ledger) : Prop where
  revisions : s.tables.manifestRevisions <+: s'.tables.manifestRevisions
  plans : s.tables.plans <+: s'.tables.plans
  snapshots : s.tables.snapshots <+: s'.tables.snapshots
  lockstep : s'.tables.plans.length = s'.tables.manifestRevisions.length
  rows : ∀ i rev, s'.tables.manifestRevisions[i]? = some rev →
    RevisionSound env.imports s'.tables i rev
  planKeys : (s'.tables.plans.map (·.sha256)).Nodup
  imported : ∀ ids ∈ s'.imported, ids.plan = ids.manifestRevision
  obtained : ∀ p < s'.tables.plans.length, ∃ ids ∈ s'.imported, ids.plan = p

theorem Sound.manifests_rows (h : Sound env s) {s' : Ledger}
    (hr : s'.tables.manifestRevisions = s.tables.manifestRevisions)
    (hp : s'.tables.plans = s.tables.plans) (hsnap : s.tables.snapshots <+: s'.tables.snapshots)
    (i : Nat) (rev : ManifestRevision) (hrev : s'.tables.manifestRevisions[i]? = some rev) :
    RevisionSound env.imports s'.tables i rev :=
  (h.rows i rev (hr ▸ hrev)).grows hsnap (hp ▸ List.prefix_rfl)

theorem Sound.manifests_same (h : Sound env s) {s' : Ledger}
    (hr : s'.tables.manifestRevisions = s.tables.manifestRevisions)
    (hp : s'.tables.plans = s.tables.plans) (hi : s'.imported = s.imported)
    (hsnap : s.tables.snapshots <+: s'.tables.snapshots) : ManifestsStep env s s' where
  revisions := hr ▸ List.prefix_rfl
  plans := hp ▸ List.prefix_rfl
  snapshots := hsnap
  lockstep := by rw [hp, hr, h.lockstep]
  rows := h.manifests_rows hr hp hsnap
  planKeys := hp ▸ h.planKeys
  imported := hi ▸ h.imported
  obtained := by
    rw [hp, hi]
    exact h.obtained

theorem step_manifests (h : Sound env s) {op : HistoryOp} (hok : StepOk env s op) :
    ManifestsStep env s (s.step env op) := by
  have hsnap : s.tables.snapshots <+: (s.step env op).tables.snapshots := by
    rcases step_snapshots env s op with hs | ⟨x, hs⟩ <;> rw [hs]
    exact List.prefix_append _ _
  rcases step_tables env s op with ⟨hi, ht | ⟨f, ht⟩⟩ | ⟨i, m, htext, hload, ht, hi⟩
  · exact h.manifests_same (by rw [ht]) (by rw [ht]) hi hsnap
  · obtain ⟨hr, hp⟩ := storePayload_manifests env.sync s.tables f
    exact h.manifests_same (by rw [ht, hr]) (by rw [ht, hp]) hi hsnap
  · have hplan := hok.plan
    rw [ht] at hplan
    rcases h.write hload (hok.text _ htext) hplan with
      ⟨hr, hp, hlt, hids⟩ | ⟨rev, hr, hp, hrevid, hplanid, hrev⟩
    · rw [← ht] at hr hp
      have hsame := h.manifests_rows hr hp hsnap
      refine ⟨hr ▸ List.prefix_rfl, hp ▸ List.prefix_rfl, hsnap, by rw [hp, hr, h.lockstep], hsame,
        hp ▸ h.planKeys, ?_, ?_⟩
      · rw [hi]
        intro ids hmem
        rcases List.mem_append.1 hmem with hmem | hmem
        · exact h.imported ids hmem
        · rw [List.mem_singleton.1 hmem, hids]
      · rw [hp, hi]
        intro p hlt'
        obtain ⟨ids, hmem, hids'⟩ := h.obtained p hlt'
        exact ⟨ids, List.mem_append_left _ hmem, hids'⟩
    · rw [← ht] at hr hp hrev
      have hplans : s.tables.plans <+: (s.step env op).tables.plans := hp ▸ List.prefix_append _ _
      refine ⟨hr ▸ List.prefix_append _ _, hplans, hsnap, by simp [hp, hr, h.lockstep], ?_, ?_, ?_, ?_⟩
      · intro k rev' hrev'
        rw [hr] at hrev'
        rcases Nat.lt_trichotomy k s.tables.manifestRevisions.length with hk | hk | hk
        · rw [List.getElem?_append_left hk] at hrev'
          exact (h.rows k rev' hrev').grows hsnap hplans
        · subst hk
          obtain rfl : rev = rev' := by simpa using hrev'
          exact h.lockstep ▸ hrev
        · rw [List.getElem?_eq_none (by simp; omega)] at hrev'
          cases hrev'
      · rw [ht, (writeManifest_parts env.imports s.tables m i).2.2.2.1]
        exact insertUnique_nodup h.planKeys
      · rw [hi]
        intro ids hmem
        rcases List.mem_append.1 hmem with hmem | hmem
        · exact h.imported ids hmem
        · rw [List.mem_singleton.1 hmem, hplanid, hrevid]
      · rw [hp, hi, List.length_append, List.length_singleton]
        intro p hlt
        rcases Nat.lt_succ_iff_lt_or_eq.1 hlt with hlt | rfl
        · obtain ⟨ids, hmem, hids'⟩ := h.obtained p hlt
          exact ⟨ids, List.mem_append_left _ hmem, hids'⟩
        · exact ⟨_, List.mem_append_right _ (List.mem_singleton.2 rfl), hplanid⟩

/-! ### Snapshots and runs -/

theorem snapshots_step (h : Sound env s) {op : HistoryOp} (hok : StepOk env s op) (event : Nat) :
    LeadsListing (fun r => env.instant r.1.fetchedAt) (fun r => r.1.fetchedAt)
      (rowsOf EventSnapshot.eventId event (s.step env op).tables.snapshots) := by
  rcases step_snapshots env s op with hs | ⟨x, hs⟩
  · rw [hs]
    exact h.snapshots event
  · rw [hs, rowsOf_concat]
    by_cases hx : x.eventId = event
    · subst hx
      rw [if_pos rfl]
      exact (h.snapshots _).concat (hok.snapshot x hs)
    · rw [if_neg hx, List.append_nil]
      exact h.snapshots event

/-- The event of a plan that is there does not change. -/
theorem eventOfPlan_step {s' : Ledger} (hm : ManifestsStep env s s')
    {plan : Nat} {rev : ManifestRevision} (hrev : s.tables.manifestRevisions[plan]? = some rev) :
    eventOfPlan s'.tables plan = some rev.eventId := by
  have hplan : plan < s'.tables.plans.length := by
    have := (List.getElem?_eq_some_iff.1 (getElem?_of_initial hm.revisions hrev)).1
    rwa [hm.lockstep]
  obtain ⟨input, m, -, -, hp, -⟩ := (hm.rows plan rev (getElem?_of_initial hm.revisions hrev)).read
  unfold eventOfPlan
  rw [hp, Option.bind_some]
  show (s'.tables.manifestRevisions[plan]?).map _ = _
  rw [getElem?_of_initial hm.revisions hrev]
  rfl

theorem runsForEvent_step (h : Sound env s) {s' : Ledger} (hm : ManifestsStep env s s')
    (event : Nat) : runsForEvent s'.tables s.runs.runs event = s.eventRuns event := by
  refine List.filter_congr fun r hr => ?_
  obtain ⟨-, rev, hrev, -⟩ := h.runs r.2 r.1 (List.mem_zipIdx_iff_getElem?.1 hr)
  have hold : eventOfPlan s.tables r.1.planId = some rev.eventId := by
    rw [h.eventOfPlan_eq, hrev]
    rfl
  rw [decide_eq_decide]
  show eventOfPlan s'.tables r.1.planId = _ ↔ eventOfPlan s.tables r.1.planId = _
  rw [eventOfPlan_step hm hrev, hold]

/-- A run that is stored points to what its plan was last imported with. -/
theorem source_step {op : HistoryOp} (hok : StepOk env s op)
    (hm : ManifestsStep env s (s.step env op)) {r : AnalysisRun}
    (hr : (s.step env op).runs.runs = s.runs.runs ++ [r])
    (hplan : r.planId < (s.step env op).tables.plans.length) :
    ∃ rev, (s.step env op).tables.manifestRevisions[r.planId]? = some rev ∧
      sourceOf (s.step env op).imported r.planId = some (r.planId, rev.snapshotId) := by
  have hlt := hm.lockstep ▸ hplan
  have hrev := List.getElem?_eq_getElem hlt
  obtain ⟨input, m, -, -, hp, -⟩ := (hm.rows r.planId _ hrev).read
  refine ⟨_, hrev, ?_⟩
  have hfst := sourceOf_fst hm.imported (hm.obtained r.planId hplan)
  have hsnd := hok.source r hr _ _ hp hrev
  cases hsource : sourceOf (s.step env op).imported r.planId with
  | none =>
    rw [hsource] at hfst
    cases hfst
  | some src =>
    rw [hsource, Option.map_some, Option.some.injEq] at hfst hsnd
    exact congrArg some (Prod.ext hfst hsnd)

theorem runs_step (h : Sound env s) {op : HistoryOp} (hok : StepOk env s op)
    (hm : ManifestsStep env s (s.step env op)) :
    (s.step env op).sources.length = (s.step env op).runs.runs.length ∧
    (∀ (i : Nat) (r : AnalysisRun), (s.step env op).runs.runs[i]? = some r → r.status ∈ runStatuses ∧
      ∃ rev : ManifestRevision, (s.step env op).tables.manifestRevisions[r.planId]? = some rev ∧
        (s.step env op).sources[i]? = some (some (r.planId, rev.snapshotId))) ∧
    ∀ event, LeadsListing (fun r => env.instant r.1.startedAt) (fun r => r.1.startedAt)
      ((s.step env op).eventRuns event) := by
  have hold : ∀ (i : Nat) (r : AnalysisRun), s.runs.runs[i]? = some r → r.status ∈ runStatuses ∧
      ∃ rev : ManifestRevision, (s.step env op).tables.manifestRevisions[r.planId]? = some rev ∧
        s.sources[i]? = some (some (r.planId, rev.snapshotId)) := by
    intro i r hr
    obtain ⟨hstatus, rev, hrev, hsource⟩ := h.runs i r hr
    exact ⟨hstatus, rev, getElem?_of_initial hm.revisions hrev, hsource⟩
  rcases step_runs env s op with ⟨hr, hsources⟩ | ⟨r, hr, hplan, hsources⟩
  · rw [hr, hsources]
    refine ⟨h.sources, hold, fun event => ?_⟩
    rw [Ledger.eventRuns, hr, runsForEvent_step h hm]
    exact h.order event
  · rw [hr, hsources]
    refine ⟨by simp [h.sources], fun i r' hr' => ?_, fun event => ?_⟩
    · rcases Nat.lt_trichotomy i s.runs.runs.length with hi | hi | hi
      · rw [List.getElem?_append_left hi] at hr'
        obtain ⟨hstatus, rev, hrev, hsource⟩ := hold i r' hr'
        refine ⟨hstatus, rev, hrev, ?_⟩
        rw [List.getElem?_append_left (h.sources ▸ hi), hsource]
      · subst hi
        obtain rfl : r = r' := by simpa using hr'
        obtain ⟨rev, hrev, hsource⟩ := source_step hok hm hr hplan
        refine ⟨hok.status r hr, rev, hrev, ?_⟩
        rw [← h.sources, List.getElem?_concat_length, hsource]
      · rw [List.getElem?_eq_none (by simp; omega)] at hr'
        cases hr'
    · rw [Ledger.eventRuns, hr, runsForEvent, rowsOf_concat]
      show LeadsListing _ _ (runsForEvent _ s.runs.runs event ++ _)
      rw [runsForEvent_step h hm]
      by_cases he : eventOfPlan (s.step env op).tables r.planId = some event
      · rw [if_pos he]
        refine (h.order event).concat fun l hl => ?_
        obtain ⟨hle, hlt⟩ := hok.order r hr event he l hl
        rwa [if_pos hle]
      · rw [if_neg he, List.append_nil]
        exact h.order event

theorem Sound.step (h : Sound env s) {op : HistoryOp} (hok : StepOk env s op) :
    Sound env (s.step env op) := by
  have hm := step_manifests h hok
  obtain ⟨hsources, hruns, horder⟩ := runs_step h hok hm
  exact ⟨hm.lockstep, hm.rows, hm.planKeys, hm.imported, hm.obtained, hsources, hruns,
    snapshots_step h hok, horder⟩

/-! ## The two statuses -/

namespace Sound
variable (h : Sound env s) {event : Nat}
include h

theorem snapshots_head (snapshots : SnapshotRows s.tables event) :
    snapshots.val.head? = s.latestSnapshot env event :=
  head_eq_latest (h.snapshots event) snapshots.2

theorem runs_head (rows : RunRows s.tables s.runs.runs event) :
    rows.val.head? = s.latestRun env event :=
  head_eq_latest (h.order event) rows.2

omit h in
theorem manifests_head (s : Ledger) (event : Nat) :
    (listManifestRevisions s.tables event).head? = s.latestManifest event := by
  rw [listManifestRevisions, List.head?_reverse]
  rfl

/-- A run of the event, and what it was made from. -/
theorem run_source {r : AnalysisRun × Nat} (hr : r ∈ s.eventRuns event) :
    r.1.status ∈ runStatuses ∧ ∃ rev, s.tables.manifestRevisions[r.1.planId]? = some rev ∧
      s.sourceOfRun r.2 = some (r.1.planId, rev.snapshotId) ∧ rev.eventId = event := by
  obtain ⟨r, id⟩ := r
  rw [Ledger.eventRuns, runsForEvent, mem_rowsOf] at hr
  obtain ⟨hrow, hevent⟩ := hr
  obtain ⟨hstatus, rev, hrev, hsource⟩ := h.runs id r hrow
  refine ⟨hstatus, rev, hrev, ?_, ?_⟩
  · rw [Ledger.sourceOfRun, hsource]
    rfl
  · rw [h.eventOfPlan_eq, hrev] at hevent
    exact Option.some.inj hevent

/-- A manifest has the one plan that was built from it. -/
theorem listPlans_eq (manifest : Nat) :
    listPlansForManifest s.tables manifest =
      (s.tables.plans[manifest]?.map fun p => (p, manifest)).toList := by
  rw [listPlansForManifest, rowsOf_eq_getElem? fun id p hp => (h.plan_revision hp).1]
  cases s.tables.plans[manifest]? <;> rfl

theorem producedPlan_eq (manifest : Nat) :
    s.producedPlan manifest = s.tables.plans[manifest]?.map fun p => (p, manifest) := by
  unfold Ledger.producedPlan
  cases hlast : (s.imported.filter (·.manifestRevision = manifest)).getLast? with
  | none =>
    rw [List.getLast?_eq_none_iff, List.filter_eq_nil_iff] at hlast
    cases hp : s.tables.plans[manifest]? with
    | none => rfl
    | some p =>
      obtain ⟨ids, hids, hplan⟩ := h.obtained manifest (List.getElem?_eq_some_iff.1 hp).1
      have := hlast ids hids
      rw [decide_eq_true_eq, ← h.imported ids hids] at this
      exact absurd hplan this
  | some ids =>
    obtain ⟨hmem, hrev⟩ := List.mem_filter.1 (List.mem_of_getLast? hlast)
    rw [decide_eq_true_eq] at hrev
    rw [Option.bind_some, h.imported ids hmem, hrev]

/-- The loop over the plans ends with the plan of the latest manifest. -/
theorem latestPlan_eq : latestPlan s.tables (listManifestRevisions s.tables event) =
    (s.latestManifest event).bind fun m => s.tables.plans[m.2]?.map fun p =>
      ⟨m.2, m.2, p.status, p.blockReason⟩ := by
  -- after the first manifest no earlier one is better
  have hkeep (ms : List (ManifestRevision × Nat)) (b : LatestPlan)
      (hms : ∀ m ∈ ms, m.2 < b.manifestId) :
      ms.foldl (fun best m => (listPlansForManifest s.tables m.2).foldl (betterPlan m.2) best)
        (some b) = some b := by
    induction ms with
    | nil => rfl
    | cons m ms ih =>
      have hlt := hms m List.mem_cons_self
      rw [List.foldl_cons, h.listPlans_eq]
      cases hp : s.tables.plans[m.2]? with
      | none => exact ih fun m' hm' => hms m' (List.mem_cons_of_mem _ hm')
      | some p =>
        have hworse : betterPlan m.2 (some b) (p, m.2) = some b := by
          have h₁ : ¬b.manifestId < m.2 := by omega
          have h₂ : ¬m.2 = b.manifestId := by omega
          simp [betterPlan, h₁, h₂]
        show List.foldl _ (betterPlan m.2 (some b) (p, m.2)) ms = some b
        rw [hworse]
        exact ih fun m' hm' => hms m' (List.mem_cons_of_mem _ hm')
  have hdesc : (listManifestRevisions s.tables event).Pairwise fun a b => b.2 < a.2 := by
    rw [listManifestRevisions, List.pairwise_reverse]
    refine List.Pairwise.filter _ ?_
    have hids : (s.tables.manifestRevisions.zipIdx.map Prod.snd).Pairwise (· < ·) := by
      rw [List.zipIdx_map_snd]
      exact List.pairwise_lt_range'
    exact List.pairwise_map.1 hids
  rw [← manifests_head s event]
  unfold latestPlan
  cases hms : listManifestRevisions s.tables event with
  | nil => rfl
  | cons m ms =>
    rw [hms, List.pairwise_cons] at hdesc
    have hm : m ∈ listManifestRevisions s.tables event := hms ▸ List.mem_cons_self
    obtain ⟨m, id⟩ := m
    rw [listManifestRevisions, List.mem_reverse, mem_rowsOf] at hm
    obtain ⟨input, man, -, -, hplan, -⟩ := (h.rows id m hm.1).read
    rw [List.foldl_cons, h.listPlans_eq, List.head?_cons, Option.bind_some, hplan]
    show List.foldl _ (some _) ms = some _
    exact hkeep ms _ hdesc.1

/-- The event of a stored run has a snapshot. -/
theorem exists_latestSnapshot {r : AnalysisRun × Nat} (hr : r ∈ s.eventRuns event) :
    ∃ sn, s.latestSnapshot env event = some sn := by
  obtain ⟨-, rev, hrev, -, hevent⟩ := h.run_source hr
  obtain ⟨sn, hsn, hsnEvent⟩ := (h.rows _ rev hrev).snapshot
  rw [← Option.ne_none_iff_exists', Ne, Ledger.latestSnapshot, latest_eq_none]
  exact List.ne_nil_of_mem (mem_rowsOf.2 ⟨hsn, hsnEvent.trans hevent⟩)

/-- A latest run that neither failed nor is running is the latest completed run. -/
theorem latestCompleted_eq {r : AnalysisRun × Nat} (hlast : s.latestRun env event = some r)
    (hrunning : (s.eventRuns event).any (fun r => r.1.status == "Running") = false)
    (hfailed : r.1.failed = false) : s.latestCompleted env event = some r := by
  refine latest_filter hlast ?_
  have hr := (latest_spec hlast).1
  have hstatus := (h.run_source hr).1
  have hnot : r.1.status ≠ "Running" := by
    intro heq
    have := List.any_eq_false.1 hrunning r hr
    simp [heq] at this
  simp only [AnalysisRun.failed, Bool.or_eq_false_iff, beq_eq_false_iff_ne, ne_eq] at hfailed
  simp only [runStatuses, List.mem_cons, hnot, hfailed.1, hfailed.2, false_or, List.not_mem_nil,
    or_false] at hstatus
  exact beq_iff_eq.2 hstatus

theorem stale_eq (snapshots : SnapshotRows s.tables event)
    (rows : RunRows s.tables s.runs.runs event)
    (hrunning : (s.eventRuns event).any (fun r => r.1.status == "Running") = false)
    (hfailed : (s.latestRun env event).any (fun r => r.1.failed) = false) :
    (loadInputs s.tables s.runs.runs event snapshots rows).stale = s.changedSince env event := by
  simp only [StatusInputs.stale, loadInputs, h.snapshots_head snapshots, h.runs_head rows,
    manifests_head s event]
  cases hlast : s.latestRun env event with
  | none =>
    have hnone : s.latestCompleted env event = none := by
      rw [Ledger.latestRun, latest_eq_none] at hlast
      rw [Ledger.latestCompleted, latest_eq_none, Ledger.completedRuns, hlast]
      rfl
    simp [Ledger.changedSince, hnone]
  | some r =>
    have hr := (latest_spec hlast).1
    rw [hlast] at hfailed
    obtain ⟨-, rev, hrev, hsource, -⟩ := h.run_source hr
    obtain ⟨sn, hsn⟩ := h.exists_latestSnapshot hr
    obtain ⟨input, man, -, -, hplan, -⟩ := (h.rows _ rev hrev).read
    have hpoint : (buildPlanRecord env.imports r.1.planId man true).manifestRevisionId =
      r.1.planId := rfl
    rw [Ledger.changedSince, h.latestCompleted_eq hlast hrunning hfailed, Option.any_some, hsource]
    simp only [Option.bind_some, hplan, hpoint, hrev, hsn, Option.map_some, Option.isSome_some,
      Bool.true_and]
    rw [Bool.or_comm, bne_comm (a := some r.1.planId), bne_comm (a := some rev.snapshotId)]

/-- A completed run of the latest plan is one of the latest manifest. -/
theorem executed_eq (rows : RunRows s.tables s.runs.runs event) (m : Nat) (p : AnalysisPlanRecord) :
    ((rows.val.filter fun r => r.1.complete).any fun r =>
        executed s.tables ⟨m, m, p.status, p.blockReason⟩ r.1) =
      s.completedFor event m (some (p, m)) := by
  rw [(rows.2.perm.filter _).any_eq, Bool.eq_iff_iff, List.any_eq_true, Ledger.completedFor,
    List.any_eq_true]
  refine exists_congr fun r => and_congr_right fun hr => ?_
  obtain ⟨-, rev, hrev, hsource, -⟩ := h.run_source (List.mem_of_mem_filter hr)
  obtain ⟨input, man, -, -, hplan, -⟩ := (h.rows _ rev hrev).read
  rw [executed, hsource, hplan]
  show (r.1.planId == m || some r.1.planId == some m) = true ↔
    (some m == some r.1.planId || some r.1.planId == some m) = true
  simp only [Bool.or_eq_true, beq_iff_eq, Option.some.injEq, or_self]
  constructor
  · exact .inr
  · rintro (heq | heq)
    · exact heq.symm
    · exact heq

/-- The derived status is the documented one, whatever order ties are listed in. -/
theorem deriveStatus_eq (snapshots : SnapshotRows s.tables event)
    (rows : RunRows s.tables s.runs.runs event) :
    deriveStatus s.tables s.runs.runs event snapshots rows = s.documentedStatus env event := by
  have hrunning : (loadInputs s.tables s.runs.runs event snapshots rows).anyRunning =
      (s.eventRuns event).any fun r => r.1.status == "Running" := rows.2.perm.any_eq
  have hfailed : (loadInputs s.tables s.runs.runs event snapshots rows).latestRunFailed =
      (s.latestRun env event).any fun r => r.1.failed := by
    rw [← h.runs_head rows]
    rfl
  unfold deriveStatus StatusInputs.status Ledger.documentedStatus
  rw [hrunning, hfailed]
  cases hr : (s.eventRuns event).any fun r => r.1.status == "Running" with
  | true => rfl
  | false =>
    cases hf : (s.latestRun env event).any fun r => r.1.failed with
    | true => rfl
    | false =>
      rw [h.stale_eq snapshots rows hr hf]
      cases s.changedSince env event with
      | true => rfl
      | false =>
        simp only [Bool.false_eq_true, if_false]
        cases hm : s.latestManifest event with
        | none =>
          have hempty : (listManifestRevisions s.tables event).isEmpty = true := by
            rw [List.isEmpty_iff, ← List.head?_eq_none_iff, manifests_head, hm]
          simp [loadInputs, hempty]
        | some m =>
          have hempty : (listManifestRevisions s.tables event).isEmpty = false := by
            rw [← Bool.not_eq_true, List.isEmpty_iff, ← List.head?_eq_none_iff, manifests_head, hm]
            simp
          obtain ⟨m, id⟩ := m
          have hrow := mem_rowsOf.1 (List.mem_of_getLast? hm)
          obtain ⟨input, man, -, -, hplan, -⟩ := (h.rows id m hrow.1).read
          simp only [loadInputs, h.latestPlan_eq, manifests_head s event, hm, hempty,
            h.producedPlan_eq, hplan, Option.bind_some, Option.map_some, Option.any_some,
            h.executed_eq rows]
          generalize (buildPlanRecord env.imports id man true).status = status
          simp only [Bool.not_false, Bool.not_true, Bool.false_eq_true, if_false, Option.some_beq_some,
            Option.getD_some, bne, Bool.and_eq_true]
          split
          · rfl
          · split
            · rfl
            · by_cases hready : (status == "Ready") = true
              · simp only [hready, true_and, if_true]
              · simp only [hready]
                rfl

end Sound

/-! ## A run of the latest inputs -/

variable (env) in
/-- The step stores a completed run of a plan that `import_one` last obtained for the event's latest
manifest, which is reviewed, and its latest snapshot; no run of the event is running. -/
structure RunsLatest (s s' : Ledger) (event : Nat) (r : AnalysisRun) : Prop where
  stored : s'.runs.runs = s.runs.runs ++ [r]
  complete : r.status = "Complete"
  event_eq : eventOfPlan s'.tables r.planId = some event
  source : ∃ m sn, s'.latestManifest event = some m ∧ m.1.reviewStatus = "Reviewed" ∧
    s'.latestSnapshot env event = some sn ∧ sourceOf s'.imported r.planId = some (m.2, sn.2)
  idle : (s'.eventRuns event).any (fun r => r.1.status == "Running") = false

/-- The plan of a reviewed manifest is ready. -/
theorem Sound.plan_ready (h : Sound env s) {i : Nat} {rev : ManifestRevision}
    (hrev : s.tables.manifestRevisions[i]? = some rev) (hreviewed : rev.reviewStatus = "Reviewed") :
    ∃ p, s.tables.plans[i]? = some p ∧ p.status = "Ready" := by
  obtain ⟨input, m, -, hload, hplan, hstatus⟩ := (h.rows i rev hrev).read
  refine ⟨_, hplan, ?_⟩
  have hready : m.target.transitPredicate.isReady = true := by
    by_contra hnot
    rw [hstatus, if_neg hnot] at hreviewed
    exact absurd hreviewed (by decide)
  obtain ⟨m', -, hvalid⟩ := bind_ok hload
  have hm : m' = m := (validate_ok hvalid).1.symm
  subst hm
  exact (planStatus_ready_iff hvalid true).2 ⟨rfl, hready⟩

theorem latestRun_step (h : Sound env s) {op : HistoryOp} (hok : StepOk env s op) {event : Nat}
    {r : AnalysisRun} (hr : (s.step env op).runs.runs = s.runs.runs ++ [r])
    (hevent : eventOfPlan (s.step env op).tables r.planId = some event) :
    (s.step env op).latestRun env event = some (r, s.runs.runs.length) := by
  rw [Ledger.latestRun, Ledger.eventRuns, hr, runsForEvent, rowsOf_concat, if_pos hevent]
  show latest _ (runsForEvent _ s.runs.runs event ++ _) = _
  rw [runsForEvent_step h (step_manifests h hok), latest_concat]
  cases hl : latest (fun r => env.instant r.1.startedAt) (s.eventRuns event) with
  | none => rfl
  | some l => exact if_pos (hok.order r hr event hevent l hl).1

theorem documentedStatus_of_runsLatest (h : Sound env s) {op : HistoryOp} (hok : StepOk env s op)
    {event : Nat} {r : AnalysisRun} (hr : RunsLatest env s (s.step env op) event r) :
    (s.step env op).documentedStatus env event = .complete := by
  have hs' := h.step hok
  obtain ⟨m, sn, hm, hreviewed, hsn, hsource⟩ := hr.source
  have hlast := latestRun_step h hok hr.stored hr.event_eq
  have hcomplete : r.complete = true := beq_iff_eq.2 hr.complete
  have hfailed : r.failed = false := by
    rw [AnalysisRun.failed, hr.complete]
    decide
  have hcompleted := hs'.latestCompleted_eq hlast hr.idle hfailed
  have hsourceOf : (s.step env op).sourceOfRun s.runs.runs.length = some (m.2, sn.2) := by
    rcases step_runs env s op with ⟨hsame, -⟩ | ⟨r', hr', -, hsources⟩
    · rw [hr.stored] at hsame
      simp at hsame
    · rw [hr.stored, List.append_cancel_left_eq, List.cons.injEq] at hr'
      rw [Ledger.sourceOfRun, hsources, ← h.sources, List.getElem?_concat_length, ← hr'.1, hsource]
      rfl
  have hchanged : (s.step env op).changedSince env event = false := by
    simp [Ledger.changedSince, hcompleted, hsourceOf, hm, hsn]
  obtain ⟨m, id⟩ := m
  have hreviewed : m.reviewStatus = "Reviewed" := hreviewed
  obtain ⟨p, hp, hready⟩ := hs'.plan_ready (mem_rowsOf.1 (List.mem_of_getLast? hm)).1 hreviewed
  have hfor : (s.step env op).completedFor event id (some (p, id)) = true := by
    refine List.any_eq_true.2 ⟨_, (latest_spec hcompleted).1, ?_⟩
    simp [hsourceOf]
  simp only [Ledger.documentedStatus, hr.idle, hlast, hchanged, hm, hs'.producedPlan_eq, hp, hready,
    hreviewed, hfailed, hfor, Option.any_some, Option.map_some]
  rfl

end Invariant

/-! ## Histories -/

/-- Whatever the listings return, the derived status of every event is the documented one. -/
def StatusRight (s : Ledger) : Prop :=
  ∀ event snapshots rows,
    deriveStatus s.tables s.runs.runs event snapshots rows = s.documentedStatus env event

/-- After a run of an event's latest inputs the event is complete. -/
def Converges (s s' : Ledger) : Prop :=
  ∀ event r, RunsLatest env s s' event r → ∀ snapshots rows,
    deriveStatus s'.tables s'.runs.runs event snapshots rows = .complete

/-- Both, at every point of a history. -/
def StatusFollows (ops : List HistoryOp) : Prop :=
  ∀ pre post, ops = pre ++ post → StatusRight env (run (Ledger.step env) .empty pre) ∧
    ∀ op rest, post = op :: rest → Converges env (run (Ledger.step env) .empty pre)
      (Ledger.step env (run (Ledger.step env) .empty pre) op)

theorem statusFollows_of_stepsOk {ops : List HistoryOp}
    (h : Along (Ledger.step env) (StepOk env) .empty ops) : StatusFollows env ops := by
  rintro pre post rfl
  obtain ⟨hpre, hpost⟩ := (along_append pre post).1 h
  have hsound : Sound env (run (Ledger.step env) .empty pre) :=
    run_along sound_empty (fun s op hs hok => hs.step hok) hpre
  refine ⟨fun event => hsound.deriveStatus_eq, ?_⟩
  rintro op rest rfl event r hr snapshots rows
  rw [(hsound.step hpost.1).deriveStatus_eq]
  exact documentedStatus_of_runsLatest hsound hpost.1 hr

end History

/-! ## A ticket that changed -/

namespace ChangedTicket

open EditedManifest (edition)

def reportText : String := jsonObject [("schema_version", "3")]

def env : HistoryEnv where
  sync := ⟨id, fun _ => none⟩
  imports := EditedManifest.env
  files := {
    readToString := fun _ => .ok reportText
    parseJson := fun text =>
      if text = reportText then .ok (.obj [("schema_version", .int 3)])
      else .error "expected value at line 1 column 1"
    sha256Bytes := fun _ => "r" }
  instant := fun t =>
    if t = "2026-07-30T10:00:00Z" then 1785405600
    else if t = "2026-07-31T10:00:00Z" then 1785492000
    else 1785578400

/-- The manifest of the event, beside a snapshot of the ticket. -/
def manifestWith (ticket fetchedAt : String) : HistoryOp :=
  .manifest ⟨"0.19.0", none, []⟩
    ⟨⟨"manifests/E.json", "first",
      some ⟨"case-studies/E/snapshot.json", ticket, some fetchedAt, none⟩, none⟩, none⟩

def publication : Publication :=
  ⟨[⟨"report.json", reportText.toUTF8.toList⟩],
    ⟨"/catalog", "job-1", 0, "E", "0.19.0", none, "2026-08-01T10:00:00Z", "2026-08-01T10:05:00Z"⟩,
    .ok ()⟩

def first : HistoryOp := manifestWith "the ticket" "2026-07-30T10:00:00Z"

def again : HistoryOp := manifestWith "the changed ticket" "2026-07-31T10:00:00Z"

def settled : List HistoryOp := [first, .publish publication]

def changed : List HistoryOp := [first, again, .publish publication]

end ChangedTicket

namespace ChangedTicket

def after (history : List HistoryOp) : Ledger := run (Ledger.step env) .empty history

def snapshotRows : SnapshotRows (after changed).tables 0 :=
  ⟨(rowsOf EventSnapshot.eventId 0 (after changed).tables.snapshots).reverse,
    ⟨List.reverse_perm _, by decide +kernel⟩⟩

def runRows : RunRows (after changed).tables (after changed).runs.runs 0 :=
  ⟨(after changed).eventRuns 0, ⟨List.Perm.refl _, by decide +kernel⟩⟩

/-- A first import meets the condition. -/
theorem stepOk_first : StepOk env .empty first where
  snapshot _ _ _ hl := by cases hl
  plan x _ := by decide +kernel
  text _ _ _ hrev := by cases hrev
  order r hr := by
    have hnone : (Ledger.step env .empty first).runs.runs = [] := by decide +kernel
    rw [hnone] at hr
    cases hr
  status r hr := by
    have hnone : (Ledger.step env .empty first).runs.runs = [] := by decide +kernel
    rw [hnone] at hr
    cases hr
  source r hr := by
    have hnone : (Ledger.step env .empty first).runs.runs = [] := by decide +kernel
    rw [hnone] at hr
    cases hr

/-- So does the publication after it. -/
theorem stepOk_publish : StepOk env (after [first]) (.publish publication) := by
  have hruns : ((after [first]).step env (.publish publication)).runs.runs =
      [publishedRun publication.inputs (.obj [("schema_version", .int 3)])] := by decide +kernel
  have hstored {r : AnalysisRun}
      (hr : ((after [first]).step env (.publish publication)).runs.runs =
        (after [first]).runs.runs ++ [r]) :
      r = publishedRun publication.inputs (.obj [("schema_version", .int 3)]) := by
    have hnone : (after [first]).runs.runs = [] := by decide +kernel
    rw [hruns, hnone] at hr
    exact (List.cons.inj hr).1.symm
  refine ⟨fun x hx => ?_, fun x hx => ?_, fun text htext => ?_, fun r _ event _ l hl => ?_,
    fun r hr => ?_, fun r hr p rev hp hrev => ?_⟩
  · exact absurd (List.self_eq_append_right.1 hx) (by simp)
  · exact absurd (List.self_eq_append_right.1 hx) (by simp)
  · cases htext
  · have hnone : (after [first]).eventRuns event = [] := rfl
    rw [Ledger.latestRun, hnone] at hl
    cases hl
  · rw [hstored hr]
    decide
  · rw [hstored hr] at hp ⊢
    have hplans : (after [first]).tables.plans[0]?.map (·.manifestRevisionId) = some 0 := by
      decide +kernel
    have hsnapshots : (after [first]).tables.manifestRevisions[0]?.map (·.snapshotId) = some 0 := by
      decide +kernel
    have hid : p.manifestRevisionId = 0 := by
      have hp' : (after [first]).tables.plans[0]? = some p := hp
      rw [hp'] at hplans
      exact Option.some.inj hplans
    have hrev' : (after [first]).tables.manifestRevisions[0]? = some rev := hid ▸ hrev
    rw [hrev'] at hsnapshots
    have hsnapshot : rev.snapshotId = 0 := Option.some.inj hsnapshots
    rw [hsnapshot]
    decide +kernel

end ChangedTicket

open ChangedTicket in
theorem statusFollows_settled : StatusFollows env settled :=
  statusFollows_of_stepsOk env ⟨stepOk_first, stepOk_publish, trivial⟩

open ChangedTicket in
/-- **Bug**: the manifest is imported with the changed ticket, then a run of its plan is published.
The revision and the plan are found by their texts, with the first snapshot, so the event is stale
after this run and every other. -/
theorem rerun_stays_stale :
    deriveStatus (after changed).tables (after changed).runs.runs 0 snapshotRows runRows = .stale ∧
      (after changed).documentedStatus env 0 = .complete ∧ ¬StatusFollows env changed := by
  have hderived : deriveStatus (after changed).tables (after changed).runs.runs 0 snapshotRows
      runRows = .stale := by decide +kernel
  have hdocumented : (after changed).documentedStatus env 0 = .complete := by decide +kernel
  refine ⟨hderived, hdocumented, fun h => ?_⟩
  have hright := (h changed [] (List.append_nil _).symm).1 0 snapshotRows runRows
  have heq : CatalogStatus.stale = CatalogStatus.complete :=
    hderived.symm.trans (hright.trans hdocumented)
  cases heq

end Inim
