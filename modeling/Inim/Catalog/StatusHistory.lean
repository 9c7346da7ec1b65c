import Inim.Catalog.LatestView
import Inim.Catalog.Readiness
import Inim.Catalog.Reimport
import Inim.Catalog.Status

/-!
# Statuses over histories of the catalog

`derive_status` computes a status from tables whose rows are deduplicated by content. The documented
precedence (`status.rs:7-20`) is about the latest snapshot, manifest and run, and about the snapshot
and manifest a run was made from. `Ledger` keeps, beside the tables, what each import obtained and
what each run was made from; `documentedStatus` evaluates the precedence on that, with instants
instead of their texts.

| here | there |
| --- | --- |
| `HistoryOp.payload`  | one payload of `sync_catalog` or of a recorded fetch (`syncOp_catalog`, `run_payloads`) |
| `HistoryOp.manifest` | one round of `import_repository` (`run_manifests`) |
| `HistoryOp.publish`  | `publish_staged_run` |
| `HistoryOp.record`   | `insert_run` of an attempt with any status |
| `documentedStatus`   | the module doc of `status.rs` |
-/

namespace Inim

open Inim.Lib

structure HistoryEnv where
  sync : SyncEnv
  imports : ImportEnv
  files : RunEnv
  /-- The instant a time text stands for. -/
  instant : String → Int

/-- The tables. `imported` are the ids that `import_one` obtained, in order; `sources` has for each
run the manifest revision and the snapshot that its plan was last imported with before it. -/
structure Ledger where
  tables : CatalogTables
  runs : RunTables
  finalDirs : List (String × String)
  imported : List ImportedIds
  sources : List (Option (Nat × Nat))

def Ledger.empty : Ledger := ⟨.empty, .empty, [], [], []⟩

inductive HistoryOp where
  | payload (f : Fetched)
  | manifest (cmd : ImportCommand) (m : ManifestImport)
  | publish (p : Publication)
  | record (r : AnalysisRun)

/-- The ids of an import that goes through. -/
def importedIds (ienv : ImportEnv) (c : CatalogTables) (m : ManifestImport) : Option ImportedIds :=
  match loadManifest ienv m.input with
  | .ok manifest =>
    if ienv.excluded manifest then none else some (writeManifest ienv c manifest m.input).2
  | .error _ => none

/-- What the plan was last imported with. -/
def sourceOf (imported : List ImportedIds) (plan : Nat) : Option (Nat × Nat) :=
  (imported.filter (·.plan = plan)).getLast?.map fun ids => (ids.manifestRevision, ids.snapshot)

/-- The new runs get their sources. -/
def Ledger.setRuns (s : Ledger) (runs : RunTables) : Ledger :=
  { s with
    runs := runs
    sources := s.sources ++
      (runs.runs.drop s.runs.runs.length).map fun r => sourceOf s.imported r.planId }

section Env
variable (env : HistoryEnv)

def Ledger.step (s : Ledger) : HistoryOp → Ledger
  | .payload f => { s with tables := storePayload env.sync s.tables f }
  | .manifest cmd m =>
    match importManifest env.imports env.files cmd (s.tables, s.runs) m with
    | .ok (tables, runs) =>
      { s with
        tables := tables
        imported := s.imported ++ (importedIds env.imports s.tables m).toList }.setRuns runs
    | .error _ => s
  | .publish p =>
    let r := publishStagedRun env.files ⟨s.tables, s.runs, s.finalDirs⟩ p
    { s with finalDirs := r.1.finalDirs }.setRuns r.1.runs
  | .record r =>
    match s.runs.insertRun s.tables.plans.length r with
    | .ok (runs, _) => s.setRuns runs
    | .error _ => s

/-! ## The documented status -/

namespace Ledger
variable (s : Ledger) (event : Nat)

def eventRuns : List (AnalysisRun × Nat) := runsForEvent s.tables s.runs.runs event

def latestSnapshot : Option (EventSnapshot × Nat) :=
  latest (fun r => env.instant r.1.fetchedAt) (rowsOf EventSnapshot.eventId event s.tables.snapshots)

def latestManifest : Option (ManifestRevision × Nat) :=
  (rowsOf ManifestRevision.eventId event s.tables.manifestRevisions).getLast?

def latestRun : Option (AnalysisRun × Nat) :=
  latest (fun r => env.instant r.1.startedAt) (s.eventRuns event)

def completedRuns : List (AnalysisRun × Nat) := (s.eventRuns event).filter fun r => r.1.complete

def latestCompleted : Option (AnalysisRun × Nat) :=
  latest (fun r => env.instant r.1.startedAt) (s.completedRuns event)

def sourceOfRun (run : Nat) : Option (Nat × Nat) := s.sources[run]?.join

/-- The plan that the last import of the manifest revision obtained. -/
def producedPlan (manifest : Nat) : Option (AnalysisPlanRecord × Nat) :=
  (s.imported.filter (·.manifestRevision = manifest)).getLast?.bind fun ids =>
    s.tables.plans[ids.plan]?.map fun p => (p, ids.plan)

/-- The latest snapshot or manifest is not the one of the latest completed run. -/
def changedSince : Bool :=
  (latestCompleted env s event).any fun r =>
    (s.sourceOfRun r.2).map Prod.fst != (s.latestManifest event).map Prod.snd ||
      (s.sourceOfRun r.2).map Prod.snd != (latestSnapshot env s event).map Prod.snd

/-- A completed run executed the plan, or a plan of the manifest. -/
def completedFor (manifest : Nat) (plan : Option (AnalysisPlanRecord × Nat)) : Bool :=
  (s.completedRuns event).any fun r =>
    plan.map Prod.snd == some r.1.planId || (s.sourceOfRun r.2).map Prod.fst == some manifest

def documentedStatus : CatalogStatus :=
  if (s.eventRuns event).any fun r => r.1.status == "Running" then .running
  else if (latestRun env s event).any fun r => r.1.failed then .failed
  else if changedSince env s event then .stale
  else match s.latestManifest event with
    | none => .discovered
    | some m =>
      let plan := s.producedPlan m.2
      if plan.any fun p => p.1.status == "Blocked" then .blocked
      else if m.1.reviewStatus != "Reviewed" then .needsReview
      else if plan.any fun p => p.1.status == "Ready" then
        if s.completedFor event m.2 plan then .complete else .ready
      else .needsReview

/-- Failed iff the latest attempt failed, and none is running. -/
theorem documentedStatus_eq_failed_iff : documentedStatus env s event = .failed ↔
    ((s.eventRuns event).any fun r => r.1.status == "Running") = false ∧
      (latestRun env s event).any (fun r => r.1.failed) = true := by
  unfold documentedStatus
  cases (s.eventRuns event).any fun r => r.1.status == "Running" with
  | true => simp
  | false =>
    cases (latestRun env s event).any fun r => r.1.failed with
    | true => simp
    | false =>
      simp only [Bool.false_eq_true, if_false, and_false, iff_false]
      split
      · simp
      · split
        · simp
        · split_ifs <;> simp

/-- Stale iff what the latest completed run was made from is not the latest, and no higher status
applies. -/
theorem documentedStatus_eq_stale_iff : documentedStatus env s event = .stale ↔
    ((s.eventRuns event).any fun r => r.1.status == "Running") = false ∧
      (latestRun env s event).any (fun r => r.1.failed) = false ∧ changedSince env s event = true := by
  unfold documentedStatus
  cases (s.eventRuns event).any fun r => r.1.status == "Running" with
  | true => simp
  | false =>
    cases (latestRun env s event).any fun r => r.1.failed with
    | true => simp
    | false =>
      cases changedSince env s event with
      | true => simp
      | false =>
        simp only [Bool.false_eq_true, if_false, and_false, iff_false]
        split
        · simp
        · split_ifs <;> simp

end Ledger

/-! ## Whole operations -/

theorem syncOp_catalog (c : SyncTables) (op : SyncOp) :
    (op.step env.sync c).catalog = op.fetched.foldl (storePayload env.sync) c.catalog := by
  cases op with
  | sync source listItems startedAt =>
    cases listItems with
    | error e => rfl
    | ok items =>
      have hitems : ∀ st : CatalogTables × SyncSummary,
          (items.foldl (syncItem env.sync startedAt) st).1 =
            (items.map fun item => (⟨item, startedAt⟩ : Fetched)).foldl (storePayload env.sync) st.1 := by
        induction items with
        | nil => exact fun _ => rfl
        | cons item items ih =>
          intro st
          rw [List.foldl_cons, ih, syncItem_tables]
          rfl
      exact hitems (c.catalog, {})
  | fetch syncRunId eventId item metadata startedAt =>
    rw [fetchOp_catalog, fetchPayload_catalog, SyncOp.fetched]
    split
    · rfl
    · cases item <;> rfl

/-- A sync is its payloads, one after the other. -/
theorem run_payloads (s : Ledger) (payloads : List Fetched) :
    run (Ledger.step env) s (payloads.map .payload) =
      { s with tables := payloads.foldl (storePayload env.sync) s.tables } := by
  induction payloads generalizing s with
  | nil => rfl
  | cons f payloads ih =>
    rw [List.map_cons, run_cons, ih]
    rfl

/-- An import that goes through is its manifests, one after the other. -/
theorem run_manifests (s : Ledger) (cmd : ImportCommand) (ms : List ManifestImport)
    {q : CatalogTables × RunTables}
    (h : ms.foldlM (importManifest env.imports env.files cmd) (s.tables, s.runs) = .ok q) :
    ((run (Ledger.step env) s (ms.map (.manifest cmd))).tables,
      (run (Ledger.step env) s (ms.map (.manifest cmd))).runs) = q := by
  induction ms generalizing s with
  | nil => exact Except.ok.inj h
  | cons m ms ih =>
    rw [List.foldlM_cons] at h
    obtain ⟨p, hp, h⟩ := bind_ok h
    rw [List.map_cons, run_cons]
    have hstep : ((s.step env (.manifest cmd m)).tables, (s.step env (.manifest cmd m)).runs) = p := by
      rw [Ledger.step, hp]
      rfl
    exact ih _ (hstep ▸ h)

end Env

end Inim
