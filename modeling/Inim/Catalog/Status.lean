import Inim.Catalog.Queries

/-!
# The status of an event (`catalog/status.rs`)

| here | there |
| --- | --- |
| `CatalogStatus`  | `status.rs:28-38` |
| `LatestPlan`, `betterPlan`, `latestPlan` | the loop over the plans (`status.rs:79-95`) |
| `StatusInputs`, `loadInputs` | `Inputs`, `load_inputs` (`status.rs:55-150`) |
| `deriveStatus`   | `derive_status` (`status.rs:153-184`) |

The queries cannot fail here. `get_plan` and `get_manifest_revision` are lookups by id.
-/

namespace Inim

open Inim.Lib

inductive CatalogStatus where
  | discovered
  | needsReview
  | ready
  | blocked
  | running
  | complete
  | failed
  | stale
deriving DecidableEq, Repr

/-- The latest plan across all manifests. -/
structure LatestPlan where
  manifestId : Nat
  planId : Nat
  status : String
  blockReason : Option String
deriving DecidableEq, Repr

structure StatusInputs where
  latestSnapshotId : Option Nat
  latestManifestId : Option Nat
  runSnapshotId : Option Nat
  runManifestId : Option Nat
  latestPlanStatus : Option String
  latestPlanReady : Bool
  runForLatestPlan : Bool
  hasManifest : Bool
  manifestReviewed : Bool
  anyRunning : Bool
  latestRunFailed : Bool
deriving DecidableEq, Repr

/-- By manifest id, then plan id. -/
def betterPlan (manifest : Nat) (best : Option LatestPlan) (p : AnalysisPlanRecord × Nat) :
    Option LatestPlan :=
  let better := match best with
    | none => true
    | some b => b.manifestId < manifest || manifest == b.manifestId && b.planId < p.2
  if better then some ⟨manifest, p.2, p.1.status, p.1.blockReason⟩ else best

def latestPlan (c : CatalogTables) (manifests : List (ManifestRevision × Nat)) : Option LatestPlan :=
  manifests.foldl (fun best m => (listPlansForManifest c m.2).foldl (betterPlan m.2) best) none

def AnalysisRun.failed (r : AnalysisRun) : Bool := r.status == "Failed" || r.status == "Incomplete"

def AnalysisRun.complete (r : AnalysisRun) : Bool := r.status == "Complete"

/-- A run counts "if it executed the latest plan or any plan under the latest manifest revision". -/
def executed (c : CatalogTables) (plan : LatestPlan) (r : AnalysisRun) : Bool :=
  r.planId == plan.planId ||
    (c.plans[r.planId]?.map (·.manifestRevisionId)) == some plan.manifestId

/-- `snapshots` and `rows` are what the two queries by time returned. -/
def loadInputs (c : CatalogTables) (runs : List AnalysisRun) (event : Nat)
    (snapshots : SnapshotRows c event) (rows : RunRows c runs event) : StatusInputs :=
  let manifests := listManifestRevisions c event
  let plan := latestPlan c manifests
  let latest := rows.val.head?
  let runManifest := latest.bind fun r => c.plans[r.1.planId]?.bind fun p =>
    c.manifestRevisions[p.manifestRevisionId]?.map fun m => (m, p.manifestRevisionId)
  { latestSnapshotId := snapshots.val.head?.map (·.2)
    latestManifestId := manifests.head?.map (·.2)
    runSnapshotId := runManifest.map (·.1.snapshotId)
    runManifestId := runManifest.map (·.2)
    latestPlanStatus := plan.map (·.status)
    latestPlanReady := plan.map (·.status) == some "Ready"
    runForLatestPlan := plan.any fun p =>
      (rows.val.filter fun r => r.1.complete).any fun r => executed c p r.1
    hasManifest := !manifests.isEmpty
    manifestReviewed := (manifests.head?.map fun m => m.1.reviewStatus == "Reviewed").getD false
    anyRunning := rows.val.any fun r => r.1.status == "Running"
    latestRunFailed := latest.any fun r => r.1.failed }

def StatusInputs.stale (i : StatusInputs) : Bool :=
  i.latestSnapshotId.isSome && i.runSnapshotId.isSome &&
    (i.latestSnapshotId != i.runSnapshotId || i.latestManifestId != i.runManifestId)

def StatusInputs.status (i : StatusInputs) : CatalogStatus :=
  if i.anyRunning then .running
  else if i.latestRunFailed then .failed
  else if i.stale then .stale
  else if !i.hasManifest then .discovered
  else if i.latestPlanStatus == some "Blocked" then .blocked
  else if !i.manifestReviewed then .needsReview
  else if i.latestPlanReady && i.runForLatestPlan then .complete
  else if i.latestPlanReady then .ready
  else .needsReview

def deriveStatus (c : CatalogTables) (runs : List AnalysisRun) (event : Nat)
    (snapshots : SnapshotRows c event) (rows : RunRows c runs event) : CatalogStatus :=
  (loadInputs c runs event snapshots rows).status

end Inim
