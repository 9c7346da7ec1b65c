import Inim.Catalog.Runs
import Inim.Lib.Latest

/-!
# Listings of the catalog (`catalog/db.rs:179-319`)

| here | there |
| --- | --- |
| `SnapshotRows`              | `list_snapshots`: `ORDER BY fetched_at DESC` |
| `listManifestRevisions`     | `list_manifest_revisions`: `ORDER BY id DESC` |
| `listPlansForManifest`      | `list_plans_for_manifest`: `ORDER BY id DESC` |
| `RunRows`                   | `list_runs_for_event`: `ORDER BY r.started_at DESC` |

Times are compared as texts. Rows with one time come in any order, so a listing by time is any list
that the query may return.
-/

namespace Inim

open Inim.Lib

variable (c : CatalogTables)

/-- Rows come with their ids. -/
abbrev SnapshotRows (event : Nat) :=
  {l : List (EventSnapshot × Nat) //
    Listing (fun s => s.1.fetchedAt) (rowsOf EventSnapshot.eventId event c.snapshots) l}

def listManifestRevisions (event : Nat) : List (ManifestRevision × Nat) :=
  (rowsOf ManifestRevision.eventId event c.manifestRevisions).reverse

def listPlansForManifest (manifest : Nat) : List (AnalysisPlanRecord × Nat) :=
  (rowsOf AnalysisPlanRecord.manifestRevisionId manifest c.plans).reverse

/-- The event of a plan, through its manifest revision. -/
def eventOfPlan (plan : Nat) : Option Nat :=
  (c.plans[plan]?.bind fun p => c.manifestRevisions[p.manifestRevisionId]?).map (·.eventId)

/-- The runs of an event, in the order they were inserted. -/
def runsForEvent (runs : List AnalysisRun) (event : Nat) : List (AnalysisRun × Nat) :=
  rowsOf (fun r => eventOfPlan c r.planId) (some event) runs

abbrev RunRows (runs : List AnalysisRun) (event : Nat) :=
  {l : List (AnalysisRun × Nat) // Listing (fun r => r.1.startedAt) (runsForEvent c runs event) l}

end Inim
