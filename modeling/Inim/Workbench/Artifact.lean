import Inim.Catalog.Staged
import Inim.Lifecycle.Build
/-!
# The lifecycle artifact (`output.rs:1218-1237`, `lifecycle.rs:229-369`)

`lifecycle.json` is what the derived `Serialize` of `StreamLifecycle` writes. The import makes a
stream summary of each record (`import.rs:563-650`); the workbench reads the paths from it.

| here | there |
| --- | --- |
| `lifecycleTransitionRecord`, `lifecycleRecord` | the fields of a record that are read anywhere |
| `lifecycleArtifact` | `write_lifecycle_artifact` |
| `lifecycleSummary`  | the row a record is imported as |

`serdeTime` is how a time is written; the text of a time in `transitions.json` may differ.
-/

namespace Inim

open Inim.Lib

/-- The name of the variant. -/
def streamCategoryLabel : StreamCategory → String
  | .unchanged => "Unchanged"
  | .prependOnly => "PrependOnly"
  | .pathChangedStillViaTransit => "PathChangedStillViaTransit"
  | .departedTransitPath => "DepartedTransitPath"
  | .withdrawn => "Withdrawn"

def pathRecord (path : List UInt32) : Json := .arr (path.map fun asn => .int asn.toNat)

section Writer
variable (serdeTime : DateTime → String)

def lifecycleTransitionRecord (t : LifecycleTransition) : Json :=
  .obj [
    ("timestamp", .str (serdeTime t.timestamp)),
    ("phase", .str (analysisPhaseLabel t.phase)),
    ("kind", .str t.kind),
    ("path_id", .ofOption (fun n => .int n.toNat) t.pathId),
    ("before_path", pathRecord t.beforePath),
    ("after_path", pathRecord t.afterPath),
    ("observation_id", .int t.observationId),
    ("archive_sha256", .ofOption .str t.archiveSha256),
    ("has_gshut_after", .bool t.hasGshutAfter)]

def lifecycleRecord (lc : StreamLifecycle) : Json :=
  .obj [
    ("collector", .str lc.collector),
    ("peer_ip", .str lc.peerIp),
    ("prefix", .str lc.pfx),
    ("baseline_path", pathRecord lc.baselinePath),
    ("baseline_instance_count", .int lc.baselineInstanceCount),
    ("max_concurrent_instances", .int lc.maxConcurrentInstances),
    ("category", .str (streamCategoryLabel lc.category)),
    ("flags", .obj [
      ("restored", .bool lc.flags.restored),
      ("not_restored", .bool lc.flags.notRestored),
      ("multiple_cycles", .bool lc.flags.multipleCycles),
      ("add_path_ambiguous", .bool lc.flags.addPathAmbiguous)]),
    ("first_change", .ofOption (.str <| serdeTime ·) lc.firstChange),
    ("transitions", .arr (lc.transitions.map (lifecycleTransitionRecord serdeTime))),
    ("was_withdrawn", .bool lc.wasWithdrawn),
    ("restoration_time", .ofOption (.str <| serdeTime ·) lc.restorationTime)]

def lifecycleArtifactSchemaVersion : Nat := 1

def lifecycleArtifact (eventId : String) (lcs : List StreamLifecycle) : Json :=
  .obj [
    ("schema_version", .int lifecycleArtifactSchemaVersion),
    ("event_id", .str eventId),
    ("lifecycles", .arr (lcs.map (lifecycleRecord serdeTime)))]

/-- The row of a lifecycle in the catalog. -/
def lifecycleSummary (runId : Nat) (lc : StreamLifecycle) : StreamLifecycleSummary :=
  streamSummary runId (lifecycleRecord serdeTime lc)

end Writer

/-! ## What a row says of its lifecycle -/

section Summary
variable (serdeTime : DateTime → String) (runId : Nat) (lc : StreamLifecycle)

@[simp] theorem lifecycleSummary_withdrawn :
    (lifecycleSummary serdeTime runId lc).withdrawn = lc.wasWithdrawn := rfl

@[simp] theorem lifecycleSummary_restored :
    (lifecycleSummary serdeTime runId lc).restored = lc.flags.restored := rfl

@[simp] theorem lifecycleSummary_addPathAmbiguous :
    (lifecycleSummary serdeTime runId lc).addPathAmbiguous = lc.flags.addPathAmbiguous := rfl

@[simp] theorem lifecycleSummary_category :
    (lifecycleSummary serdeTime runId lc).category = streamCategoryLabel lc.category := rfl

@[simp] theorem lifecycleSummary_transitionCount :
    (lifecycleSummary serdeTime runId lc).transitionCount = lc.transitions.length :=
  List.length_map _

@[simp] theorem lifecycleSummary_restorationTimeUtc :
    (lifecycleSummary serdeTime runId lc).restorationTimeUtc = lc.restorationTime.map serdeTime := by
  cases h : lc.restorationTime with
  | none => simp only [lifecycleSummary, streamSummary, lifecycleRecord, h]; rfl
  | some t => simp only [lifecycleSummary, streamSummary, lifecycleRecord, h]; rfl

end Summary

end Inim
