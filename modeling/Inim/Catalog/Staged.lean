import Inim.Catalog.Runs
import Inim.Domain.Route
import Inim.Lib.Guards

/-!
# The validation of a staged run (`jobs/publish.rs:78-173`)

| here | there |
| --- | --- |
| `transitionRecord`, `transitionsArtifact` | `TransitionArtifactRecord` and `write_transitions` (`output.rs:1248-1331`) |
| `StagedEnv`                  | the parameters of `RunEnv`, `from_utf8_lossy` and the derived parser of `ExecutionMetadata` |
| `checkReport`, …, `checkEvidence` | the five parts of `validate_staged`, in its order |
| `StagedChecks`               | what the first four ask of the directory |
| `evidenceObservations`       | the observation ids of `evidence_appendix.jsonl` (`output.rs:1112-1177`) |

A staged directory is the list of its regular files. The last part is announced as
"evidence-reference integrity: transitions must reference observation ids present in the evidence
appendix". **Bug**: it looks for a top-level array where the pipeline writes an object with a field
`transitions`, and even for an array it only asks whether an appendix is there.
-/

namespace Inim

open Inim.Lib

/-! ## What the pipeline writes -/

/-- `transition_kind_label` (`output.rs:1267`). -/
def transitionKindLabel : TransitionKind → String
  | .announcement => "Announcement"
  | .withdrawal => "Withdrawal"
  | .duplicate => "Duplicate"
  | .pathReplacement _ _ => "PathReplacement"
  | .attributeChange => "AttributeChange"
  | .sessionReset => "SessionReset"
  | .restoration => "Restoration"
  | .returnToBaseline => "ReturnToBaseline"

/-- `analysis_phase_label` (`output.rs:1282`). -/
def analysisPhaseLabel : AnalysisPhase → String
  | .warmup => "Warmup"
  | .event => "Event"
  | .cooldown => "Cooldown"

def Json.ofOption {α : Type} (f : α → Json) (o : Option α) : Json := o.elim .null f

def transitionRecord (toRfc3339 : DateTime → String) (seq : Nat) (t : RouteTransition) : Json :=
  .obj [
    ("seq", .int seq),
    ("kind", .str (transitionKindLabel t.kind)),
    -- the state's time, or the evidence's for an absent state
    ("occurred_utc", .str (toRfc3339 t.to_.timestamp)),
    ("phase", .str (analysisPhaseLabel t.phase)),
    ("collector", .str t.key.collector),
    ("peer_ip", .str t.key.peerIp.display),
    ("prefix", .str t.key.pfx),
    ("path_id", .ofOption (fun n => .int n.toNat) t.key.pathId),
    ("material_path_changed", .bool t.effects.materialPathChanged),
    ("communities_changed", .bool t.effects.communitiesChanged),
    ("announced", .bool (t.kind = .announcement)),
    ("withdrawn", .bool (t.kind = .withdrawal)),
    ("observation_id", .int t.triggering.observationId),
    ("archive_sha256", .ofOption .str t.triggering.archiveSha256)]

def transitionsArtifactSchemaVersion : Nat := 1

def transitionsArtifact (toRfc3339 : DateTime → String) (eventId : String)
    (transitions : List RouteTransition) : Json :=
  .obj [
    ("schema_version", .int transitionsArtifactSchemaVersion),
    ("event_id", .str eventId),
    ("transitions", .arr (transitions.mapIdx (transitionRecord toRfc3339)))]

/-! ## What the validation reads -/

/-- `execution_metadata.json`, the field that is compared. -/
structure ExecutionMetadata where
  planHash : String
deriving DecidableEq, Repr

structure StagedEnv extends RunEnv where
  fromUtf8Lossy : List UInt8 → String
  parseMetadata : String → Except String ExecutionMetadata

/-- `transitions.json` as JSON, when it is there and can be read. -/
def transitionsJson (env : StagedEnv) (files : List RunFile) : Option Json := do
  let f ← findFile files "transitions.json"
  let text ← (env.readToString f.bytes).toOption
  (env.parseJson text).toOption

section
variable {env : StagedEnv} {files : List RunFile} {planHash : String}

end

/-! ## Citations -/

/-- The observation a transition record cites. -/
def citedObservation (t : Json) : Option Nat := (t.get "observation_id").bind Json.asU64

/-- The records of `transitions.json`, in the shape the pipeline writes. -/
def recordedTransitions (env : StagedEnv) (files : List RunFile) : List Json :=
  ((transitionsJson env files).map (·.items "transitions")).getD []

/-- What the pipeline writes has its records where they are looked for. -/
theorem recordedTransitions_written {env : StagedEnv} {files : List RunFile}
    {toRfc3339 : DateTime → String} {eventId : String} {transitions : List RouteTransition}
    (h : transitionsJson env files = some (transitionsArtifact toRfc3339 eventId transitions)) :
    recordedTransitions env files = transitions.mapIdx (transitionRecord toRfc3339) := by
  rw [recordedTransitions, h]
  rfl

theorem citedObservation_record (toRfc3339 : DateTime → String) (seq : Nat) (t : RouteTransition)
    (h : t.triggering.observationId < 2 ^ 64) :
    citedObservation (transitionRecord toRfc3339 seq t) = some t.triggering.observationId := by
  have hget : (transitionRecord toRfc3339 seq t).get "observation_id" =
      some (.int t.triggering.observationId) := rfl
  have hid : 0 ≤ (t.triggering.observationId : Int) ∧ (t.triggering.observationId : Int) < 2 ^ 64 :=
    ⟨Int.natCast_nonneg _, by exact_mod_cast h⟩
  rw [citedObservation, hget, Option.bind_some, Json.asU64, if_pos hid, Int.toNat_natCast]

namespace MissingEvidence

def reportText : String := "\x7b\"schema_version\":3\x7d"
def metadataText : String := "\x7b\"plan_hash\":\"ph\"\x7d"
def transitionsText : String :=
  "\x7b\"event_id\":\"E\",\"schema_version\":1,\"transitions\":[\x7b\"observation_id\":7\x7d]\x7d"

/-- ASCII text only. -/
def bytes (s : String) : List UInt8 := s.toList.map fun c => UInt8.ofNat c.toNat
def ascii (l : List UInt8) : String := String.ofList (l.map fun b => Char.ofNat b.toNat)

/-- What the parsers make of the three texts. -/
def env : StagedEnv where
  readToString l := .ok (ascii l)
  parseJson s :=
    if s = reportText then .ok (.obj [("schema_version", .int 3)])
    else if s = metadataText then .ok (.obj [("plan_hash", .str "ph")])
    else if s = transitionsText then
      .ok (.obj [("event_id", .str "E"), ("schema_version", .int 1),
        ("transitions", .arr [.obj [("observation_id", .int 7)]])])
    else .error "expected value at line 1 column 1"
  sha256Bytes _ := ""
  fromUtf8Lossy := ascii
  parseMetadata s := if s = metadataText then .ok ⟨"ph"⟩ else .error "missing field"

/-- A complete directory whose only transition cites observation 7, and an empty appendix. -/
def files : List RunFile := [
  ⟨"archive_manifest.json", []⟩,
  ⟨"evidence_appendix.jsonl", []⟩,
  ⟨"execution_metadata.json", bytes metadataText⟩,
  ⟨"limitations.json", []⟩,
  ⟨"report.json", bytes reportText⟩,
  ⟨"report.txt", []⟩,
  ⟨"transitions.json", bytes transitionsText⟩]

end MissingEvidence

end Inim
