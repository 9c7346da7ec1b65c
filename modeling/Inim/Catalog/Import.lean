import Inim.Catalog.Manifest
import Inim.Lib.Tables

/-!
# Importing manifests (`catalog/import.rs`, `catalog/store.rs`)

| here | there |
| --- | --- |
| `CatalogTables` and its rows  | `migrations.rs:14-57`; an id is the position of its row |
| `upsertEvent`                 | `store.rs:11-35` |
| `insertSnapshot`, `insertManifestRevision`, `insertPlan` | `store.rs:38-131` |
| `eventSnapshot`               | `import.rs:178-277` |
| `buildPlanRecord`             | `import.rs:468-519` |
| `importOne`                   | `import.rs:132-323` |
| `importRepository`, `ImportCall.step` | `import.rs:46-128` |
| `manifestPayloadForPlan`      | `jobs/plan.rs:129-141` |

What is outside: serde's parser, SHA-256, the title field of a ticket's JSON and the project scope
are the parameters of `ImportEnv`. The files beside a manifest come with it in `ImportInput`. The
second half of `import_one` (runs and artifacts) writes other tables; that it can fail and roll
the transaction back is `ImportCall.aborts`.
-/

namespace Inim

open Inim.Lib

structure CatalogEvent where
  sourceKind : String
  externalId : String
  firstSeen : String
  lastSeen : String
deriving DecidableEq, Repr

structure EventSnapshot where
  eventId : Nat
  fetchedAt : String
  sourceUrl : String
  contentSha256 : String
  rawPayload : String
  normalizedJson : String
  parserVersion : String
deriving DecidableEq, Repr

structure ManifestRevision where
  eventId : Nat
  snapshotId : Nat
  manifestSchema : UInt32
  payload : String
  sha256 : String
  reviewStatus : String
  reviewedAt : Option String
  reviewer : Option String
deriving DecidableEq, Repr

structure AnalysisPlanRecord where
  manifestRevisionId : Nat
  planSchema : UInt32
  payload : String
  sha256 : String
  status : String
  blockReason : Option String
  createdAt : String
deriving DecidableEq, Repr

structure CatalogTables where
  events : List CatalogEvent
  snapshots : List EventSnapshot
  manifestRevisions : List ManifestRevision
  plans : List AnalysisPlanRecord
deriving DecidableEq, Repr

def CatalogTables.empty : CatalogTables := ⟨[], [], [], []⟩

/-! ## The write path -/

def CatalogEvent.key (e : CatalogEvent) : String × String := (e.sourceKind, e.externalId)

def EventSnapshot.key (s : EventSnapshot) : Nat × String := (s.eventId, s.contentSha256)

def upsertEvent (c : CatalogTables) (sourceKind externalId seenAt : String) :
    CatalogTables × Nat :=
  match c.events.findIdx? fun e => decide (e.key = (sourceKind, externalId)) with
  | some id => ({ c with events := c.events.modify id fun e => { e with lastSeen := seenAt } }, id)
  | none => ({ c with events := c.events ++ [⟨sourceKind, externalId, seenAt, seenAt⟩] },
      c.events.length)

def insertSnapshot (c : CatalogTables) (s : EventSnapshot) : CatalogTables × Nat :=
  let r := insertUnique EventSnapshot.key s c.snapshots
  ({ c with snapshots := r.1 }, r.2)

def insertManifestRevision (c : CatalogTables) (m : ManifestRevision) : CatalogTables × Nat :=
  let r := insertUnique ManifestRevision.sha256 m c.manifestRevisions
  ({ c with manifestRevisions := r.1 }, r.2)

def insertPlan (c : CatalogTables) (p : AnalysisPlanRecord) : CatalogTables × Nat :=
  let r := insertUnique AnalysisPlanRecord.sha256 p c.plans
  ({ c with plans := r.1 }, r.2)

def CatalogTables.eventKeys (c : CatalogTables) : List (String × String) :=
  c.events.map CatalogEvent.key

/-- On the keys, an upsert is an insertion without duplicates. -/
theorem upsertEvent_keys (c : CatalogTables) (kind ext seen : String) :
    (upsertEvent c kind ext seen).1.eventKeys = (insertUnique id (kind, ext) c.eventKeys).1
      ∧ (upsertEvent c kind ext seen).2 = (insertUnique id (kind, ext) c.eventKeys).2 := by
  unfold upsertEvent insertUnique CatalogTables.eventKeys
  rw [List.findIdx?_map]
  have hp : (fun a : String × String => decide (id a = id (kind, ext))) ∘ CatalogEvent.key
      = fun e => decide (e.key = (kind, ext)) := rfl
  rw [hp]
  cases c.events.findIdx? fun e => decide (e.key = (kind, ext)) with
  | none => simp [CatalogEvent.key]
  | some i =>
    refine ⟨?_, rfl⟩
    refine List.ext_getElem? fun j => ?_
    simp only [List.getElem?_map, List.getElem?_modify]
    split <;> cases c.events[j]? <;> rfl

/-! ## One manifest -/

structure ImportEnv where
  parse : String → Except String Manifest
  sha256 : String → String
  /-- `short_description`, else `title`, of a ticket's JSON. -/
  ticketTitle : String → Option String
  /-- `ProjectScope`: excluded record, entity or ASN. -/
  excluded : Manifest → Bool

/-- The reviewed snapshot next to the run output, with what its sidecar says. -/
structure CaseStudySnapshot where
  path : String
  raw : String
  fetchedAtUtc : Option String
  cutoffProvenance : Option String
deriving DecidableEq, Repr

structure TicketFixture where
  path : String
  raw : String
deriving DecidableEq, Repr

structure ImportInput where
  manifestPath : String
  payload : String
  caseStudy : Option CaseStudySnapshot
  fixture : Option TicketFixture
deriving DecidableEq, Repr

/-- `Manifest::load`. -/
def loadManifest (env : ImportEnv) (i : ImportInput) : Except String Manifest := do
  let m ← (env.parse i.payload).mapError fun e => "invalid manifest JSON: " ++ e
  m.validate

/-- The cutoff of an open manifest is backed by the sidecar or by an analyst note. -/
def cutoffBacked (m : Manifest) (i : ImportInput) : Bool :=
  (i.caseStudy.bind (·.cutoffProvenance)).any (fun s => !trimBlank s)
    || m.analystNotes.any fun n => textContains n "cutoff" || textContains n "analysis_end_utc"

def normalizedEvent (m : Manifest) (title source : String) : String :=
  jsonObject [("end", jsonString m.eventWindowUtc.stop), ("id", jsonString m.eventId),
    ("source", jsonString source), ("start", jsonString m.eventWindowUtc.start),
    ("title", jsonString title)]

/-- The record a manifest without tracked source is its own source of. -/
def manifestDerivedRaw (m : Manifest) : String :=
  jsonObject [("end", jsonString m.eventWindowUtc.stop), ("id", jsonString m.eventId),
    ("origin_asns", jsonArray (m.target.originAsns.map toString)),
    ("source", jsonString "manifest-derived"), ("start", jsonString m.eventWindowUtc.start),
    ("title", jsonString m.target.label)]

def eventSnapshot (env : ImportEnv) (m : Manifest) (i : ImportInput) (eventId : Nat) :
    EventSnapshot :=
  match i.caseStudy, i.fixture with
  | some s, _ =>
    ⟨eventId, s.fetchedAtUtc.getD "", "file://" ++ s.path, env.sha256 s.raw, s.raw,
      normalizedEvent m ((env.ticketTitle s.raw).getD m.target.label) "tracked-snapshot",
      "tracked-snapshot-1"⟩
  | none, some f =>
    ⟨eventId, "2026-07-31T00:00:00Z", "file://" ++ f.path, env.sha256 f.raw, f.raw,
      normalizedEvent m ((env.ticketTitle f.raw).getD m.target.label) "ticket-fixture", "fixture-1"⟩
  | none, none =>
    ⟨eventId, "2026-07-31T00:00:00Z", "file://" ++ i.manifestPath,
      env.sha256 (manifestDerivedRaw m), manifestDerivedRaw m,
      jsonObject [("id", jsonString m.eventId)], "manifest-derived-1"⟩

def manifestRevision (env : ImportEnv) (m : Manifest) (i : ImportInput) (eventId snapshotId : Nat) :
    ManifestRevision where
  eventId := eventId
  snapshotId := snapshotId
  manifestSchema := manifestSchemaVersion
  payload := i.payload
  sha256 := env.sha256 i.payload
  reviewStatus := if m.target.transitPredicate.isReady then "Reviewed" else "Unresolved"
  reviewedAt := some "2026-07-31T00:00:00Z"
  reviewer := m.target.transitPredicate.provenance.map (·.reviewedBy)

/-! ### Plans -/

/-- `status` and `block_reason`. -/
def planStatus (m : Manifest) (originMappingReviewed : Bool) : String × Option String :=
  let needsReview := !originMappingReviewed && !m.target.originAsns.isEmpty
  let openWithoutCutoff := m.isOpen && !m.hasCutoff
  if needsReview || m.target.originAsns.isEmpty || !m.target.transitPredicate.isReady
      || openWithoutCutoff then
    ("Blocked", some (
      if openWithoutCutoff then "MissingAnalysisEndForOpenTicket"
      else if needsReview then "OriginMappingNeedsReview"
      else if m.target.originAsns.isEmpty then "MissingReviewedEntityMapping"
      else "MissingReviewedTransitPredicate"))
  else ("Ready", none)

/-- The text a plan is identified by: neither predicate, window nor collectors are in it. -/
def planPayload (m : Manifest) (originMappingReviewed : Bool) : String :=
  let s := planStatus m originMappingReviewed
  jsonObject [("block_reason", jsonOption jsonString s.2), ("event_id", jsonString m.eventId),
    ("manifest_revision", toString m.revision), ("manifest_schema", toString m.schemaVersion),
    ("origin_asns", jsonArray (m.target.originAsns.map toString)), ("status", jsonString s.1),
    ("transit_predicate_status", jsonString m.target.transitPredicate.status.debug)]

/-- `ANALYSIS_PLAN_SCHEMA_VERSION` (`schema.rs:58`). -/
def AnalysisPlanRecord.schemaVersion : UInt32 := 1

def buildPlanRecord (env : ImportEnv) (manifestRevisionId : Nat) (m : Manifest)
    (originMappingReviewed : Bool) : AnalysisPlanRecord where
  manifestRevisionId := manifestRevisionId
  planSchema := AnalysisPlanRecord.schemaVersion
  payload := planPayload m originMappingReviewed
  sha256 := env.sha256 (planPayload m originMappingReviewed)
  status := (planStatus m originMappingReviewed).1
  blockReason := (planStatus m originMappingReviewed).2
  createdAt := "2026-07-31T00:00:00Z"

/-- The ids one import obtains. -/
structure ImportedIds where
  event : Nat
  snapshot : Nat
  manifestRevision : Nat
  plan : Nat
deriving DecidableEq, Repr

/-- The writes of `import_one` for a manifest that loaded. -/
def writeManifest (env : ImportEnv) (c : CatalogTables) (m : Manifest) (i : ImportInput) :
    CatalogTables × ImportedIds :=
  let e := upsertEvent c "local-repository" m.eventId "2026-07-31T00:00:00Z"
  let s := insertSnapshot e.1 (eventSnapshot env m i e.2)
  let r := insertManifestRevision s.1 (manifestRevision env m i e.2 s.2)
  let p := insertPlan r.1 (buildPlanRecord env r.2 m true)
  (p.1, ⟨e.2, s.2, r.2, p.2⟩)

def importOne (env : ImportEnv) (c : CatalogTables) (i : ImportInput) :
    Except String (CatalogTables × ImportedIds) := do
  let m ← loadManifest env i
  if m.isOpen && !cutoffBacked m i then
    throw ("reviewed manifest for open event " ++ m.eventId ++ " lacks cutoff provenance " ++
      "(snapshot sidecar cutoff_provenance or an analyst note naming the cutoff)")
  return writeManifest env c m i

/-! ## Whole imports -/

/-- One round of the import loop: a manifest outside the project scope is skipped. -/
def importStep (env : ImportEnv) (c : CatalogTables) (i : ImportInput) :
    Except String CatalogTables := do
  let m ← (loadManifest env i).mapError fun e =>
    "cannot load manifest " ++ i.manifestPath ++ ": " ++ e
  if env.excluded m then return c
  return (← importOne env c i).1

def importRepository (env : ImportEnv) (c : CatalogTables) (inputs : List ImportInput) :
    Except String CatalogTables :=
  inputs.foldlM (importStep env) c

/-- One `import` command: the manifests in order, and whether something after the plans failed. -/
structure ImportCall where
  inputs : List ImportInput
  aborts : Bool
deriving DecidableEq, Repr

def ImportCall.step (env : ImportEnv) (c : CatalogTables) (call : ImportCall) : CatalogTables :=
  match importRepository env c call.inputs with
  | .ok c' => if call.aborts then c else c'
  | .error _ => c

/-! ## Reading a plan -/

/-- The manifest text a worker writes out for a job on the plan. -/
def manifestPayloadForPlan (c : CatalogTables) (plan : Nat) : Option String := do
  let p ← c.plans[plan]?
  let m ← c.manifestRevisions[p.manifestRevisionId]?
  return m.payload

/-- The ticket text it writes out, as the snapshot has it. -/
def snapshotPayloadForPlan (c : CatalogTables) (plan : Nat) : Option String := do
  let p ← c.plans[plan]?
  let m ← c.manifestRevisions[p.manifestRevisionId]?
  let s ← c.snapshots[m.snapshotId]?
  return s.rawPayload

end Inim
