import Inim.Catalog.Import
import Inim.Lib.Listing

/-!
# Catalog synchronization (`catalog/sync.rs`)

| here | there |
| --- | --- |
| `CatalogSourceItem`, `CatalogSyncRun`, `SnapshotFetch` | `domain.rs:165-246` |
| `eventExternalId`  | `grnoc.rs:138-144` |
| `syncItem`, `syncCatalog` | `sync.rs:24-128` |
| `recordFetch`      | `sync.rs:182-260` |
| `insertSnapshotFetch` | `store.rs:812-836`; the foreign keys of `migrations.rs:333-347` are enforced (`db.rs:58`) |
| `snapshotsOf`, `IsSnapshotListing` | `list_snapshots` (`db.rs:180-210`) |

`list_snapshots` orders by `fetched_at DESC` and by nothing else (`list_snapshot_fetches` adds
`id DESC`), so rows of one timestamp may come in any order. The counters are unbounded here.
-/

namespace Inim

open Inim.Lib

structure CatalogSourceItem where
  source : String
  externalId : String
  fetchedAt : String
  sourceUrl : String
  rawPayload : String
  normalizedJson : String
deriving DecidableEq, Repr

structure SyncSummary where
  eventsExamined : Nat := 0
  newEvents : Nat := 0
  changedEvents : Nat := 0
  unchangedEvents : Nat := 0
  failures : Nat := 0
deriving DecidableEq, Repr

structure CatalogSyncRun where
  source : String
  startedAt : String
  completedAt : Option String
  status : String
  eventsExamined : Nat
  newEvents : Nat
  changedEvents : Nat
  unchangedEvents : Nat
  failures : Nat
deriving DecidableEq, Repr

structure SnapshotFetch where
  eventId : Nat
  syncRunId : Nat
  fetchedAt : String
  sourceUrl : String
  httpStatus : Int
  contentType : Option String
  etag : Option String
  lastModified : Option String
  acquisitionMethod : String
  retryCount : Int
  snapshotId : Option Nat
  conditionalRequested : Bool
deriving DecidableEq, Repr

structure SyncTables where
  catalog : CatalogTables
  syncRuns : List CatalogSyncRun
  fetches : List SnapshotFetch
deriving DecidableEq, Repr

def SyncTables.empty : SyncTables := ⟨.empty, [], []⟩

structure SyncEnv where
  sha256 : String → String
  /-- The string field `id` of a normalized record, if it parses and has one. -/
  normalizedId : String → Option String

def grnocParserVersion : String := "grnoc-record-1"

def eventExternalId (env : SyncEnv) (item : CatalogSourceItem) : String :=
  (env.normalizedId item.normalizedJson).getD item.externalId

/-- The snapshot both paths build for an item. -/
def itemSnapshot (env : SyncEnv) (item : CatalogSourceItem) (startedAt : String) (eventId : Nat) :
    EventSnapshot where
  eventId := eventId
  fetchedAt := startedAt
  sourceUrl := item.sourceUrl
  contentSha256 := env.sha256 item.rawPayload
  rawPayload := item.rawPayload
  normalizedJson := item.normalizedJson
  parserVersion := grnocParserVersion

/-- `SELECT id … WHERE event_id = ?1 AND content_sha256 = ?2`. -/
def existingSnapshot (c : CatalogTables) (eventId : Nat) (sha : String) : Option Nat :=
  c.snapshots.findIdx? fun s => decide (s.key = (eventId, sha))

def snapshotsOf (c : CatalogTables) (eventId : Nat) : List EventSnapshot :=
  c.snapshots.filter (·.eventId = eventId)

/-- One of the results `list_snapshots` may have. -/
def IsSnapshotListing (c : CatalogTables) (eventId : Nat) (l : List EventSnapshot) : Prop :=
  Listing EventSnapshot.fetchedAt (snapshotsOf c eventId) l

/-! ## `sync_catalog` -/

def syncItem (env : SyncEnv) (startedAt : String) (st : CatalogTables × SyncSummary)
    (item : CatalogSourceItem) : CatalogTables × SyncSummary :=
  let summary := { st.2 with eventsExamined := st.2.eventsExamined + 1 }
  let e := upsertEvent st.1 item.source (eventExternalId env item) startedAt
  match existingSnapshot e.1 e.2 (env.sha256 item.rawPayload) with
  | some _ => (e.1, { summary with unchangedEvents := summary.unchangedEvents + 1 })
  | none =>
    let c := (insertSnapshot e.1 (itemSnapshot env item startedAt e.2)).1
    -- the first snapshot of an event is "new", a later one a changed ticket
    if (snapshotsOf c e.2).length ≤ 1 then
      (c, { summary with newEvents := summary.newEvents + 1 })
    else (c, { summary with changedEvents := summary.changedEvents + 1 })

def syncCatalog (env : SyncEnv) (c : SyncTables) (source : String)
    (listItems : Except String (List CatalogSourceItem)) (startedAt : String) :
    SyncTables × Except String SyncSummary :=
  match listItems with
  | .error e => (c, .error ("sync source failed: " ++ e))
  | .ok items =>
    let r := items.foldl (syncItem env startedAt) (c.catalog, {})
    ({ c with
        catalog := r.1
        syncRuns := c.syncRuns ++ [{
          source := source
          startedAt := startedAt
          completedAt := some startedAt
          status := "Complete"
          eventsExamined := r.2.eventsExamined
          newEvents := r.2.newEvents
          changedEvents := r.2.changedEvents
          unchangedEvents := r.2.unchangedEvents
          failures := r.2.failures }] }, .ok r.2)

/-! ## `record_fetch` -/

structure FetchMetadata where
  sourceUrl : String
  httpStatus : Int
  contentType : Option String
  etag : Option String
  lastModified : Option String
  acquisitionMethod : String
  retryCount : Int
  conditionalRequested : Bool
deriving DecidableEq, Repr

structure OneFetchResult where
  httpStatus : Int
  createdSnapshot : Bool
  unchanged : Bool
  notModified : Bool
  notFound : Bool
  snapshotId : Option Nat
  fetchRecordId : Nat
deriving DecidableEq, Repr

def insertSnapshotFetch (c : SyncTables) (f : SnapshotFetch) : Except String (SyncTables × Nat) :=
  if f.eventId < c.catalog.events.length ∧ f.syncRunId < c.syncRuns.length ∧
      f.snapshotId.all (· < c.catalog.snapshots.length) then
    .ok ({ c with fetches := c.fetches ++ [f] }, c.fetches.length)
  else .error "catalog write failed: FOREIGN KEY constraint failed"

/-- The locals of `record_fetch` when the payload is dealt with. -/
structure FetchedPayload where
  catalog : CatalogTables
  eventId : Option Nat
  snapshotId : Option Nat := none
  created : Bool := false
  unchanged : Bool := false
  notFound : Bool := false

def fetchPayload (env : SyncEnv) (c : CatalogTables) (eventId : Option Nat)
    (item : Option CatalogSourceItem) (httpStatus : Int) (startedAt : String) : FetchedPayload :=
  if httpStatus = 404 then { catalog := c, eventId := eventId, notFound := true }
  else match item with
    | none => { catalog := c, eventId := eventId }
    | some item =>
      let e := upsertEvent c item.source (eventExternalId env item) startedAt
      match existingSnapshot e.1 e.2 (env.sha256 item.rawPayload) with
      | some id => { catalog := e.1, eventId := some e.2, snapshotId := some id, unchanged := true }
      | none =>
        let s := insertSnapshot e.1 (itemSnapshot env item startedAt e.2)
        { catalog := s.1, eventId := some e.2, snapshotId := some s.2, created := true }

/-- A refused fetch row leaves the payload's rows where they are: there is no transaction here. -/
def recordFetch (env : SyncEnv) (c : SyncTables) (syncRunId : Nat) (eventId : Option Nat)
    (item : Option CatalogSourceItem) (metadata : FetchMetadata) (startedAt : String) :
    SyncTables × Except String OneFetchResult :=
  let p := fetchPayload env c.catalog eventId item metadata.httpStatus startedAt
  let c := { c with catalog := p.catalog }
  match p.eventId with
  | none => (c, .error "record_fetch requires an event id when no source item is provided")
  | some fetchEventId =>
    match insertSnapshotFetch c {
        eventId := fetchEventId
        syncRunId := syncRunId
        fetchedAt := startedAt
        sourceUrl := metadata.sourceUrl
        httpStatus := metadata.httpStatus
        contentType := metadata.contentType
        etag := metadata.etag
        lastModified := metadata.lastModified
        acquisitionMethod := metadata.acquisitionMethod
        retryCount := metadata.retryCount
        snapshotId := p.snapshotId
        conditionalRequested := metadata.conditionalRequested } with
    | .error e => (c, .error e)
    | .ok (c, fetchRecordId) => (c, .ok {
        httpStatus := metadata.httpStatus
        createdSnapshot := p.created
        unchanged := p.unchanged
        notModified := metadata.httpStatus = 304
        notFound := p.notFound
        snapshotId := p.snapshotId
        fetchRecordId := fetchRecordId })

/-! ## Sequences of operations -/

inductive SyncOp where
  | sync (source : String) (listItems : Except String (List CatalogSourceItem)) (startedAt : String)
  | fetch (syncRunId : Nat) (eventId : Option Nat) (item : Option CatalogSourceItem)
      (metadata : FetchMetadata) (startedAt : String)

def SyncOp.step (env : SyncEnv) (c : SyncTables) : SyncOp → SyncTables
  | .sync source listItems startedAt => (syncCatalog env c source listItems startedAt).1
  | .fetch syncRunId eventId item metadata startedAt =>
    (recordFetch env c syncRunId eventId item metadata startedAt).1

end Inim
