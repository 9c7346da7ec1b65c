import Inim.Catalog.LatestView
import Inim.Catalog.PoliteClient
import Inim.Catalog.Scope
import Inim.Sources.Viewer
/-!
# The viewer adapter and the frontier (`catalog/grnoc_viewer.rs`)

| here | there |
| --- | --- |
| `ViewerTicketFetch`, `GrnocViewerError`, `GrnocViewerClient` | `grnoc_viewer.rs:27-76` |
| `endpointFor`, `fetchTicket`, `metadataFor` | `:214-338` |
| `mapClientError`, `ticketUrl` | `:372-379`, `:504-506` |
| `recordAnswer`, `syncIds`, `syncFrontier` | `sync_frontier` (`:381-501`) |
| `updateDiscoveryStatusRows`, `markFrontierFetched` | `store.rs:790-808`, `:877-892` |

serde is the parameter `ViewerEnv`. A `Visit` is an id with what happens at its turn: the replies of the
server, the time, and the error of a write, if the database refuses one.
-/

namespace Inim

open Lib

/-! ## Discoveries -/

/-- `DISCOVERY_STATUS_*`. -/
inductive DiscoveryStatus where
  | pending
  | fetched
  | unresolved
  | failed
deriving DecidableEq, Repr

structure TicketDiscovery where
  sourceKind : String
  externalId : String
  status : DiscoveryStatus
deriving DecidableEq, Repr

structure FrontierTables where
  sync : SyncTables
  discoveries : List TicketDiscovery
deriving DecidableEq, Repr

/-- A row of the ticket that is still Pending. -/
def TicketDiscovery.isPending (d : TicketDiscovery) (sourceKind externalId : String) : Bool :=
  d.sourceKind = sourceKind ∧ d.externalId = externalId ∧ d.status = .pending

def updateDiscoveryStatusRows (t : FrontierTables) (sourceKind externalId : String)
    (status : DiscoveryStatus) : FrontierTables :=
  { t with
    discoveries := t.discoveries.map fun d =>
      if d.isPending sourceKind externalId then { d with status := status } else d }

def markFrontierFetched (t : FrontierTables) (sourceKind externalId : String) : FrontierTables :=
  updateDiscoveryStatusRows t sourceKind externalId .fetched

/-! ## One ticket -/

/-- `GRNOC_VIEWER_BASE`. -/
def grnocViewerBase : String := "https://ticket-viewer.grnoc.iu.edu"

/-- `ACQUISITION_VIEWER_API`. -/
def acquisitionViewerApi : String := "grnoc-viewer-api"

inductive ViewerTicketFetch where
  | found (item : CatalogSourceItem) (status : Int) (contentType etag lastModified : Option String)
      (retries : Int) (conditionalRequested : Bool)
  | notFound (status retries : Int) (conditionalRequested : Bool)
  | unsupported
deriving DecidableEq, Repr

inductive GrnocViewerError where
  | stop (reason : StopReason)
  | transport (detail : String)
  | unexpectedStatus (status : Nat)
  | parse (detail : String)
deriving DecidableEq, Repr

structure GrnocViewerClient where
  client : PoliteClient
  baseUrl : String
deriving DecidableEq, Repr

structure ViewerEnv extends SyncEnv where
  /-- The records of a response. -/
  parseResponse : String → Except String (List ViewerRecord)
  recordJson : ViewerRecord → String
  /-- The object of `fetch_ticket`, with the number under `id`. -/
  normalizedJson : GrnocRecord → String

/-- What is written under `id` is read back. -/
structure ViewerTexts (env : ViewerEnv) : Prop where
  id : ∀ g, env.normalizedId (env.normalizedJson g) = some g.number

def endpointFor (number : String) : Option String :=
  if numberStartsWith number "inc" then some "/api/get_incidents"
  else if numberStartsWith number "chg" then some "/api/get_change_requests"
  else none

def ticketUrl (number : String) : String := s!"{grnocViewerBase}/tickets/{number}/"

def mapClientError : ClientError → GrnocViewerError
  | .stop s => .stop s
  | .tooManyRetries d => .transport d
  | .unexpectedStatus s => .unexpectedStatus s
  | .transport d => .transport d

/-- A POST with the body `{"number": …}`. -/
structure TicketRequest where
  url : String
  number : String
deriving DecidableEq, Repr

structure TicketLookup where
  client : GrnocViewerClient
  asked : List TicketRequest
  result : Except GrnocViewerError ViewerTicketFetch

def viewerItem (env : ViewerEnv) (baseUrl now : String) (record : ViewerRecord) :
    CatalogSourceItem :=
  let grnoc := toGrnocRecord record
  { source := "grnoc-public-task-viewer"
    externalId := grnoc.number
    fetchedAt := now
    sourceUrl := s!"{baseUrl}/tickets/{grnoc.number}/"
    rawPayload := env.recordJson record
    normalizedJson := env.normalizedJson grnoc }

/-- What a completed fetch says about a ticket; `retries` is `last_retries`. -/
def readOutcome (env : ViewerEnv) (baseUrl now : String) (retries : Int) :
    FetchOutcome → Except GrnocViewerError ViewerTicketFetch
  | .ok body => do
    let result ← (env.parseResponse body.body).mapError .parse
    match result.head? with
    | none => return .notFound body.status retries false
    | some record =>
      return .found (viewerItem env baseUrl now record) body.status body.contentType body.etag
        body.lastModified retries false
  | .notModified => .ok (.notFound 304 retries true)
  | .notFound => .ok (.notFound 404 retries false)
  | .forbidden => .error (.stop .forbidden)
  | .unauthorized => .error (.stop .authenticationRequired)

def fetchTicket (env : ViewerEnv) (c : GrnocViewerClient) (number now : String)
    (replies : Nat → HttpReply) : TicketLookup :=
  match endpointFor number with
  | none => ⟨c, [], .ok .unsupported⟩
  | some endpoint =>
    let run := c.client.fetchWith replies
    { client := { c with client := run.client }
      asked := [⟨c.baseUrl ++ endpoint, number⟩]
      result := do
        let outcome ← run.result.mapError mapClientError
        readOutcome env c.baseUrl now run.client.lastRetries outcome }

def metadataFor (fetch : ViewerTicketFetch) (sourceUrl : String) (conditional : Bool) :
    Option FetchMetadata :=
  match fetch with
  | .found _ status contentType etag lastModified retries _ => some {
      sourceUrl := sourceUrl
      httpStatus := status
      contentType := contentType
      etag := etag
      lastModified := lastModified
      acquisitionMethod := acquisitionViewerApi
      retryCount := retries
      conditionalRequested := conditional }
  | .notFound status retries conditionalRequested => some {
      sourceUrl := sourceUrl
      httpStatus := status
      contentType := none
      etag := none
      lastModified := none
      acquisitionMethod := acquisitionViewerApi
      retryCount := retries
      conditionalRequested := conditionalRequested }
  | .unsupported => none

/-! ## The frontier -/

structure CorpusSyncSummary where
  examined : Nat := 0
  scopeExcluded : Nat := 0
  newSnapshots : Nat := 0
  unchanged : Nat := 0
  notModified : Nat := 0
  notFound : Nat := 0
  unsupported : Nat := 0
  failures : Nat := 0
  stopped : Option StopReason := none
  requestsMade : Nat := 0
deriving DecidableEq, Repr

structure Visit where
  id : String
  replies : Nat → HttpReply
  now : String
  refused : Option String

/-- The counter of a recorded fetch. -/
def CorpusSyncSummary.countFound (s : CorpusSyncSummary) (r : OneFetchResult) : CorpusSyncSummary :=
  if r.createdSnapshot then { s with newSnapshots := s.newSnapshots + 1 }
  else if r.unchanged then { s with unchanged := s.unchanged + 1 }
  else if r.notModified then { s with notModified := s.notModified + 1 }
  else s

structure SyncCall where
  env : ViewerEnv
  scope : ProjectScope
  sourceKind : String
  startedAt : String

/-- The writes of an answer; each of them ends the sync when it fails. -/
def recordAnswer (call : SyncCall) (syncRunId : Nat) (refused : Option String) (externalId : String)
    (fetch : ViewerTicketFetch) (t : FrontierTables) (s : CorpusSyncSummary) :
    Except String (FrontierTables × CorpusSyncSummary) :=
  match refused with
  | some e => .error e
  | none =>
    match fetch with
    | .found item _ _ etag lastModified _ _ =>
      match metadataFor fetch (ticketUrl externalId) (etag.isSome || lastModified.isSome) with
      | none => .error "found fetch always has metadata"
      | some metadata =>
        match recordFetch call.env.toSyncEnv t.sync syncRunId none (some item) metadata
          call.startedAt with
        | (_, .error e) => .error e
        | (sync, .ok result) =>
          .ok (markFrontierFetched { t with sync := sync } call.sourceKind externalId,
            s.countFound result)
    | .notFound _ _ _ =>
      .ok (updateDiscoveryStatusRows t call.sourceKind externalId .unresolved,
        { s with notFound := s.notFound + 1 })
    | .unsupported =>
      .ok (updateDiscoveryStatusRows t call.sourceKind externalId .unresolved,
        { s with unsupported := s.unsupported + 1 })

structure FrontierState where
  tables : FrontierTables
  client : GrnocViewerClient
  summary : CorpusSyncSummary
  asked : List TicketRequest

/-- The loop, and the error it returns with. -/
def syncIds (call : SyncCall) (syncRunId : Nat) :
    FrontierState → List Visit → FrontierState × Option String
  | st, [] => (st, none)
  | st, v :: vs =>
    if st.client.client.budgetRemaining = 0 then
      ({ st with summary := { st.summary with stopped := some .budgetExhausted } }, none)
    else if call.scope.excludedSourceRecord call.sourceKind v.id then
      syncIds call syncRunId
        { st with summary := { st.summary with scopeExcluded := st.summary.scopeExcluded + 1 } } vs
    else
      let fetch := fetchTicket call.env st.client v.id v.now v.replies
      let s := { st.summary with examined := st.summary.examined + 1 }
      let st := { st with client := fetch.client, summary := s, asked := st.asked ++ fetch.asked }
      match fetch.result with
      | .error (.stop reason) => ({ st with summary := { s with stopped := some reason } }, none)
      | .error _ =>
        syncIds call syncRunId { st with summary := { s with failures := s.failures + 1 } } vs
      | .ok answer =>
        match recordAnswer call syncRunId v.refused v.id answer st.tables s with
        | .error e => (st, some e)
        | .ok (tables, s) => syncIds call syncRunId { st with tables := tables, summary := s } vs

structure FrontierOutcome where
  tables : FrontierTables
  client : GrnocViewerClient
  asked : List TicketRequest
  result : Except String CorpusSyncSummary

/-- The row a run starts with. -/
def SyncCall.runningRow (call : SyncCall) : CatalogSyncRun where
  source := call.sourceKind
  startedAt := call.startedAt
  completedAt := none
  status := "Running"
  eventsExamined := 0
  newEvents := 0
  changedEvents := 0
  unchangedEvents := 0
  failures := 0

/-- `UPDATE catalog_sync_runs`. -/
def SyncCall.completedRow (call : SyncCall) (s : CorpusSyncSummary) (row : CatalogSyncRun) :
    CatalogSyncRun :=
  { row with
    completedAt := some call.startedAt
    status := if s.stopped.isSome then "Stopped" else "Complete"
    eventsExamined := s.examined
    newEvents := s.newSnapshots
    changedEvents := 0
    unchangedEvents := s.unchanged
    failures := s.failures }

/-- The tables with the row of the run, in the transaction. -/
def SyncCall.begin (call : SyncCall) (t : FrontierTables) : FrontierTables :=
  { t with sync := { t.sync with syncRuns := t.sync.syncRuns ++ [call.runningRow] } }

/-- An error drops the transaction. -/
def syncFrontier (call : SyncCall) (t : FrontierTables) (client : GrnocViewerClient)
    (ids : List Visit) : FrontierOutcome :=
  let syncRunId := t.sync.syncRuns.length
  match syncIds call syncRunId ⟨call.begin t, client, {}, []⟩ ids with
  | (st, some e) => ⟨t, st.client, st.asked, .error e⟩
  | (st, none) =>
    let summary := { st.summary with requestsMade := st.client.client.requestsMade }
    { tables := { st.tables with
        sync := { st.tables.sync with
          syncRuns := st.tables.sync.syncRuns.modify syncRunId (call.completedRow summary) } }
      client := st.client
      asked := st.asked
      result := .ok summary }

end Inim
