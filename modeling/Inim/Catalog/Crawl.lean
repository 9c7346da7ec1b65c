import Inim.Catalog.CaseImport
import Inim.Catalog.Frontier
import Inim.Catalog.References
import Inim.Lib.FirstSeen
import Inim.Lib.Phases
/-!
# The crawl for tickets (`catalog/discovery.rs`, `main.rs:2825-3180`)

| here | there |
| --- | --- |
| `Provenance`, `DiscoveryRow` | `domain.rs:198-236`; the row is unique by `migrations.rs:330` |
| `recordDiscovery`, `listDiscoveries`, `pendingFrontier` | `store.rs:678-707`, `:724-765`, `:769-788` |
| `recordAnalystSeed`, `recordCaseStudyReferences`, `recordDocumentReferences` | `discovery.rs:129-218` |
| `expansionText`, `mentions`, `expandFromSnapshots` | `expand_from_snapshots` (`discovery.rs:226-278`) |
| `search`, `findCaseStudy`, `linkCaseStudyTickets` | `grnoc_viewer.rs:167-212`, `archive_plan.rs:643-666`, `grnoc_viewer.rs:508-541` |
| `corpusSync` | `cmd_grnoc_sync_live` (`main.rs:2824-3175`), behind the checks of its policy and scope |

The rows of `list_snapshots` that share a time come in any order (`SnapshotOrder`). The texts that the
command prints are left out, and the database refuses no write but by its foreign keys, and in the
transaction of the sync (`Visit.refused`).
-/

namespace Inim.Crawl

open Std Lib CaseImport

/-! ## Tables -/

/-- `DISCOVERY_*`: how an id entered the corpus. -/
inductive Provenance where
  | analystSeed
  | documentReference
  | descriptionReference
  | publicSearchResult
  | caseStudyReference
  | otherReviewedSource
deriving DecidableEq, Repr

structure DiscoveryRow extends TicketDiscovery where
  provenance : Provenance
  sourceSnapshotId : Option Nat
  sourceDocumentId : Option Nat
  discoveredAt : String
deriving DecidableEq, Repr

def DiscoveryRow.key (d : DiscoveryRow) : String × String × Provenance :=
  (d.sourceKind, d.externalId, d.provenance)

def DiscoveryRow.withTicket (d : DiscoveryRow) (ticket : TicketDiscovery) : DiscoveryRow :=
  { d with toTicketDiscovery := ticket }

structure CorpusTables where
  /-- With the catalog, and the reference documents. -/
  cases : CaseTables
  syncRuns : List CatalogSyncRun
  fetches : List SnapshotFetch
  discoveries : List DiscoveryRow
deriving DecidableEq, Repr

namespace CorpusTables

def empty : CorpusTables := ⟨.empty, [], [], []⟩

def catalog (t : CorpusTables) : CatalogTables := t.cases.catalog

def sync (t : CorpusTables) : SyncTables := ⟨t.cases.catalog, t.syncRuns, t.fetches⟩

def withSync (t : CorpusTables) (s : SyncTables) : CorpusTables :=
  { t with
    cases := { t.cases with catalog := s.catalog }
    syncRuns := s.syncRuns
    fetches := s.fetches }

/-- What a sync of the frontier reads. -/
def frontier (t : CorpusTables) : FrontierTables :=
  ⟨t.sync, t.discoveries.map DiscoveryRow.toTicketDiscovery⟩

/-- What it leaves: of the discoveries it writes the status alone. -/
def withFrontier (t : CorpusTables) (f : FrontierTables) : CorpusTables :=
  { t.withSync f.sync with
    discoveries := t.discoveries.zipWith DiscoveryRow.withTicket f.discoveries }

end CorpusTables

/-- The foreign keys of a row. -/
def CorpusTables.hasSources (t : CorpusTables) (d : DiscoveryRow) : Bool :=
  d.sourceSnapshotId.all (· < t.catalog.snapshots.length) &&
    d.sourceDocumentId.all (· < t.cases.documents.length)

def recordDiscovery (t : CorpusTables) (d : DiscoveryRow) : Except String (CorpusTables × Nat) :=
  match t.discoveries.findIdx? fun row => decide (row.key = d.key) with
  | some id => .ok (t, id)
  | none =>
    if t.hasSources d then
      .ok ({ t with discoveries := t.discoveries ++ [d] }, t.discoveries.length)
    else .error "catalog write failed: FOREIGN KEY constraint failed"

/-- `ORDER BY discovered_at, id`. -/
def listDiscoveries (t : CorpusTables) (sourceKind : String) (status : Option DiscoveryStatus) :
    List DiscoveryRow :=
  sortBy (compareOn (·.discoveredAt))
    (t.discoveries.filter fun d => d.sourceKind = sourceKind ∧ status.all (d.status = ·))

/-- `GROUP BY external_id ORDER BY MIN(discovered_at), MIN(id)`. -/
def pendingFrontier (t : CorpusTables) (sourceKind : String) : List String :=
  let rows := t.discoveries.zipIdx.filter fun d => d.1.sourceKind = sourceKind ∧ d.1.status = .pending
  let group (id : String) := rows.filter (·.1.externalId = id)
  sortBy (compareLex (compareOn fun id => ((group id).map (·.1.discoveredAt)).min?.getD "")
      (compareOn fun id => ((group id).map (·.2)).min?.getD 0))
    (firstSeen (rows.map (·.1.externalId)))

/-! ## Seeds and references -/

/-- A row as it is recorded. -/
def pendingRow (sourceKind externalId : String) (provenance : Provenance)
    (sourceSnapshotId sourceDocumentId : Option Nat) (discoveredAt : String) : DiscoveryRow where
  sourceKind := sourceKind
  externalId := externalId
  status := .pending
  provenance := provenance
  sourceSnapshotId := sourceSnapshotId
  sourceDocumentId := sourceDocumentId
  discoveredAt := discoveredAt

def recordAnalystSeed (t : CorpusTables) (sourceKind externalId discoveredAt : String) :
    Except String (CorpusTables × Nat) :=
  recordDiscovery t (pendingRow sourceKind externalId .analystSeed none none discoveredAt)

/-- One row after the other; with the first error the loop ends. -/
def recordRows (t : CorpusTables) (rows : List DiscoveryRow) : CorpusTables × Option String :=
  inTurn t (rows.map fun d => attempt fun t => (recordDiscovery t d).map (·.1))

/-- What a loop over references returns. -/
def countRows (n : Nat) (r : CorpusTables × Option String) : CorpusTables × Except String Nat :=
  match r with
  | (t, none) => (t, .ok n)
  | (t, some e) => (t, .error e)

/-- `ORDER BY sort_order, id`. -/
def caseStudyIdentifiers (t : CaseTables) (caseStudyId : Nat) : List String :=
  (sortBy (compareOn (·.sortOrder)) (t.eventLinks.filter (·.caseStudyId = caseStudyId))).map
    (·.externalIdentifier)

def recordCaseStudyReferences (t : CorpusTables) (sourceKind : String) (caseStudyId : Nat)
    (discoveredAt : String) : CorpusTables × Except String Nat :=
  let rows := (caseStudyIdentifiers t.cases caseStudyId).map fun externalId =>
    pendingRow sourceKind externalId .caseStudyReference none none discoveredAt
  countRows rows.length (recordRows t rows)

def recordDocumentReferences (t : CorpusTables) (sourceKind : String) (documentId : Nat)
    (externalIds : List String) (discoveredAt : String) : CorpusTables × Except String Nat :=
  let rows := externalIds.map fun externalId =>
    pendingRow sourceKind externalId .documentReference none (some documentId) discoveredAt
  countRows rows.length (recordRows t rows)

/-! ## Reference expansion -/

structure CrawlEnv extends ViewerEnv where
  words : WordClass
  /-- The string under a name, if the text is an object that has one there. -/
  stringField : String → String → Option String

/-- An answer of `list_snapshots`, for each event. -/
structure SnapshotOrder where
  list : CatalogTables → Nat → List EventSnapshot
  listing : ∀ c eventId, IsSnapshotListing c eventId (list c eventId)

/-- `ORDER BY last_seen DESC, external_id ASC`, with the ids. -/
def listEvents (c : CatalogTables) : List (CatalogEvent × Nat) :=
  sortBy (compareLex (fun a b => compare b.1.lastSeen a.1.lastSeen) (compareOn (·.1.externalId)))
    c.events.zipIdx

/-- The text that references are looked for in. -/
def expansionText (env : CrawlEnv) (normalizedJson : String) : String :=
  ["description", "notification_text", "title"].foldl (fun text field =>
    match env.stringField normalizedJson field with
    | some v => text ++ v ++ "\n"
    | none => text) ""

/-- A reference, with the event and the id of the snapshot whose text it is in. -/
structure Mention where
  event : CatalogEvent
  snapshotId : Option Nat
  reference : TicketReference
deriving DecidableEq, Repr

/-- The references of the latest snapshots; the loops over them write no table that they read. -/
def mentions (env : CrawlEnv) (order : SnapshotOrder) (c : CatalogTables) (sourceKind : String) :
    List Mention :=
  ((listEvents c).filter (·.1.sourceKind = sourceKind)).flatMap fun e =>
    (order.list c e.2).head?.toList.flatMap fun latest =>
      (extractTicketReferences env.words (expansionText env latest.normalizedJson)).map
        (Mention.mk e.1 (c.snapshots.findIdx? fun s => decide (s = latest)))

/-- The row of a mention. -/
def mentionRow (sourceKind discoveredAt : String) (m : Mention) : DiscoveryRow :=
  pendingRow sourceKind m.reference.externalId .descriptionReference m.snapshotId none discoveredAt

/-- A mention that is not of the ticket itself; a row more is a new one. -/
def expandMention (sourceKind discoveredAt : String) (m : Mention) (st : CorpusTables × Nat) :
    Except String (CorpusTables × Nat) :=
  if m.reference.externalId = m.event.externalId then .ok st
  else do
    let before := (listDiscoveries st.1 sourceKind none).length
    let t := (← recordDiscovery st.1 (mentionRow sourceKind discoveredAt m)).1
    let after := (listDiscoveries t sourceKind none).length
    return (t, if after > before then st.2 + 1 else st.2)

def expandFromSnapshots (env : CrawlEnv) (order : SnapshotOrder) (t : CorpusTables)
    (sourceKind discoveredAt : String) : CorpusTables × Except String Nat :=
  let r := inTurn (t, 0) ((mentions env order t.catalog sourceKind).map fun m =>
    attempt (expandMention sourceKind discoveredAt m))
  countRows r.1.2 (r.1.1, r.2)

/-! ## The search -/

/-- A POST with `active` true and `offset` 0. -/
structure SearchRequest where
  url : String
  query : String
  domainId : Option String
  limit : Nat
deriving DecidableEq, Repr

structure SearchLookup where
  client : GrnocViewerClient
  asked : List SearchRequest
  result : Except GrnocViewerError (List ViewerRecord)

def search (env : ViewerEnv) (c : GrnocViewerClient) (endpoint query : String)
    (domainId : Option String) (limit : Nat) (replies : Nat → HttpReply) : SearchLookup :=
  if trimBlank query then ⟨c, [], .error (.stop .forbidden)⟩
  else
    let run := c.client.fetchWith replies
    { client := { c with client := run.client }
      asked := [⟨c.baseUrl ++ endpoint, query, domainId, limit⟩]
      result := do
        match ← run.result.mapError mapClientError with
        | .ok body => (env.parseResponse body.body).mapError .parse
        | .forbidden => .error (.stop .forbidden)
        | .unauthorized => .error (.stop .authenticationRequired)
        | .notFound => .ok []
        | .notModified => .ok [] }

/-! ## Case studies -/

def findCaseStudy (t : CaseTables) (slug : String) : Option Nat :=
  t.cases.findIdx? fun row => decide (row.slug = slug)

def eventByExternal (c : CatalogTables) (sourceKind externalId : String) : Option Nat :=
  c.events.findIdx? fun e => decide (e.key = (sourceKind, externalId))

/-- A link of the case study that is unresolved. -/
def linkTicket (c : CatalogTables) (caseStudyId : Nat) (sourceKind : String) (l : CaseStudyEventLink) :
    CaseStudyEventLink :=
  if l.caseStudyId = caseStudyId ∧ l.catalogEventId = none then
    { l with catalogEventId := eventByExternal c sourceKind l.externalIdentifier }
  else l

def linkCaseStudyTickets (t : CorpusTables) (caseStudyId : Nat) (sourceKind : String) :
    CorpusTables × Nat :=
  ({ t with cases := { t.cases with
      eventLinks := t.cases.eventLinks.map (linkTicket t.catalog caseStudyId sourceKind) } },
    t.cases.eventLinks.countP fun l =>
      l.caseStudyId = caseStudyId ∧ l.catalogEventId = none ∧
        (eventByExternal t.catalog sourceKind l.externalIdentifier).isSome)

/-! ## The command -/

/-- `EXIT_*` (`main.rs:23-25`). -/
def exitSuccess : Nat := 0

def exitInvalidInput : Nat := 1

def exitAnalysisIncomplete : Nat := 2

def viewerKind : String := "grnoc-public-task-viewer"

/-- A query, with the replies to it. -/
structure Search where
  query : String
  replies : Nat → HttpReply

/-- What a lookup meets (`Visit`). -/
structure Meeting where
  replies : Nat → HttpReply
  now : String
  refused : Option String

/-- The arguments of the command, and what it meets. -/
structure CorpusSync where
  searches : List Search
  domain : Option String
  seeds : List String
  caseStudies : List String
  expandReferences : Bool
  dryRun : Bool
  scope : ProjectScope
  client : GrnocViewerClient
  now : String
  startedAt : String
  expandedAt : String
  meet : String → Meeting
  firstOrder : SnapshotOrder
  secondOrder : SnapshotOrder

structure CrawlState where
  tables : CorpusTables
  client : GrnocViewerClient
  searched : List SearchRequest
  /-- The numbers that searches have seeded. -/
  found : List String

/-- A phase that writes tables alone. -/
def onTables (f : CorpusTables → CorpusTables × Option String) (st : CrawlState) :
    CrawlState × Option String :=
  ({ st with tables := (f st.tables).1 }, (f st.tables).2)

/-- An error ends the command. -/
def orEnd (r : CorpusTables × Except String Nat) : CorpusTables × Option String :=
  match r with
  | (t, .ok _) => (t, none)
  | (t, .error e) => (t, some e)

namespace CorpusSync
variable (call : CorpusSync) (env : CrawlEnv)

def endpoint : String := if call.domain.isSome then "/api/get_incidents" else "/api/get_change_requests"

def seedPhase (number : String) (t : CorpusTables) : CorpusTables × Option String :=
  attempt (fun t => (recordAnalystSeed t viewerKind number call.now).map (·.1)) t

/-- The numbers that are in scope. -/
def inScope (records : List ViewerRecord) : List String :=
  (records.map (·.number)).filter fun number => !call.scope.excludedSourceRecord viewerKind number

/-- A search that fails ends the searches, and not the command. -/
def searchPhase : List Search → CrawlState → CrawlState × Option String
  | [], st => (st, none)
  | q :: qs, st =>
    if st.client.client.budgetRemaining = 0 then (st, none)
    else
      let s := search env.toViewerEnv st.client call.endpoint q.query call.domain 20 q.replies
      let st := { st with client := s.client, searched := st.searched ++ s.asked }
      match s.result with
      | .error _ => (st, none)
      | .ok records =>
        let r := inTurn st.tables ((call.inScope records).map call.seedPhase)
        let st := { st with tables := r.1, found := st.found ++ call.inScope records }
        match r.2 with
        | some e => (st, some e)
        | none => searchPhase qs st

def casePhase (slug : String) (t : CorpusTables) : CorpusTables × Option String :=
  match findCaseStudy t.cases slug with
  | none => (t, some s!"no case study with slug '{slug}'")
  | some id => orEnd (recordCaseStudyReferences t viewerKind id call.now)

def expandPhase (order : SnapshotOrder) (discoveredAt : String) (t : CorpusTables) :
    CorpusTables × Option String :=
  orEnd (expandFromSnapshots env order t viewerKind discoveredAt)

/-- Up to the frontier. -/
def phases : List (CrawlState → CrawlState × Option String) :=
  (if call.dryRun then [] else [call.searchPhase env call.searches]) ++
    (call.seeds.map call.seedPhase ++ call.caseStudies.map call.casePhase ++
      if call.expandReferences then [expandPhase env call.firstOrder call.now] else []).map onTables

def begin (t : CorpusTables) : CrawlState × Option String :=
  inTurn ⟨t, call.client, [], []⟩ (call.phases env)

def visit (id : String) : Visit := ⟨id, (call.meet id).replies, (call.meet id).now, (call.meet id).refused⟩

def syncCall : SyncCall := ⟨env.toViewerEnv, call.scope, viewerKind, call.startedAt⟩

def visits (t : CorpusTables) : List Visit := (pendingFrontier t viewerKind).map call.visit

def linkPhase (slug : String) (t : CorpusTables) : CorpusTables × Option String :=
  match findCaseStudy t.cases slug with
  | none => (t, none)
  | some id => ((linkCaseStudyTickets t id viewerKind).1, none)

/-- Behind the sync; the references of the fresh texts are "for a later run". -/
def lastPhases : List (CorpusTables → CorpusTables × Option String) :=
  call.caseStudies.map linkPhase ++
    if call.expandReferences then [expandPhase env call.secondOrder call.expandedAt] else []

end CorpusSync

structure CorpusOutcome where
  tables : CorpusTables
  client : GrnocViewerClient
  searched : List SearchRequest
  asked : List TicketRequest
  exit : Nat

/-- The end of a command that has not come to its sync. -/
def CrawlState.stop (st : CrawlState) (exit : Nat) : CorpusOutcome :=
  ⟨st.tables, st.client, st.searched, [], exit⟩

/-- The sync of the frontier, and what follows it. -/
def CorpusSync.fetch (call : CorpusSync) (env : CrawlEnv) (st : CrawlState) : CorpusOutcome :=
  let r := syncFrontier (call.syncCall env) st.tables.frontier st.client (call.visits st.tables)
  let synced := st.tables.withFrontier r.tables
  match r.result with
  | .error _ => ⟨synced, r.client, st.searched, r.asked, exitInvalidInput⟩
  | .ok summary =>
    match inTurn synced (call.lastPhases env) with
    | (t, some _) => ⟨t, r.client, st.searched, r.asked, exitInvalidInput⟩
    | (t, none) => ⟨t, r.client, st.searched, r.asked,
        if summary.stopped.isSome then exitAnalysisIncomplete else exitSuccess⟩

def corpusSync (env : CrawlEnv) (call : CorpusSync) (t : CorpusTables) : CorpusOutcome :=
  match call.begin env t with
  | (st, some _) => st.stop exitInvalidInput
  | (st, none) =>
    if pendingFrontier st.tables viewerKind = [] then st.stop exitInvalidInput
    else if call.dryRun then st.stop exitSuccess
    else call.fetch env st

/-! ## Histories -/

/-- A command, one after the other. -/
inductive CrawlOp where
  | corpusSync (call : CorpusSync)
  | documentReferences (documentId : Nat) (externalIds : List String) (discoveredAt : String)
  | importCaseStudy (env : CaseEnv) (call : CaseImport.ImportCall)
  | syncDirectory (listItems : Except String (List CatalogSourceItem)) (startedAt : String)

def CrawlOp.step (env : CrawlEnv) (t : CorpusTables) : CrawlOp → CorpusTables
  | corpusSync call => (Crawl.corpusSync env call t).tables
  | documentReferences documentId externalIds discoveredAt =>
    (recordDocumentReferences t viewerKind documentId externalIds discoveredAt).1
  | importCaseStudy caseEnv call => { t with cases := (CaseImport.importCaseStudy caseEnv t.cases call).1 }
  | syncDirectory listItems startedAt =>
    t.withSync (syncCatalog env.toSyncEnv t.sync viewerKind listItems startedAt).1

end Inim.Crawl
