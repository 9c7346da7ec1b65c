import Inim.Catalog.Frontier
/-!
# The turns of a frontier's ids (`catalog/grnoc_viewer.rs:404-472`)

What the scope, the client and the server make of the ids is a `Walk`, which no table has a part in. The
sync does what the walk says (`syncIds_spec`): it asks for the ids looked up, its counters tell the turns
apart (`Counted`), and its tables hold the records found (`TablesHeld`). Recording a record cannot fail
where the references of the tables hold (`recordFetch_found`), except for what the database refuses.
-/

namespace Inim

open Lib

/-! ## The tables by numbers -/

namespace SyncTables

/-- The source and number of each recorded fetch. -/
def fetchedKeys (c : SyncTables) : List (Option (String × String)) :=
  c.fetches.map fun f => c.catalog.eventKeys[f.eventId]?

/-- The source and number of each snapshot, with its content. -/
def snapshotKeys (c : SyncTables) : List (Option (String × String) × String) :=
  c.catalog.snapshots.map fun s => (c.catalog.eventKeys[s.eventId]?, s.contentSha256)

/-- Events are unique, and the references to them hold. -/
structure WellFormed (c : SyncTables) : Prop where
  nodup : c.catalog.eventKeys.Nodup
  snapshots : ∀ k ∈ c.snapshotKeys, k.1.isSome
  fetches : ∀ k ∈ c.fetchedKeys, k.isSome

end SyncTables

theorem getElem?_eventKeys {ks ks' : List (String × String)} {i : Nat} (h : ks <+: ks')
    (hi : ks[i]?.isSome) : ks'[i]? = ks[i]? := by
  obtain ⟨k, hk⟩ := Option.isSome_iff_exists.1 hi
  rw [hk]
  exact getElem?_of_initial h hk

/-! ## One record -/

theorem insertSnapshot_new {c : CatalogTables} {s : EventSnapshot}
    (h : existingSnapshot c s.eventId s.contentSha256 = none) :
    insertSnapshot c s = ({ c with snapshots := c.snapshots ++ [s] }, c.snapshots.length) := by
  have hfind : (c.snapshots.findIdx? fun a => decide (a.key = s.key)) = none := h
  simp only [insertSnapshot, insertUnique, hfind]

section Record
variable (env : SyncEnv)

/-- The event of the payload is there, under the id it is given. -/
theorem upsertEvent_id (c : CatalogTables) (f : Fetched) :
    (storePayload env c f).eventKeys[(upsertEvent c f.item.source (eventExternalId env f.item)
      f.at_).2]? = some (f.event env) := by
  obtain ⟨-, hid⟩ := upsertEvent_keys c f.item.source (eventExternalId env f.item) f.at_
  have hrow := insertUnique_key id (f.event env) c.eventKeys
  rw [storePayload_keys, hid]
  rwa [Option.map_id, id] at hrow

/-- What a found payload leaves: its event, a snapshot, which is new or was there, and the catalog. -/
structure PayloadStored (c : CatalogTables) (f : Fetched) (p : FetchedPayload) : Prop where
  catalog : p.catalog = storePayload env c f
  eventId : p.eventId = some (upsertEvent c f.item.source (eventExternalId env f.item) f.at_).2
  snapshotId : ∃ id, p.snapshotId = some id ∧ id < p.catalog.snapshots.length
  unchanged : p.unchanged = !p.created
  created : p.catalog.snapshots.length = c.snapshots.length + p.created.toNat

theorem fetchPayload_stored (c : CatalogTables) (item : CatalogSourceItem) (startedAt : String)
    (eventId : Option Nat) {httpStatus : Int} (h : httpStatus ≠ 404) :
    PayloadStored env c ⟨item, startedAt⟩
      (fetchPayload env c eventId (some item) httpStatus startedAt) := by
  have hcatalog := fetchPayload_catalog env c eventId (some item) httpStatus startedAt
  rw [if_neg h] at hcatalog
  have hsnapshots := upsertEvent_snapshots c item.source (eventExternalId env item) startedAt
  unfold fetchPayload at hcatalog ⊢
  rw [if_neg h] at hcatalog ⊢
  cases hfind : existingSnapshot (upsertEvent c item.source (eventExternalId env item) startedAt).1
      (upsertEvent c item.source (eventExternalId env item) startedAt).2
      (env.sha256 item.rawPayload) with
  | some i =>
    simp only [hfind] at hcatalog ⊢
    obtain ⟨hlt, -⟩ := List.findIdx?_eq_some_iff_getElem.1 hfind
    exact ⟨hcatalog, rfl, ⟨i, rfl, hlt⟩, rfl, by simp [hsnapshots]⟩
  | none =>
    simp only [hfind] at hcatalog ⊢
    rw [insertSnapshot_new hfind] at hcatalog ⊢
    exact ⟨hcatalog, rfl, ⟨_, rfl, by simp⟩, rfl, by simp [hsnapshots]⟩

/-- The snapshots by source, number and content: the payload's is there once. -/
theorem storePayload_snapshotKeys (c : CatalogTables) (f : Fetched) (hnodup : c.eventKeys.Nodup)
    (href : ∀ s ∈ c.snapshots, c.eventKeys[s.eventId]?.isSome) :
    (storePayload env c f).snapshots.map
        (fun s => ((storePayload env c f).eventKeys[s.eventId]?, s.contentSha256)) =
      (insertUnique id (some (f.event env), f.sha env)
        (c.snapshots.map fun s => (c.eventKeys[s.eventId]?, s.contentSha256))).1 := by
  have hinitial : c.eventKeys <+: (storePayload env c f).eventKeys := by
    rw [storePayload_keys]
    exact insertUnique_initial ..
  have hunique : ((storePayload env c f).eventKeys.map id).Nodup := by
    rw [storePayload_keys]
    exact insertUnique_nodup (by simpa using hnodup)
  have hrow := upsertEvent_id env c f
  have hold : c.snapshots.map (fun s => (c.eventKeys[s.eventId]?, s.contentSha256)) =
      c.snapshots.map fun s => ((storePayload env c f).eventKeys[s.eventId]?, s.contentSha256) :=
    List.map_congr_left fun s hs => by rw [getElem?_eventKeys hinitial (href s hs)]
  rw [hold]
  generalize (storePayload env c f).eventKeys = keys at *
  have hsnapshots : (storePayload env c f).snapshots = (insertUnique EventSnapshot.key
      (itemSnapshot env f.item f.at_
        (upsertEvent c f.item.source (eventExternalId env f.item) f.at_).2) c.snapshots).1 := by
    simp only [storePayload, insertSnapshot, upsertEvent_snapshots]
  rw [hsnapshots]
  have hmap : ∀ row : EventSnapshot,
      row.eventId = (upsertEvent c f.item.source (eventExternalId env f.item) f.at_).2 →
      (insertUnique id (keys[row.eventId]?, row.contentSha256)
        (c.snapshots.map fun s => (keys[s.eventId]?, s.contentSha256))).1 =
      (insertUnique EventSnapshot.key row c.snapshots).1.map
        fun s => (keys[s.eventId]?, s.contentSha256) := by
    intro row hid
    let event : EventSnapshot → Option (String × String) × String :=
      fun s => (keys[s.eventId]?, s.contentSha256)
    refine insertUnique_map EventSnapshot.key id event row _ fun a ha => ?_
    simp only [id, event, EventSnapshot.key, Prod.mk.injEq]
    refine and_congr_left fun _ => ⟨fun heq => ?_, fun heq => by rw [heq]⟩
    rw [hid, hrow] at heq
    rw [hid]
    exact id_eq_of_key hunique heq hrow rfl
  rw [← hmap _ rfl]
  simp only [itemSnapshot, hrow, Fetched.sha]

/-- What recording a found payload does to the tables. -/
structure FetchRecorded (f : Fetched) (c c' : SyncTables) (r : OneFetchResult) : Prop where
  wellFormed : c'.WellFormed
  syncRuns : c'.syncRuns = c.syncRuns
  fetched : c'.fetchedKeys = c.fetchedKeys ++ [some (f.event env)]
  snapshots : c'.snapshotKeys =
    (insertUnique id (some (f.event env), f.sha env) c.snapshotKeys).1
  created : c'.snapshotKeys.length = c.snapshotKeys.length + r.createdSnapshot.toNat
  unchanged : r.unchanged = !r.createdSnapshot

/-- A found payload is recorded, whatever the tables hold. -/
theorem recordFetch_found {c : SyncTables} (h : c.WellFormed) (item : CatalogSourceItem)
    (startedAt : String) {syncRunId : Nat} (metadata : FetchMetadata)
    (hrun : syncRunId < c.syncRuns.length) (hstatus : metadata.httpStatus ≠ 404) :
    ∃ c' r, recordFetch env c syncRunId none (some item) metadata startedAt = (c', .ok r) ∧
      FetchRecorded env ⟨item, startedAt⟩ c c' r := by
  have hp := fetchPayload_stored env c.catalog item startedAt none hstatus
  obtain ⟨i, hid, hlt⟩ := hp.snapshotId
  have hrow := upsertEvent_id env c.catalog ⟨item, startedAt⟩
  have hkeys := storePayload_keys env c.catalog ⟨item, startedAt⟩
  have hcreated := hp.created
  have hevent : (upsertEvent c.catalog item.source (eventExternalId env item) startedAt).2 <
      (storePayload env c.catalog ⟨item, startedAt⟩).events.length := by
    simpa [CatalogTables.eventKeys] using (List.getElem?_eq_some_iff.1 hrow).1
  have hsnapshots := storePayload_snapshotKeys env c.catalog ⟨item, startedAt⟩ h.nodup fun s hs =>
    h.snapshots _ (List.mem_map_of_mem hs)
  unfold recordFetch
  dsimp only
  rw [hp.eventId]
  dsimp only
  rw [hp.catalog] at hlt hcreated ⊢
  generalize storePayload env c.catalog ⟨item, startedAt⟩ = catalog at *
  rw [insertSnapshotFetch, if_pos ⟨hevent, hrun, by rw [hid]; exact decide_eq_true hlt⟩]
  have hfetched (f : SnapshotFetch) (hf : f.eventId =
      (upsertEvent c.catalog item.source (eventExternalId env item) startedAt).2) :
      (c.fetches ++ [f]).map (fun f => catalog.eventKeys[f.eventId]?) =
        c.fetchedKeys ++ [some (Fetched.event env ⟨item, startedAt⟩)] := by
    rw [List.map_append, List.map_singleton, hf, hrow]
    congr 1
    refine List.map_congr_left fun f hf => getElem?_eventKeys ?_ (h.fetches _ (List.mem_map_of_mem hf))
    rw [hkeys]
    exact insertUnique_initial ..
  refine ⟨_, _, rfl, ?_⟩
  refine ⟨⟨?_, fun k hk => ?_, fun k hk => ?_⟩, rfl, hfetched _ rfl, hsnapshots, ?_, hp.unchanged⟩
  · have hnodup : (c.catalog.eventKeys.map id).Nodup := by simpa using h.nodup
    rw [hkeys]
    have hinsert : ((insertUnique id (item.source, eventExternalId env item)
        c.catalog.eventKeys).1.map id).Nodup := insertUnique_nodup hnodup
    rwa [List.map_id] at hinsert
  · simp only [SyncTables.snapshotKeys, hsnapshots] at hk
    rcases mem_of_mem_insertUnique hk with hk | rfl
    · exact h.snapshots k hk
    · rfl
  · change k ∈ List.map _ (c.fetches ++ [_]) at hk
    rw [hfetched _ (by rfl)] at hk
    rcases List.mem_append.1 hk with hk | hk
    · exact h.fetches k hk
    · rw [List.mem_singleton.1 hk]
      rfl
  · simpa [SyncTables.snapshotKeys] using hcreated

end Record

/-! ## Turns -/

/-- What an id comes to that neither stops the sync nor is refused. -/
inductive Turn where
  | excluded
  | failed (e : GrnocViewerError)
  | answered (fetch : ViewerTicketFetch)
deriving DecidableEq, Repr

namespace Turn

def item : Turn → Option CatalogSourceItem
  | answered (.found item ..) => some item
  | _ => none

/-- The status the Pending rows of the id get. -/
def mark : Turn → Option DiscoveryStatus
  | answered (.found ..) => some .fetched
  | answered (.notFound ..) => some .unresolved
  | answered .unsupported => some .unresolved
  | _ => none

def isExcluded : Turn → Bool
  | excluded => true
  | _ => false

def isFailed : Turn → Bool
  | failed _ => true
  | _ => false

def isNotFound : Turn → Bool
  | answered (.notFound ..) => true
  | _ => false

def isUnsupported : Turn → Bool
  | answered .unsupported => true
  | _ => false

end Turn

/-- The items found. -/
def itemsOf (turns : List (String × Turn)) : List CatalogSourceItem := turns.filterMap (·.2.item)

/-- The key of the event of an item. -/
def CatalogSourceItem.eventKey (i : CatalogSourceItem) : String × String := (i.source, i.externalId)

def snapshotKey (env : ViewerEnv) (i : CatalogSourceItem) : Option (String × String) × String :=
  (some i.eventKey, env.sha256 i.rawPayload)

/-- How often the turns have a property. -/
def countTurns (p : Turn → Bool) (turns : List (String × Turn)) : Nat := turns.countP (p ·.2)

/-- What a turn makes of a row. -/
def TicketDiscovery.settle (sourceKind : String) (d : TicketDiscovery) (e : String × Turn) :
    TicketDiscovery :=
  match e.2.mark with
  | none => d
  | some status => if d.isPending sourceKind e.1 then { d with status := status } else d

/-- The counters tell the turns apart: each examined id is in one of them. -/
structure Counted (turns : List (String × Turn)) (s : CorpusSyncSummary) : Prop where
  scopeExcluded : s.scopeExcluded = countTurns Turn.isExcluded turns
  found : s.newSnapshots + s.unchanged + s.notModified = (itemsOf turns).length
  notFound : s.notFound = countTurns Turn.isNotFound turns
  unsupported : s.unsupported = countTurns Turn.isUnsupported turns
  failures : s.failures = countTurns Turn.isFailed turns
  examined : s.examined =
    s.newSnapshots + s.unchanged + s.notModified + s.notFound + s.unsupported + s.failures
  length : s.scopeExcluded + s.examined = turns.length
  stopped : s.stopped = none

/-- The tables after some turns. -/
structure TablesHeld (call : SyncCall) (t₀ : FrontierTables) (turns : List (String × Turn))
    (t : FrontierTables) : Prop where
  wellFormed : t.sync.WellFormed
  syncRuns : t.sync.syncRuns = t₀.sync.syncRuns
  fetched : t.sync.fetchedKeys = t₀.sync.fetchedKeys ++ (itemsOf turns).map fun i => some i.eventKey
  snapshots : t.sync.snapshotKeys = ((itemsOf turns).map (snapshotKey call.env)).foldl
    (fun keys k => (insertUnique id k keys).1) t₀.sync.snapshotKeys
  discoveries : t.discoveries = t₀.discoveries.map fun d => turns.foldl (·.settle call.sourceKind) d

structure Held (call : SyncCall) (t₀ : FrontierTables) (turns : List (String × Turn))
    (st : FrontierTables × CorpusSyncSummary) : Prop where
  tables : TablesHeld call t₀ turns st.1
  counted : Counted turns st.2
  created : st.1.sync.snapshotKeys.length = t₀.sync.snapshotKeys.length + st.2.newSnapshots

theorem held_begin {call : SyncCall} {t : FrontierTables} (h : t.sync.WellFormed) :
    Held call t [] (t, {}) :=
  ⟨⟨h, rfl, by simp [itemsOf], rfl, by simp⟩, ⟨rfl, rfl, rfl, rfl, rfl, rfl, rfl, rfl⟩, rfl⟩

/-- A record that was found has its number for an id, and was there. -/
def Turn.Sound (env : ViewerEnv) : Turn → Prop
  | .answered (.found item status ..) =>
    eventExternalId env.toSyncEnv item = item.externalId ∧ status = 200
  | _ => True

section Step
variable {call : SyncCall} {t₀ t : FrontierTables} {s : CorpusSyncSummary}
  {turns : List (String × Turn)}

theorem settle_none {e : String × Turn} (h : e.2.mark = none) (ds : List TicketDiscovery) :
    ds.map (·.settle call.sourceKind e) = ds := by
  simp only [TicketDiscovery.settle, h, List.map_id_fun', id]

theorem settle_some (call : SyncCall) (t : FrontierTables) (e : String × Turn)
    {status : DiscoveryStatus} (h : e.2.mark = some status) :
    updateDiscoveryStatusRows t call.sourceKind e.1 status =
      { t with discoveries := t.discoveries.map (·.settle call.sourceKind e) } := by
  simp only [updateDiscoveryStatusRows, TicketDiscovery.settle, h]

/-- A turn without an item writes rows of the frontier, if any. -/
theorem TablesHeld.settled (h : TablesHeld call t₀ turns t) {e : String × Turn}
    (hitem : e.2.item = none) : TablesHeld call t₀ (turns ++ [e])
      { t with discoveries := t.discoveries.map (·.settle call.sourceKind e) } := by
  have hitems : itemsOf (turns ++ [e]) = itemsOf turns := by simp [itemsOf, hitem]
  refine ⟨h.wellFormed, h.syncRuns, ?_, ?_, ?_⟩
  · rw [hitems]
    exact h.fetched
  · rw [hitems]
    exact h.snapshots
  · simp only [h.discoveries, List.map_map, List.foldl_append, List.foldl_cons, List.foldl_nil]
    rfl

/-- A found record leaves a fetch, a snapshot, if it has none, and the rows of the id. -/
theorem TablesHeld.found (h : TablesHeld call t₀ turns t) {e : String × Turn} {i : CatalogSourceItem}
    (hitem : e.2.item = some i) {sync : SyncTables} {r : OneFetchResult} {startedAt : String}
    (hid : eventExternalId call.env.toSyncEnv i = i.externalId)
    (hr : FetchRecorded call.env.toSyncEnv ⟨i, startedAt⟩ t.sync sync r) :
    TablesHeld call t₀ (turns ++ [e])
      ⟨sync, t.discoveries.map (·.settle call.sourceKind e)⟩ := by
  have hitems : itemsOf (turns ++ [e]) = itemsOf turns ++ [i] := by simp [itemsOf, hitem]
  have hkey : Fetched.event call.env.toSyncEnv ⟨i, startedAt⟩ = i.eventKey := by
    rw [Fetched.event, hid]
    rfl
  refine ⟨hr.wellFormed, hr.syncRuns.trans h.syncRuns, ?_, ?_, ?_⟩
  · rw [hr.fetched, h.fetched, hkey, hitems, List.map_append, List.append_assoc]
    rfl
  · rw [hr.snapshots, h.snapshots, hkey, hitems, List.map_append, List.foldl_append]
    rfl
  · simp only [h.discoveries, List.map_map, List.foldl_append, List.foldl_cons, List.foldl_nil]
    rfl

/-- The counters after one turn more, which is counted once. -/
theorem Counted.concat (h : Counted turns s) {e : String × Turn} {s' : CorpusSyncSummary}
    (hexcluded : s'.scopeExcluded = s.scopeExcluded + e.2.isExcluded.toNat)
    (hfound : s'.newSnapshots + s'.unchanged + s'.notModified =
      s.newSnapshots + s.unchanged + s.notModified + e.2.item.isSome.toNat)
    (hnotFound : s'.notFound = s.notFound + e.2.isNotFound.toNat)
    (hunsupported : s'.unsupported = s.unsupported + e.2.isUnsupported.toNat)
    (hfailures : s'.failures = s.failures + e.2.isFailed.toNat)
    (hexamined : s'.examined = s.examined + (!e.2.isExcluded).toNat) (hstopped : s'.stopped = none) :
    Counted (turns ++ [e]) s' := by
  have hcount (p : Turn → Bool) :
      countTurns p (turns ++ [e]) = countTurns p turns + (p e.2).toNat := by
    rw [countTurns, List.countP_append, List.countP_singleton]
    cases p e.2 <;> rfl
  have hitems : (itemsOf (turns ++ [e])).length = (itemsOf turns).length + e.2.item.isSome.toNat := by
    rw [itemsOf, List.filterMap_append, List.length_append]
    cases hitem : e.2.item <;> simp [itemsOf, hitem]
  -- every turn is in exactly one of the classes
  have hone : (!e.2.isExcluded).toNat = e.2.item.isSome.toNat + e.2.isNotFound.toNat +
      e.2.isUnsupported.toNat + e.2.isFailed.toNat := by
    obtain ⟨id, _ | _ | _ | _ | _⟩ := e <;> rfl
  have hall : e.2.isExcluded.toNat + (!e.2.isExcluded).toNat = 1 := by cases e.2.isExcluded <;> rfl
  have hsum := h.examined
  have hlength := h.length
  refine ⟨?_, ?_, ?_, ?_, ?_, ?_, ?_, hstopped⟩
  · rw [hexcluded, h.scopeExcluded, hcount]
  · rw [hfound, h.found, hitems]
  · rw [hnotFound, h.notFound, hcount]
  · rw [hunsupported, h.unsupported, hcount]
  · rw [hfailures, h.failures, hcount]
  · omega
  · rw [List.length_append, List.length_singleton]
    omega

/-- A recorded record is new or unchanged. -/
theorem countFound_eq (s : CorpusSyncSummary) {r : OneFetchResult}
    (h : r.unchanged = !r.createdSnapshot) : s.countFound r = { s with
      newSnapshots := s.newSnapshots + r.createdSnapshot.toNat
      unchanged := s.unchanged + (!r.createdSnapshot).toNat } := by
  unfold CorpusSyncSummary.countFound
  rw [h]
  cases r.createdSnapshot <;> rfl

theorem Held.excluded (h : Held call t₀ turns (t, s)) (id : String) :
    Held call t₀ (turns ++ [(id, .excluded)])
      (t, { s with scopeExcluded := s.scopeExcluded + 1 }) := by
  have ht := h.tables.settled (e := (id, .excluded)) rfl
  rw [settle_none rfl] at ht
  exact ⟨ht, h.counted.concat rfl rfl rfl rfl rfl rfl h.counted.stopped, h.created⟩

theorem Held.failed (h : Held call t₀ turns (t, s)) (id : String) (error : GrnocViewerError) :
    Held call t₀ (turns ++ [(id, .failed error)])
      (t, { s with examined := s.examined + 1, failures := s.failures + 1 }) := by
  have ht := h.tables.settled (e := (id, .failed error)) rfl
  rw [settle_none rfl] at ht
  exact ⟨ht, h.counted.concat rfl rfl rfl rfl rfl rfl h.counted.stopped, h.created⟩

/-- The writes of an answer succeed, if the database refuses none. -/
theorem Held.answered (h : Held call t₀ turns (t, s)) {syncRunId : Nat} (id : String)
    {fetch : ViewerTicketFetch} (hsound : (Turn.answered fetch).Sound call.env)
    (hrun : syncRunId < t₀.sync.syncRuns.length) :
    ∃ st, recordAnswer call syncRunId none id fetch t { s with examined := s.examined + 1 } = .ok st ∧
      Held call t₀ (turns ++ [(id, .answered fetch)]) st := by
  cases fetch with
  | found item status contentType etag lastModified retries conditionalRequested =>
    obtain ⟨hid, hstatus⟩ := hsound
    have hrun' : syncRunId < t.sync.syncRuns.length := by
      rw [h.tables.syncRuns]
      exact hrun
    obtain ⟨sync, r, hrec, hr⟩ := recordFetch_found call.env.toSyncEnv h.tables.wellFormed item
      call.startedAt ⟨ticketUrl id, status, contentType, etag, lastModified, acquisitionViewerApi,
        retries, etag.isSome || lastModified.isSome⟩ hrun' (show status ≠ 404 by omega)
    refine ⟨_, by simp only [recordAnswer, metadataFor, hrec]; rfl, ?_⟩
    have ht := h.tables.found (e := (id, .answered (.found item status contentType etag lastModified
      retries conditionalRequested))) rfl hid hr
    have hmark := settle_some call { t with sync := sync }
      (id, .answered (.found item status contentType etag lastModified retries
        conditionalRequested)) rfl
    rw [countFound_eq _ hr.unchanged]
    refine ⟨?_, h.counted.concat rfl ?_ rfl rfl rfl rfl h.counted.stopped, ?_⟩
    · rw [markFrontierFetched, hmark]
      exact ht
    · have hone : r.createdSnapshot.toNat + (!r.createdSnapshot).toNat = 1 := by
        cases r.createdSnapshot <;> rfl
      simp only [Turn.item, Option.isSome_some, Bool.toNat_true]
      omega
    · rw [markFrontierFetched, hmark, hr.created, h.created]
      exact Nat.add_assoc ..
  | notFound status retries conditionalRequested =>
    refine ⟨_, rfl, ?_, h.counted.concat rfl rfl rfl rfl rfl rfl h.counted.stopped, h.created⟩
    rw [settle_some call _ (id, .answered (.notFound status retries conditionalRequested)) rfl]
    exact h.tables.settled rfl
  | unsupported =>
    refine ⟨_, rfl, ?_, h.counted.concat rfl rfl rfl rfl rfl rfl h.counted.stopped, h.created⟩
    rw [settle_some call _ (id, .answered .unsupported) rfl]
    exact h.tables.settled rfl

end Step

/-! ## The walk -/

/-- How the ids end. -/
inductive Ending where
  | ran
  | budget
  | stopped (id : String) (reason : StopReason)
  | refused (id error : String)
deriving DecidableEq, Repr

/-- The id it ends at, if that was looked at. -/
def Ending.at_ : Ending → List String
  | stopped id _ => [id]
  | refused id _ => [id]
  | _ => []

/-- The counters of the end. -/
def Ending.finish (s : CorpusSyncSummary) : Ending → CorpusSyncSummary
  | ran => s
  | budget => { s with stopped := some .budgetExhausted }
  | stopped _ reason => { s with examined := s.examined + 1, stopped := some reason }
  | refused _ _ => { s with examined := s.examined + 1 }

theorem Ending.finish_eq {s : CorpusSyncSummary} (h : s.stopped = none) (ending : Ending) :
    ending.finish s = { s with
      examined := s.examined + ending.at_.length
      stopped := (ending.finish {}).stopped } := by
  obtain ⟨⟩ := s
  obtain rfl := h
  cases ending <;> rfl

structure Walk where
  turns : List (String × Turn)
  ending : Ending
  rest : List String
deriving DecidableEq, Repr

def Walk.after (e : String × Turn) (w : Walk) : Walk := { w with turns := e :: w.turns }

/-- The ids in order, as the scope, the client, the server and the refusals of the database have it. -/
def walk (call : SyncCall) : GrnocViewerClient → List Visit → Walk
  | _, [] => ⟨[], .ran, []⟩
  | c, v :: vs =>
    if c.client.budgetRemaining = 0 then ⟨[], .budget, (v :: vs).map (·.id)⟩
    else if call.scope.excludedSourceRecord call.sourceKind v.id then
      (walk call c vs).after (v.id, .excluded)
    else
      let fetch := fetchTicket call.env c v.id v.now v.replies
      match fetch.result with
      | .error (.stop reason) => ⟨[], .stopped v.id reason, vs.map (·.id)⟩
      | .error e => (walk call fetch.client vs).after (v.id, .failed e)
      | .ok answer =>
        match v.refused with
        | some e => ⟨[], .refused v.id e, vs.map (·.id)⟩
        | none => (walk call fetch.client vs).after (v.id, .answered answer)

/-- The ids that are looked at. -/
def Walk.reached (w : Walk) : List String := w.turns.map (·.1) ++ w.ending.at_

/-- The server is asked for an id in scope and of a family it serves. -/
def SyncCall.looksUp (call : SyncCall) (id : String) : Bool :=
  !call.scope.excludedSourceRecord call.sourceKind id && (endpointFor id).isSome

section Lookup
variable {call : SyncCall} {c : GrnocViewerClient} {number now : String} {replies : Nat → HttpReply}

theorem fetchTicket_asked (h : call.scope.excludedSourceRecord call.sourceKind number = false) :
    (fetchTicket call.env c number now replies).asked.map (·.number) =
      [number].filter call.looksUp := by
  have hlooks : call.looksUp number = (endpointFor number).isSome := by
    rw [SyncCall.looksUp, h]
    rfl
  rw [List.filter_singleton, hlooks, fetchTicket]
  cases endpointFor number <;> rfl

/-- An answer is that the family is not served, or a response. -/
theorem fetchTicket_sound (ht : ViewerTexts call.env) {fetch : ViewerTicketFetch}
    (h : (fetchTicket call.env c number now replies).result = .ok fetch) :
    (Turn.answered fetch).Sound call.env ∧
      (Turn.answered fetch).isUnsupported = (endpointFor number).isNone := by
  unfold fetchTicket at h
  cases hendpoint : endpointFor number with
  | none =>
    rw [hendpoint] at h
    cases h
    exact ⟨trivial, rfl⟩
  | some endpoint =>
    rw [hendpoint] at h
    obtain ⟨outcome, hrun, h⟩ := bind_ok h
    cases outcome with
    | ok body =>
      obtain ⟨result, -, h⟩ := bind_ok h
      cases result with
      | nil =>
        cases h
        exact ⟨trivial, rfl⟩
      | cons record rest =>
        cases h
        refine ⟨⟨?_, ?_⟩, rfl⟩
        · simp [eventExternalId, viewerItem, ht.id]
        · cases hresult : (c.client.fetchWith replies).result with
          | error e =>
            rw [hresult] at hrun
            cases hrun
          | ok outcome =>
            rw [hresult] at hrun
            cases hrun
            exact congrArg Nat.cast (fetchLoop_status hresult)
    | notModified =>
      cases h
      exact ⟨trivial, rfl⟩
    | notFound =>
      cases h
      exact ⟨trivial, rfl⟩
    | forbidden => cases h
    | unauthorized => cases h

end Lookup

section Walk
variable {call : SyncCall}

/-- What every turn of a walk is. -/
structure TurnOf (call : SyncCall) (e : String × Turn) : Prop where
  sound : e.2.Sound call.env
  looksUp : call.looksUp e.1 = (!e.2.isExcluded && !e.2.isUnsupported)

theorem turnOf_walk (ht : ViewerTexts call.env) (c : GrnocViewerClient) (ids : List Visit) :
    ∀ e ∈ (walk call c ids).turns, TurnOf call e := by
  induction ids generalizing c with
  | nil => exact fun e he => nomatch he
  | cons v vs ih =>
    rw [walk]
    split
    · exact fun e he => nomatch he
    split
    · next hexcluded =>
      refine List.forall_mem_cons.2 ⟨⟨trivial, ?_⟩, ih c⟩
      rw [SyncCall.looksUp, hexcluded]
      rfl
    next hexcluded =>
    rw [Bool.not_eq_true] at hexcluded
    dsimp only
    split
    · exact fun e he => nomatch he
    · next e hstop hresult =>
      refine List.forall_mem_cons.2 ⟨⟨trivial, ?_⟩, ih _⟩
      -- an error is that of a request
      unfold fetchTicket at hresult
      rw [SyncCall.looksUp, hexcluded]
      cases hendpoint : endpointFor v.id with
      | none =>
        rw [hendpoint] at hresult
        cases hresult
      | some endpoint => rfl
    · next answer hresult =>
      split
      · exact fun e he => nomatch he
      · obtain ⟨hsound, hunsupported⟩ := fetchTicket_sound ht hresult
        refine List.forall_mem_cons.2 ⟨⟨hsound, ?_⟩, ih _⟩
        rw [hunsupported, SyncCall.looksUp, hexcluded, Option.not_isNone]
        rfl

/-- The sync does what the walk says: it asks for the ids the walk looks up, and unless a write is
refused, its tables and counters hold the turns. -/
structure Follows (call : SyncCall) (t₀ : FrontierTables) (turns : List (String × Turn))
    (asked : List TicketRequest) (w : Walk) (r : FrontierState × Option String) : Prop where
  asked : r.1.asked.map (·.number) = asked.map (·.number) ++ w.reached.filter call.looksUp
  refused : ∀ id e, w.ending = .refused id e → r.2 = some e
  kept : (∀ id e, w.ending ≠ .refused id e) → r.2 = none ∧ ∃ s,
    Held call t₀ (turns ++ w.turns) (r.1.tables, s) ∧ r.1.summary = w.ending.finish s

theorem Follows.after {t₀ : FrontierTables} {turns : List (String × Turn)}
    {asked asked' : List TicketRequest} {w : Walk} {r : FrontierState × Option String}
    {e : String × Turn} (h : Follows call t₀ (turns ++ [e]) asked' w r)
    (hasked : asked'.map (·.number) = asked.map (·.number) ++ [e.1].filter call.looksUp) :
    Follows call t₀ turns asked (w.after e) r := by
  refine ⟨?_, h.refused, fun hending => ?_⟩
  · rw [h.asked, hasked, List.append_assoc, ← List.filter_append]
    rfl
  · obtain ⟨hnone, s, hs, hfinish⟩ := h.kept hending
    rw [List.append_assoc] at hs
    exact ⟨hnone, s, hs, hfinish⟩

/-- The end of a walk that no write is refused at. -/
theorem Held.follows_end {t₀ t : FrontierTables} {turns : List (String × Turn)}
    {s : CorpusSyncSummary} (h : Held call t₀ turns (t, s)) {asked asked' : List TicketRequest}
    (ending : Ending) (hending : ∀ id e, ending ≠ .refused id e)
    (hasked : asked'.map (·.number) = asked.map (·.number) ++ ending.at_.filter call.looksUp)
    (c : GrnocViewerClient) (rest : List String) :
    Follows call t₀ turns asked ⟨[], ending, rest⟩ (⟨t, c, ending.finish s, asked'⟩, none) := by
  refine ⟨hasked, fun id e he => absurd he (hending id e), fun _ => ⟨rfl, s, ?_, rfl⟩⟩
  rw [List.append_nil]
  exact h

theorem syncIds_spec (ht : ViewerTexts call.env) {t₀ : FrontierTables} {syncRunId : Nat}
    (hrun : syncRunId < t₀.sync.syncRuns.length) (ids : List Visit) {turns : List (String × Turn)}
    {t : FrontierTables} {c : GrnocViewerClient} {s : CorpusSyncSummary}
    {asked : List TicketRequest} (h : Held call t₀ turns (t, s)) :
    Follows call t₀ turns asked (walk call c ids) (syncIds call syncRunId ⟨t, c, s, asked⟩ ids) := by
  induction ids generalizing turns t c s asked with
  | nil => exact h.follows_end .ran nofun (by simp [Ending.at_]) c []
  | cons v vs ih =>
    rw [walk, syncIds]
    by_cases hbudget : c.client.budgetRemaining = 0
    · rw [if_pos hbudget, if_pos hbudget]
      exact h.follows_end .budget nofun (by simp [Ending.at_]) c _
    rw [if_neg hbudget, if_neg hbudget]
    cases hexcluded : call.scope.excludedSourceRecord call.sourceKind v.id with
    | true =>
      refine (ih (h.excluded v.id)).after ?_
      simp [SyncCall.looksUp, hexcluded]
    | false =>
      have hlog : (asked ++ (fetchTicket call.env c v.id v.now v.replies).asked).map (·.number) =
          asked.map (·.number) ++ [v.id].filter call.looksUp := by
        rw [List.map_append, fetchTicket_asked hexcluded]
      have hsound := @fetchTicket_sound call c v.id v.now v.replies ht
      dsimp only
      generalize fetchTicket call.env c v.id v.now v.replies = lookup at hlog hsound ⊢
      obtain ⟨c, requests, result⟩ := lookup
      rw [if_neg Bool.false_ne_true, if_neg Bool.false_ne_true]
      match result with
      | .error (.stop reason) =>
        exact h.follows_end (.stopped v.id reason) nofun hlog c _
      | .error (.transport detail) => exact (ih (h.failed v.id (.transport detail))).after hlog
      | .error (.unexpectedStatus n) => exact (ih (h.failed v.id (.unexpectedStatus n))).after hlog
      | .error (.parse detail) => exact (ih (h.failed v.id (.parse detail))).after hlog
      | .ok answer =>
        cases v.refused with
        | some e => exact ⟨hlog, fun _ _ h => by cases h; rfl, fun h => absurd rfl (h v.id e)⟩
        | none =>
          obtain ⟨next, hrec, hnext⟩ := h.answered v.id (hsound rfl).1 hrun
          dsimp only
          rw [hrec]
          exact (ih hnext).after hlog

end Walk

end Inim
