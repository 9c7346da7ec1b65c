import Inim.Catalog.Sync
import Inim.Lib.Runs

/-!
# The latest view of an event (`catalog/sync.rs`, `catalog/db.rs:180-210`)

"A changed ticket creates a NEW snapshot; the latest event view is derived from the latest
snapshot" (`sync.rs:21-22`). The tables are a function of the payloads fetched, in order
(`HoldsFetched`): the events in the order they were first seen, one snapshot for the *first* fetch
of each content of an event, dated by it.

* **Bug**: a payload that returns to an earlier content finds its old snapshot, so the first row
  of `list_snapshots` stays the one in between, and the sync counts the ticket as unchanged
  (`sync.rs:65-69`).
* **Bug**: two contents first fetched at one timestamp are listed in no particular order.

`latestView_iff` is the exact condition, with both parts.
-/

namespace Inim

open Inim.Lib

/-- A payload that was fetched, and when. -/
structure Fetched where
  item : CatalogSourceItem
  at_ : String
deriving DecidableEq, Repr

/-- The payloads an operation fetches: no listing, no item and no 404 has one. -/
def SyncOp.fetched : SyncOp → List Fetched
  | .sync _ (.ok items) startedAt => items.map fun item => ⟨item, startedAt⟩
  | .sync _ (.error _) _ => []
  | .fetch _ _ item metadata startedAt =>
    if metadata.httpStatus = 404 then [] else item.toList.map fun item => ⟨item, startedAt⟩

def fetchedBy (ops : List SyncOp) : List Fetched := ops.flatMap SyncOp.fetched

section Env
variable (env : SyncEnv)

def Fetched.event (f : Fetched) : String × String := (f.item.source, eventExternalId env f.item)

def Fetched.sha (f : Fetched) : String := env.sha256 f.item.rawPayload

/-- What a snapshot is unique for. -/
def Fetched.key (f : Fetched) : (String × String) × String := (f.event env, f.sha env)

/-! ## The tables after a history of payloads -/

def eventOrder (h : List Fetched) : List (String × String) := keepFirst id (h.map (·.event env))

def snapshotRow (h : List Fetched) (f : Fetched) : EventSnapshot :=
  itemSnapshot env f.item f.at_ ((eventOrder env h).idxOf (f.event env))

/-- The tables are those the payloads `h` leave. -/
structure HoldsFetched (h : List Fetched) (c : CatalogTables) : Prop where
  events : c.eventKeys = eventOrder env h
  snapshots : c.snapshots = (keepFirst (·.key env) h).map (snapshotRow env h)

theorem HoldsFetched.empty : HoldsFetched env [] .empty := ⟨rfl, rfl⟩

theorem eventOrder_nodup (h : List Fetched) : (eventOrder env h).Nodup := by
  have := (keepFirst_tracks id (h.map (·.event env))).unique
  simpa [eventOrder] using this

theorem eventOrder_concat (h : List Fetched) (f : Fetched) :
    eventOrder env (h ++ [f]) = (insertUnique id (f.event env) (eventOrder env h)).1 := by
  simp [eventOrder, keepFirst_concat]

theorem mem_eventOrder {h : List Fetched} {f : Fetched} (hf : f ∈ h) :
    f.event env ∈ eventOrder env h := by
  refine mem_keepFirst.2 ⟨f.event env, List.mem_map_of_mem hf, ?_⟩
  exact firstLike_key id _ _

theorem mem_of_keepFirst {h : List Fetched} {a : Fetched} (ha : a ∈ keepFirst (·.key env) h) :
    a ∈ h := by
  obtain ⟨x, hx, rfl⟩ := mem_keepFirst.1 ha
  unfold firstLike
  cases hl : h.find? fun a => decide (a.key env = x.key env) with
  | none => exact hx
  | some b => exact List.mem_of_find?_eq_some hl

/-- A later payload moves no earlier event. -/
theorem snapshotRow_concat {h : List Fetched} {a : Fetched} (ha : a ∈ h) (f : Fetched) :
    snapshotRow env (h ++ [f]) a = snapshotRow env h a := by
  obtain ⟨rest, hrest⟩ := insertUnique_initial id (f.event env) (eventOrder env h)
  rw [snapshotRow, snapshotRow, eventOrder_concat, ← hrest,
    List.idxOf_append_of_mem (mem_eventOrder env ha)]

/-- Rows are told apart as the payloads are. -/
theorem snapshotRow_key_iff {h : List Fetched} {a b : Fetched} (ha : a ∈ h) :
    (snapshotRow env h a).key = (snapshotRow env h b).key ↔ a.key env = b.key env := by
  simp only [EventSnapshot.key, snapshotRow, itemSnapshot, Fetched.key, Fetched.sha, Prod.mk.injEq,
    List.idxOf_inj (mem_eventOrder env ha)]

/-! ## One payload -/

/-- What both paths do with a payload. -/
def storePayload (c : CatalogTables) (f : Fetched) : CatalogTables :=
  let e := upsertEvent c f.item.source (eventExternalId env f.item) f.at_
  (insertSnapshot e.1 (itemSnapshot env f.item f.at_ e.2)).1

theorem storePayload_keys (c : CatalogTables) (f : Fetched) :
    (storePayload env c f).eventKeys =
      (insertUnique id (f.item.source, eventExternalId env f.item) c.eventKeys).1 :=
  (upsertEvent_keys c f.item.source (eventExternalId env f.item) f.at_).1

theorem insertSnapshot_existing {c : CatalogTables} {s : EventSnapshot} {id : Nat}
    (h : existingSnapshot c s.eventId s.contentSha256 = some id) : insertSnapshot c s = (c, id) := by
  have hfind : (c.snapshots.findIdx? fun a => decide (a.key = s.key)) = some id := h
  simp only [insertSnapshot, insertUnique, hfind]

theorem syncItem_tables (startedAt : String) (st : CatalogTables × SyncSummary)
    (item : CatalogSourceItem) :
    (syncItem env startedAt st item).1 = storePayload env st.1 ⟨item, startedAt⟩ := by
  unfold syncItem storePayload
  dsimp only
  split
  · next id hid => rw [insertSnapshot_existing hid]
  · split <;> rfl

theorem fetchPayload_catalog (c : CatalogTables) (eventId : Option Nat)
    (item : Option CatalogSourceItem) (httpStatus : Int) (startedAt : String) :
    (fetchPayload env c eventId item httpStatus startedAt).catalog =
      if httpStatus = 404 then c
      else (item.map fun item => storePayload env c ⟨item, startedAt⟩).getD c := by
  unfold fetchPayload
  split
  · rfl
  · cases item with
    | none => rfl
    | some item =>
      dsimp only [Option.map_some, Option.getD_some, storePayload]
      split
      · next id hid => rw [insertSnapshot_existing hid]
      · rfl

/-- A recorded fetch stores its payload, and beside the catalog a row about itself. -/
theorem fetchOp_catalog (c : SyncTables) (syncRunId : Nat) (eventId : Option Nat)
    (item : Option CatalogSourceItem) (metadata : FetchMetadata) (startedAt : String) :
    (SyncOp.step env c (.fetch syncRunId eventId item metadata startedAt)).catalog =
      (fetchPayload env c.catalog eventId item metadata.httpStatus startedAt).catalog := by
  simp only [SyncOp.step, recordFetch]
  split
  · rfl
  · simp only [insertSnapshotFetch]
    split <;> next heq => (split at heq <;> cases heq; rfl)

variable {env}

theorem upsertEvent_snapshots (c : CatalogTables) (kind ext seen : String) :
    (upsertEvent c kind ext seen).1.snapshots = c.snapshots := by
  unfold upsertEvent
  split <;> rfl

/-- The id an event has once it is there. -/
theorem HoldsFetched.upsert {h : List Fetched} {c : CatalogTables} (hc : HoldsFetched env h c)
    (f : Fetched) :
    let e := upsertEvent c f.item.source (eventExternalId env f.item) f.at_
    e.1.eventKeys = eventOrder env (h ++ [f]) ∧
      e.2 = (eventOrder env (h ++ [f])).idxOf (f.event env) := by
  obtain ⟨hkeys, hid⟩ := upsertEvent_keys c f.item.source (eventExternalId env f.item) f.at_
  rw [hc.events] at hkeys hid
  change _ = (insertUnique id (f.event env) (eventOrder env h)).1 at hkeys
  change _ = (insertUnique id (f.event env) (eventOrder env h)).2 at hid
  refine ⟨by rw [hkeys, eventOrder_concat], ?_⟩
  have hrow := insertUnique_key id (f.event env) (eventOrder env h)
  rw [← hid, ← eventOrder_concat, Option.map_id, id] at hrow
  have hidx : (eventOrder env (h ++ [f]))[(eventOrder env (h ++ [f])).idxOf (f.event env)]? =
      some (f.event env) := List.getElem?_idxOf (mem_eventOrder env (by simp))
  exact (List.getElem?_inj (List.getElem?_eq_some_iff.1 hrow).1 (eventOrder_nodup env _)).1
    (hrow.trans hidx.symm)

theorem HoldsFetched.snapshots_concat {h : List Fetched} {c : CatalogTables}
    (hc : HoldsFetched env h c) (f : Fetched) :
    c.snapshots = (keepFirst (·.key env) h).map (snapshotRow env (h ++ [f])) := by
  rw [hc.snapshots]
  exact List.map_congr_left fun a ha => (snapshotRow_concat env (mem_of_keepFirst env ha) f).symm

theorem HoldsFetched.store {h : List Fetched} {c : CatalogTables} (hc : HoldsFetched env h c)
    (f : Fetched) : HoldsFetched env (h ++ [f]) (storePayload env c f) := by
  obtain ⟨hkeys, hid⟩ := hc.upsert f
  refine ⟨hkeys, ?_⟩
  have hrow : itemSnapshot env f.item f.at_
      (upsertEvent c f.item.source (eventExternalId env f.item) f.at_).2 =
        snapshotRow env (h ++ [f]) f := by rw [hid]; rfl
  dsimp only [storePayload, insertSnapshot]
  rw [hrow, upsertEvent_snapshots, hc.snapshots_concat f, keepFirst_concat]
  apply insertUnique_map
  intro a ha
  exact snapshotRow_key_iff env (List.mem_append_left _ (mem_of_keepFirst env ha))

/-- The snapshots of an event: one for the first fetch of each of its contents. -/
theorem HoldsFetched.snapshotsOf {h : List Fetched} {c : CatalogTables} (hc : HoldsFetched env h c)
    {eventId : Nat} {k : String × String} (hk : c.eventKeys[eventId]? = some k) :
    snapshotsOf c eventId =
      ((keepFirst (·.key env) h).filter (·.event env = k)).map (snapshotRow env h) := by
  rw [hc.events] at hk
  rw [Inim.snapshotsOf, hc.snapshots, List.filter_map]
  congr 1
  refine List.filter_congr fun a ha => ?_
  have hmem := mem_eventOrder env (mem_of_keepFirst env ha)
  rw [Function.comp_apply, decide_eq_decide]
  change (eventOrder env h).idxOf (a.event env) = eventId ↔ _
  constructor
  · rintro rfl
    rw [List.getElem?_idxOf hmem] at hk
    exact Option.some.inj hk
  · rintro rfl
    exact (List.getElem?_inj (List.idxOf_lt_length_iff.2 hmem) (eventOrder_nodup env h)).1
      ((List.getElem?_idxOf hmem).trans hk.symm)

/-- The tables after a sequence of operations are those of its payloads. -/
theorem HoldsFetched.step {h : List Fetched} {c : SyncTables} (hc : HoldsFetched env h c.catalog)
    (op : SyncOp) : HoldsFetched env (h ++ op.fetched) (op.step env c).catalog := by
  have hitems (items : List CatalogSourceItem) (startedAt : String) (h : List Fetched)
      (st : CatalogTables × SyncSummary) (hst : HoldsFetched env h st.1) :
      HoldsFetched env (h ++ items.map fun item => ⟨item, startedAt⟩)
        (items.foldl (syncItem env startedAt) st).1 := by
    induction items generalizing h st with
    | nil => simpa using hst
    | cons item items ih =>
      have hnext := hst.store ⟨item, startedAt⟩
      rw [← syncItem_tables] at hnext
      simpa using ih _ _ hnext
  cases op with
  | sync source listItems startedAt =>
    cases listItems with
    | error e => simpa [SyncOp.fetched, SyncOp.step, syncCatalog] using hc
    | ok items => exact hitems items startedAt h (c.catalog, {}) hc
  | fetch syncRunId eventId item metadata startedAt =>
    rw [fetchOp_catalog, fetchPayload_catalog, SyncOp.fetched]
    split
    · simpa using hc
    · cases item with
      | none => simpa using hc
      | some item => exact hc.store ⟨item, startedAt⟩

variable (env) in
theorem holdsFetched_run (ops : List SyncOp) :
    HoldsFetched env (fetchedBy ops) (run (SyncOp.step env) .empty ops).catalog := by
  induction ops using List.reverseRecOn with
  | nil => exact .empty env
  | append_singleton ops op ih =>
    rw [run_concat, fetchedBy, List.flatMap_append, List.flatMap_singleton]
    exact ih.step op

/-! ## The first row -/

variable (env)

/-- The last payload fetched for an event. -/
def lastFetched (h : List Fetched) (k : String × String) : Option Fetched :=
  (h.filter (·.event env = k)).getLast?

/-- The first fetch of the content of `f`, for its event. -/
def firstFetch (h : List Fetched) (f : Fetched) : Fetched := firstLike (·.key env) h f

/-- Whatever `list_snapshots` returns for an event starts with the payload last fetched. -/
def LatestIsLast (h : List Fetched) (c : CatalogTables) : Prop :=
  ∀ k f, lastFetched env h k = some f → ∀ eventId, c.eventKeys[eventId]? = some k →
    ∀ l, IsSnapshotListing c eventId l → l.head?.map (·.rawPayload) = some f.item.rawPayload

/-- The content last fetched for an event is the one first fetched last, at a later time than any
other; equal hashes are equal contents there. -/
def NewestContentLast (h : List Fetched) : Prop :=
  ∀ k f, lastFetched env h k = some f →
    (firstFetch env h f).item.rawPayload = f.item.rawPayload ∧
    ∀ g ∈ h, g.event env = k → g.sha env ≠ f.sha env →
      (firstFetch env h g).at_ < (firstFetch env h f).at_

variable {env}

theorem lastFetched_mem {h : List Fetched} {k : String × String} {f : Fetched}
    (hf : lastFetched env h k = some f) : f ∈ h ∧ f.event env = k := by
  have := List.mem_filter.1 (List.mem_of_getLast? hf)
  simpa using this

theorem firstFetch_key (h : List Fetched) (f : Fetched) :
    (firstFetch env h f).key env = f.key env := firstLike_key (·.key env) h f

theorem firstFetch_event (h : List Fetched) (f : Fetched) :
    (firstFetch env h f).event env = f.event env := congrArg Prod.fst (firstFetch_key h f)

theorem firstFetch_sha (h : List Fetched) (f : Fetched) :
    (firstFetch env h f).sha env = f.sha env := congrArg Prod.snd (firstFetch_key h f)

/-- Fetches of one content of one event have one first fetch. -/
theorem firstFetch_congr {h : List Fetched} {f g : Fetched} (hf : f ∈ h)
    (hkey : g.key env = f.key env) : firstFetch env h g = firstFetch env h f := by
  have hfind : (h.find? fun x => decide (x.key env = f.key env)).isSome = true := by
    rw [List.find?_isSome]
    exact ⟨f, hf, decide_eq_true rfl⟩
  obtain ⟨x, hx⟩ := Option.isSome_iff_exists.1 hfind
  simp only [firstFetch, firstLike, hkey, hx, Option.getD_some]

/-- The first fetches of an event's contents. -/
theorem mem_firstFetches {h : List Fetched} {k : String × String} {a : Fetched} :
    a ∈ (keepFirst (·.key env) h).filter (·.event env = k) ↔
      ∃ g ∈ h, g.event env = k ∧ firstFetch env h g = a := by
  rw [List.mem_filter, mem_keepFirst]
  constructor
  · rintro ⟨⟨g, hg, rfl⟩, hk⟩
    rw [decide_eq_true_eq] at hk
    exact ⟨g, hg, (firstFetch_event h g).symm.trans hk, rfl⟩
  · rintro ⟨g, hg, hk, rfl⟩
    exact ⟨⟨g, hg, rfl⟩, decide_eq_true ((firstFetch_event h g).trans hk)⟩

/-- For one event: every listing starts with the last payload iff its content was first fetched
last. -/
theorem listing_head_iff {h : List Fetched} {c : CatalogTables} (hc : HoldsFetched env h c)
    {k : String × String} {f : Fetched} (hf : lastFetched env h k = some f) {eventId : Nat}
    (hk : c.eventKeys[eventId]? = some k) :
    (∀ l, IsSnapshotListing c eventId l → l.head?.map (·.rawPayload) = some f.item.rawPayload) ↔
      (firstFetch env h f).item.rawPayload = f.item.rawPayload ∧
      ∀ g ∈ h, g.event env = k → g.sha env ≠ f.sha env →
        (firstFetch env h g).at_ < (firstFetch env h f).at_ := by
  obtain ⟨hfh, hfk⟩ := lastFetched_mem hf
  unfold IsSnapshotListing
  rw [forall_listing_head_iff, hc.snapshotsOf hk]
  generalize hF : (keepFirst (·.key env) h).filter (·.event env = k) = F
  have hmem {a : Fetched} : a ∈ F ↔ ∃ g ∈ h, g.event env = k ∧ firstFetch env h g = a := by
    rw [← hF, mem_firstFetches]
  have hf0 : firstFetch env h f ∈ F := hmem.2 ⟨f, hfh, hfk, rfl⟩
  have hne : F ≠ [] := List.ne_nil_of_mem hf0
  have hmap : F.map (snapshotRow env h) ≠ [] := by simpa using hne
  simp only [List.forall_mem_map]
  constructor
  · rintro ⟨-, hmax⟩
    -- the row of some content is exceeded by none; it has the last payload, so it is its row
    have hpayload {a : Fetched} (ha : a ∈ F) (ham : ∀ b ∈ F, b.at_ ≤ a.at_) :
        a.item.rawPayload = f.item.rawPayload ∧ a = firstFetch env h f := by
      have hp : a.item.rawPayload = f.item.rawPayload := hmax a ha ham
      refine ⟨hp, ?_⟩
      obtain ⟨g, hg, hgk, rfl⟩ := hmem.1 ha
      have hsha : g.sha env = f.sha env := by
        rw [← firstFetch_sha h g, Fetched.sha, hp]
        rfl
      exact firstFetch_congr hfh (Prod.ext (hgk.trans hfk.symm) hsha)
    obtain ⟨a, ha, ham⟩ := exists_max Fetched.at_ hne
    obtain ⟨hp, rfl⟩ := hpayload ha ham
    refine ⟨hp, fun g hg hgk hsha => ?_⟩
    have hgF : firstFetch env h g ∈ F := hmem.2 ⟨g, hg, hgk, rfl⟩
    refine lt_of_le_of_ne (ham _ hgF) fun heq => hsha ?_
    have hgf := (hpayload hgF fun b hb => heq ▸ ham b hb).2
    rw [← firstFetch_sha h g, hgf, firstFetch_sha]
  · rintro ⟨hp, hlt⟩
    refine ⟨hmap, fun a ha ham => ?_⟩
    obtain ⟨g, hg, hgk, rfl⟩ := hmem.1 ha
    by_cases hsha : g.sha env = f.sha env
    · have hgf : firstFetch env h g = firstFetch env h f :=
        firstFetch_congr hfh (Prod.ext (hgk.trans hfk.symm) hsha)
      change (firstFetch env h g).item.rawPayload = _
      rw [hgf, hp]
    · exact absurd (ham _ hf0) (not_le.2 (hlt g hg hgk hsha))

theorem latestIsLast_iff {h : List Fetched} {c : CatalogTables} (hc : HoldsFetched env h c) :
    LatestIsLast env h c ↔ NewestContentLast env h := by
  constructor
  · intro hlatest k f hf
    obtain ⟨hfh, hfk⟩ := lastFetched_mem hf
    have hidx : c.eventKeys[(eventOrder env h).idxOf k]? = some k := by
      rw [hc.events]
      exact List.getElem?_idxOf (hfk ▸ mem_eventOrder env hfh)
    exact (listing_head_iff hc hf hidx).1 (hlatest k f hf _ hidx)
  · intro hnew k f hf eventId hk
    exact (listing_head_iff hc hf hk).2 (hnew k f hf)

/-! ## The summary -/

variable (env)

/-- An earlier payload of the event was fetched, and none of this content. -/
def contentNew (h : List Fetched) (f : Fetched) : Bool :=
  h.any (fun g => g.event env = f.event env) && h.all fun g => decide (g.key env ≠ f.key env)

/-- The payload fetched for the event before differs from this one. -/
def contentDiffers (h : List Fetched) (f : Fetched) : Bool :=
  (lastFetched env h (f.event env)).any fun g => g.item.rawPayload ≠ f.item.rawPayload

/-- Every sync reports as many changed events as it fetched payloads that differ from the one
fetched before for their event. -/
def SummariesCountChanges (ops : List SyncOp) : Prop :=
  ∀ pre source items startedAt post, ops = pre ++ .sync source (.ok items) startedAt :: post →
    ∀ summary, (syncCatalog env (run (SyncOp.step env) .empty pre) source (.ok items) startedAt).2 =
      .ok summary →
    summary.changedEvents = countAlong (fun h f => h ++ [f]) (contentDiffers env) (fetchedBy pre)
      (items.map fun item => ⟨item, startedAt⟩)

/-- A payload of a sync that differs from the one before is of a content never fetched. -/
def ChangesAreNew (ops : List SyncOp) : Prop :=
  ∀ pre source items startedAt post, ops = pre ++ .sync source (.ok items) startedAt :: post →
    ∀ pre' f post', (items.map fun item => (⟨item, startedAt⟩ : Fetched)) = pre' ++ f :: post' →
      contentDiffers env (fetchedBy pre ++ pre') f = true →
      ∀ g ∈ fetchedBy pre ++ pre', g.key env ≠ f.key env

variable {env}

theorem exists_lastFetched {h : List Fetched} {g : Fetched} (hg : g ∈ h) :
    ∃ f, lastFetched env h (g.event env) = some f := by
  rw [← Option.ne_none_iff_exists', Ne, lastFetched, List.getLast?_eq_none_iff]
  exact List.ne_nil_of_mem (List.mem_filter.2 ⟨hg, decide_eq_true rfl⟩)

theorem contentDiffers_of_new {h : List Fetched} {f : Fetched} (hnew : contentNew env h f = true) :
    contentDiffers env h f = true := by
  simp only [contentNew, Bool.and_eq_true, List.any_eq_true, List.all_eq_true,
    decide_eq_true_eq] at hnew
  obtain ⟨⟨g, hg, hgf⟩, hall⟩ := hnew
  obtain ⟨x, hx⟩ : ∃ x, lastFetched env h (g.event env) = some x := exists_lastFetched hg
  rw [hgf] at hx
  obtain ⟨hxh, hxk⟩ := lastFetched_mem hx
  rw [contentDiffers, hx, Option.any_some, decide_eq_true_eq]
  intro hp
  refine hall x hxh (Prod.ext hxk ?_)
  rw [Fetched.key, Fetched.key, Fetched.sha, hp]
  rfl

/-- Where a payload differs from the one before, it counts as new iff its content never came. -/
theorem contentNew_iff {h : List Fetched} {f : Fetched} (hdiff : contentDiffers env h f = true) :
    contentNew env h f = true ↔ ∀ g ∈ h, g.key env ≠ f.key env := by
  have hany : h.any (fun g => g.event env = f.event env) = true := by
    obtain ⟨x, hx, -⟩ := (Option.any_eq_true _ _).1 hdiff
    obtain ⟨hxh, hxk⟩ := lastFetched_mem hx
    exact List.any_eq_true.2 ⟨x, hxh, decide_eq_true hxk⟩
  simp [contentNew, hany]

/-- The content of `f` is looked for, and found iff it was fetched before. -/
theorem HoldsFetched.existing_iff {h : List Fetched} {c : CatalogTables} (hc : HoldsFetched env h c)
    (f : Fetched) :
    existingSnapshot (upsertEvent c f.item.source (eventExternalId env f.item) f.at_).1
      (upsertEvent c f.item.source (eventExternalId env f.item) f.at_).2 (f.sha env) = none ↔
      ∀ g ∈ h, g.key env ≠ f.key env := by
  obtain ⟨-, hid⟩ := hc.upsert f
  have hkey (a : Fetched) (ha : a ∈ h) : (snapshotRow env (h ++ [f]) a).key =
      ((eventOrder env (h ++ [f])).idxOf (f.event env), f.sha env) ↔ a.key env = f.key env :=
    snapshotRow_key_iff env (List.mem_append_left _ ha)
  simp only [existingSnapshot, upsertEvent_snapshots, hc.snapshots_concat f, hid,
    List.findIdx?_eq_none_iff, List.forall_mem_map, decide_eq_false_iff_not]
  constructor
  · intro hno g hg hgf
    -- the first fetch of the content of `g` has a row
    have hfirst : firstFetch env h g ∈ keepFirst (·.key env) h := mem_keepFirst.2 ⟨g, hg, rfl⟩
    exact hno _ hfirst ((hkey _ (mem_of_keepFirst env hfirst)).2 ((firstFetch_key h g).trans hgf))
  · intro hno a ha hak
    have hah := mem_of_keepFirst env ha
    exact hno a hah ((hkey a hah).1 hak)

theorem keepFirst_concat_new {h : List Fetched} {f : Fetched}
    (hnew : ∀ g ∈ h, g.key env ≠ f.key env) :
    keepFirst (·.key env) (h ++ [f]) = keepFirst (·.key env) h ++ [f] := by
  have hfind : (keepFirst (·.key env) h).findIdx? (fun a => decide (a.key env = f.key env)) = none := by
    rw [List.findIdx?_eq_none_iff]
    exact fun a ha => decide_eq_false (hnew a (mem_of_keepFirst env ha))
  rw [keepFirst_concat, insertUnique, hfind]

/-- One item counts as changed iff its event is known and its content is not. -/
theorem syncItem_changed {h : List Fetched} {st : CatalogTables × SyncSummary}
    (hc : HoldsFetched env h st.1) (startedAt : String) (item : CatalogSourceItem) :
    (syncItem env startedAt st item).2.changedEvents =
      st.2.changedEvents + if contentNew env h ⟨item, startedAt⟩ then 1 else 0 := by
  generalize hf : (⟨item, startedAt⟩ : Fetched) = f
  have hexisting := hc.existing_iff f
  obtain ⟨hkeys, hid⟩ := hc.upsert f
  have hstore := hc.store f
  subst hf
  unfold syncItem
  dsimp only
  split
  · next id hsome =>
    have hold : ¬ ∀ g ∈ h, g.key env ≠ (⟨item, startedAt⟩ : Fetched).key env := by
      rw [← hexisting]
      exact fun hnone => by cases hnone.symm.trans hsome
    have hno : contentNew env h ⟨item, startedAt⟩ = false := by
      rw [Bool.eq_false_iff]
      intro hnew
      exact hold fun g hg => by simpa using (List.all_eq_true.1 (Bool.and_eq_true_iff.1 hnew).2) g hg
    rw [hno]
    rfl
  · next hnone =>
    have hnew := hexisting.1 hnone
    have hall : h.all (fun g => decide (g.key env ≠ (⟨item, startedAt⟩ : Fetched).key env)) = true :=
      List.all_eq_true.2 fun g hg => decide_eq_true (hnew g hg)
    have hidx : (storePayload env st.1 ⟨item, startedAt⟩).eventKeys[(upsertEvent st.1 item.source
        (eventExternalId env item) startedAt).2]? = some ((⟨item, startedAt⟩ : Fetched).event env) := by
      rw [hstore.events, hid]
      exact List.getElem?_idxOf (mem_eventOrder env (by simp))
    have hlen := congrArg List.length (hstore.snapshotsOf hidx)
    rw [keepFirst_concat_new hnew, List.length_map, List.filter_append, List.length_append] at hlen
    have hone : ([(⟨item, startedAt⟩ : Fetched)].filter
        (·.event env = (⟨item, startedAt⟩ : Fetched).event env)).length = 1 := by simp
    rw [hone] at hlen
    change (snapshotsOf (insertSnapshot _ _).1 _).length = _ at hlen
    by_cases hany : h.any (fun g => g.event env = (⟨item, startedAt⟩ : Fetched).event env) = true
    · obtain ⟨g, hg, hge⟩ := List.any_eq_true.1 hany
      have hfirst : firstFetch env h g ∈ (keepFirst (·.key env) h).filter
          (·.event env = (⟨item, startedAt⟩ : Fetched).event env) :=
        mem_firstFetches.2 ⟨g, hg, of_decide_eq_true hge, rfl⟩
      have hpos := List.length_pos_of_mem hfirst
      rw [if_neg (by rw [hlen]; omega), contentNew, hany, hall]
      rfl
    · have hnil : (keepFirst (·.key env) h).filter
          (·.event env = (⟨item, startedAt⟩ : Fetched).event env) = [] := by
        rw [List.filter_eq_nil_iff]
        exact fun a ha hae => hany (List.any_eq_true.2 ⟨a, mem_of_keepFirst env ha, hae⟩)
      rw [hnil, List.length_nil] at hlen
      rw [Bool.not_eq_true] at hany
      rw [if_pos (by rw [hlen]), contentNew, hany]
      rfl

theorem syncCatalog_changed {h : List Fetched} {c : SyncTables} (hc : HoldsFetched env h c.catalog)
    (source : String) (items : List CatalogSourceItem) (startedAt : String) {summary : SyncSummary}
    (hs : (syncCatalog env c source (.ok items) startedAt).2 = .ok summary) :
    summary.changedEvents = countAlong (fun h f => h ++ [f]) (contentNew env) h
      (items.map fun item => ⟨item, startedAt⟩) := by
  have hfold (items : List CatalogSourceItem) (h : List Fetched) (st : CatalogTables × SyncSummary)
      (hst : HoldsFetched env h st.1) :
      (items.foldl (syncItem env startedAt) st).2.changedEvents = st.2.changedEvents +
        countAlong (fun h f => h ++ [f]) (contentNew env) h
          (items.map fun item => ⟨item, startedAt⟩) := by
    induction items generalizing h st with
    | nil => rfl
    | cons item items ih =>
      have hnext := hst.store ⟨item, startedAt⟩
      rw [← syncItem_tables] at hnext
      rw [List.foldl_cons, ih _ _ hnext, syncItem_changed hst, List.map_cons, countAlong,
        Nat.add_assoc]
  obtain rfl := Except.ok.inj hs
  rw [hfold items h _ hc]
  exact Nat.zero_add _

theorem run_snoc (h l : List Fetched) : run (fun h f => h ++ [f]) h l = h ++ l := by
  induction l generalizing h with
  | nil => simp
  | cons f l ih => rw [run_cons, ih]; simp

theorem summariesCountChanges_iff (ops : List SyncOp) :
    SummariesCountChanges env ops ↔ ChangesAreNew env ops := by
  unfold SummariesCountChanges ChangesAreNew
  refine forall_congr' fun pre => forall_congr' fun source => forall_congr' fun items =>
    forall_congr' fun startedAt => forall_congr' fun post => imp_congr_right fun _ => ?_
  have hholds := holdsFetched_run env pre
  have hcount : countAlong (fun h f => h ++ [f]) (contentNew env) (fetchedBy pre)
      (items.map fun item => ⟨item, startedAt⟩) =
        countAlong (fun h f => h ++ [f]) (contentDiffers env) (fetchedBy pre)
          (items.map fun item => ⟨item, startedAt⟩) ↔ _ :=
    countAlong_eq_iff _ _ fun h f => contentDiffers_of_new
  have hnew : (∀ pre' f post', (items.map fun item => (⟨item, startedAt⟩ : Fetched)) =
      pre' ++ f :: post' → contentDiffers env (fetchedBy pre ++ pre') f = true →
        contentNew env (fetchedBy pre ++ pre') f = true) ↔
      ∀ pre' f post', (items.map fun item => (⟨item, startedAt⟩ : Fetched)) = pre' ++ f :: post' →
        contentDiffers env (fetchedBy pre ++ pre') f = true →
        ∀ g ∈ fetchedBy pre ++ pre', g.key env ≠ f.key env := by
    refine forall_congr' fun pre' => forall_congr' fun f => forall_congr' fun post' =>
      imp_congr_right fun _ => forall_congr' fun hdiff => contentNew_iff hdiff
  simp only [run_snoc] at hcount
  rw [← hnew, ← hcount]
  constructor
  · intro h
    have hs := h _ rfl
    rw [← hs, syncCatalog_changed hholds source items startedAt rfl]
  · intro h summary hs
    rw [← h, syncCatalog_changed hholds source items startedAt hs]

/-! ## Both -/

variable (env)

/-- **The latest view is the last payload, and the syncs count the changes, iff** each event's
last content is the one first fetched last, at a later time than any other, and every payload of
a sync that differs from the one before is of a content never fetched. -/
theorem latestView_iff (ops : List SyncOp) :
    (LatestIsLast env (fetchedBy ops) (run (SyncOp.step env) .empty ops).catalog ∧
      SummariesCountChanges env ops) ↔
    (NewestContentLast env (fetchedBy ops) ∧ ChangesAreNew env ops) :=
  and_congr (latestIsLast_iff (holdsFetched_run env ops)) (summariesCountChanges_iff ops)

end Env

/-! ## A content that returns, and a tie -/

/-- Hashes that never collide, and records without a normalized id. -/
def plainEnv : SyncEnv := ⟨id, fun _ => none⟩

def ticket (payload : String) : CatalogSourceItem :=
  ⟨"grnoc-public-task-viewer", "INC1", "", "", payload, ""⟩

def syncOf (payload startedAt : String) : SyncOp :=
  .sync "grnoc-public-task-viewer" (.ok [ticket payload]) startedAt

/-- Content A, then B, then A again. -/
def returningOps : List SyncOp :=
  [syncOf "A" "2026-07-31T00:00:00Z", syncOf "B" "2026-07-31T01:00:00Z",
    syncOf "A" "2026-07-31T02:00:00Z"]

/-- Two contents at one timestamp. -/
def tiedOps : List SyncOp :=
  [syncOf "A" "2026-07-31T00:00:00Z", syncOf "B" "2026-07-31T00:00:00Z"]

/-- **Bug**: after A, B, A the first snapshot is B's, and the last sync counts no change; and of
two contents of one timestamp either may come first. -/
theorem returning_content_stays_hidden :
    (¬ LatestIsLast plainEnv (fetchedBy returningOps)
        (run (SyncOp.step plainEnv) .empty returningOps).catalog ∧
      ¬ SummariesCountChanges plainEnv returningOps) ∧
    ¬ LatestIsLast plainEnv (fetchedBy tiedOps) (run (SyncOp.step plainEnv) .empty tiedOps).catalog := by
  have hkey : ("grnoc-public-task-viewer", "INC1") =
      (⟨ticket "A", "2026-07-31T02:00:00Z"⟩ : Fetched).event plainEnv := rfl
  rw [latestIsLast_iff (holdsFetched_run _ _), latestIsLast_iff (holdsFetched_run _ _),
    summariesCountChanges_iff]
  refine ⟨⟨fun h => ?_, fun h => ?_⟩, fun h => ?_⟩
  · have hlt := (h _ ⟨ticket "A", "2026-07-31T02:00:00Z"⟩ (by decide +kernel)).2
      ⟨ticket "B", "2026-07-31T01:00:00Z"⟩ (by decide +kernel) hkey (by decide +kernel)
    revert hlt
    decide +kernel
  · have hnew := h (returningOps.take 2) _ _ _ [] rfl [] ⟨ticket "A", "2026-07-31T02:00:00Z"⟩ [] rfl
      (by decide +kernel) ⟨ticket "A", "2026-07-31T00:00:00Z"⟩ (by decide +kernel)
    exact hnew rfl
  · have hlt := (h _ ⟨ticket "B", "2026-07-31T00:00:00Z"⟩ (by decide +kernel)).2
      ⟨ticket "A", "2026-07-31T00:00:00Z"⟩ (by decide +kernel) hkey (by decide +kernel)
    revert hlt
    decide +kernel

end Inim
