import Inim.Catalog.FrontierWalk
/-!
# What a sync of a frontier promises (`catalog/grnoc_viewer.rs:364-501`)

"Each ID is fetched at most once", "Discovery rows are advanced to Fetched (found) or Unresolved (not
found / unsupported)", "remaining IDs stay Pending".

**Bug**: an id that comes twice is looked up twice; what is recorded is the number the record bears, be
it excluded or another than the one asked for, and what is marked is the one asked for; and an error of
the database undoes what earlier ids have left. `frontierKept_iff` is the exact condition.
-/

namespace Inim

open Lib

/-! ## Rows -/

section Rows
variable {sourceKind : String} {d : TicketDiscovery} {turns : List (String × Turn)}

theorem Turn.mark_ne_pending {turn : Turn} {status : DiscoveryStatus} (h : turn.mark = some status) :
    status ≠ .pending := by
  obtain _ | _ | _ | _ | _ := turn <;> cases h <;> decide

theorem Turn.mark_eq_fetched_iff {turn : Turn} : turn.mark = some .fetched ↔ turn.item.isSome := by
  obtain _ | _ | _ | _ | _ := turn <;> simp [Turn.mark, Turn.item]

theorem foldl_settle_of_ne (h : d.status ≠ .pending) :
    turns.foldl (·.settle sourceKind) d = d := by
  have hno (id : String) : d.isPending sourceKind id = false := by simp [TicketDiscovery.isPending, h]
  induction turns with
  | nil => rfl
  | cons e turns ih =>
    have hsettle : d.settle sourceKind e = d := by
      unfold TicketDiscovery.settle
      split
      · rfl
      · rw [hno, if_neg Bool.false_ne_true]
    rw [List.foldl_cons, hsettle, ih]

/-- A row gets the status of the first turn that marks it. -/
theorem foldl_settle (d : TicketDiscovery) (turns : List (String × Turn)) :
    turns.foldl (·.settle sourceKind) d =
      match turns.findSome? fun e => if d.isPending sourceKind e.1 then e.2.mark else none with
      | some status => { d with status := status }
      | none => d := by
  induction turns with
  | nil => rfl
  | cons e turns ih =>
    rw [List.foldl_cons, List.findSome?_cons, TicketDiscovery.settle]
    cases hmark : e.2.mark with
    | none => rw [ite_self, ih]
    | some status =>
      cases d.isPending sourceKind e.1 with
      | false => exact ih
      | true => exact foldl_settle_of_ne (Turn.mark_ne_pending hmark)

theorem TicketDiscovery.isPending_iff {id : String} : d.isPending sourceKind id = true ↔
    d.sourceKind = sourceKind ∧ d.externalId = id ∧ d.status = .pending := by
  simp [TicketDiscovery.isPending]

theorem foldl_settle_unmarked
    (h : ∀ e ∈ turns, d.isPending sourceKind e.1 = true → e.2.mark = none) :
    turns.foldl (·.settle sourceKind) d = d := by
  have hnone : turns.findSome? (fun e => if d.isPending sourceKind e.1 then e.2.mark else none) = none := by
    refine List.findSome?_eq_none_iff.2 fun e he => ?_
    split
    · next hp => exact h e he hp
    · rfl
  rw [foldl_settle, hnone]

/-- A row that is Pending after some turns is as it was. -/
theorem foldl_settle_of_isPending {id : String}
    (h : (turns.foldl (·.settle sourceKind) d).isPending sourceKind id = true) :
    turns.foldl (·.settle sourceKind) d = d := by
  rw [foldl_settle] at h ⊢
  cases hfind : turns.findSome? fun e => if d.isPending sourceKind e.1 then e.2.mark else none with
  | none => rfl
  | some status =>
    obtain ⟨e, -, hstatus⟩ := List.exists_of_findSome?_eq_some hfind
    rw [hfind, TicketDiscovery.isPending_iff] at h
    split at hstatus
    · exact absurd h.2.2 (Turn.mark_ne_pending hstatus)
    · cases hstatus

/-- A Pending row of an id with a turn that marks it: the first of them does. -/
theorem foldl_settle_marked {e : String × Turn} (he : e ∈ turns)
    (hp : d.isPending sourceKind e.1 = true) (hmark : e.2.mark.isSome) :
    ∃ e' ∈ turns, e'.1 = e.1 ∧ ∃ status, e'.2.mark = some status ∧
      turns.foldl (·.settle sourceKind) d = { d with status := status } := by
  rw [foldl_settle]
  cases hfind : turns.findSome? fun e => if d.isPending sourceKind e.1 then e.2.mark else none with
  | none =>
    have := List.findSome?_eq_none_iff.1 hfind e he
    rw [if_pos hp] at this
    rw [this] at hmark
    cases hmark
  | some status =>
    obtain ⟨e', he', hstatus⟩ := List.exists_of_findSome?_eq_some hfind
    split at hstatus
    · next hp' =>
      refine ⟨e', he', ?_, status, hstatus, rfl⟩
      rw [← (TicketDiscovery.isPending_iff.1 hp').2.1, ← (TicketDiscovery.isPending_iff.1 hp).2.1]
    · cases hstatus

end Rows

/-! ## The whole sync -/

/-- Case variants are one ticket (`to_ascii_lowercase`). -/
def ticketKey (number : String) : List Char := number.toList.map Char.toLower

/-- A row of the id is Pending. -/
def HasPending (call : SyncCall) (t : FrontierTables) (id : String) : Prop :=
  ∃ d ∈ t.discoveries, d.isPending call.sourceKind id = true

/-- What the turn of an id has left is there: a fetch of its record with the snapshot, and no row
that is Pending still. -/
structure OnRecord (call : SyncCall) (t t' : FrontierTables) (e : String × Turn) : Prop where
  fetched : ∀ i, e.2.item = some i →
    some i.eventKey ∈ t'.sync.fetchedKeys.drop t.sync.fetchedKeys.length
  snapshot : ∀ i, e.2.item = some i → snapshotKey call.env i ∈ t'.sync.snapshotKeys
  marked : e.2.mark.isSome → ¬HasPending call t' e.1

/-- The counters are a partition of the ids examined, but for the one it stopped at. -/
structure Partitioned (w : Walk) (s : CorpusSyncSummary) : Prop where
  scopeExcluded : s.scopeExcluded = countTurns Turn.isExcluded w.turns
  found : s.newSnapshots + s.unchanged + s.notModified = (itemsOf w.turns).length
  notFound : s.notFound = countTurns Turn.isNotFound w.turns
  unsupported : s.unsupported = countTurns Turn.isUnsupported w.turns
  failures : s.failures = countTurns Turn.isFailed w.turns
  examined : s.examined = s.newSnapshots + s.unchanged + s.notModified + s.notFound +
    s.unsupported + s.failures + w.ending.at_.length

/-- What is promised of a sync, for `w` the walk of its ids. -/
structure FrontierKept (call : SyncCall) (t : FrontierTables) (ids : List Visit) (w : Walk)
    (r : FrontierOutcome) : Prop where
  /-- Each ticket is looked up at most once. -/
  once : (r.asked.map fun q => ticketKey q.number).Nodup
  /-- No new snapshot is one of an excluded record. -/
  inScope : ∀ source number sha,
    (some (source, number), sha) ∈ r.tables.sync.snapshotKeys.drop t.sync.snapshotKeys.length →
      call.scope.excludedSourceRecord call.sourceKind number = false
  /-- A row that becomes Fetched is one of a ticket with a new fetch. -/
  fetched : ∀ (j : Nat) (d d' : TicketDiscovery), t.discoveries[j]? = some d →
    r.tables.discoveries[j]? = some d' → d.status ≠ .fetched → d'.status = .fetched → ∃ source number,
      some (source, number) ∈ r.tables.sync.fetchedKeys.drop t.sync.fetchedKeys.length ∧
        ticketKey number = ticketKey d.externalId
  /-- After an early stop what was Pending is Pending. -/
  pending : ∀ s, r.result = .ok s → s.stopped.isSome →
    ∀ id ∈ (ids.map (·.id)).drop (s.scopeExcluded + s.examined),
      ∀ (j : Nat) (d : TicketDiscovery), t.discoveries[j]? = some d →
        d.isPending call.sourceKind id = true → r.tables.discoveries[j]? = some d
  counted : ∀ s, r.result = .ok s → Partitioned w s
  /-- What the ids before a failure have left is there. -/
  kept : ∀ e ∈ w.turns, OnRecord call t r.tables e

/-- The condition, on the ids with what the server and the database say. -/
structure FrontierFair (call : SyncCall) (t : FrontierTables) (w : Walk) : Prop where
  /-- The ids looked at that are in scope and of a family served are distinct. -/
  distinct : ((w.reached.filter call.looksUp).map ticketKey).Nodup
  /-- Of an excluded record the catalog has the snapshot already. -/
  known : ∀ i ∈ itemsOf w.turns, call.scope.excludedSourceRecord call.sourceKind i.externalId = true →
    snapshotKey call.env i ∈ t.sync.snapshotKeys
  /-- A Pending id is answered with its own record, or that is the answer to another id. -/
  answered : ∀ e ∈ w.turns, e.2.item.isSome → HasPending call t e.1 →
    ∃ i ∈ itemsOf w.turns, ticketKey i.externalId = ticketKey e.1
  /-- No Pending id that an early stop leaves has had a turn that marks it. -/
  unrepeated : (w.ending.finish {}).stopped.isSome → ∀ id ∈ w.rest, HasPending call t id →
    ∀ e ∈ w.turns, e.2.mark.isSome → e.1 ≠ id
  /-- Before a write that the database refuses nothing was written. -/
  unrefused : ∀ id error, w.ending = .refused id error → ∀ e ∈ w.turns,
    e.2.item = none ∧ (e.2.mark.isSome → ¬HasPending call t e.1)

/-- The tables after a sync that no write was refused in. -/
structure Synced (call : SyncCall) (t : FrontierTables) (w : Walk) (r : FrontierOutcome) : Prop where
  fetched : r.tables.sync.fetchedKeys =
    t.sync.fetchedKeys ++ (itemsOf w.turns).map fun i => some i.eventKey
  snapshots : ∃ new, r.tables.sync.snapshotKeys = t.sync.snapshotKeys ++ new ∧
    ∀ k, k ∈ new ↔ k ∈ (itemsOf w.turns).map (snapshotKey call.env) ∧ k ∉ t.sync.snapshotKeys
  discoveries : r.tables.discoveries =
    t.discoveries.map fun d => w.turns.foldl (·.settle call.sourceKind) d
  result : ∃ s n, r.result = .ok { w.ending.finish s with requestsMade := n } ∧ Counted w.turns s

section Sync
variable {call : SyncCall} {t : FrontierTables} {client : GrnocViewerClient} {ids : List Visit}

theorem syncIds_begin (ht : ViewerTexts call.env) (h : t.sync.WellFormed) (client : GrnocViewerClient)
    (ids : List Visit) : Follows call (call.begin t) [] [] (walk call client ids)
      (syncIds call t.sync.syncRuns.length ⟨call.begin t, client, {}, []⟩ ids) :=
  syncIds_spec ht (by simp [SyncCall.begin]) ids
    (held_begin (t := call.begin t) ⟨h.nodup, h.snapshots, h.fetches⟩)

theorem syncFrontier_asked (ht : ViewerTexts call.env) (h : t.sync.WellFormed) :
    (syncFrontier call t client ids).asked.map (·.number) =
      (walk call client ids).reached.filter call.looksUp := by
  have hspec := syncIds_begin ht h client ids
  have hasked := hspec.asked
  unfold syncFrontier
  dsimp only
  generalize syncIds call t.sync.syncRuns.length ⟨call.begin t, client, {}, []⟩ ids = r at hasked ⊢
  obtain ⟨st, _ | error⟩ := r <;> exact hasked

theorem syncFrontier_refused (ht : ViewerTexts call.env) (h : t.sync.WellFormed) {id error : String}
    (hw : (walk call client ids).ending = .refused id error) :
    (syncFrontier call t client ids).tables = t ∧
      (syncFrontier call t client ids).result = .error error := by
  have hspec := syncIds_begin ht h client ids
  have herror := hspec.refused id error hw
  unfold syncFrontier
  dsimp only
  generalize syncIds call t.sync.syncRuns.length ⟨call.begin t, client, {}, []⟩ ids = r at herror ⊢
  obtain ⟨st, _ | error⟩ := r <;> cases herror
  exact ⟨rfl, rfl⟩

theorem syncFrontier_synced (ht : ViewerTexts call.env) (h : t.sync.WellFormed)
    (hw : ∀ id error, (walk call client ids).ending ≠ .refused id error) :
    Synced call t (walk call client ids) (syncFrontier call t client ids) := by
  have hspec := syncIds_begin ht h client ids
  obtain ⟨hnone, s, hheld, hfinish⟩ := hspec.kept hw
  unfold syncFrontier
  dsimp only
  generalize syncIds call t.sync.syncRuns.length ⟨call.begin t, client, {}, []⟩ ids = r at *
  obtain ⟨st, _ | error⟩ := r
  · refine ⟨hheld.tables.fetched, ?_, hheld.tables.discoveries, s, _,
      by rw [← hfinish], hheld.counted⟩
    have hnew := foldl_insertUnique_id ((itemsOf (walk call client ids).turns).map
      (snapshotKey call.env)) t.sync.snapshotKeys
    obtain ⟨new, hfold, hnew⟩ := hnew
    exact ⟨new, hheld.tables.snapshots.trans hfold, hnew⟩
  · cases hnone

theorem walk_rest (c : GrnocViewerClient) (ids : List Visit) :
    (walk call c ids).rest =
      (ids.map (·.id)).drop ((walk call c ids).turns.length + (walk call c ids).ending.at_.length) := by
  induction ids generalizing c with
  | nil => rfl
  | cons v vs ih =>
    have hafter (c : GrnocViewerClient) (e : String × Turn) :
        ((walk call c vs).after e).rest = ((v :: vs).map (·.id)).drop
          (((walk call c vs).after e).turns.length + ((walk call c vs).after e).ending.at_.length) := by
      rw [Walk.after, ih c, List.map_cons, List.length_cons, Nat.add_right_comm]
      rfl
    rw [walk]
    split
    · rfl
    split
    · exact hafter c _
    dsimp only
    split
    · rfl
    · exact hafter _ _
    · split
      · rfl
      · exact hafter _ _

variable {w : Walk} {r : FrontierOutcome}

theorem Synced.row (h : Synced call t w r) {j : Nat} {d : TicketDiscovery}
    (hd : t.discoveries[j]? = some d) :
    r.tables.discoveries[j]? = some (w.turns.foldl (·.settle call.sourceKind) d) := by
  rw [h.discoveries, List.getElem?_map, hd, Option.map_some]

theorem Synced.inScope_iff (h : Synced call t w r) :
    (∀ source number sha,
      (some (source, number), sha) ∈ r.tables.sync.snapshotKeys.drop t.sync.snapshotKeys.length →
        call.scope.excludedSourceRecord call.sourceKind number = false) ↔
    ∀ i ∈ itemsOf w.turns, call.scope.excludedSourceRecord call.sourceKind i.externalId = true →
      snapshotKey call.env i ∈ t.sync.snapshotKeys := by
  obtain ⟨new, hkeys, hnew⟩ := h.snapshots
  rw [hkeys, List.drop_left]
  constructor
  · intro hscope i hi hexcluded
    by_contra hold
    have hmem := (hnew _).2 ⟨List.mem_map_of_mem hi, hold⟩
    have hincluded := hscope _ _ _ hmem
    rw [hexcluded] at hincluded
    cases hincluded
  · intro hknown source number sha hmem
    obtain ⟨hitem, hold⟩ := (hnew _).1 hmem
    obtain ⟨i, hi, hkey⟩ := List.mem_map.1 hitem
    cases hkey
    rw [← Bool.not_eq_true]
    exact fun hexcluded => hold (hknown i hi hexcluded)

/-- The tickets with a new fetch are those of the items. -/
theorem Synced.mem_fetched (h : Synced call t w r) {source number : String} :
    some (source, number) ∈ r.tables.sync.fetchedKeys.drop t.sync.fetchedKeys.length ↔
      ∃ i ∈ itemsOf w.turns, i.source = source ∧ i.externalId = number := by
  rw [h.fetched, List.drop_left, List.mem_map]
  simp [CatalogSourceItem.eventKey]

theorem Synced.onRecord (h : Synced call t w r) {e : String × Turn} (he : e ∈ w.turns) :
    OnRecord call t r.tables e := by
  have hitems (i : CatalogSourceItem) (hi : e.2.item = some i) : i ∈ itemsOf w.turns :=
    List.mem_filterMap.2 ⟨e, he, hi⟩
  refine ⟨fun i hi => ?_, fun i hi => ?_, ?_⟩
  · exact h.mem_fetched.2 ⟨i, hitems i hi, rfl, rfl⟩
  · obtain ⟨new, hkeys, hnew⟩ := h.snapshots
    rw [hkeys, List.mem_append]
    refine or_iff_not_imp_left.2 fun hold => (hnew _).2 ⟨List.mem_map_of_mem (hitems i hi), hold⟩
  · rintro hmark ⟨d', hd', hp⟩
    rw [h.discoveries] at hd'
    obtain ⟨d, -, rfl⟩ := List.mem_map.1 hd'
    have hbefore : d.isPending call.sourceKind e.1 = true := by
      rw [← hp, foldl_settle_of_isPending hp]
    obtain ⟨e', -, -, status, hstatus, hrow⟩ := foldl_settle_marked he hbefore hmark
    rw [hrow, TicketDiscovery.isPending_iff] at hp
    exact Turn.mark_ne_pending hstatus hp.2.2

/-- The turn of an id that is asked for is the only one of that id. -/
theorem turn_unique (hturns : ∀ e ∈ w.turns, TurnOf call e)
    (hdistinct : ((w.reached.filter call.looksUp).map ticketKey).Nodup) {e e' : String × Turn}
    (he : e ∈ w.turns) (he' : e' ∈ w.turns) (hid : e'.1 = e.1) (hitem : e.2.item.isSome) : e' = e := by
  have hlooks : call.looksUp e.1 = true := by
    rw [(hturns e he).looksUp]
    obtain ⟨id, _ | _ | _ | _ | _⟩ := e <;> first | rfl | cases hitem
  have hnodup : ((w.turns.filter fun e => call.looksUp e.1).map (·.1)).Nodup := by
    have hsub : (w.turns.map (·.1)).Sublist w.reached := List.sublist_append_left ..
    have hnodup := (List.Nodup.of_map ticketKey hdistinct).sublist (hsub.filter call.looksUp)
    rwa [List.filter_map] at hnodup
  refine List.inj_on_of_nodup_map hnodup ?_ ?_ hid
  · rw [List.mem_filter, hid]
    exact ⟨he', hlooks⟩
  · rw [List.mem_filter]
    exact ⟨he, hlooks⟩

theorem Synced.fetched_iff (h : Synced call t w r) (hturns : ∀ e ∈ w.turns, TurnOf call e)
    (hdistinct : ((w.reached.filter call.looksUp).map ticketKey).Nodup) :
    (∀ (j : Nat) (d d' : TicketDiscovery), t.discoveries[j]? = some d →
      r.tables.discoveries[j]? = some d' → d.status ≠ .fetched → d'.status = .fetched →
        ∃ source number,
          some (source, number) ∈ r.tables.sync.fetchedKeys.drop t.sync.fetchedKeys.length ∧
            ticketKey number = ticketKey d.externalId) ↔
    ∀ e ∈ w.turns, e.2.item.isSome → HasPending call t e.1 →
      ∃ i ∈ itemsOf w.turns, ticketKey i.externalId = ticketKey e.1 := by
  constructor
  · rintro hfetched e he hitem ⟨d, hd, hp⟩
    obtain ⟨j, hj⟩ := List.getElem?_of_mem hd
    have hmark := Turn.mark_eq_fetched_iff.2 hitem
    obtain ⟨e', he', hid, status, hstatus, hrow⟩ :=
      foldl_settle_marked he hp (Option.isSome_iff_exists.2 ⟨_, hmark⟩)
    rw [turn_unique hturns hdistinct he he' hid hitem, hmark] at hstatus
    obtain rfl := Option.some.inj hstatus
    obtain ⟨-, hext, hpending⟩ := TicketDiscovery.isPending_iff.1 hp
    obtain ⟨source, number, hmem, hkey⟩ := hfetched j d _ hj (h.row hj)
      (by rw [hpending]; decide) (by rw [hrow])
    obtain ⟨i, hi, -, rfl⟩ := h.mem_fetched.1 hmem
    exact ⟨i, hi, by rw [hkey, hext]⟩
  · intro hanswered j d d' hd hd' hbefore hafter
    rw [h.row hd, Option.some.injEq] at hd'
    rw [← hd', foldl_settle] at hafter
    cases hfind : w.turns.findSome? fun e =>
        if d.isPending call.sourceKind e.1 then e.2.mark else none with
    | none =>
      rw [hfind] at hafter
      exact absurd hafter hbefore
    | some status =>
      rw [hfind] at hafter
      obtain ⟨e, he, hstatus⟩ := List.exists_of_findSome?_eq_some hfind
      split at hstatus
      · next hp =>
        rw [show status = .fetched from hafter] at hstatus
        obtain ⟨i, hi, hkey⟩ := hanswered e he (Turn.mark_eq_fetched_iff.1 hstatus)
          ⟨d, List.mem_of_getElem? hd, hp⟩
        refine ⟨_, _, h.mem_fetched.2 ⟨i, hi, rfl, rfl⟩, ?_⟩
        rw [hkey, (TicketDiscovery.isPending_iff.1 hp).2.1]
      · cases hstatus

/-- The summary of a sync, and the ids after those it counts. -/
theorem Synced.summary (h : Synced call t (walk call client ids) r) {s : CorpusSyncSummary}
    (hs : r.result = .ok s) :
    Partitioned (walk call client ids) s ∧
      s.stopped = ((walk call client ids).ending.finish {}).stopped ∧
      (ids.map (·.id)).drop (s.scopeExcluded + s.examined) = (walk call client ids).rest := by
  obtain ⟨s', n, hok, hcounted⟩ := h.result
  rw [hok, Ending.finish_eq hcounted.stopped] at hs
  cases hs
  have hsum := hcounted.examined
  have hlength := hcounted.length
  refine ⟨⟨hcounted.scopeExcluded, hcounted.found, hcounted.notFound, hcounted.unsupported,
    hcounted.failures, ?_⟩, rfl, ?_⟩
  · dsimp only
    omega
  · rw [walk_rest, ← hlength, Nat.add_assoc]

theorem Synced.pending_iff (h : Synced call t (walk call client ids) r) :
    (∀ s, r.result = .ok s → s.stopped.isSome →
      ∀ id ∈ (ids.map (·.id)).drop (s.scopeExcluded + s.examined),
        ∀ (j : Nat) (d : TicketDiscovery), t.discoveries[j]? = some d →
          d.isPending call.sourceKind id = true → r.tables.discoveries[j]? = some d) ↔
    (((walk call client ids).ending.finish {}).stopped.isSome →
      ∀ id ∈ (walk call client ids).rest, HasPending call t id →
        ∀ e ∈ (walk call client ids).turns, e.2.mark.isSome → e.1 ≠ id) := by
  constructor
  · rintro hkeeps hstopped id hid ⟨d, hd, hp⟩ e he hmark rfl
    obtain ⟨s', n, hok, -⟩ := h.result
    obtain ⟨-, hs, hrest⟩ := h.summary hok
    obtain ⟨j, hj⟩ := List.getElem?_of_mem hd
    have hkept := hkeeps _ hok (by rw [hs]; exact hstopped) e.1 (by rw [hrest]; exact hid) j d hj hp
    obtain ⟨e', -, -, status, hstatus, hrow⟩ := foldl_settle_marked he hp hmark
    rw [h.row hj, hrow, Option.some.injEq] at hkept
    have hpending := (TicketDiscovery.isPending_iff.1 hp).2.2
    rw [← hkept] at hpending
    exact Turn.mark_ne_pending hstatus hpending
  · intro hfree s hok hstopped id hid j d hj hp
    obtain ⟨-, hs, hrest⟩ := h.summary hok
    rw [hs] at hstopped
    rw [hrest] at hid
    rw [h.row hj, foldl_settle_unmarked]
    intro e he hpe
    have hne := mt (hfree hstopped id hid ⟨d, List.mem_of_getElem? hj, hp⟩ e he)
    rw [not_not] at hne
    rw [← Option.not_isSome_iff_eq_none]
    refine hne ?_
    rw [← (TicketDiscovery.isPending_iff.1 hp).2.1, (TicketDiscovery.isPending_iff.1 hpe).2.1]

/-- A refused write undoes the turns before it. -/
theorem frontierKept_refused {w : Walk} {id error : String} (hending : w.ending = .refused id error)
    (htables : r.tables = t) (hresult : r.result = .error error)
    (honce : r.asked.map (fun q => ticketKey q.number) =
      (w.reached.filter call.looksUp).map ticketKey) :
    FrontierKept call t ids w r ↔ FrontierFair call t w := by
  have hnew {α : Type} (l : List α) : l.drop l.length = [] := List.drop_length
  constructor
  · rintro ⟨hdistinct, -, -, -, -, hkept⟩
    rw [htables] at hkept
    have hnone (e : String × Turn) (he : e ∈ w.turns) : e.2.item = none := by
      refine Option.eq_none_iff_forall_ne_some.2 fun i hi => ?_
      have hmem := (hkept e he).fetched i hi
      rw [hnew] at hmem
      cases hmem
    have hitems : itemsOf w.turns = [] := List.filterMap_eq_nil_iff.2 hnone
    refine ⟨by rw [← honce]; exact hdistinct, ?_, fun e he hitem => ?_, fun hstopped => ?_,
      fun _ _ _ e he => ⟨hnone e he, (hkept e he).marked⟩⟩
    · rw [hitems]
      exact fun i hi => nomatch hi
    · rw [hnone e he] at hitem
      cases hitem
    · rw [hending] at hstopped
      cases hstopped
  · rintro ⟨hdistinct, -, -, -, hunrefused⟩
    have hsilent := hunrefused id error hending
    refine ⟨by rw [honce]; exact hdistinct, ?_, ?_, fun s hs => ?_, fun s hs => ?_, fun e he => ?_⟩
    · rw [htables, hnew]
      exact fun _ _ _ h => nomatch h
    · rw [htables]
      intro j d d' hd hd' hbefore hafter
      rw [hd, Option.some.injEq] at hd'
      exact absurd (hd' ▸ hafter) hbefore
    · rw [hresult] at hs
      cases hs
    · rw [hresult] at hs
      cases hs
    · obtain ⟨hitem, hmark⟩ := hsilent e he
      rw [htables]
      refine ⟨fun i hi => ?_, fun i hi => ?_, hmark⟩ <;>
      · rw [hitem] at hi
        cases hi

/-- **The whole sync**: it keeps its promises if and only if the ids, with what the server and the
database say, are fair. -/
theorem frontierKept_iff (ht : ViewerTexts call.env) (hwf : t.sync.WellFormed) :
    FrontierKept call t ids (walk call client ids) (syncFrontier call t client ids) ↔
      FrontierFair call t (walk call client ids) := by
  have hturns := turnOf_walk ht client ids
  have honce : (syncFrontier call t client ids).asked.map (fun q => ticketKey q.number) =
      ((walk call client ids).reached.filter call.looksUp).map ticketKey := by
    rw [← syncFrontier_asked ht hwf, List.map_map]
    rfl
  by_cases hending : ∃ id error, (walk call client ids).ending = .refused id error
  · obtain ⟨id, error, hending⟩ := hending
    obtain ⟨htables, hresult⟩ := syncFrontier_refused ht hwf hending
    exact frontierKept_refused hending htables hresult honce
  · have hsynced := syncFrontier_synced ht hwf fun id error h => hending ⟨id, error, h⟩
    constructor
    · rintro ⟨hdistinct, hscope, hfetched, hpending, -, -⟩
      rw [honce] at hdistinct
      exact ⟨hdistinct, hsynced.inScope_iff.1 hscope,
        (hsynced.fetched_iff hturns hdistinct).1 hfetched, hsynced.pending_iff.1 hpending,
        fun id error h => absurd ⟨id, error, h⟩ hending⟩
    · rintro ⟨hdistinct, hknown, hanswered, hunrepeated, -⟩
      refine ⟨by rw [honce]; exact hdistinct, hsynced.inScope_iff.2 hknown,
        (hsynced.fetched_iff hturns hdistinct).2 hanswered, hsynced.pending_iff.2 hunrepeated,
        fun s hs => (hsynced.summary hs).1, fun e he => hsynced.onRecord he⟩

end Sync

namespace FrontierSample

/-- A record of which only the number is set. -/
def record : ViewerRecord := ⟨"INC0000002", "", "", "", "", "", "", "", "", "", "", "", ""⟩

def recordText : String := jsonObject [("number", jsonString "INC0000002"),
  ("short_description", jsonString ""), ("description", jsonString ""),
  ("u_outgoing_notification_text", jsonString ""), ("state", jsonString ""),
  ("category", jsonString ""), ("work_start", jsonString ""), ("work_end", jsonString ""),
  ("opened_at", jsonString ""), ("priority", jsonString ""), ("start_date", jsonString ""),
  ("end_date", jsonString ""), ("u_maintenance_type", jsonString "")]

def responseText : String := "\x7b\"result\":[" ++ recordText ++ "]\x7d"

/-- The object of the record's normal form; every other is a text with its number in it. -/
def normalText : String := jsonObject [("category", jsonString ""), ("description", jsonString ""),
  ("end", "null"), ("id", jsonString "INC0000002"), ("maintenance_type", "null"),
  ("notification_text", "null"), ("opened", "null"), ("planned_end", "null"),
  ("planned_start", "null"), ("priority", jsonString "Unknown"), ("priority_code", "null"),
  ("source_url", jsonString "https://ticket-viewer.grnoc.iu.edu/tickets/INC0000002/"),
  ("start", jsonString ""), ("state", jsonString "Unknown"), ("state_code", "null"),
  ("task_type", jsonString "Incident"), ("title", jsonString "")]

def env : ViewerEnv where
  sha256 := id
  normalizedId s := if s = normalText then some "INC0000002" else some (String.ofList s.toList.tail)
  parseResponse s := if s = responseText then .ok [record] else .ok []
  recordJson _ := recordText
  normalizedJson g := if g = toGrnocRecord record then normalText else "#" ++ g.number

theorem texts : ViewerTexts env := by
  refine ⟨fun g => ?_⟩
  by_cases hg : g = toGrnocRecord record
  · simp only [env, if_pos hg, if_true]
    rw [hg]
    rfl
  · have hne : ("#" ++ g.number) ≠ normalText := by
      intro heq
      have hhead : ("#" ++ g.number).toList.head? = some '#' := by
        rw [String.toList_append]
        rfl
      rw [heq] at hhead
      exact absurd hhead (by decide +kernel)
    simp only [env, if_neg hg, if_neg hne, String.toList_append]
    exact congrArg some (String.ofList_toList)

def policy : AccessPolicy := AccessPolicy.conservative

def client : GrnocViewerClient := ⟨⟨policy, 0, 100, 0, 0⟩, "https://ticket-viewer.grnoc.iu.edu"⟩

def call (scope : ProjectScope) : SyncCall :=
  ⟨env, scope, "grnoc-public-task-viewer", "2026-08-01T00:00:00Z"⟩

def reply (status : Nat) (body : String) : Nat → HttpReply :=
  fun _ => ⟨0, .ok ⟨status, none, none, none, none, .ok body⟩⟩

def visit (id : String) (replies : Nat → HttpReply) : Visit :=
  ⟨id, replies, "2026-08-01T00:00:00Z", none⟩

/-- Empty but for Pending rows. -/
def tables (ids : List String) : FrontierTables :=
  ⟨.empty, ids.map fun id => ⟨"grnoc-public-task-viewer", id, .pending⟩⟩

theorem wellFormed (ids : List String) : (tables ids).sync.WellFormed :=
  ⟨List.nodup_nil, fun _ h => absurd h List.not_mem_nil, fun _ h => absurd h List.not_mem_nil⟩

/-- A policy that excludes the record. -/
def scope : ProjectScope :=
  ⟨1, [], [⟨"grnoc", "INC0000002", "project_owner_exclusion"⟩], [], [], [("INC0000002", 0)]⟩

/-- The promises for a frontier of Pending ids. -/
def Kept (scope : ProjectScope) (pending : List String) (ids : List Visit) : Prop :=
  FrontierKept (call scope) (tables pending) ids (walk (call scope) client ids)
    (syncFrontier (call scope) (tables pending) client ids)

/-- Two spellings of one number, which is not found. -/
def twice : List Visit := [visit "INC0000001" (reply 404 ""), visit "inc0000001" (reply 404 "")]

/-- The record of another number. -/
def another : List Visit := [visit "INC0000001" (reply 200 responseText)]

/-- The server forbids the second lookup, and the third is that of the first id. -/
def again : List Visit := [visit "INC0000001" (reply 404 ""), visit "INC0000003" (reply 403 ""),
  visit "INC0000001" (reply 404 "")]

/-- The disk is full at the second id. -/
def full : List Visit := [visit "INC0000001" (reply 404 ""), { visit "INC0000003" (reply 404 "") with
  refused := some "catalog write failed: database or disk is full" }]

/-- One number is looked up twice; an id is Fetched with no record of its own, and an excluded record
has a snapshot; an id after the stop is not Pending; and the mark of the first id is undone. -/
theorem not_frontierKept :
    ¬Kept .empty ["INC0000001", "inc0000001"] twice ∧ ¬Kept .empty ["INC0000001"] another ∧
      ¬Kept scope ["INC0000001"] another ∧ ¬Kept .empty ["INC0000001", "INC0000003"] again ∧
      ¬Kept .empty ["INC0000001", "INC0000003"] full := by
  refine ⟨fun h => ?_, fun h => ?_, fun h => ?_, fun h => ?_, fun h => ?_⟩
  · exact absurd h.once (by decide +kernel)
  · obtain ⟨source, number, hmem, hkey⟩ := h.fetched 0
      ⟨"grnoc-public-task-viewer", "INC0000001", .pending⟩
      ⟨"grnoc-public-task-viewer", "INC0000001", .fetched⟩ rfl (by decide +kernel) (by decide) rfl
    have hkeys : (syncFrontier (call .empty) (tables ["INC0000001"]) client another).tables.sync.fetchedKeys =
        [some ("grnoc-public-task-viewer", "INC0000002")] := by decide +kernel
    rw [hkeys] at hmem
    cases List.mem_singleton.1 hmem
    exact absurd hkey (by decide)
  · exact absurd (h.inScope "grnoc-public-task-viewer" "INC0000002" recordText (by decide +kernel))
      (by decide +kernel)
  · have hrow := h.pending { examined := 2, notFound := 1, stopped := some .forbidden, requestsMade := 2 }
      rfl rfl "INC0000001" (by decide +kernel) 0
      ⟨"grnoc-public-task-viewer", "INC0000001", .pending⟩ rfl (by decide +kernel)
    exact absurd hrow (by decide +kernel)
  · have hturn := h.kept ("INC0000001", .answered (.notFound 404 0 false)) (by decide +kernel)
    exact hturn.marked rfl
      ⟨⟨"grnoc-public-task-viewer", "INC0000001", .pending⟩, by decide +kernel, by decide +kernel⟩

/-- An id that is found, one that is not, and one of a family that is not served. -/
def plain : List Visit := [visit "INC0000002" (reply 200 responseText),
  visit "INC0000003" (reply 404 ""), visit "TASK0000004" (reply 404 "")]

theorem frontierKept_plain : Kept .empty ["INC0000002", "INC0000003", "TASK0000004"] plain := by
  have hending : (walk (call .empty) client plain).ending = .ran := by decide +kernel
  refine (frontierKept_iff texts (wellFormed _)).2 ⟨by decide +kernel, ?_, ?_, ?_, ?_⟩
  · exact fun _ _ h => absurd h Bool.false_ne_true
  · have hown : ∀ e ∈ (walk (call .empty) client plain).turns, e.2.item.isSome = true →
        ∃ i ∈ itemsOf (walk (call .empty) client plain).turns,
          ticketKey i.externalId = ticketKey e.1 := by
      decide +kernel
    exact fun e he hitem _ => hown e he hitem
  · rw [hending]
    exact fun h => absurd h (by decide)
  · rw [hending]
    exact fun _ _ h => nomatch h

end FrontierSample

end Inim
