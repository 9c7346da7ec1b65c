import Inim.Catalog.LatestView
import Inim.Catalog.Relationships

/-!
# Derived overlaps of windows (`catalog/relationships.rs:151-228`)

| here | there |
| --- | --- |
| `ListedEvent`, `IsCatalogView` | what `list_events` and `list_snapshots` return (`db.rs:162-210`) |
| `recordTemporalOverlap`        | `record_temporal_overlap` |
| `deriveTemporalOverlaps`       | `derive_temporal_overlaps` |
| `OverlapOp`, `OverlapState`    | payloads that are stored, edges of other kinds and derivations, in any order |

An overlap is recorded once and never removed, and windows are compared as texts. So what is recorded
are the pairs whose texts overlapped at some derivation (`recorded_run`).

**Bug** (`overlap_outlives_window`): an event whose window has moved keeps the overlaps of its earlier
windows. `deriveTemporalOverlaps_iff` gives the exact condition for the recorded overlaps to be those of
the instants.
-/

namespace Inim

open Std Inim.Lib

/-! ## What a derivation reads -/

/-- A row of `list_events`, with the string fields `start` and `end` of its latest snapshot. -/
structure ListedEvent where
  id : Int
  sourceKind : String
  externalId : String
  /-- `none` without a snapshot. -/
  latest : Option (Option String × Option String)
deriving DecidableEq, Repr

/-- The window, if there is one and it is closed. -/
def ListedEvent.window (e : ListedEvent) : Option (String × String) :=
  e.latest.bind fun v =>
    let start := v.1.getD ""
    let stop := v.2.getD ""
    if start.isEmpty || stop.isEmpty then none else some (start, stop)

/-- An event with its window. -/
structure ListedWindow where
  id : Int
  start : String
  stop : String
deriving DecidableEq, Repr

def listedWindows (events : List ListedEvent) (sourceKind : String) : List ListedWindow :=
  (events.filter (·.sourceKind = sourceKind)).filterMap fun e =>
    e.window.map fun w => ⟨e.id, w.1, w.2⟩

/-! ## A derivation -/

def temporalOverlap (fromId toId : Int) (toExternal note createdUtc : String) : TicketRelationship where
  id := 0
  fromEventId := fromId
  toEventId := some toId
  toExternalId := toExternal
  relationshipKind := "TemporalOverlap"
  evidenceKind := "DerivedTemporalOverlap"
  sourceSnapshotId := none
  sourceDocumentId := none
  reviewedStatus := "Unreviewed"
  note := some note
  createdUtc := createdUtc

section Derive
variable (events : List ListedEvent) (createdUtc : String)

def recordTemporalOverlap (edges : List TicketRelationship) (fromId toId : Int) (note : String) :
    Except String (List TicketRelationship × Bool) :=
  match events.find? (·.id = toId) with
  | none => .error s!"no event {toId}"
  | some e => .ok (insertRelationship edges (temporalOverlap fromId toId e.externalId note createdUtc))

/-- `a_start < b_end && b_start < a_end`, on the texts. -/
def ListedWindow.overlaps (a b : ListedWindow) : Bool := a.start < b.stop && b.start < a.stop

def overlapNote (a b : ListedWindow) : String :=
  "event windows overlap (" ++ a.start ++ ".." ++ a.stop ++ ") vs (" ++ b.start ++ ".." ++ b.stop ++
    "); overlap is not causal attribution"

/-- One turn of the inner loop: the edges, and how many are new. -/
def derivePair (st : List TicketRelationship × Nat) (p : ListedWindow × ListedWindow) :
    Except String (List TicketRelationship × Nat) :=
  if p.1.overlaps p.2 then do
    let there ← recordTemporalOverlap events createdUtc st.1 p.1.id p.2.id (overlapNote p.1 p.2)
    let back ← recordTemporalOverlap events createdUtc there.1 p.2.id p.1.id (overlapNote p.1 p.2)
    .ok (back.1, st.2 + there.2.toNat + back.2.toNat)
  else .ok st

/-- `(i, j)` with `i < j`, in the order of the loops. -/
def laterPairs : List ListedWindow → List (ListedWindow × ListedWindow)
  | [] => []
  | a :: rest => rest.map (a, ·) ++ laterPairs rest

def deriveTemporalOverlaps (sourceKind : String) (edges : List TicketRelationship) :
    Except String (List TicketRelationship × Nat) :=
  (laterPairs (listedWindows events sourceKind)).foldlM (derivePair events createdUtc) (edges, 0)

end Derive

/-! ## Histories -/

structure OverlapEnv extends SyncEnv where
  /-- The string fields `start` and `end` of a normalized record; `none` where a field is missing. -/
  windowOf : String → Option String × Option String
  /-- `DateTime::parse_from_rfc3339`. -/
  rfc3339 : String → Except String DateTime

structure OverlapState where
  tables : CatalogTables
  edges : List TicketRelationship

/-- `list_events` and, of each event, the first row of `list_snapshots`. Rows of one timestamp may come
in any order. -/
structure IsCatalogView (env : OverlapEnv) (c : CatalogTables) (view : List ListedEvent) : Prop where
  listed : ∃ rows : List (CatalogEvent × Nat), rows.Perm c.events.zipIdx ∧
    rows.Pairwise (fun a b => b.1.lastSeen < a.1.lastSeen ∨
      (a.1.lastSeen = b.1.lastSeen ∧ a.1.externalId ≤ b.1.externalId)) ∧
    List.Forall₂ (fun r e => e.id = r.2 ∧ e.sourceKind = r.1.sourceKind ∧
      e.externalId = r.1.externalId ∧
      ∃ l, IsSnapshotListing c r.2 l ∧ e.latest = l.head?.map (env.windowOf ·.normalizedJson)) rows view

inductive OverlapOp where
  /-- A payload comes in: its event and, with a new content, a snapshot. -/
  | store (f : Fetched)
  /-- An edge of another kind is recorded. -/
  | relate (edge : TicketRelationship)
  | derive (view : List ListedEvent) (sourceKind createdUtc : String)

def OverlapOp.step (env : OverlapEnv) (s : OverlapState) : OverlapOp → OverlapState
  | .store f => { s with tables := storePayload env.toSyncEnv s.tables f }
  | .relate edge => { s with edges := (insertRelationship s.edges edge).1 }
  | .derive view sourceKind createdUtc =>
    match deriveTemporalOverlaps view createdUtc sourceKind s.edges with
    | .ok (edges, _) => { s with edges := edges }
    | .error _ => s

/-- A derivation reads the catalog as it is. -/
def OverlapOp.Allowed (env : OverlapEnv) (s : OverlapState) : OverlapOp → Prop
  | .store _ => True
  | .relate edge => edge.relationshipKind ≠ "TemporalOverlap"
  | .derive view _ _ => IsCatalogView env s.tables view

def OverlapState.empty : OverlapState := ⟨.empty, []⟩

/-! ## What is recorded -/

/-- The overlap of `x` with `y` is recorded. -/
def Recorded (edges : List TicketRelationship) (x y : Int) : Prop :=
  ∃ e ∈ edges, e.fromEventId = x ∧ e.toEventId = some y ∧ e.relationshipKind = "TemporalOverlap" ∧
    e.evidenceKind = "DerivedTemporalOverlap"

/-- The texts of the windows of two events overlap. -/
def TextsOverlapAt (view : List ListedEvent) (sourceKind : String) (x y : Int) : Prop :=
  ∃ a ∈ listedWindows view sourceKind, ∃ b ∈ listedWindows view sourceKind,
    a.id = x ∧ b.id = y ∧ x ≠ y ∧ a.overlaps b

/-- The texts of their windows overlapped at a derivation. -/
def OnceOverlapped (ops : List OverlapOp) (x y : Int) : Prop :=
  ∃ view sourceKind createdUtc, .derive view sourceKind createdUtc ∈ ops ∧
    TextsOverlapAt view sourceKind x y

/-- The closed windows of both events, read as instants, overlap. -/
def InstantsOverlap (env : OverlapEnv) (a b : ListedEvent) : Prop :=
  ∃ wa wb sa ea sb eb, a.window = some wa ∧ b.window = some wb ∧
    env.rfc3339 wa.1 = .ok sa ∧ env.rfc3339 wa.2 = .ok ea ∧
    env.rfc3339 wb.1 = .ok sb ∧ env.rfc3339 wb.2 = .ok eb ∧ sa < eb ∧ sb < ea

/-- Where the event has a closed window, both times can be read. -/
def ListedEvent.Readable (env : OverlapEnv) (e : ListedEvent) : Prop :=
  ∀ w, e.window = some w → (env.rfc3339 w.1).isOk ∧ (env.rfc3339 w.2).isOk

/-- A property of each two events of a source. -/
def ForPairs (env : OverlapEnv) (view : List ListedEvent) (sourceKind : String)
    (P : ListedEvent → ListedEvent → Prop) : Prop :=
  ∀ a ∈ view, ∀ b ∈ view, a.sourceKind = sourceKind → b.sourceKind = sourceKind → a.id ≠ b.id →
    a.Readable env → b.Readable env → P a b

/-! ## The loops -/

theorem laterPairs_pairwise {R : ListedWindow → ListedWindow → Prop} {l : List ListedWindow}
    (h : l.Pairwise R) : ∀ p ∈ laterPairs l, p.1 ∈ l ∧ p.2 ∈ l ∧ R p.1 p.2 := by
  induction l with
  | nil => exact fun p hp => absurd hp (List.not_mem_nil)
  | cons a l ih =>
    obtain ⟨ha, hl⟩ := List.pairwise_cons.mp h
    intro p hp
    rcases List.mem_append.mp hp with hp | hp
    · obtain ⟨b, hb, rfl⟩ := List.mem_map.mp hp
      exact ⟨List.mem_cons_self .., List.mem_cons_of_mem _ hb, ha b hb⟩
    · obtain ⟨h1, h2, hR⟩ := ih hl p hp
      exact ⟨List.mem_cons_of_mem _ h1, List.mem_cons_of_mem _ h2, hR⟩

theorem laterPairs_total {l : List ListedWindow} {a b : ListedWindow} (ha : a ∈ l) (hb : b ∈ l)
    (hne : a ≠ b) : (a, b) ∈ laterPairs l ∨ (b, a) ∈ laterPairs l := by
  induction l with
  | nil => exact absurd ha List.not_mem_nil
  | cons c l ih =>
    simp only [laterPairs, List.mem_append, List.mem_map, Prod.mk.injEq]
    rcases List.mem_cons.mp ha with rfl | ha'
    · rcases List.mem_cons.mp hb with rfl | hb'
      · exact absurd rfl hne
      · exact .inl (.inl ⟨b, hb', rfl, rfl⟩)
    · rcases List.mem_cons.mp hb with rfl | hb'
      · exact .inr (.inl ⟨a, ha', rfl, rfl⟩)
      · exact (ih ha' hb').imp .inr .inr

theorem ListedWindow.overlaps_comm (a b : ListedWindow) : a.overlaps b = b.overlaps a := by
  simp only [ListedWindow.overlaps]
  exact Bool.and_comm ..

/-! ## Identities -/

/-- The view has each event once, under the id and with the key that the table has. -/
structure Keyed (keys : List (String × String)) (view : List ListedEvent) : Prop where
  key : ∀ e ∈ view, ∃ i : Nat, e.id = i ∧ keys[i]? = some (e.sourceKind, e.externalId)
  nodup : (view.map (·.id)).Nodup

theorem IsCatalogView.keyed {env : OverlapEnv} {c : CatalogTables} {view : List ListedEvent}
    (h : IsCatalogView env c view) : Keyed c.eventKeys view := by
  obtain ⟨rows, hperm, -, hrows⟩ := h.listed
  have hident : rows.map (fun r => ((r.2 : Int), r.1.sourceKind, r.1.externalId)) =
      view.map fun e => (e.id, e.sourceKind, e.externalId) := by
    rw [← List.forall₂_eq_eq_eq, List.forall₂_map_left_iff, List.forall₂_map_right_iff]
    refine hrows.imp fun r e hre => ?_
    rw [hre.1, hre.2.1, hre.2.2.1]
  refine ⟨fun e he => ?_, ?_⟩
  · have hmem := List.mem_map_of_mem (f := fun e : ListedEvent => (e.id, e.sourceKind, e.externalId)) he
    rw [← hident] at hmem
    obtain ⟨r, hr, heq⟩ := List.mem_map.mp hmem
    simp only [Prod.mk.injEq] at heq
    have hrow := List.mem_zipIdx_iff_getElem?.mp (hperm.subset hr)
    refine ⟨r.2, heq.1.symm, ?_⟩
    rw [CatalogTables.eventKeys, List.getElem?_map, hrow, Option.map_some, CatalogEvent.key, heq.2.1,
      heq.2.2]
  · have hids : view.map (·.id) = (rows.map (·.2)).map fun i : Nat => (i : Int) := by
      have h := congrArg (List.map (·.1)) hident
      simpa [Function.comp_def] using h.symm
    rw [hids]
    refine List.Nodup.map (fun a b hab => by simpa using hab) ?_
    rw [(hperm.map (·.2)).nodup_iff, List.zipIdx_map_snd]
    exact List.nodup_range'

/-- Each recorded overlap is that of two events of a source, under the key that a derivation gives. -/
def OverlapInv (keys : List (String × String)) (edges : List TicketRelationship) : Prop :=
  ∀ e ∈ edges, e.relationshipKind = "TemporalOverlap" → ∃ (a b : Nat) (k x y : String),
    keys[a]? = some (k, x) ∧ keys[b]? = some (k, y) ∧ e.toEventId = some (b : Int) ∧
      e.dedupKey = ((a : Int), y, "TemporalOverlap", "DerivedTemporalOverlap", 0, 0)

section Insert
variable {keys : List (String × String)} {edges : List TicketRelationship} {a b : Nat} {k x y : String}

theorem temporalOverlap_dedupKey (fromId toId : Int) (toExternal note createdUtc : String) :
    (temporalOverlap fromId toId toExternal note createdUtc).dedupKey =
      (fromId, toExternal, "TemporalOverlap", "DerivedTemporalOverlap", 0, 0) := rfl

/-- The key of an overlap is taken exactly if the overlap is recorded. -/
theorem dedupKey_mem_iff_recorded (hinv : OverlapInv keys edges) (hkeys : keys.Nodup)
    (ha : keys[a]? = some (k, x)) (hb : keys[b]? = some (k, y)) :
    (∃ e ∈ edges, e.dedupKey = ((a : Int), y, "TemporalOverlap", "DerivedTemporalOverlap", 0, 0)) ↔
      Recorded edges a b := by
  constructor
  · rintro ⟨e, he, hkey⟩
    have hkind : e.relationshipKind = "TemporalOverlap" := congrArg (·.2.2.1) hkey
    obtain ⟨a', b', k', x', y', ha', hb', hto, hkey'⟩ := hinv e he hkind
    rw [hkey] at hkey'
    simp only [Prod.mk.injEq, Nat.cast_inj] at hkey'
    obtain ⟨rfl, rfl, -⟩ := hkey'
    obtain ⟨rfl, -⟩ := Prod.mk.inj (Option.some.inj (ha.symm.trans ha'))
    -- Within a source the identifier tells the event.
    obtain rfl : b = b' := by
      have hlt := (List.getElem?_eq_some_iff.mp hb).1
      exact (List.getElem?_inj hlt hkeys).mp (hb.trans hb'.symm)
    exact ⟨e, he, congrArg (·.1) hkey, hto, hkind, congrArg (·.2.2.2.1) hkey⟩
  · rintro ⟨e, he, hfrom, hto, hkind, -⟩
    obtain ⟨a', b', k', x', y', ha', hb', hto', hkey⟩ := hinv e he hkind
    obtain rfl : a' = a := by
      have : e.fromEventId = (a' : Int) := congrArg (·.1) hkey
      omega
    obtain rfl : b' = b := by
      have := hto.symm.trans hto'
      simpa using this.symm
    obtain ⟨-, rfl⟩ := Prod.mk.inj (Option.some.inj (hb.symm.trans hb'))
    exact ⟨e, he, hkey⟩

/-- An overlap is recorded unless it already is. -/
theorem insert_temporalOverlap (hinv : OverlapInv keys edges) (hkeys : keys.Nodup)
    (ha : keys[a]? = some (k, x)) (hb : keys[b]? = some (k, y)) (note createdUtc : String) :
    ∃ edges' new, insertRelationship edges (temporalOverlap a b y note createdUtc) = (edges', new) ∧
      OverlapInv keys edges' ∧
      (∀ u v, Recorded edges' u v ↔ Recorded edges u v ∨ (u = a ∧ v = b)) ∧
      (Recorded edges a b → edges' = edges ∧ new = false) := by
  have hany : edges.any (·.dedupKey = (temporalOverlap a b y note createdUtc).dedupKey) = true ↔
      Recorded edges a b := by
    rw [← dedupKey_mem_iff_recorded hinv hkeys ha hb]
    rw [List.any_eq_true]
    exact exists_congr fun e => and_congr_right fun _ => by
      rw [decide_eq_true_iff, temporalOverlap_dedupKey]
  rw [insertRelationship]
  by_cases hrec : Recorded edges a b
  · rw [if_pos (hany.mpr hrec)]
    refine ⟨edges, false, rfl, hinv, fun u v => ?_, fun _ => ⟨rfl, rfl⟩⟩
    constructor
    · exact .inl
    · rintro (h | ⟨rfl, rfl⟩)
      · exact h
      · exact hrec
  · rw [if_neg (mt hany.mp hrec)]
    refine ⟨_, true, rfl, ?_, fun u v => ?_, fun h => absurd h hrec⟩
    · intro e he hkind
      rcases List.mem_append.mp he with he | he
      · exact hinv e he hkind
      · obtain rfl := List.mem_singleton.mp he
        exact ⟨a, b, k, x, y, ha, hb, rfl, rfl⟩
    · simp only [Recorded, List.mem_append, List.mem_singleton]
      constructor
      · rintro ⟨e, he | rfl, hfrom, hto, hrest⟩
        · exact .inl ⟨e, he, hfrom, hto, hrest⟩
        · exact .inr ⟨hfrom.symm, (Option.some.inj hto).symm⟩
      · rintro (⟨e, he, h⟩ | ⟨rfl, rfl⟩)
        · exact ⟨e, .inl he, h⟩
        · exact ⟨_, .inr rfl, rfl, rfl, rfl, rfl⟩

end Insert

/-! ## A derivation records the overlaps of the texts -/

section Derive
variable {keys : List (String × String)} {view : List ListedEvent} {sourceKind : String}

theorem mem_listedWindows {w : ListedWindow} :
    w ∈ listedWindows view sourceKind ↔
      ∃ e ∈ view, e.sourceKind = sourceKind ∧ e.id = w.id ∧ e.window = some (w.start, w.stop) := by
  simp only [listedWindows, List.mem_filterMap, List.mem_filter, decide_eq_true_eq,
    Option.map_eq_some_iff]
  constructor
  · rintro ⟨e, ⟨he, hk⟩, v, hv, rfl⟩
    exact ⟨e, he, hk, rfl, hv⟩
  · rintro ⟨e, he, hk, hid, hw⟩
    exact ⟨e, ⟨he, hk⟩, _, hw, by rw [hid]⟩

/-- The event of a window: its id is a row of the table. -/
theorem Keyed.of_window (hv : Keyed keys view) {w : ListedWindow}
    (hw : w ∈ listedWindows view sourceKind) :
    ∃ (i : Nat) (x : String), w.id = i ∧ keys[i]? = some (sourceKind, x) ∧
      ∃ e, view.find? (·.id = w.id) = some e ∧ e.externalId = x := by
  obtain ⟨e, he, rfl, hid, -⟩ := mem_listedWindows.mp hw
  obtain ⟨i, hi, hkey⟩ := hv.key e he
  obtain ⟨e', he'⟩ := Option.isSome_iff_exists.mp
    (List.find?_isSome.mpr ⟨e, he, decide_eq_true hid⟩ : (view.find? (·.id = w.id)).isSome)
  obtain ⟨i', hi', hkey'⟩ := hv.key e' (List.mem_of_find?_eq_some he')
  have hid' : e'.id = w.id := by simpa using List.find?_some he'
  obtain rfl : i' = i := by omega
  obtain ⟨-, hx⟩ := Prod.mk.inj (Option.some.inj (hkey'.symm.trans hkey))
  exact ⟨i', e.externalId, by rw [← hid, hi], hkey, e', he', hx⟩

variable (createdUtc : String)

/-- One turn of the inner loop. -/
theorem derivePair_spec (hv : Keyed keys view) (hkeys : keys.Nodup) {st : List TicketRelationship × Nat}
    (hinv : OverlapInv keys st.1) {a b : ListedWindow} (ha : a ∈ listedWindows view sourceKind)
    (hb : b ∈ listedWindows view sourceKind) :
    ∃ st', derivePair view createdUtc st (a, b) = .ok st' ∧ OverlapInv keys st'.1 ∧
      (∀ u v, Recorded st'.1 u v ↔ Recorded st.1 u v ∨
        (a.overlaps b ∧ ((u = a.id ∧ v = b.id) ∨ (u = b.id ∧ v = a.id)))) ∧
      ((a.overlaps b → Recorded st.1 a.id b.id ∧ Recorded st.1 b.id a.id) → st' = st) := by
  obtain ⟨i, x, hi, hkx, ea, hea, hxa⟩ := hv.of_window ha
  obtain ⟨j, y, hj, hky, eb, heb, hyb⟩ := hv.of_window hb
  unfold derivePair
  by_cases ho : a.overlaps b
  · obtain ⟨edges₁, new₁, h₁, hinv₁, hrec₁, hsame₁⟩ :=
      insert_temporalOverlap hinv hkeys hkx hky (overlapNote a b) createdUtc
    obtain ⟨edges₂, new₂, h₂, hinv₂, hrec₂, hsame₂⟩ :=
      insert_temporalOverlap hinv₁ hkeys hky hkx (overlapNote a b) createdUtc
    have hthere : recordTemporalOverlap view createdUtc st.1 a.id b.id (overlapNote a b) =
        .ok (edges₁, new₁) := by
      rw [recordTemporalOverlap, heb]
      simp only [hyb, hi, hj, h₁]
    have hback : recordTemporalOverlap view createdUtc edges₁ b.id a.id (overlapNote a b) =
        .ok (edges₂, new₂) := by
      rw [recordTemporalOverlap, hea]
      simp only [hxa, hi, hj, h₂]
    simp only [ho, if_true, hthere, bind, Except.bind, hback]
    refine ⟨_, rfl, hinv₂, fun u v => ?_, fun hall => ?_⟩
    · simp only [hrec₂, hrec₁, hi, hj, true_and, or_assoc]
    · obtain ⟨hab, hba⟩ := hall trivial
      rw [hi, hj] at hab hba
      obtain ⟨rfl, rfl⟩ := hsame₁ hab
      obtain ⟨rfl, rfl⟩ := hsame₂ hba
      rfl
  · simp only [ho, Bool.false_eq_true, if_false]
    exact ⟨st, rfl, hinv, fun u v => by simp, fun _ => rfl⟩

theorem foldlM_derivePair (hv : Keyed keys view) (hkeys : keys.Nodup)
    {ps : List (ListedWindow × ListedWindow)}
    (hps : ∀ p ∈ ps, p.1 ∈ listedWindows view sourceKind ∧ p.2 ∈ listedWindows view sourceKind)
    {st : List TicketRelationship × Nat} (hinv : OverlapInv keys st.1) :
    ∃ st', ps.foldlM (derivePair view createdUtc) st = .ok st' ∧ OverlapInv keys st'.1 ∧
      (∀ u v, Recorded st'.1 u v ↔ Recorded st.1 u v ∨ ∃ p ∈ ps,
        p.1.overlaps p.2 ∧ ((u = p.1.id ∧ v = p.2.id) ∨ (u = p.2.id ∧ v = p.1.id))) ∧
      ((∀ p ∈ ps, p.1.overlaps p.2 → Recorded st.1 p.1.id p.2.id ∧ Recorded st.1 p.2.id p.1.id) →
        st' = st) := by
  induction ps generalizing st with
  | nil => exact ⟨st, rfl, hinv, fun u v => by simp, fun _ => rfl⟩
  | cons p ps ih =>
    obtain ⟨hp, hps⟩ := List.forall_mem_cons.mp hps
    obtain ⟨st₁, h₁, hinv₁, hrec₁, hsame₁⟩ :=
      derivePair_spec createdUtc hv hkeys hinv hp.1 hp.2
    obtain ⟨st₂, h₂, hinv₂, hrec₂, hsame₂⟩ := ih hps hinv₁
    refine ⟨st₂, by rw [List.foldlM_cons, h₁]; exact h₂, hinv₂, fun u v => ?_, fun hall => ?_⟩
    · rw [hrec₂, hrec₁, List.exists_mem_cons_iff, or_assoc]
    · obtain ⟨hhead, htail⟩ := List.forall_mem_cons.mp hall
      obtain rfl := hsame₁ hhead
      exact hsame₂ htail

variable (sourceKind) in
/-- A derivation adds the overlaps of the texts. It adds nothing where they are all recorded. -/
theorem deriveTemporalOverlaps_spec (hv : Keyed keys view) (hkeys : keys.Nodup)
    {edges : List TicketRelationship} (hinv : OverlapInv keys edges) :
    ∃ edges' n, deriveTemporalOverlaps view createdUtc sourceKind edges = .ok (edges', n) ∧
      OverlapInv keys edges' ∧
      (∀ u v, Recorded edges' u v ↔ Recorded edges u v ∨ TextsOverlapAt view sourceKind u v) ∧
      ((∀ u v, TextsOverlapAt view sourceKind u v → Recorded edges u v) → edges' = edges ∧ n = 0) := by
  have hids : (listedWindows view sourceKind).Pairwise fun a b => a.id ≠ b.id := by
    have hview : view.Pairwise fun a b => a.id ≠ b.id := List.pairwise_map.mp hv.nodup
    rw [listedWindows, List.pairwise_filterMap]
    refine (hview.filter _).imp fun {a b} hne w hw w' hw' => ?_
    obtain ⟨_, -, rfl⟩ := Option.map_eq_some_iff.mp hw
    obtain ⟨_, -, rfl⟩ := Option.map_eq_some_iff.mp hw'
    exact hne
  have hpair := laterPairs_pairwise hids
  have hstart : OverlapInv keys (edges, 0).1 := hinv
  obtain ⟨st', h, hinv', hrec, hsame⟩ := foldlM_derivePair createdUtc hv hkeys
    (fun p hp => ⟨(hpair p hp).1, (hpair p hp).2.1⟩) hstart
  have htexts : ∀ u v, (∃ p ∈ laterPairs (listedWindows view sourceKind), p.1.overlaps p.2 ∧
      ((u = p.1.id ∧ v = p.2.id) ∨ (u = p.2.id ∧ v = p.1.id))) ↔ TextsOverlapAt view sourceKind u v := by
    intro u v
    constructor
    · rintro ⟨p, hp, ho, ⟨rfl, rfl⟩ | ⟨rfl, rfl⟩⟩
      · obtain ⟨h1, h2, hne⟩ := hpair p hp
        exact ⟨p.1, h1, p.2, h2, rfl, rfl, hne, ho⟩
      · obtain ⟨h1, h2, hne⟩ := hpair p hp
        exact ⟨p.2, h2, p.1, h1, rfl, rfl, hne.symm, by rwa [ListedWindow.overlaps_comm]⟩
    · rintro ⟨a, ha, b, hb, rfl, rfl, hne, ho⟩
      rcases laterPairs_total ha hb (fun hab => hne (congrArg (·.id) hab)) with hp | hp
      · exact ⟨(a, b), hp, ho, .inl ⟨rfl, rfl⟩⟩
      · exact ⟨(b, a), hp, by rwa [ListedWindow.overlaps_comm], .inr ⟨rfl, rfl⟩⟩
  refine ⟨st'.1, st'.2, h, hinv', fun u v => by rw [hrec, htexts], fun hall => ?_⟩
  have hst := hsame fun p hp ho =>
    ⟨hall _ _ ((htexts _ _).mp ⟨p, hp, ho, .inl ⟨rfl, rfl⟩⟩),
      hall _ _ ((htexts _ _).mp ⟨p, hp, ho, .inr ⟨rfl, rfl⟩⟩)⟩
  rw [hst]
  exact ⟨rfl, rfl⟩

end Derive

/-! ## Runs -/

theorem OverlapInv.grow {keys keys' : List (String × String)} {edges : List TicketRelationship}
    (h : OverlapInv keys edges) (hk : keys <+: keys') : OverlapInv keys' edges := by
  intro e he hkind
  obtain ⟨a, b, k, x, y, ha, hb, hrest⟩ := h e he hkind
  exact ⟨a, b, k, x, y, getElem?_of_initial hk ha, getElem?_of_initial hk hb, hrest⟩

/-- An edge of another kind records no overlap. -/
theorem insert_other {keys : List (String × String)} {edges : List TicketRelationship}
    (h : OverlapInv keys edges) {edge : TicketRelationship}
    (hkind : edge.relationshipKind ≠ "TemporalOverlap") :
    OverlapInv keys (insertRelationship edges edge).1 ∧
      ∀ u v, Recorded (insertRelationship edges edge).1 u v ↔ Recorded edges u v := by
  unfold insertRelationship
  split
  · exact ⟨h, fun _ _ => Iff.rfl⟩
  · refine ⟨fun e he hk => ?_, fun u v => ?_⟩
    · rcases List.mem_append.mp he with he | he
      · exact h e he hk
      · obtain rfl := List.mem_singleton.mp he
        exact absurd hk hkind
    · simp only [Recorded, List.mem_append, List.mem_singleton]
      constructor
      · rintro ⟨e, he | rfl, hrest⟩
        · exact ⟨e, he, hrest⟩
        · exact absurd hrest.2.2.1 hkind
      · rintro ⟨e, he, hrest⟩
        exact ⟨e, .inl he, hrest⟩

/-- What holds after each history. -/
structure OverlapsHeld (ops : List OverlapOp) (s : OverlapState) : Prop where
  nodup : s.tables.eventKeys.Nodup
  inv : OverlapInv s.tables.eventKeys s.edges
  recorded : ∀ u v, Recorded s.edges u v ↔ OnceOverlapped ops u v

theorem onceOverlapped_concat (ops : List OverlapOp) (op : OverlapOp) (u v : Int) :
    OnceOverlapped (ops ++ [op]) u v ↔ OnceOverlapped ops u v ∨
      ∃ view sourceKind createdUtc, op = .derive view sourceKind createdUtc ∧
        TextsOverlapAt view sourceKind u v := by
  simp only [OnceOverlapped, List.mem_append, List.mem_singleton]
  constructor
  · rintro ⟨view, k, t, hop | hop, hover⟩
    · exact .inl ⟨view, k, t, hop, hover⟩
    · exact .inr ⟨view, k, t, hop.symm, hover⟩
  · rintro (⟨view, k, t, hop, hover⟩ | ⟨view, k, t, hop, hover⟩)
    · exact ⟨view, k, t, .inl hop, hover⟩
    · exact ⟨view, k, t, .inr hop.symm, hover⟩

section Runs
variable {env : OverlapEnv} {ops : List OverlapOp} {s : OverlapState}

/-- What one operation keeps. -/
theorem OverlapsHeld.step (h : OverlapsHeld ops s) {op : OverlapOp} (hop : op.Allowed env s) :
    OverlapsHeld (ops ++ [op]) (op.step env s) := by
  cases op with
  | store f =>
    have hkeys := storePayload_keys env.toSyncEnv s.tables f
    have hnodup : (s.tables.eventKeys.map id).Nodup := by simpa using h.nodup
    refine ⟨?_, ?_, fun u v => ?_⟩
    · have hn : ((insertUnique id (f.item.source, eventExternalId env.toSyncEnv f.item)
          s.tables.eventKeys).1.map id).Nodup := insertUnique_nodup hnodup
      simpa [OverlapOp.step, hkeys] using hn
    · refine h.inv.grow ?_
      simp only [OverlapOp.step, hkeys]
      exact insertUnique_initial ..
    · rw [onceOverlapped_concat]
      simpa [OverlapOp.step] using h.recorded u v
  | relate edge =>
    obtain ⟨hinv, hrec⟩ := insert_other h.inv hop
    refine ⟨h.nodup, hinv, fun u v => ?_⟩
    rw [onceOverlapped_concat]
    simpa [OverlapOp.step, hrec] using h.recorded u v
  | derive view sourceKind createdUtc =>
    obtain ⟨edges, n, hrun, hinv, hrec, -⟩ :=
      deriveTemporalOverlaps_spec sourceKind createdUtc hop.keyed h.nodup h.inv
    have hstep : OverlapOp.step env s (.derive view sourceKind createdUtc) = { s with edges := edges } := by
      rw [OverlapOp.step, hrun]
    rw [hstep]
    refine ⟨h.nodup, hinv, fun u v => ?_⟩
    rw [onceOverlapped_concat, hrec, h.recorded]
    refine or_congr Iff.rfl ?_
    constructor
    · exact fun ho => ⟨view, sourceKind, createdUtc, rfl, ho⟩
    · rintro ⟨_, _, _, heq, ho⟩
      cases heq
      exact ho

/-- What is recorded after a history are the overlaps of the texts at its derivations. -/
theorem recorded_run (h : Along (OverlapOp.step env) (OverlapOp.Allowed env) .empty ops) :
    OverlapsHeld ops (run (OverlapOp.step env) .empty ops) := by
  induction ops using List.reverseRecOn with
  | nil =>
    refine ⟨List.nodup_nil, fun e he => absurd he List.not_mem_nil, fun u v => ?_⟩
    simp [OverlapState.empty, Recorded, OnceOverlapped]
  | append_singleton ops op ih =>
    obtain ⟨hops, hop, -⟩ := (along_append ops [op]).mp h
    rw [run_concat]
    exact (ih hops).step hop

/-- A derivation after any history succeeds, and a second one adds nothing. What is recorded then are
the overlaps of the instants, in both directions, exactly if for each two events of the source the texts
of the windows overlapped at this or an earlier derivation iff the instants overlap now. -/
theorem deriveTemporalOverlaps_iff
    (h : Along (OverlapOp.step env) (OverlapOp.Allowed env) .empty ops) {view : List ListedEvent}
    (hview : IsCatalogView env (run (OverlapOp.step env) .empty ops).tables view)
    (sourceKind createdUtc laterUtc : String) :
    ∃ edges n,
      deriveTemporalOverlaps view createdUtc sourceKind (run (OverlapOp.step env) .empty ops).edges =
        .ok (edges, n) ∧
      deriveTemporalOverlaps view laterUtc sourceKind edges = .ok (edges, 0) ∧
      ((ForPairs env view sourceKind fun a b =>
          Recorded edges a.id b.id ↔ InstantsOverlap env a b) ↔
        ForPairs env view sourceKind fun a b =>
          (OnceOverlapped (ops ++ [.derive view sourceKind createdUtc]) a.id b.id ↔
            InstantsOverlap env a b)) := by
  have hheld := recorded_run h
  obtain ⟨edges, n, hrun, hinv, hrec, -⟩ :=
    deriveTemporalOverlaps_spec sourceKind createdUtc hview.keyed hheld.nodup hheld.inv
  obtain ⟨edges', n', hrun', -, -, hsame⟩ :=
    deriveTemporalOverlaps_spec sourceKind laterUtc hview.keyed hheld.nodup hinv
  obtain ⟨rfl, rfl⟩ := hsame fun u v ho => (hrec u v).mpr (.inr ho)
  have hnow : OverlapsHeld (ops ++ [.derive view sourceKind createdUtc])
      (OverlapOp.step env (run (OverlapOp.step env) .empty ops) (.derive view sourceKind createdUtc)) :=
    hheld.step hview
  rw [OverlapOp.step, hrun] at hnow
  refine ⟨edges', n, hrun, hrun', ?_⟩
  have hrecorded : ∀ u v, Recorded edges' u v ↔
      OnceOverlapped (ops ++ [.derive view sourceKind createdUtc]) u v := hnow.recorded
  simp only [hrecorded]

end Runs

/-! ## An event that is moved -/

namespace MovedWindow

/-- The records of the sample and their windows: 4 to 6, 5 to 7, and 8 to 9 o'clock. -/
def windows : List (String × String × String) :=
  [("first", "2019-08-21T04:00:00Z", "2019-08-21T06:00:00Z"),
    ("second", "2019-08-21T05:00:00Z", "2019-08-21T07:00:00Z"),
    ("moved", "2019-08-21T08:00:00Z", "2019-08-21T09:00:00Z")]

/-- The times of the sample, in seconds. -/
def times : List (String × Int) :=
  [("2019-08-21T04:00:00Z", 1566360000), ("2019-08-21T05:00:00Z", 1566363600),
    ("2019-08-21T06:00:00Z", 1566367200), ("2019-08-21T07:00:00Z", 1566370800),
    ("2019-08-21T08:00:00Z", 1566374400), ("2019-08-21T09:00:00Z", 1566378000)]

def env : OverlapEnv where
  sha256 := id
  normalizedId _ := none
  windowOf json :=
    match windows.lookup json with
    | some (start, stop) => (some start, some stop)
    | none => (none, none)
  rfc3339 s :=
    match times.lookup s with
    | some t => .ok (t * 1000000000)
    | none => .error "input contains invalid characters"

def payload (externalId json at_ : String) : Fetched where
  item :=
    { source := "grnoc-public-task-viewer", externalId := externalId, fetchedAt := at_, sourceUrl := ""
      rawPayload := json, normalizedJson := json }
  at_ := at_

def listed (id : Int) (externalId : String) (json : String) : ListedEvent :=
  ⟨id, "grnoc-public-task-viewer", externalId, some (env.windowOf json)⟩

/-- Before and after the second event is moved: the event fetched last comes first. -/
def before : List ListedEvent := [listed 0 "INC0040100" "first", listed 1 "INC0040101" "second"]
def after : List ListedEvent := [listed 1 "INC0040101" "moved", listed 0 "INC0040100" "first"]

def history : List OverlapOp :=
  [.store (payload "INC0040100" "first" "2026-08-01T00:00:00Z"),
    .store (payload "INC0040101" "second" "2026-08-01T00:00:00Z"),
    .derive before "grnoc-public-task-viewer" "2026-08-01T00:00:00Z",
    .store (payload "INC0040101" "moved" "2026-08-02T00:00:00Z")]

def stored : List OverlapOp := history.take 2

def eventRow (externalId lastSeen : String) : CatalogEvent :=
  ⟨"grnoc-public-task-viewer", externalId, "2026-08-01T00:00:00Z", lastSeen⟩

def snapshotOf (id : Nat) (json fetchedAt : String) : EventSnapshot :=
  ⟨id, fetchedAt, "", json, json, json, grnocParserVersion⟩

theorem before_isView : IsCatalogView env (run (OverlapOp.step env) .empty stored).tables before where
  listed := by
    refine ⟨[(eventRow "INC0040100" "2026-08-01T00:00:00Z", 0),
      (eventRow "INC0040101" "2026-08-01T00:00:00Z", 1)], by decide +kernel, by decide +kernel, ?_⟩
    refine .cons ⟨rfl, rfl, rfl, [snapshotOf 0 "first" "2026-08-01T00:00:00Z"], ⟨?_, ?_⟩, rfl⟩
      (.cons ⟨rfl, rfl, rfl, [snapshotOf 1 "second" "2026-08-01T00:00:00Z"], ⟨?_, ?_⟩, rfl⟩ .nil)
    all_goals decide +kernel

theorem after_isView : IsCatalogView env (run (OverlapOp.step env) .empty history).tables after where
  listed := by
    refine ⟨[(eventRow "INC0040101" "2026-08-02T00:00:00Z", 1),
      (eventRow "INC0040100" "2026-08-01T00:00:00Z", 0)], by decide +kernel, by decide +kernel, ?_⟩
    refine .cons ⟨rfl, rfl, rfl, [snapshotOf 1 "moved" "2026-08-02T00:00:00Z",
        snapshotOf 1 "second" "2026-08-01T00:00:00Z"], ⟨?_, ?_⟩, rfl⟩
      (.cons ⟨rfl, rfl, rfl, [snapshotOf 0 "first" "2026-08-01T00:00:00Z"], ⟨?_, ?_⟩, rfl⟩ .nil)
    all_goals decide +kernel

theorem stored_allowed : Along (OverlapOp.step env) (OverlapOp.Allowed env) .empty stored :=
  ⟨trivial, trivial, trivial⟩

theorem history_allowed : Along (OverlapOp.step env) (OverlapOp.Allowed env) .empty history :=
  ⟨trivial, trivial, before_isView, trivial, trivial⟩

theorem texts_overlap : TextsOverlapAt before "grnoc-public-task-viewer" 0 1 :=
  ⟨⟨0, "2019-08-21T04:00:00Z", "2019-08-21T06:00:00Z"⟩, by decide +kernel,
    ⟨1, "2019-08-21T05:00:00Z", "2019-08-21T07:00:00Z"⟩, by decide +kernel, rfl, rfl, by decide,
    by decide +kernel⟩

theorem readable {e : ListedEvent} (h : e ∈ before ++ after) : e.Readable env := by
  have hall : ∀ e ∈ before ++ after,
      e.window.all (fun w => (env.rfc3339 w.1).isOk && (env.rfc3339 w.2).isOk) = true := by
    decide +kernel
  intro w hw
  simpa [hw] using hall e h

theorem texts_overlap_symm : TextsOverlapAt before "grnoc-public-task-viewer" 1 0 := by
  obtain ⟨a, ha, b, hb, hx, hy, hne, ho⟩ := texts_overlap
  exact ⟨b, hb, a, ha, hy, hx, hne.symm, by rwa [ListedWindow.overlaps_comm]⟩

/-- The windows of the first view overlap, whichever event is named first. -/
theorem instants_overlap {a b : ListedEvent} (ha : a ∈ before) (hb : b ∈ before) (hne : a.id ≠ b.id) :
    InstantsOverlap env a b := by
  simp only [before, List.mem_cons, List.not_mem_nil, or_false] at ha hb
  rcases ha with rfl | rfl <;> rcases hb with rfl | rfl
  · exact absurd rfl hne
  · exact ⟨_, _, _, _, _, _, rfl, rfl, rfl, rfl, rfl, rfl, by decide, by decide⟩
  · exact ⟨_, _, _, _, _, _, rfl, rfl, rfl, rfl, rfl, rfl, by decide, by decide⟩
  · exact absurd rfl hne

/-- The first derivation records what overlaps, and nothing else. -/
theorem deriveTemporalOverlaps_stored :
    ∃ edges n,
      deriveTemporalOverlaps before "2026-08-01T00:00:00Z" "grnoc-public-task-viewer"
        (run (OverlapOp.step env) .empty stored).edges = .ok (edges, n) ∧
      deriveTemporalOverlaps before "2026-08-01T00:00:00Z" "grnoc-public-task-viewer" edges =
        .ok (edges, 0) ∧
      ForPairs env before "grnoc-public-task-viewer" fun a b =>
        (Recorded edges a.id b.id ↔ InstantsOverlap env a b) := by
  obtain ⟨edges, n, hrun, hagain, hiff⟩ := deriveTemporalOverlaps_iff stored_allowed before_isView
    "grnoc-public-task-viewer" "2026-08-01T00:00:00Z" "2026-08-01T00:00:00Z"
  refine ⟨edges, n, hrun, hagain, hiff.mpr fun a ha b hb _ _ hne _ _ => ?_⟩
  refine iff_of_true ⟨before, _, _, List.mem_append_right _ (List.mem_singleton_self _), ?_⟩
    (instants_overlap ha hb hne)
  simp only [before, List.mem_cons, List.not_mem_nil, or_false] at ha hb
  rcases ha with rfl | rfl <;> rcases hb with rfl | rfl
  · exact absurd rfl hne
  · exact texts_overlap
  · exact texts_overlap_symm
  · exact absurd rfl hne

end MovedWindow

open MovedWindow in
/-- **Bug.** The second event is moved to a later window. The overlap with its first window stays. -/
theorem overlap_outlives_window :
    ¬ ∀ (env : OverlapEnv) (ops : List OverlapOp) (view : List ListedEvent)
      (sourceKind createdUtc laterUtc : String),
      Along (OverlapOp.step env) (OverlapOp.Allowed env) .empty ops →
      IsCatalogView env (run (OverlapOp.step env) .empty ops).tables view →
      ∃ edges n,
        deriveTemporalOverlaps view createdUtc sourceKind (run (OverlapOp.step env) .empty ops).edges =
          .ok (edges, n) ∧
        deriveTemporalOverlaps view laterUtc sourceKind edges = .ok (edges, 0) ∧
        ForPairs env view sourceKind fun a b => (Recorded edges a.id b.id ↔ InstantsOverlap env a b) := by
  intro h
  obtain ⟨edges, n, hrun, -, hpairs⟩ := h env history after "grnoc-public-task-viewer"
    "2026-08-02T00:00:00Z" "2026-08-02T00:00:00Z" history_allowed after_isView
  have hheld := recorded_run history_allowed
  obtain ⟨edges', n', hrun', -, hrec, -⟩ := deriveTemporalOverlaps_spec "grnoc-public-task-viewer"
    "2026-08-02T00:00:00Z" after_isView.keyed hheld.nodup hheld.inv
  obtain ⟨rfl, rfl⟩ := Prod.mk.inj (Except.ok.inj (hrun.symm.trans hrun'))
  have hrecorded : Recorded edges 0 1 := (hrec 0 1).mpr
    (.inl ((hheld.recorded 0 1).mpr ⟨before, _, _, List.mem_of_getElem? (i := 2) rfl, texts_overlap⟩))
  have hnow := (hpairs (listed 0 "INC0040100" "first") (by simp [after])
    (listed 1 "INC0040101" "moved") (by simp [after]) rfl rfl (by decide)
    (readable (by simp [after])) (readable (by simp [after]))).mp hrecorded
  obtain ⟨wa, wb, sa, ea, sb, eb, hwa, hwb, h1, h2, h3, h4, hlt, hlt'⟩ := hnow
  cases hwa
  cases hwb
  cases h2
  cases h3
  exact absurd hlt' (by decide)

end Inim
