import Inim.Catalog.CorpusGrowth
import Inim.Catalog.Overlaps
import Inim.Catalog.ReviewsKept
/-!
# Rebuilding the relationships (`catalog/relationships.rs:81-256`, `main.rs:3179-3227`)

| here | there |
| --- | --- |
| `snapshotReferenceText` | `snapshot_reference_text` (`relationships.rs:83`) |
| `hasReviewedEdge`, `extractRelationshipsFromSnapshots` | `store.rs:997`, `relationships.rs:100-147` |
| `resolveUnresolvedEdges` | `relationships.rs:232-256`; an update goes by the id of the row, so each row has its own |
| `rebuild` | `cmd_relationships_rebuild`, up to the regeneration of the groups, which writes no edge |
| `sharedLabels`, `deriveEntityOverlaps` | `derive_entity_overlaps` (`review.rs:302`) |

No transaction is around a rebuild: what it wrote before a panic stays. "Idempotent" it is all the same
(`rebuild_again`), and where no latest text panics it leaves nothing out (`rebuild_complete`).
-/

namespace Inim.Review

open Std Inim.Lib
open String (utf8Len)

/-! ## What a rebuild reads -/

structure GraphEnv extends ReviewEnv where
  words : WordClass
  /-- The string under a name, if the text is an object that has one there. -/
  stringField : String → String → Option String

def snapshotReferenceText (env : GraphEnv) (snapshot : EventSnapshot) : String :=
  ["description", "notification_text"].foldl (fun text field =>
    match env.stringField snapshot.normalizedJson field with
    | some v => text ++ v ++ "\n"
    | none => text) ""

/-- The first of `list_snapshots`, with its id. -/
def latestSnapshot (env : GraphEnv) (c : CatalogTables) (eventId : Nat) : Option (EventSnapshot × Int) :=
  (env.listSnapshots c eventId).head?.bind fun s =>
    (c.snapshots.findIdx? fun row => decide (row = s)).map fun id => (s, rowId id)

def snapshotWindow (env : GraphEnv) (snapshot : EventSnapshot) : Option String × Option String :=
  (env.stringField snapshot.normalizedJson "start", env.stringField snapshot.normalizedJson "end")

/-- The rows of `list_events`, as a derivation reads them. -/
def catalogView (env : GraphEnv) (c : CatalogTables) : List ListedEvent :=
  (Crawl.listEvents c).map fun e =>
    { id := rowId e.2
      sourceKind := e.1.sourceKind
      externalId := e.1.externalId
      latest := (env.listSnapshots c e.2).head?.map (snapshotWindow env) }

/-! ## Extraction -/

/-- The edges, and what a rebuild counts. -/
structure RebuildState where
  edges : List TicketRelationship
  extracted : Nat
  resolved : Nat
  overlaps : Nat
deriving DecidableEq, Repr

inductive RebuildStop where
  /-- A text is sliced within a character. -/
  | panicked
  | failed (error : String)
deriving DecidableEq, Repr

abbrev RebuildPhase := RebuildState → RebuildState × Option RebuildStop

def hasReviewedEdge (edges : List TicketRelationship) (fromEventId : Int) (toExternalId : String) : Bool :=
  edges.any fun e => e.fromEventId = fromEventId ∧ e.toExternalId = toExternalId ∧
    e.reviewedStatus ≠ "Unreviewed"

def extractedEdge (c : CatalogTables) (sourceKind createdUtc : String) (eventId : Nat) (snapshotId : Int)
    (reference : ExtractedReference) : TicketRelationship where
  id := 0
  fromEventId := rowId eventId
  toEventId := (eventByExternal c sourceKind reference.externalId).map rowId
  toExternalId := reference.externalId
  relationshipKind := reference.relationshipKind
  evidenceKind := "ExplicitTicketText"
  sourceSnapshotId := some snapshotId
  sourceDocumentId := none
  reviewedStatus := "Unreviewed"
  note := some ("extracted from snapshot " ++ toString snapshotId ++ " at bytes " ++
    toString reference.start ++ ".." ++ toString reference.stop)
  createdUtc := createdUtc

/-- One turn of the inner loop. -/
def extractReference (c : CatalogTables) (sourceKind createdUtc : String) (event : CatalogEvent × Nat)
    (snapshotId : Int) (reference : ExtractedReference) : RebuildPhase := fun st =>
  if reference.externalId = event.1.externalId then (st, none)
  else if hasReviewedEdge st.edges (rowId event.2) reference.externalId then (st, none)
  else
    let r := insertRelationship st.edges
      (extractedEdge c sourceKind createdUtc event.2 snapshotId reference)
    ({ st with edges := r.1, extracted := st.extracted + r.2.toNat }, none)

/-- The turns for an event: its references are extracted before the first is written. -/
def extractEvent (env : GraphEnv) (c : CatalogTables) (sourceKind createdUtc : String)
    (event : CatalogEvent × Nat) : List RebuildPhase :=
  match latestSnapshot env c event.2 with
  | none => []
  | some (latest, snapshotId) =>
    match extractWithKind env.words (snapshotReferenceText env latest) 120 with
    | none => [fun st => (st, some .panicked)]
    | some references => references.map (extractReference c sourceKind createdUtc event snapshotId)

/-- The loops write no table that they read the events and snapshots from. -/
def extractRelationshipsFromSnapshots (env : GraphEnv) (c : CatalogTables)
    (sourceKind createdUtc : String) : RebuildPhase := fun st =>
  inTurn st (((Crawl.listEvents c).filter (·.1.sourceKind = sourceKind)).flatMap
    (extractEvent env c sourceKind createdUtc))

/-! ## Resolution and derivation -/

/-- The target is not resolved, and is an event of the catalog. -/
def resolvable (c : CatalogTables) (sourceKind : String) (e : TicketRelationship) : Bool :=
  e.toEventId.isNone && (eventByExternal c sourceKind e.toExternalId).isSome

def resolveEdge (c : CatalogTables) (sourceKind : String) (e : TicketRelationship) : TicketRelationship :=
  { e with toEventId := e.toEventId.or ((eventByExternal c sourceKind e.toExternalId).map rowId) }

def resolveUnresolvedEdges (c : CatalogTables) (sourceKind : String) : RebuildPhase := fun st =>
  ({ st with
      edges := st.edges.map (resolveEdge c sourceKind)
      resolved := st.resolved + st.edges.countP (resolvable c sourceKind) }, none)

def deriveOverlaps (env : GraphEnv) (c : CatalogTables) (sourceKind createdUtc : String) :
    RebuildPhase := fun st =>
  match deriveTemporalOverlaps (catalogView env c) createdUtc sourceKind st.edges with
  | .ok r => ({ st with edges := r.1, overlaps := st.overlaps + r.2 }, none)
  | .error e => (st, some (.failed e))

/-- The end of the rebuild, and what stopped it. -/
def rebuild (env : GraphEnv) (c : CatalogTables) (edges : List TicketRelationship)
    (now : String) : RebuildState × Option RebuildStop :=
  inTurn ⟨edges, 0, 0, 0⟩
    [extractRelationshipsFromSnapshots env c Crawl.viewerKind now,
      resolveUnresolvedEdges c Crawl.viewerKind,
      deriveOverlaps env c Crawl.viewerKind now]

/-! ## Rows inserted one after the other -/

/-- The table, and how many rows are new. -/
def insertRows (rows : List TicketRelationship) (st : List TicketRelationship × Nat) :
    List TicketRelationship × Nat :=
  rows.foldl (fun st row =>
    ((insertRelationship st.1 row).1, st.2 + (insertRelationship st.1 row).2.toNat)) st

section Rows
variable {rows : List TicketRelationship} {row e : TicketRelationship}
  {st : List TicketRelationship × Nat} {edges : List TicketRelationship}

/-- The keys the unique index has. -/
def dedupKeys (edges : List TicketRelationship) : List (Int × String × String × String × Int × Int) :=
  edges.map TicketRelationship.dedupKey

theorem insertRelationship_present (h : row.dedupKey ∈ dedupKeys edges) :
    insertRelationship edges row = (edges, false) := by
  obtain ⟨e, he, hkey⟩ := List.mem_map.1 h
  rw [insertRelationship, if_pos (List.any_eq_true.2 ⟨e, he, decide_eq_true hkey⟩)]

theorem insertRelationship_key (edges : List TicketRelationship) (row : TicketRelationship) :
    row.dedupKey ∈ dedupKeys (insertRelationship edges row).1 := by
  unfold insertRelationship
  split
  · next hany =>
    obtain ⟨e, he, hkey⟩ := List.any_eq_true.1 hany
    exact List.mem_map.2 ⟨e, he, of_decide_eq_true hkey⟩
  · exact List.mem_map.2 ⟨_, List.mem_append_right _ (List.mem_singleton_self _), rfl⟩

theorem mem_insertRelationship (h : e ∈ (insertRelationship edges row).1) :
    e ∈ edges ∨ e = { row with id := e.id } := by
  unfold insertRelationship at h
  split at h
  · exact .inl h
  · rcases List.mem_append.1 h with h | h
    · exact .inl h
    · rw [List.mem_singleton.1 h]
      exact .inr rfl

theorem insertRows_cons (row : TicketRelationship) (rows : List TicketRelationship)
    (st : List TicketRelationship × Nat) : insertRows (row :: rows) st =
      insertRows rows ((insertRelationship st.1 row).1,
        st.2 + (insertRelationship st.1 row).2.toNat) := rfl

theorem insertRows_append (rows rows' : List TicketRelationship) (st : List TicketRelationship × Nat) :
    insertRows (rows ++ rows') st = insertRows rows' (insertRows rows st) :=
  List.foldl_append ..

theorem insertRows_initial (rows : List TicketRelationship) (st : List TicketRelationship × Nat) :
    st.1 <+: (insertRows rows st).1 := by
  induction rows generalizing st with
  | nil => exact List.prefix_rfl
  | cons row rows ih =>
    have hrest := ih ((insertRelationship st.1 row).1, st.2 + (insertRelationship st.1 row).2.toNat)
    exact (insertRelationship_initial st.1 row).trans hrest

theorem insertRows_keys (hrow : row ∈ rows) : row.dedupKey ∈ dedupKeys (insertRows rows st).1 := by
  induction rows generalizing st with
  | nil => cases hrow
  | cons first rows ih =>
    rw [insertRows_cons]
    rcases List.mem_cons.1 hrow with rfl | hrow
    · have hkey := insertRelationship_key st.1 row
      exact ((insertRows_initial rows _).map TicketRelationship.dedupKey).subset hkey
    · exact ih hrow

/-- Rows that are there leave everything as it is. -/
theorem insertRows_present (h : ∀ row ∈ rows, row.dedupKey ∈ dedupKeys st.1) :
    insertRows rows st = st := by
  induction rows with
  | nil => rfl
  | cons row rows ih =>
    rw [insertRows_cons, insertRelationship_present (h row List.mem_cons_self)]
    exact ih fun r hr => h r (List.mem_cons_of_mem _ hr)

theorem mem_insertRows (h : e ∈ (insertRows rows st).1) :
    e ∈ st.1 ∨ ∃ row ∈ rows, e = { row with id := e.id } := by
  induction rows generalizing st with
  | nil => exact .inl h
  | cons row rows ih =>
    rcases ih h with h | ⟨r, hr, he⟩
    · exact (mem_insertRelationship h).imp_right fun he => ⟨row, List.mem_cons_self, he⟩
    · exact .inr ⟨r, List.mem_cons_of_mem _ hr, he⟩

end Rows

/-! ## The rows of a derivation -/

section Overlaps
variable (view : List ListedEvent) (createdUtc sourceKind : String)

def listedName (id : Int) : String := ((view.find? (·.id = id)).map (·.externalId)).getD ""

/-- The rows of a pair of windows: there and back. -/
def pairRows (p : ListedWindow × ListedWindow) : List TicketRelationship :=
  if p.1.overlaps p.2 then
    [temporalOverlap p.1.id p.2.id (listedName view p.2.id) (overlapNote p.1 p.2) createdUtc,
      temporalOverlap p.2.id p.1.id (listedName view p.1.id) (overlapNote p.1 p.2) createdUtc]
  else []

def overlapRows : List TicketRelationship :=
  (laterPairs (listedWindows view sourceKind)).flatMap (pairRows view createdUtc)

variable {view createdUtc sourceKind}

/-- The time of a derivation is in no key. -/
theorem exists_overlapRows (createdUtc' : String) {row : TicketRelationship}
    (h : row ∈ overlapRows view createdUtc sourceKind) :
    ∃ row' ∈ overlapRows view createdUtc' sourceKind, row'.dedupKey = row.dedupKey := by
  obtain ⟨p, hp, hrow⟩ := List.mem_flatMap.1 h
  have hpair (row' : TicketRelationship) (hrow' : row' ∈ pairRows view createdUtc' p) :
      row' ∈ overlapRows view createdUtc' sourceKind := List.mem_flatMap.2 ⟨p, hp, hrow'⟩
  unfold pairRows at hrow hpair
  split at hrow
  · next hover =>
    rw [if_pos hover] at hpair
    rcases List.mem_pair.1 hrow with rfl | rfl
    · exact ⟨_, hpair _ List.mem_cons_self, rfl⟩
    · exact ⟨_, hpair _ (List.mem_cons_of_mem _ List.mem_cons_self), rfl⟩
  · cases hrow

theorem recordTemporalOverlap_listed {edges : List TicketRelationship} {fromId toId : Int} {note : String}
    (h : ∃ e ∈ view, e.id = toId) : recordTemporalOverlap view createdUtc edges fromId toId note =
      .ok (insertRelationship edges
        (temporalOverlap fromId toId (listedName view toId) note createdUtc)) := by
  obtain ⟨e, he, hid⟩ := h
  have hfound : (view.find? (·.id = toId)).isSome :=
    List.find?_isSome.2 ⟨e, he, decide_eq_true hid⟩
  obtain ⟨found, hfound⟩ := Option.isSome_iff_exists.1 hfound
  rw [recordTemporalOverlap, listedName, hfound]
  rfl

theorem derivePair_listed {st : List TicketRelationship × Nat} {p : ListedWindow × ListedWindow}
    (h₁ : ∃ e ∈ view, e.id = p.1.id) (h₂ : ∃ e ∈ view, e.id = p.2.id) :
    derivePair view createdUtc st p = .ok (insertRows (pairRows view createdUtc p) st) := by
  unfold derivePair pairRows
  split
  · rw [recordTemporalOverlap_listed h₂]
    dsimp only [bind, Except.bind]
    rw [recordTemporalOverlap_listed h₁]
    rfl
  · rfl

/-- Each window is that of an event of the view, so that no name is missing. -/
theorem deriveTemporalOverlaps_eq (edges : List TicketRelationship) :
    deriveTemporalOverlaps view createdUtc sourceKind edges =
      .ok (insertRows (overlapRows view createdUtc sourceKind) (edges, 0)) := by
  have hlisted : ∀ p ∈ laterPairs (listedWindows view sourceKind),
      (∃ e ∈ view, e.id = p.1.id) ∧ ∃ e ∈ view, e.id = p.2.id := by
    have hpairs := laterPairs_pairwise (R := fun _ _ => True)
      (List.pairwise_of_forall (l := listedWindows view sourceKind) fun _ _ => trivial)
    intro p hp
    obtain ⟨h₁, h₂, -⟩ := hpairs p hp
    obtain ⟨e₁, he₁, -, hid₁, -⟩ := mem_listedWindows.1 h₁
    obtain ⟨e₂, he₂, -, hid₂, -⟩ := mem_listedWindows.1 h₂
    exact ⟨⟨e₁, he₁, hid₁⟩, e₂, he₂, hid₂⟩
  unfold deriveTemporalOverlaps overlapRows
  generalize laterPairs (listedWindows view sourceKind) = pairs at hlisted
  generalize (edges, 0) = st
  induction pairs generalizing st with
  | nil => rfl
  | cons p pairs ih =>
    obtain ⟨h₁, h₂⟩ := hlisted p List.mem_cons_self
    rw [List.foldlM_cons, derivePair_listed h₁ h₂, List.flatMap_cons, insertRows_append]
    exact ih (fun q hq => hlisted q (List.mem_cons_of_mem _ hq)) _

end Overlaps

/-! ## A rebuild that is run again -/

/-- What a later phase, or a later rebuild, leaves of the edges. -/
structure Later (c : CatalogTables) (edges edges' : List TicketRelationship) : Prop where
  keys : dedupKeys edges ⊆ dedupKeys edges'
  reviewed : ∀ x id, hasReviewedEdge edges x id = true → hasReviewedEdge edges' x id = true
  resolved : (∀ e ∈ edges, resolvable c Crawl.viewerKind e = false) →
    ∀ e ∈ edges', resolvable c Crawl.viewerKind e = false

section Again
variable {env : GraphEnv} {c : CatalogTables} {edges edges' edges'' : List TicketRelationship}

theorem Later.refl (c : CatalogTables) (edges : List TicketRelationship) : Later c edges edges :=
  ⟨List.Subset.refl _, fun _ _ => id, id⟩

theorem Later.trans (h : Later c edges edges') (h' : Later c edges' edges'') : Later c edges edges'' :=
  ⟨List.Subset.trans h.keys h'.keys, fun x id hx => h'.reviewed x id (h.reviewed x id hx),
    fun hno => h'.resolved (h.resolved hno)⟩

theorem hasReviewedEdge_iff {x : Int} {id : String} : hasReviewedEdge edges x id = true ↔
    ∃ e ∈ edges, e.fromEventId = x ∧ e.toExternalId = id ∧ e.reviewedStatus ≠ "Unreviewed" := by
  simp [hasReviewedEdge]

/-- Rows whose targets are looked up when they are made leave none to resolve. -/
theorem Later.insertRows (rows : List TicketRelationship) (st : List TicketRelationship × Nat)
    (h : ∀ row ∈ rows, resolvable c Crawl.viewerKind row = false) :
    Later c st.1 (insertRows rows st).1 := by
  have hinitial := insertRows_initial rows st
  refine ⟨(hinitial.map _).subset, fun x id hx => ?_, fun hno e he => ?_⟩
  · obtain ⟨e, he, hx⟩ := hasReviewedEdge_iff.1 hx
    exact hasReviewedEdge_iff.2 ⟨e, hinitial.subset he, hx⟩
  · rcases mem_insertRows he with he | ⟨row, hrow, hsame⟩
    · exact hno e he
    · rw [hsame]
      exact h row hrow

theorem Later.insertRelationship {row : TicketRelationship}
    (h : resolvable c Crawl.viewerKind row = false) :
    Later c edges (Inim.insertRelationship edges row).1 :=
  Later.insertRows [row] (edges, 0) fun r hr => by rwa [List.mem_singleton.1 hr]

theorem resolvable_resolveEdge (sourceKind : String) (e : TicketRelationship) :
    resolvable c sourceKind (resolveEdge c sourceKind e) = false := by
  unfold resolvable resolveEdge
  cases e.toEventId <;> cases eventByExternal c sourceKind e.toExternalId <;> rfl

theorem resolveEdge_eq_self {sourceKind : String} {e : TicketRelationship}
    (h : resolvable c sourceKind e = false) : resolveEdge c sourceKind e = e := by
  unfold resolvable at h
  unfold resolveEdge
  cases hto : e.toEventId with
  | some y => rw [Option.some_or, ← hto]
  | none =>
    rw [hto] at h
    have hnone : eventByExternal c sourceKind e.toExternalId = none := by simpa using h
    rw [hnone, Option.map_none, Option.or_none, ← hto]

theorem Later.resolve : Later c edges (edges.map (resolveEdge c Crawl.viewerKind)) := by
  refine ⟨fun key hkey => ?_, fun x id hx => ?_, fun _ e he => ?_⟩
  · obtain ⟨e, he, rfl⟩ := List.mem_map.1 hkey
    exact List.mem_map.2 ⟨_, List.mem_map_of_mem he, rfl⟩
  · obtain ⟨e, he, hx⟩ := hasReviewedEdge_iff.1 hx
    exact hasReviewedEdge_iff.2 ⟨_, List.mem_map_of_mem he, hx⟩
  · obtain ⟨row, -, rfl⟩ := List.mem_map.1 he
    exact resolvable_resolveEdge ..

abbrev LaterState (c : CatalogTables) (st st' : RebuildState) : Prop := Later c st.edges st'.edges

theorem resolvable_extractedEdge (createdUtc : String) (eventId : Nat) (snapshotId : Int)
    (reference : ExtractedReference) : resolvable c Crawl.viewerKind
      (extractedEdge c Crawl.viewerKind createdUtc eventId snapshotId reference) = false := by
  unfold resolvable extractedEdge
  cases eventByExternal c Crawl.viewerKind reference.externalId <;> rfl

variable (env c) (now later : String)

theorem extractReference_redone (event : CatalogEvent × Nat) (snapshotId : Int)
    (reference : ExtractedReference) :
    Redone (LaterState c) (extractReference c Crawl.viewerKind now event snapshotId reference)
      (extractReference c Crawl.viewerKind later event snapshotId reference) := by
  refine ⟨fun st => ?_, fun st st' hst' => ?_⟩
  · unfold extractReference
    split
    · exact Later.refl ..
    split
    · exact Later.refl ..
    · exact Later.insertRelationship (resolvable_extractedEdge ..)
  · unfold extractReference at hst' ⊢
    split
    · rfl
    next hown =>
    rw [if_neg hown] at hst'
    split at hst'
    · next hreviewed =>
      rw [if_pos (hst'.reviewed _ _ hreviewed), if_pos hreviewed]
    · next hno =>
      rw [if_neg hno]
      split
      · rfl
      · -- the row of the first time has the key, whatever else it says
        have hkey := hst'.keys (insertRelationship_key st.edges
          (extractedEdge c Crawl.viewerKind now event.2 snapshotId reference))
        have hsame : Inim.insertRelationship st'.edges (extractedEdge c Crawl.viewerKind later event.2
            snapshotId reference) = (st'.edges, false) := insertRelationship_present hkey
        rw [hsame]
        rfl

theorem extraction_redone :
    Redone (LaterState c) (extractRelationshipsFromSnapshots env c Crawl.viewerKind now)
      (extractRelationshipsFromSnapshots env c Crawl.viewerKind later) := by
  refine Redone.inTurn (R := LaterState c) (fun _ => Later.refl ..) Later.trans ?_
  induction (Crawl.listEvents c).filter (·.1.sourceKind = Crawl.viewerKind) with
  | nil => exact .nil
  | cons event events ih =>
    rw [List.flatMap_cons, List.flatMap_cons]
    refine List.rel_append ?_ ih
    unfold extractEvent
    split
    · exact .nil
    split
    · exact .cons ⟨fun _ => Later.refl .., fun _ _ _ => rfl⟩ .nil
    · refine List.forall₂_map_left_iff.2 (List.forall₂_map_right_iff.2 ?_)
      exact List.forall₂_same.2 fun reference _ => extractReference_redone c now later ..

theorem resolution_redone :
    Redone (LaterState c) (resolveUnresolvedEdges c Crawl.viewerKind)
      (resolveUnresolvedEdges c Crawl.viewerKind) := by
  refine ⟨fun st => Later.resolve, fun st st' hst' => ?_⟩
  have hno : ∀ e ∈ st'.edges, resolvable c Crawl.viewerKind e = false := by
    refine hst'.resolved fun e he => ?_
    obtain ⟨row, -, rfl⟩ := List.mem_map.1 he
    exact resolvable_resolveEdge ..
  have hcount : st'.edges.countP (resolvable c Crawl.viewerKind) = 0 :=
    List.countP_eq_zero.2 fun e he => by simp [hno e he]
  have hsame : st'.edges.map (resolveEdge c Crawl.viewerKind) = st'.edges :=
    (List.map_congr_left fun e he => resolveEdge_eq_self (hno e he)).trans (List.map_id _)
  rw [resolveUnresolvedEdges, hsame, hcount]
  rfl

theorem resolvable_overlapRows {view : List ListedEvent} {createdUtc sourceKind : String}
    {row : TicketRelationship} (h : row ∈ overlapRows view createdUtc sourceKind) :
    resolvable c Crawl.viewerKind row = false := by
  obtain ⟨p, -, hrow⟩ := List.mem_flatMap.1 h
  unfold pairRows at hrow
  split at hrow
  · rcases List.mem_pair.1 hrow with rfl | rfl <;> rfl
  · cases hrow

theorem deriveOverlaps_eq (st : RebuildState) : deriveOverlaps env c Crawl.viewerKind now st =
    ({ st with
        edges := (insertRows (overlapRows (catalogView env c) now Crawl.viewerKind) (st.edges, 0)).1
        overlaps := st.overlaps +
          (insertRows (overlapRows (catalogView env c) now Crawl.viewerKind) (st.edges, 0)).2 },
      none) := by
  rw [deriveOverlaps, deriveTemporalOverlaps_eq]

theorem derivation_redone : Redone (LaterState c) (deriveOverlaps env c Crawl.viewerKind now)
    (deriveOverlaps env c Crawl.viewerKind later) := by
  refine ⟨fun st => ?_, fun st st' hst' => ?_⟩
  · rw [deriveOverlaps_eq]
    exact Later.insertRows _ (st.edges, 0) fun row => resolvable_overlapRows c
  · rw [deriveOverlaps_eq] at hst'
    have hpresent : ∀ row ∈ overlapRows (catalogView env c) later Crawl.viewerKind,
        row.dedupKey ∈ dedupKeys st'.edges := by
      intro row hrow
      obtain ⟨row', hrow', hkey⟩ := exists_overlapRows now hrow
      rw [← hkey]
      exact hst'.keys (insertRows_keys hrow')
    rw [deriveOverlaps_eq, deriveOverlaps_eq, insertRows_present (by exact hpresent)]
    rfl

/-- **A rebuild is idempotent**, also one that panicked: run again on the same catalog it writes nothing,
counts nothing, and ends as it did. -/
theorem rebuild_again (env : GraphEnv) (c : CatalogTables) (edges : List TicketRelationship)
    (now later : String) : rebuild env c (rebuild env c edges now).1.edges later =
      (⟨(rebuild env c edges now).1.edges, 0, 0, 0⟩, (rebuild env c edges now).2) := by
  have hredone := Redone.inTurn (R := LaterState c) (fun _ => Later.refl ..) Later.trans
    (.cons (extraction_redone env c now later) (.cons (resolution_redone c)
      (.cons (derivation_redone env c now later) .nil)))
  exact hredone.again ⟨edges, 0, 0, 0⟩ ⟨_, 0, 0, 0⟩ (Later.refl ..)

end Again

/-! ## A rebuild that comes to its end -/

/-- An identifier in the text of a snapshot, with the kind that the wording before it gives. -/
def Mentions (env : GraphEnv) (snapshot : EventSnapshot) (id kind : String) : Prop :=
  ∃ before after, (snapshotReferenceText env snapshot).toList = before ++ id.toList ++ after ∧
    Occurs env.words before id.toList after ∧ kind = kindWithin 120 (before.rtake 120) id

/-- No latest text panics. -/
def LatestTextsCut (env : GraphEnv) (c : CatalogTables) : Prop :=
  ∀ event ∈ Crawl.listEvents c, event.1.sourceKind = Crawl.viewerKind →
    ∀ latest snapshotId, latestSnapshot env c event.2 = some (latest, snapshotId) →
      CutsBetweenChars env.words (snapshotReferenceText env latest) 120

/-- What the edges say of a catalog. -/
structure Complete (env : GraphEnv) (c : CatalogTables) (edges : List TicketRelationship) : Prop where
  mentions : ∀ event ∈ Crawl.listEvents c, event.1.sourceKind = Crawl.viewerKind →
    ∀ latest snapshotId, latestSnapshot env c event.2 = some (latest, snapshotId) →
      ∀ id kind, Mentions env latest id kind → id ≠ event.1.externalId →
        hasReviewedEdge edges (rowId event.2) id = true ∨
          (rowId event.2, id, kind, "ExplicitTicketText", snapshotId, 0) ∈ dedupKeys edges
  targets : ∀ e ∈ edges, resolvable c Crawl.viewerKind e = false
  overlaps : ∀ a ∈ listedWindows (catalogView env c) Crawl.viewerKind,
    ∀ b ∈ listedWindows (catalogView env c) Crawl.viewerKind, a ≠ b → a.overlaps b = true →
      (a.id, listedName (catalogView env c) b.id, "TemporalOverlap", "DerivedTemporalOverlap", 0, 0) ∈
        dedupKeys edges

section Complete
variable {env : GraphEnv} {c : CatalogTables} {edges edges' : List TicketRelationship} {now : String}

theorem extractWithKind_extracts {w : WordClass} {text : String} {n : Nat}
    {refs : List ExtractedReference} (h : extractWithKind w text n = some refs) :
    Extracts w text n refs := by
  have hall : ∀ r ∈ extractTicketReferences w text, withKind text n r ≠ none := by
    rw [← mapM_isSome]
    exact Option.isSome_iff_exists.2 ⟨refs, h⟩
  have hrefs := mapM_eq_filterMap hall
  rw [extractWithKind, hrefs] at h
  rw [← Option.some.inj h]
  exact extracts_of_all hall

theorem mentions_iff {snapshot : EventSnapshot} {refs : List ExtractedReference}
    (h : extractWithKind env.words (snapshotReferenceText env snapshot) 120 = some refs)
    {id kind : String} : Mentions env snapshot id kind ↔
      ∃ r ∈ refs, r.externalId = id ∧ r.relationshipKind = kind := by
  have hextracts := extractWithKind_extracts h
  constructor
  · rintro ⟨before, after, htext, hoccurs, rfl⟩
    obtain ⟨r, hr, rfl, hstart, -⟩ := (hextracts.identifiers _ _ _).2
      ⟨before, after, htext, hoccurs, rfl, rfl⟩
    refine ⟨r, hr, rfl, hextracts.kind r hr before (r.externalId.toList ++ after) ?_ hstart.symm⟩
    rw [htext, List.append_assoc]
  · rintro ⟨r, hr, rfl, rfl⟩
    obtain ⟨before, after, htext, hoccurs, hstart, -⟩ := (hextracts.identifiers _ _ _).1
      ⟨r, hr, rfl, rfl, rfl⟩
    refine ⟨before, after, htext, hoccurs,
      hextracts.kind r hr before (r.externalId.toList ++ after) ?_ hstart.symm⟩
    rw [htext, List.append_assoc]

theorem extractWithKind_ne_none_iff {snapshot : EventSnapshot} :
    extractWithKind env.words (snapshotReferenceText env snapshot) 120 ≠ none ↔
      CutsBetweenChars env.words (snapshotReferenceText env snapshot) 120 := by
  rw [← extractWithKind_iff, Option.ne_none_iff_exists']
  exact exists_congr fun refs => ⟨fun h => ⟨h, extractWithKind_extracts h⟩, fun h => h.1⟩

theorem extractReference_none (event : CatalogEvent × Nat) (snapshotId : Int)
    (reference : ExtractedReference) (st : RebuildState) :
    (extractReference c Crawl.viewerKind now event snapshotId reference st).2 = none := by
  unfold extractReference
  split
  · rfl
  split <;> rfl

/-- The turns of the events of the source. -/
theorem mem_extraction {f : RebuildPhase} : f ∈ ((Crawl.listEvents c).filter
    (·.1.sourceKind = Crawl.viewerKind)).flatMap (extractEvent env c Crawl.viewerKind now) ↔
      ∃ event ∈ Crawl.listEvents c, event.1.sourceKind = Crawl.viewerKind ∧
        f ∈ extractEvent env c Crawl.viewerKind now event := by
  simp only [List.mem_flatMap, List.mem_filter, decide_eq_true_eq, and_assoc]

theorem extraction_later (st : RebuildState) :
    LaterState c st (extractRelationshipsFromSnapshots env c Crawl.viewerKind now st).1 :=
  (extraction_redone env c now now).rel st

theorem extractEvent_later {event : CatalogEvent × Nat} {f : RebuildPhase}
    (h : f ∈ extractEvent env c Crawl.viewerKind now event) (st : RebuildState) :
    LaterState c st (f st).1 := by
  unfold extractEvent at h
  split at h
  · cases h
  split at h
  · rw [List.mem_singleton.1 h]
    exact Later.refl ..
  · obtain ⟨reference, -, rfl⟩ := List.mem_map.1 h
    exact (extractReference_redone c now now _ _ reference).rel st

/-- Each turn of an extraction that ends was taken, between others. -/
theorem extraction_done {st : RebuildState}
    (h : (extractRelationshipsFromSnapshots env c Crawl.viewerKind now st).2 = none)
    {event : CatalogEvent × Nat} (hevent : event ∈ Crawl.listEvents c)
    (hkind : event.1.sourceKind = Crawl.viewerKind) {f : RebuildPhase}
    (hf : f ∈ extractEvent env c Crawl.viewerKind now event) :
    ∃ st', (f st').2 = none ∧ LaterState c (f st').1
      (extractRelationshipsFromSnapshots env c Crawl.viewerKind now st).1 := by
  have hstep : ∀ f ∈ ((Crawl.listEvents c).filter (·.1.sourceKind = Crawl.viewerKind)).flatMap
      (extractEvent env c Crawl.viewerKind now), ∀ st, LaterState c st (f st).1 := by
    intro f hf
    obtain ⟨event, -, -, hf⟩ := mem_extraction.1 hf
    exact extractEvent_later hf
  obtain ⟨st', -, hnone, hend⟩ := inTurn_done (R := LaterState c) (fun _ => Later.refl ..) Later.trans
    hstep h f (mem_extraction.2 ⟨event, hevent, hkind, hf⟩)
  exact ⟨st', hnone, hend⟩

theorem extraction_none_iff (now : String) (st : RebuildState) :
    (extractRelationshipsFromSnapshots env c Crawl.viewerKind now st).2 = none ↔
      LatestTextsCut env c := by
  constructor
  · intro h event hevent hkind latest snapshotId hlatest
    rw [← extractWithKind_ne_none_iff]
    intro hpanic
    obtain ⟨st', hnone, -⟩ := extraction_done h hevent hkind (f := fun st => (st, some .panicked)) (by
      rw [extractEvent, hlatest]
      dsimp only
      rw [hpanic]
      exact List.mem_singleton_self _)
    cases hnone
  · intro h
    refine inTurn_none (fun f hf st => ?_) st
    obtain ⟨event, hevent, hkind, hf⟩ := mem_extraction.1 hf
    unfold extractEvent at hf
    split at hf
    · cases hf
    next latest snapshotId hlatest =>
    split at hf
    · next hpanic =>
      exact absurd hpanic (extractWithKind_ne_none_iff.2 (h event hevent hkind latest snapshotId hlatest))
    · obtain ⟨reference, -, rfl⟩ := List.mem_map.1 hf
      exact extractReference_none ..

/-- What a text mentions has its edge, or the pair is reviewed. -/
theorem extraction_mentions {st : RebuildState}
    (h : (extractRelationshipsFromSnapshots env c Crawl.viewerKind now st).2 = none)
    {event : CatalogEvent × Nat} (hevent : event ∈ Crawl.listEvents c)
    (hkind : event.1.sourceKind = Crawl.viewerKind) {latest : EventSnapshot} {snapshotId : Int}
    (hlatest : latestSnapshot env c event.2 = some (latest, snapshotId)) {id kind : String}
    (hmention : Mentions env latest id kind) (hother : id ≠ event.1.externalId) :
    hasReviewedEdge (extractRelationshipsFromSnapshots env c Crawl.viewerKind now st).1.edges
        (rowId event.2) id = true ∨
      (rowId event.2, id, kind, "ExplicitTicketText", snapshotId, 0) ∈
        dedupKeys (extractRelationshipsFromSnapshots env c Crawl.viewerKind now st).1.edges := by
  have hcut := (extraction_none_iff now st).1 h event hevent hkind latest snapshotId hlatest
  obtain ⟨refs, hrefs⟩ := Option.ne_none_iff_exists'.1 (extractWithKind_ne_none_iff.2 hcut)
  obtain ⟨r, hr, rfl, rfl⟩ := (mentions_iff hrefs).1 hmention
  obtain ⟨st', -, hend⟩ := extraction_done h hevent hkind
    (f := extractReference c Crawl.viewerKind now event snapshotId r) (by
      rw [extractEvent, hlatest]
      dsimp only
      rw [hrefs]
      exact List.mem_map_of_mem hr)
  unfold extractReference at hend
  rw [if_neg hother] at hend
  split at hend
  · next hreviewed => exact .inl (hend.reviewed _ _ hreviewed)
  · exact .inr (hend.keys (insertRelationship_key st'.edges _))

theorem overlapRows_key (now : String) {view : List ListedEvent} {sourceKind : String}
    {a b : ListedWindow} (ha : a ∈ listedWindows view sourceKind)
    (hb : b ∈ listedWindows view sourceKind) (hne : a ≠ b) (hover : a.overlaps b = true) : ∃ row ∈ overlapRows view now sourceKind,
      row.dedupKey = (a.id, listedName view b.id, "TemporalOverlap", "DerivedTemporalOverlap", 0, 0) := by
  rcases laterPairs_total ha hb hne with hp | hp
  · refine ⟨temporalOverlap a.id b.id (listedName view b.id) (overlapNote a b) now,
      List.mem_flatMap.2 ⟨(a, b), hp, ?_⟩, rfl⟩
    rw [pairRows, if_pos hover]
    exact List.mem_cons_self
  · refine ⟨temporalOverlap a.id b.id (listedName view b.id) (overlapNote b a) now,
      List.mem_flatMap.2 ⟨(b, a), hp, ?_⟩, rfl⟩
    rw [pairRows, if_pos (by rwa [ListedWindow.overlaps_comm])]
    exact List.mem_cons_of_mem _ List.mem_cons_self

/-- The phases of a rebuild that no text stops. -/
theorem rebuild_eq {st : RebuildState}
    (h : extractRelationshipsFromSnapshots env c Crawl.viewerKind now ⟨edges, 0, 0, 0⟩ = (st, none)) :
    rebuild env c edges now = deriveOverlaps env c Crawl.viewerKind now
      (resolveUnresolvedEdges c Crawl.viewerKind st).1 := by
  have hresolve : resolveUnresolvedEdges c Crawl.viewerKind st =
    ((resolveUnresolvedEdges c Crawl.viewerKind st).1, none) := rfl
  rw [rebuild, inTurn_cons_none h, inTurn_cons_none hresolve,
    inTurn_cons_none (deriveOverlaps_eq env c now _), deriveOverlaps_eq]
  rfl

/-- **A rebuild comes to its end exactly if no latest text panics**, and then leaves nothing out: what
the texts mention has its edge, each target that is in the catalog is resolved, and each two windows that
overlap are recorded, there and back. -/
theorem rebuild_complete (env : GraphEnv) (c : CatalogTables) (edges : List TicketRelationship)
    (now : String) : ((rebuild env c edges now).2 = none ∧
      Complete env c (rebuild env c edges now).1.edges) ↔ LatestTextsCut env c := by
  rw [← extraction_none_iff now ⟨edges, 0, 0, 0⟩]
  constructor
  · rintro ⟨hnone, -⟩
    by_contra hsome
    obtain ⟨stop, hstop⟩ := Option.ne_none_iff_exists'.1 hsome
    have hextract : extractRelationshipsFromSnapshots env c Crawl.viewerKind now ⟨edges, 0, 0, 0⟩ =
      (_, some stop) := Prod.ext rfl hstop
    rw [rebuild, inTurn_cons_some hextract] at hnone
    cases hnone
  · intro hnone
    set st := extractRelationshipsFromSnapshots env c Crawl.viewerKind now ⟨edges, 0, 0, 0⟩
    have hrun : rebuild env c edges now = deriveOverlaps env c Crawl.viewerKind now
        (resolveUnresolvedEdges c Crawl.viewerKind st.1).1 := rebuild_eq (Prod.ext rfl hnone)
    have hresolved : LaterState c st.1 (resolveUnresolvedEdges c Crawl.viewerKind st.1).1 := Later.resolve
    have hderived := (derivation_redone env c now now).rel
      (resolveUnresolvedEdges c Crawl.viewerKind st.1).1
    refine ⟨by rw [hrun, deriveOverlaps_eq], ?_⟩
    rw [hrun]
    refine ⟨fun event hevent hkind latest snapshotId hlatest id kind hmention hother => ?_, ?_, ?_⟩
    · have hends := hresolved.trans hderived
      exact (extraction_mentions hnone hevent hkind hlatest hmention hother).imp
        (hends.reviewed _ _) (@hends.keys _)
    · refine hderived.resolved fun e he => ?_
      obtain ⟨row, -, rfl⟩ := List.mem_map.1 he
      exact resolvable_resolveEdge ..
    · intro a ha b hb hne hover
      obtain ⟨row, hrow, hkey⟩ := overlapRows_key now ha hb hne hover
      rw [deriveOverlaps_eq, ← hkey]
      exact insertRows_keys hrow

end Complete

end Inim.Review
