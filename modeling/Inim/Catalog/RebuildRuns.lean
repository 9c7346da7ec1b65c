import Inim.Catalog.Rebuild
/-!
# The relationships over reviews and rebuilds (`catalog/relationships.rs:1-14`, `catalog/review.rs:298-347`)

| here | there |
| --- | --- |
| `listTicketReviews`, `sharedLabels`, `deriveEntityOverlaps` | `store.rs:1246`, `derive_entity_overlaps` |
| `GraphOp` | what writes the tables of the graph, in any order: `ReviewOp`, the derivation from labels, a rebuild |

"Explicit edges and derived edges are kept visibly distinct through `evidence_kind`", and "temporal
overlap is never a causal edge": over any commands, behind every edge stands what its evidence says
(`edges_grounded`). "A reviewed edge for this pair must not be overwritten": an edge stays as it is, but
that its target is resolved, and next to a reviewed one no text adds another (`edges_kept`).
-/

namespace Inim.Review

open Std Inim.Lib

/-! ## Labels that reviews share -/

/-- `ORDER BY external_id, id`. -/
def listTicketReviews (reviews : List TicketReview) : List TicketReview :=
  sortBy (compareOn (·.externalId)) reviews

def sharedLabels (a b : TicketReview) : List String := a.entityLabels.filter b.entityLabels.contains

def entityOverlap (createdUtc : String) (a b : TicketReview) : TicketRelationship where
  id := 0
  fromEventId := rowId a.catalogEventId
  toEventId := some (rowId b.catalogEventId)
  toExternalId := b.externalId
  relationshipKind := "EntityOverlap"
  evidenceKind := "DerivedEntityOverlap"
  sourceSnapshotId := none
  sourceDocumentId := none
  reviewedStatus := "Unreviewed"
  note := some ("shared reviewed entity label(s): " ++ ", ".intercalate (sharedLabels a b))
  createdUtc := createdUtc

/-- `(i, j)` with `i < j`, in the order of the loops. -/
def entityRows (createdUtc : String) : List TicketReview → List TicketRelationship
  | [] => []
  | a :: rest =>
    (rest.filter fun b => sharedLabels a b ≠ []).map (entityOverlap createdUtc a) ++
      entityRows createdUtc rest

def deriveEntityOverlaps (reviews : List TicketReview) (edges : List TicketRelationship)
    (createdUtc : String) : List TicketRelationship × Nat :=
  insertRows (entityRows createdUtc (listTicketReviews reviews)) (edges, 0)

/-! ## Histories -/

inductive GraphOp where
  | review (op : ReviewOp)
  /-- The end of `cmd_corpus_review`. -/
  | entityOverlaps (createdUtc : String)
  | rebuild (now : String)

def GraphOp.step (env : GraphEnv) (s : ReviewState) : GraphOp → ReviewState
  | review op => op.step env.toReviewEnv s
  | entityOverlaps createdUtc => { s with edges := (deriveEntityOverlaps s.reviews s.edges createdUtc).1 }
  | rebuild now => { s with edges := (Review.rebuild env s.tables s.edges now).1.edges }

/-! ## What stays -/

/-- The edge, with its target resolved if it was not. -/
def Settled (e e' : TicketRelationship) : Prop := ∃ to_, e' = { e with toEventId := e.toEventId.or to_ }

/-- An edge that a text gave. -/
def Extracted (e : TicketRelationship) : Prop :=
  e.reviewedStatus = "Unreviewed" ∧ e.evidenceKind = "ExplicitTicketText"

/-- Rows stay in their places, settled at most, and none from a text comes to a pair that was reviewed. -/
structure Kept (edges edges' : List TicketRelationship) : Prop where
  stays : ∀ (i : Nat) (e : TicketRelationship), edges[i]? = some e → ∃ e', edges'[i]? = some e' ∧ Settled e e'
  added : ∀ (i : Nat) (e : TicketRelationship), edges.length ≤ i → edges'[i]? = some e → Extracted e →
    hasReviewedEdge edges e.fromEventId e.toExternalId = false

section Kept
variable {env : GraphEnv} {c : CatalogTables} {edges edges' edges'' : List TicketRelationship}
  {e e' e'' : TicketRelationship}

theorem Settled.refl (e : TicketRelationship) : Settled e e := ⟨none, by rw [Option.or_none]⟩

theorem Settled.trans (h : Settled e e') (h' : Settled e' e'') : Settled e e'' := by
  obtain ⟨to_, rfl⟩ := h
  obtain ⟨to', rfl⟩ := h'
  exact ⟨to_.or to', by rw [Option.or_assoc]⟩

theorem Kept.refl (edges : List TicketRelationship) : Kept edges edges :=
  ⟨fun _ e he => ⟨e, he, Settled.refl e⟩, fun i e hi he _ => by
    rw [List.getElem?_eq_none hi] at he
    cases he⟩

/-- A reviewed edge stays one. -/
theorem Kept.reviewed (h : Kept edges edges') {x : Int} {id : String}
    (hx : hasReviewedEdge edges x id = true) : hasReviewedEdge edges' x id = true := by
  obtain ⟨e, he, hx⟩ := hasReviewedEdge_iff.1 hx
  obtain ⟨i, hi⟩ := List.getElem?_of_mem he
  obtain ⟨e', he', to_, rfl⟩ := h.stays i e hi
  exact hasReviewedEdge_iff.2 ⟨_, List.mem_of_getElem? he', hx⟩

theorem Kept.trans (h : Kept edges edges') (h' : Kept edges' edges'') : Kept edges edges'' := by
  refine ⟨fun i e he => ?_, fun i e hi he hextracted => ?_⟩
  · obtain ⟨e', he', hsettled⟩ := h.stays i e he
    obtain ⟨e'', he'', hsettled'⟩ := h'.stays i e' he'
    exact ⟨e'', he'', hsettled.trans hsettled'⟩
  · cases hbetween : edges'[i]? with
    | some e' =>
      -- it came with the first, and was settled since
      obtain ⟨e'', he'', to_, rfl⟩ := h'.stays i e' hbetween
      obtain rfl := Option.some.inj (he''.symm.trans he)
      exact h.added i e' hi hbetween hextracted
    | none =>
      have hno := h'.added i e (List.getElem?_eq_none_iff.1 hbetween) he hextracted
      by_contra hyes
      rw [h.reviewed ((Bool.not_eq_false _).mp hyes)] at hno
      cases hno

/-- New rows at the end, of which those from texts are of pairs that are not reviewed. -/
theorem Kept.append {new : List TicketRelationship} (h : ∀ e ∈ new, Extracted e →
    hasReviewedEdge edges e.fromEventId e.toExternalId = false) : Kept edges (edges ++ new) := by
  refine ⟨fun i e he => ⟨e, ?_, Settled.refl e⟩, fun i e hi he => h e ?_⟩
  · rw [List.getElem?_append_left (List.getElem?_eq_some_iff.1 he).1, he]
  · rw [List.getElem?_append_right hi] at he
    exact List.mem_of_getElem? he

theorem Kept.insertRelationship {row : TicketRelationship} (h : Extracted row →
    hasReviewedEdge edges row.fromEventId row.toExternalId = false) :
    Kept edges (Inim.insertRelationship edges row).1 := by
  unfold Inim.insertRelationship
  split
  · exact Kept.refl edges
  · refine Kept.append fun e he hextracted => ?_
    obtain rfl := List.mem_singleton.1 he
    exact h hextracted

/-- Rows that are not from texts. -/
theorem Kept.insertRows {rows : List TicketRelationship} (h : ∀ row ∈ rows, ¬ Extracted row)
    (st : List TicketRelationship × Nat) : Kept st.1 (insertRows rows st).1 := by
  induction rows generalizing st with
  | nil => exact Kept.refl _
  | cons row rows ih =>
    have hfirst : Kept st.1 (Inim.insertRelationship st.1 row).1 :=
      Kept.insertRelationship fun hrow => absurd hrow (h row List.mem_cons_self)
    have hrest := ih (fun r hr => h r (List.mem_cons_of_mem _ hr))
      ((Inim.insertRelationship st.1 row).1, st.2 + (Inim.insertRelationship st.1 row).2.toNat)
    exact hfirst.trans hrest

theorem Kept.resolve (sourceKind : String) : Kept edges (edges.map (resolveEdge c sourceKind)) := by
  refine ⟨fun i e he => ⟨resolveEdge c sourceKind e, ?_, _, rfl⟩, fun i e hi he => ?_⟩
  · rw [List.getElem?_map, he, Option.map_some]
  · rw [List.getElem?_eq_none (by rwa [List.length_map])] at he
    cases he

theorem extractEvent_kept {sourceKind createdUtc : String} {event : CatalogEvent × Nat}
    {f : RebuildPhase} (h : f ∈ extractEvent env c sourceKind createdUtc event) (st : RebuildState) :
    Kept st.edges (f st).1.edges := by
  unfold extractEvent at h
  split at h
  · cases h
  split at h
  · rw [List.mem_singleton.1 h]
    exact Kept.refl _
  · obtain ⟨reference, -, rfl⟩ := List.mem_map.1 h
    unfold extractReference
    split
    · exact Kept.refl _
    split
    · exact Kept.refl _
    · next hno => exact Kept.insertRelationship fun _ => Bool.eq_false_of_not_eq_true hno

theorem not_extracted_overlapRows {view : List ListedEvent} {createdUtc sourceKind : String}
    {row : TicketRelationship} (h : row ∈ overlapRows view createdUtc sourceKind) : ¬ Extracted row := by
  obtain ⟨p, -, hrow⟩ := List.mem_flatMap.1 h
  unfold pairRows at hrow
  rintro ⟨-, hevidence⟩
  split at hrow
  · rcases List.mem_pair.1 hrow with rfl | rfl <;> simp [temporalOverlap] at hevidence
  · cases hrow

theorem rebuild_kept (env : GraphEnv) (c : CatalogTables) (edges : List TicketRelationship)
    (now : String) : Kept edges (rebuild env c edges now).1.edges := by
  have hrel := inTurn_rel (R := fun st st' : RebuildState => Kept st.edges st'.edges)
    [extractRelationshipsFromSnapshots env c Crawl.viewerKind now,
      resolveUnresolvedEdges c Crawl.viewerKind, deriveOverlaps env c Crawl.viewerKind now]
    (fun _ => Kept.refl _) Kept.trans ?_ ⟨edges, 0, 0, 0⟩
  · exact hrel
  simp only [List.forall_mem_cons]
  refine ⟨fun st => ?_, fun st => Kept.resolve _, fun st => ?_, List.forall_mem_nil _⟩
  · refine inTurn_rel (R := fun st st' : RebuildState => Kept st.edges st'.edges) _
      (fun _ => Kept.refl _) Kept.trans (fun f hf st => ?_) st
    obtain ⟨event, -, -, hf⟩ := mem_extraction.1 hf
    exact extractEvent_kept hf st
  · rw [deriveOverlaps_eq]
    exact Kept.insertRows (fun row => not_extracted_overlapRows) (st.edges, 0)

theorem mem_entityRows {createdUtc : String} {reviews : List TicketReview} {row : TicketRelationship}
    (h : row ∈ entityRows createdUtc reviews) : ∃ a ∈ reviews, ∃ b ∈ reviews, sharedLabels a b ≠ [] ∧
      row = entityOverlap createdUtc a b := by
  induction reviews with
  | nil => cases h
  | cons a rest ih =>
    rw [entityRows, List.mem_append] at h
    rcases h with h | h
    · obtain ⟨b, hb, rfl⟩ := List.mem_map.1 h
      obtain ⟨hb, hshared⟩ := List.mem_filter.1 hb
      exact ⟨a, List.mem_cons_self, b, List.mem_cons_of_mem a hb, of_decide_eq_true hshared, rfl⟩
    · obtain ⟨a', ha', b, hb, hrest⟩ := ih h
      exact ⟨a', List.mem_cons_of_mem a ha', b, List.mem_cons_of_mem a hb, hrest⟩

/-- The row that an analyst's edge is stored as. -/
theorem reviewedEdge_ok {env : ReviewEnv} {s : ReviewState} {call : EdgeCall} {row : TicketRelationship}
    (h : reviewedEdge env s call = .ok row) : ∃ fromId,
      validReviewedEvidence call.edge.evidence = true ∧
      eventByExternal s.tables call.sourceKind call.edge.from_ = some fromId ∧
      row = {
        id := 0
        fromEventId := rowId fromId
        toEventId := (eventByExternal s.tables call.sourceKind call.edge.to_).map rowId
        toExternalId := call.edge.to_
        relationshipKind := call.edge.kind
        evidenceKind := call.edge.evidence
        sourceSnapshotId := latestSnapshotId env s.tables fromId
        sourceDocumentId := if call.edge.documentCited then call.aarDocumentId else none
        reviewedStatus := "Accepted"
        note := call.edge.note
        createdUtc := call.createdUtc } := by
  unfold reviewedEdge at h
  obtain ⟨hvalid, h⟩ := guard_ok h
  split at h
  · next fromId hfrom =>
    obtain ⟨-, h⟩ := guard_ok h
    obtain ⟨-, h⟩ := guard_ok h
    cases h
    exact ⟨fromId, by simpa using hvalid, hfrom, rfl⟩
  · cases h

theorem GraphOp.kept (env : GraphEnv) (s : ReviewState) (op : GraphOp) :
    Kept s.edges (op.step env s).edges := by
  cases op with
  | review op =>
    cases op with
    | sync f => exact Kept.refl _
    | document => exact Kept.refl _
    | importReviews file =>
      obtain ⟨reviews, hrest⟩ := importReviews_rest env.toReviewEnv s file
      rw [GraphOp.step, ReviewOp.step, hrest]
      exact Kept.refl _
    | corpusReview call =>
      rw [GraphOp.step, ReviewOp.step, corpusReview_eq]
      exact Kept.refl _
    | importReviewedEdge call =>
      cases hrow : reviewedEdge env.toReviewEnv s call with
      | error e =>
        rw [GraphOp.step, ReviewOp.step, importReviewedEdge_error hrow]
        exact Kept.refl _
      | ok row =>
        rw [GraphOp.step, ReviewOp.step, importReviewedEdge_eq hrow]
        refine Kept.insertRelationship fun hextracted => ?_
        -- an analyst's edge is accepted
        obtain ⟨fromId, -, -, rfl⟩ := reviewedEdge_ok hrow
        simp [Extracted] at hextracted
  | entityOverlaps createdUtc =>
    refine Kept.insertRows (fun row hrow => ?_) (s.edges, 0)
    obtain ⟨a, -, b, -, -, rfl⟩ := mem_entityRows hrow
    rintro ⟨-, hevidence⟩
    simp [entityOverlap] at hevidence
  | rebuild now => exact rebuild_kept env s.tables s.edges now

end Kept

/-- **What is reviewed is not overwritten.** Whatever is done, from any tables: an edge stays in its row
as it is, but that an unresolved target is filled in, and no text adds an edge to a pair that was
reviewed. -/
theorem edges_kept (env : GraphEnv) (s : ReviewState) (ops : List GraphOp) :
    Kept s.edges (run (GraphOp.step env) s ops).edges := by
  induction ops generalizing s with
  | nil => exact Kept.refl _
  | cons op ops ih => exact (op.kept env s).trans (ih (op.step env s))

/-! ## What stands behind an edge -/

/-- The windows of two snapshots are closed, and their texts overlap. -/
def WindowsOverlap (env : GraphEnv) (a b : EventSnapshot) : Prop :=
  ∃ wa wb : ListedWindow, snapshotWindow env a = (some wa.start, some wa.stop) ∧
    snapshotWindow env b = (some wb.start, some wb.stop) ∧ wa.overlaps wb = true

/-- What the status and the evidence of an edge say: an analyst accepted it; or it stands in the text of a
snapshot of its source, under another ticket's id and with the kind of its wording; or it is an overlap,
of the windows of two snapshots, or of labels that were reviewed. -/
inductive Supported (env : GraphEnv) (c : CatalogTables) (reviews : List TicketReview)
    (e : TicketRelationship) : Prop
  | reviewed (status : e.reviewedStatus = "Accepted")
      (evidence : validReviewedEvidence e.evidenceKind = true)
  | text (status : e.reviewedStatus = "Unreviewed") (evidence : e.evidenceKind = "ExplicitTicketText")
      {k : Nat} {snapshot : EventSnapshot} {number : String} (id : e.sourceSnapshotId = some (rowId k))
      (row : c.snapshots[k]? = some snapshot) (own : e.fromEventId = rowId snapshot.eventId)
      (event : c.eventKeys[snapshot.eventId]? = some (Crawl.viewerKind, number))
      (other : e.toExternalId ≠ number) (mention : Mentions env snapshot e.toExternalId e.relationshipKind)
  | windows (status : e.reviewedStatus = "Unreviewed") (evidence : e.evidenceKind = "DerivedTemporalOverlap")
      (kind : e.relationshipKind = "TemporalOverlap") {a b : EventSnapshot} (ha : a ∈ c.snapshots)
      (hb : b ∈ c.snapshots) (from_ : e.fromEventId = rowId a.eventId)
      (to_ : e.toEventId = some (rowId b.eventId)) (ne : a.eventId ≠ b.eventId)
      (overlap : WindowsOverlap env a b)
  | labels (status : e.reviewedStatus = "Unreviewed") (evidence : e.evidenceKind = "DerivedEntityOverlap")
      (kind : e.relationshipKind = "EntityOverlap") {a b : Nat}
      (ha : a ∈ reviews.map (·.catalogEventId)) (hb : b ∈ reviews.map (·.catalogEventId))
      (from_ : e.fromEventId = rowId a) (to_ : e.toEventId = some (rowId b))

/-- The events of an edge, and what stands behind it. -/
structure Grounded (env : GraphEnv) (c : CatalogTables) (reviews : List TicketReview)
    (e : TicketRelationship) : Prop where
  source : ∃ i key, e.fromEventId = rowId i ∧ c.eventKeys[i]? = some key
  target : ∀ y, e.toEventId = some y →
    ∃ j kind, y = rowId j ∧ c.eventKeys[j]? = some (kind, e.toExternalId)
  supported : Supported env c reviews e

/-- A review is of the ticket it names. -/
def Named (c : CatalogTables) (r : TicketReview) : Prop :=
  ∃ kind, c.eventKeys[r.catalogEventId]? = some (kind, r.externalId)

section Grounded
variable {env : GraphEnv} {c c' : CatalogTables} {reviews reviews' : List TicketReview}
  {e row : TicketRelationship}

theorem Grounded.mono (h : Grounded env c reviews e) (hc : CatalogGrows c c')
    (hreviews : reviews.map (·.catalogEventId) ⊆ reviews'.map (·.catalogEventId)) :
    Grounded env c' reviews' e := by
  obtain ⟨⟨i, key, hi, hkey⟩, htarget, hsupported⟩ := h
  refine ⟨⟨i, key, hi, getElem?_of_initial hc.eventKeys hkey⟩, fun y hy => ?_, ?_⟩
  · obtain ⟨j, kind, hj, hkey⟩ := htarget y hy
    exact ⟨j, kind, hj, getElem?_of_initial hc.eventKeys hkey⟩
  · cases hsupported with
    | reviewed status evidence => exact .reviewed status evidence
    | text status evidence id row own event other mention =>
      exact .text status evidence id (getElem?_of_initial hc.snapshots row) own
        (getElem?_of_initial hc.eventKeys event) other mention
    | windows status evidence kind ha hb from_ to_ ne overlap =>
      exact .windows status evidence kind (hc.snapshots.subset ha) (hc.snapshots.subset hb) from_ to_ ne
        overlap
    | labels status evidence kind ha hb from_ to_ =>
      exact .labels status evidence kind (hreviews ha) (hreviews hb) from_ to_

/-- The id of the row has no part in it. -/
theorem Grounded.stored (h : Grounded env c reviews row) (id : Int) :
    Grounded env c reviews { row with id := id } := by
  obtain ⟨hsource, htarget, hsupported⟩ := h
  refine ⟨hsource, htarget, ?_⟩
  cases hsupported with
  | reviewed status evidence => exact .reviewed status evidence
  | text status evidence id row own event other mention =>
    exact .text status evidence id row own event other mention
  | windows status evidence kind ha hb from_ to_ ne overlap =>
    exact .windows status evidence kind ha hb from_ to_ ne overlap
  | labels status evidence kind ha hb from_ to_ => exact .labels status evidence kind ha hb from_ to_

/-- Nor has a target that was not resolved. -/
theorem Grounded.resolve (h : Grounded env c reviews e) (sourceKind : String) :
    Grounded env c reviews (resolveEdge c sourceKind e) := by
  cases hto : e.toEventId with
  | some y =>
    have hsame : resolveEdge c sourceKind e = e := by
      rw [resolveEdge, hto, Option.some_or, ← hto]
    rwa [hsame]
  | none =>
    obtain ⟨hsource, -, hsupported⟩ := h
    refine ⟨hsource, fun y hy => ?_, ?_⟩
    · rw [resolveEdge, hto, Option.none_or] at hy
      obtain ⟨j, hj, rfl⟩ := Option.map_eq_some_iff.1 hy
      exact ⟨j, sourceKind, rfl, eventByExternal_key hj⟩
    · cases hsupported with
      | reviewed status evidence => exact .reviewed status evidence
      | text status evidence id row own event other mention =>
        exact .text status evidence id row own event other mention
      | windows status evidence kind ha hb from_ to_ ne overlap =>
        rw [hto] at to_
        cases to_
      | labels status evidence kind ha hb from_ to_ =>
        rw [hto] at to_
        cases to_

theorem eventByExternal_target {sourceKind externalId : String} {y : Int}
    (h : (eventByExternal c sourceKind externalId).map rowId = some y) :
    ∃ j kind, y = rowId j ∧ c.eventKeys[j]? = some (kind, externalId) := by
  obtain ⟨j, hj, rfl⟩ := Option.map_eq_some_iff.1 h
  exact ⟨j, sourceKind, rfl, eventByExternal_key hj⟩

/-! ### The rows that a rebuild inserts -/

theorem eventKeys_of_listEvents {event : CatalogEvent × Nat} (h : event ∈ Crawl.listEvents c) :
    c.eventKeys[event.2]? = some (event.1.sourceKind, event.1.externalId) := by
  have hrow : c.events[event.2]? = some event.1 :=
    List.mem_zipIdx_iff_getElem?.1 (mem_sortBy.1 h)
  rw [CatalogTables.eventKeys, List.getElem?_map, hrow]
  rfl

theorem mem_listSnapshots {eventId : Nat} {snapshot : EventSnapshot}
    (h : (env.listSnapshots c eventId).head? = some snapshot) :
    snapshot ∈ c.snapshots ∧ snapshot.eventId = eventId := by
  have hmem := (env.listed c eventId).perm.subset (List.mem_of_head? h)
  rw [snapshotsOf, List.mem_filter] at hmem
  exact ⟨hmem.1, of_decide_eq_true hmem.2⟩

theorem latestSnapshot_row {eventId : Nat} {snapshot : EventSnapshot} {snapshotId : Int}
    (h : latestSnapshot env c eventId = some (snapshot, snapshotId)) : ∃ k, snapshotId = rowId k ∧
      c.snapshots[k]? = some snapshot ∧ snapshot.eventId = eventId := by
  obtain ⟨s, hs, hid⟩ := Option.bind_eq_some_iff.1 h
  obtain ⟨k, hk, heq⟩ := Option.map_eq_some_iff.1 hid
  obtain ⟨rfl, rfl⟩ := Prod.mk.inj heq
  obtain ⟨hlt, hrow, -⟩ := List.findIdx?_eq_some_iff_getElem.1 hk
  refine ⟨k, rfl, ?_, (mem_listSnapshots hs).2⟩
  rw [List.getElem?_eq_getElem hlt, of_decide_eq_true hrow]

theorem extractedEdge_grounded {createdUtc : String} {event : CatalogEvent × Nat}
    (hevent : event ∈ Crawl.listEvents c) (hkind : event.1.sourceKind = Crawl.viewerKind)
    {latest : EventSnapshot} {snapshotId : Int}
    (hlatest : latestSnapshot env c event.2 = some (latest, snapshotId))
    {refs : List ExtractedReference}
    (hrefs : extractWithKind env.words (snapshotReferenceText env latest) 120 = some refs)
    {reference : ExtractedReference} (hr : reference ∈ refs)
    (hother : reference.externalId ≠ event.1.externalId) : Grounded env c reviews
      (extractedEdge c Crawl.viewerKind createdUtc event.2 snapshotId reference) := by
  obtain ⟨k, rfl, hrow, hown⟩ := latestSnapshot_row hlatest
  have hkey := eventKeys_of_listEvents hevent
  rw [hkind] at hkey
  refine ⟨⟨event.2, _, rfl, hkey⟩, fun y hy => eventByExternal_target hy, ?_⟩
  exact .text rfl rfl rfl hrow (congrArg rowId hown.symm) (hown ▸ hkey) hother
    ((mentions_iff hrefs).2 ⟨reference, hr, rfl, rfl⟩)

/-- The window of an event is that of one of its snapshots. -/
theorem listedWindow_snapshot {w : ListedWindow} {sourceKind : String}
    (h : w ∈ listedWindows (catalogView env c) sourceKind) : ∃ event ∈ Crawl.listEvents c,
      w.id = rowId event.2 ∧ ∃ snapshot ∈ c.snapshots, snapshot.eventId = event.2 ∧
        snapshotWindow env snapshot = (some w.start, some w.stop) := by
  obtain ⟨v, hv, -, hid, hwindow⟩ := mem_listedWindows.1 h
  obtain ⟨event, hevent, rfl⟩ := List.mem_map.1 hv
  refine ⟨event, hevent, hid.symm, ?_⟩
  obtain ⟨texts, hlatest, hclosed⟩ := Option.bind_eq_some_iff.1 hwindow
  obtain ⟨snapshot, hsnapshot, rfl⟩ := Option.map_eq_some_iff.1 hlatest
  obtain ⟨hmem, hown⟩ := mem_listSnapshots hsnapshot
  refine ⟨snapshot, hmem, hown, ?_⟩
  -- a field that is missing counts as empty
  have hfield (v : Option String) (h : ¬ (v.getD "").isEmpty) : v = some (v.getD "") := by
    cases v with
    | none => exact absurd rfl h
    | some v => rfl
  dsimp only at hclosed
  split at hclosed
  · cases hclosed
  · next hopen =>
    rw [Bool.or_eq_true, not_or] at hopen
    obtain ⟨hstart, hstop⟩ := Prod.mk.inj (Option.some.inj hclosed)
    rw [← hstart, ← hstop]
    exact Prod.ext (hfield _ hopen.1) (hfield _ hopen.2)

theorem listedName_key {w : ListedWindow} {sourceKind : String}
    (h : w ∈ listedWindows (catalogView env c) sourceKind) : ∃ j kind, w.id = rowId j ∧
      c.eventKeys[j]? = some (kind, listedName (catalogView env c) w.id) := by
  obtain ⟨v, hv, -, hid, -⟩ := mem_listedWindows.1 h
  have hfound : ((catalogView env c).find? (·.id = w.id)).isSome :=
    List.find?_isSome.2 ⟨v, hv, decide_eq_true hid⟩
  obtain ⟨found, hfound⟩ := Option.isSome_iff_exists.1 hfound
  have hfoundid : found.id = w.id := by simpa using List.find?_some hfound
  obtain ⟨event, hevent, rfl⟩ := List.mem_map.1 (List.mem_of_find?_eq_some hfound)
  refine ⟨event.2, event.1.sourceKind, hfoundid.symm, ?_⟩
  rw [eventKeys_of_listEvents hevent, listedName, hfound]
  rfl

theorem rowId_injective : Function.Injective rowId := fun i j h => by
  simpa [rowId] using h

/-- Each event has one window at most. -/
theorem listedWindows_ids (sourceKind : String) :
    (listedWindows (catalogView env c) sourceKind).Pairwise fun a b => a.id ≠ b.id := by
  have hrows : (Crawl.listEvents c).Pairwise fun a b => a.2 ≠ b.2 := by
    have hids : (c.events.zipIdx.map (·.2)).Nodup := by
      rw [List.zipIdx_map_snd]
      exact List.nodup_range'
    exact List.pairwise_map.1 (((sortBy_perm _ _).map _).nodup_iff.2 hids)
  have hview : (catalogView env c).Pairwise fun a b => a.id ≠ b.id :=
    List.pairwise_map.2 (hrows.imp fun hne heq => hne (rowId_injective heq))
  unfold listedWindows
  rw [List.pairwise_filterMap]
  refine (hview.filter _).imp fun {a b} hne => ?_
  intro wa hwa wb hwb
  obtain ⟨_, -, rfl⟩ := Option.map_eq_some_iff.1 hwa
  obtain ⟨_, -, rfl⟩ := Option.map_eq_some_iff.1 hwb
  exact hne

theorem temporalOverlap_grounded {a b : ListedWindow} {sourceKind note createdUtc : String}
    (ha : a ∈ listedWindows (catalogView env c) sourceKind)
    (hb : b ∈ listedWindows (catalogView env c) sourceKind) (hne : a.id ≠ b.id)
    (hover : a.overlaps b = true) : Grounded env c reviews
      (temporalOverlap a.id b.id (listedName (catalogView env c) b.id) note createdUtc) := by
  obtain ⟨ea, hea, hida, sa, hsa, hsaid, hwa⟩ := listedWindow_snapshot ha
  obtain ⟨eb, -, hidb, sb, hsb, hsbid, hwb⟩ := listedWindow_snapshot hb
  obtain ⟨j, kind, hj, hkey⟩ := listedName_key hb
  refine ⟨⟨ea.2, _, hida, eventKeys_of_listEvents hea⟩, ?_, ?_⟩
  · rintro y hy
    obtain rfl := Option.some.inj hy
    exact ⟨j, kind, hj, hkey⟩
  · refine .windows rfl rfl rfl hsa hsb ?_ ?_ ?_ ⟨a, b, hwa, hwb, hover⟩
    · rw [hsaid]
      exact hida
    · rw [hsbid]
      exact congrArg some hidb
    · rintro hsame
      rw [hida, hidb, ← hsaid, ← hsbid, hsame] at hne
      exact hne rfl

theorem overlapRows_grounded {createdUtc sourceKind : String}
    (h : row ∈ overlapRows (catalogView env c) createdUtc sourceKind) :
    Grounded env c reviews row := by
  obtain ⟨p, hp, hrow⟩ := List.mem_flatMap.1 h
  obtain ⟨ha, hb, hne⟩ := laterPairs_pairwise (listedWindows_ids sourceKind) p hp
  unfold pairRows at hrow
  split at hrow
  · next hover =>
    rcases List.mem_pair.1 hrow with rfl | rfl
    · exact temporalOverlap_grounded ha hb hne hover
    · exact temporalOverlap_grounded hb ha hne.symm (by rwa [ListedWindow.overlaps_comm])
  · cases hrow

theorem entityRows_grounded {createdUtc : String} (hnamed : ∀ r ∈ reviews, Named c r)
    (h : row ∈ entityRows createdUtc (listTicketReviews reviews)) : Grounded env c reviews row := by
  obtain ⟨a, ha, b, hb, -, rfl⟩ := mem_entityRows h
  rw [listTicketReviews, mem_sortBy] at ha hb
  obtain ⟨kind, hkey⟩ := hnamed a ha
  obtain ⟨kind', hkey'⟩ := hnamed b hb
  refine ⟨⟨a.catalogEventId, _, rfl, hkey⟩, ?_, ?_⟩
  · rintro y hy
    obtain rfl := Option.some.inj hy
    exact ⟨b.catalogEventId, kind', rfl, hkey'⟩
  · exact .labels rfl rfl rfl (List.mem_map_of_mem ha) (List.mem_map_of_mem hb) rfl rfl

theorem insertRows_grounded (rows : List TicketRelationship) (st : List TicketRelationship × Nat)
    (h : ∀ e ∈ st.1, Grounded env c reviews e) (hrows : ∀ row ∈ rows, Grounded env c reviews row) :
    ∀ e ∈ (insertRows rows st).1, Grounded env c reviews e := by
  intro e he
  rcases mem_insertRows he with he | ⟨row, hrow, hsame⟩
  · exact h e he
  · rw [hsame]
    exact (hrows row hrow).stored _

theorem insertRelationship_grounded {edges : List TicketRelationship}
    (h : ∀ e ∈ edges, Grounded env c reviews e) (hrow : Grounded env c reviews row) :
    ∀ e ∈ (Inim.insertRelationship edges row).1, Grounded env c reviews e :=
  insertRows_grounded [row] (edges, 0) h fun r hr => by rwa [List.mem_singleton.1 hr]

/-! ### Phases and commands -/

theorem extractEvent_grounded {createdUtc : String} {event : CatalogEvent × Nat}
    (hevent : event ∈ Crawl.listEvents c) (hkind : event.1.sourceKind = Crawl.viewerKind)
    {f : RebuildPhase} (hf : f ∈ extractEvent env c Crawl.viewerKind createdUtc event)
    (st : RebuildState) (h : ∀ e ∈ st.edges, Grounded env c reviews e) :
    ∀ e ∈ (f st).1.edges, Grounded env c reviews e := by
  unfold extractEvent at hf
  split at hf
  · cases hf
  next latest snapshotId hlatest =>
  split at hf
  · rw [List.mem_singleton.1 hf]
    exact h
  next refs hrefs =>
  obtain ⟨reference, hr, rfl⟩ := List.mem_map.1 hf
  unfold extractReference
  split
  · exact h
  next hother =>
  split
  · exact h
  · refine insertRelationship_grounded h ?_
    exact extractedEdge_grounded hevent hkind hlatest hrefs hr hother

theorem rebuild_grounded {edges : List TicketRelationship} (now : String)
    (h : ∀ e ∈ edges, Grounded env c reviews e) :
    ∀ e ∈ (rebuild env c edges now).1.edges, Grounded env c reviews e := by
  have hrel := inTurn_rel (R := fun st st' : RebuildState =>
      (∀ e ∈ st.edges, Grounded env c reviews e) → ∀ e ∈ st'.edges, Grounded env c reviews e)
    [extractRelationshipsFromSnapshots env c Crawl.viewerKind now,
      resolveUnresolvedEdges c Crawl.viewerKind, deriveOverlaps env c Crawl.viewerKind now]
    (fun _ => id) (fun h h' hst => h' (h hst)) ?_ ⟨edges, 0, 0, 0⟩
  · exact hrel h
  simp only [List.forall_mem_cons]
  refine ⟨fun st => ?_, fun st hst e he => ?_, fun st hst => ?_, List.forall_mem_nil _⟩
  · refine inTurn_rel (R := fun st st' : RebuildState =>
      (∀ e ∈ st.edges, Grounded env c reviews e) → ∀ e ∈ st'.edges, Grounded env c reviews e) _
      (fun _ => id) (fun h h' hst => h' (h hst)) (fun f hf st => ?_) st
    obtain ⟨event, hevent, hkind, hf⟩ := mem_extraction.1 hf
    exact extractEvent_grounded hevent hkind hf st
  · obtain ⟨row, hrow, rfl⟩ := List.mem_map.1 he
    exact (hst row hrow).resolve _
  · rw [deriveOverlaps_eq]
    exact insertRows_grounded _ (st.edges, 0) hst fun row => overlapRows_grounded

end Grounded

/-- Reviews are of the tickets they name, and edges are grounded. -/
structure GraphInv (env : GraphEnv) (s : ReviewState) : Prop where
  named : ∀ r ∈ s.reviews, Named s.tables r
  grounded : ∀ e ∈ s.edges, Grounded env s.tables s.reviews e

section Commands
variable {env : GraphEnv} {s : ReviewState}

theorem reviewTarget_key {c : CatalogTables} {ext : String} {id : Nat} (h : reviewTarget c ext = some id) :
    ∃ kind, c.eventKeys[id]? = some (kind, ext) := by
  unfold reviewTarget at h
  rcases Option.or_eq_some_iff.1 h with h | ⟨-, h⟩ <;> exact ⟨_, eventByExternal_key h⟩

theorem importReviews_named (env : GraphEnv) (h : ∀ r ∈ s.reviews, Named s.tables r)
    (file : Except String Json) :
    ∀ r ∈ (importReviews env.toReviewEnv s file).1.reviews, Named s.tables r := by
  cases file with
  | error e => exact h
  | ok value =>
    refine untilError_invariant (P := fun st : List TicketReview × Nat =>
      ∀ r ∈ st.1, Named s.tables r) h fun st item st' hst hstep => ?_
    unfold insertReview at hstep
    split at hstep
    · cases hstep
    next ext hext =>
    split at hstep
    · cases hstep
      exact hst
    next id hid =>
    split at hstep
    · cases hstep
    · cases hstep
      refine List.forall_mem_append.2 ⟨hst, fun r hr => ?_⟩
      rw [List.mem_singleton.1 hr]
      exact reviewTarget_key hid

theorem importReviews_ids (env : GraphEnv) (s : ReviewState) (file : Except String Json) :
    s.reviews.map (·.catalogEventId) ⊆
      (importReviews env.toReviewEnv s file).1.reviews.map (·.catalogEventId) := by
  cases file with
  | error e => exact List.Subset.refl _
  | ok value =>
    refine untilError_invariant (P := fun st : List TicketReview × Nat =>
      s.reviews.map (·.catalogEventId) ⊆ st.1.map (·.catalogEventId)) (s := (s.reviews, 0))
      (List.Subset.refl _) fun st item st' hst hstep => ?_
    exact List.Subset.trans hst ((insertReview_grows hstep).map _).subset

theorem GraphInv.review (h : GraphInv env s) (op : ReviewOp) :
    GraphInv env (op.step env.toReviewEnv s) := by
  cases op with
  | sync f =>
    have hgrows := storePayload_grows env.toSyncEnv s.tables f
    refine ⟨fun r hr => ?_, fun e he => (h.grounded e he).mono hgrows (List.Subset.refl _)⟩
    obtain ⟨kind, hkey⟩ := h.named r hr
    exact ⟨kind, getElem?_of_initial hgrows.eventKeys hkey⟩
  | document => exact ⟨h.named, h.grounded⟩
  | importReviews file =>
    have hids := importReviews_ids env s file
    have hnamed := importReviews_named env h.named file
    obtain ⟨reviews, hrest⟩ := importReviews_rest env.toReviewEnv s file
    rw [ReviewOp.step, hrest]
    rw [hrest] at hids hnamed
    exact ⟨hnamed, fun e he => (h.grounded e he).mono (CatalogGrows.refl _) hids⟩
  | corpusReview call =>
    rw [ReviewOp.step, corpusReview_eq]
    refine ⟨fun r hr => ?_, fun e he => (h.grounded e he).mono (CatalogGrows.refl _) ?_⟩
    · rcases mem_of_mem_foldl_upsert hr with hr | hr
      · exact (callRows_checked hr).ticket
      · exact h.named r hr
    · exact map_subset_foldl_upsert _ _ _
  | importReviewedEdge call =>
    cases hrow : reviewedEdge env.toReviewEnv s call with
    | error e =>
      rw [ReviewOp.step, importReviewedEdge_error hrow]
      exact h
    | ok row =>
      rw [ReviewOp.step, importReviewedEdge_eq hrow]
      refine ⟨h.named, insertRelationship_grounded h.grounded ?_⟩
      obtain ⟨fromId, hvalid, hfrom, rfl⟩ := reviewedEdge_ok hrow
      exact ⟨⟨fromId, _, rfl, eventByExternal_key hfrom⟩, fun y hy => eventByExternal_target hy,
        .reviewed rfl hvalid⟩

theorem GraphInv.step (h : GraphInv env s) (op : GraphOp) : GraphInv env (op.step env s) := by
  cases op with
  | review op => exact h.review op
  | entityOverlaps createdUtc =>
    refine ⟨h.named, insertRows_grounded _ (s.edges, 0) h.grounded fun row => ?_⟩
    exact entityRows_grounded h.named
  | rebuild now => exact ⟨h.named, rebuild_grounded now h.grounded⟩

theorem graphInv_empty (env : GraphEnv) : GraphInv env .empty :=
  ⟨fun _ hr => absurd hr List.not_mem_nil, fun _ he => absurd he List.not_mem_nil⟩

end Commands

/-- **Behind every edge stands what its evidence says.** Over any syncs, reviews and rebuilds: an edge
goes out from an event of the catalog, its target is the event that it names, and it is supported. -/
theorem edges_grounded (env : GraphEnv) (ops : List GraphOp) :
    ∀ e ∈ (run (GraphOp.step env) .empty ops).edges,
      Grounded env (run (GraphOp.step env) .empty ops).tables
        (run (GraphOp.step env) .empty ops).reviews e :=
  (run_invariant (P := GraphInv env) (graphInv_empty env) (fun _ op h => h.step op) ops).grounded

namespace GraphSample

def isWord (c : Char) : Bool := c.isAlphanum || c = '_'

theorem isWord_alphanum (c : Char) (h : c.isAlphanum = true) : isWord c = true := by
  rw [isWord, h, Bool.true_or]

/-- The ASCII part of the class. -/
def words : WordClass := ⟨isWord, isWord_alphanum⟩

/-- The text of a ticket that names another one. -/
def env : GraphEnv where
  toReviewEnv := Twice.env
  words := words
  stringField _ field := if field = "description" then some "See INC0000003." else none

/-- A ticket is synced, and the relationships are rebuilt. -/
def synced : List GraphOp := [.review (.sync Twice.synced), .rebuild "2026-08-02T00:00:00Z"]

def edge : TicketRelationship where
  id := 1
  fromEventId := 1
  toEventId := none
  toExternalId := "INC0000003"
  relationshipKind := "References"
  evidenceKind := "ExplicitTicketText"
  sourceSnapshotId := some 1
  sourceDocumentId := none
  reviewedStatus := "Unreviewed"
  note := some "extracted from snapshot 1 at bytes 4..14"
  createdUtc := "2026-08-02T00:00:00Z"

theorem edge_mem : edge ∈ (run (GraphOp.step env) .empty synced).edges := by decide +kernel

theorem edges_grounded_extracted :
    edge ∈ (run (GraphOp.step env) .empty synced).edges ∧
      Grounded env (run (GraphOp.step env) .empty synced).tables
        (run (GraphOp.step env) .empty synced).reviews edge :=
  ⟨edge_mem, edges_grounded env synced edge edge_mem⟩

end GraphSample

end Inim.Review
