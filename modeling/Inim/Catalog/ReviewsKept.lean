import Inim.Catalog.Reviews
import Inim.Lib.Guards
/-!
# What review imports promise (`catalog/review.rs`, `catalog/corpus_import.rs:227-324`)

"Every interpretation field carries per-field provenance"; "reviewed roles are vocabulary-checked";
"reviewed edges are idempotent and never overwrite existing rows".

* **Bug**: `import_reviews` validates nothing and inserts without a conflict clause, so what it stores
  need not be a valid review, and the second import of a file fails.
* **Bug**: neither path is a transaction, so a file that fails leaves the reviews before the error.
* **Bug**: the key that keeps edges unique has the snapshot in it, so an edge that is imported again
  after a newer snapshot is there twice.

`reviewsKept_iff` is the exact condition, step by step of any run.
-/

namespace Inim.Review

open Inim.Lib

/-! ## The promise -/

/-- What `validate_review` checks, of a stored review. -/
structure Checked (s : ReviewState) (r : TicketReview) : Prop where
  ticket : ∃ kind, s.tables.eventKeys[r.catalogEventId]? = some (kind, r.externalId)
  roles : r.reviewedRoles ≠ [] ∧ ∀ role ∈ r.reviewedRoles, validRole role = true
  applicability : validApplicability r.analysisApplicability = true
  covered : ∀ field ∈ r.present, field ∈ r.provenance.map (·.field)
  cited : ∀ p ∈ r.provenance, p.citesDocument = true → p.sourceDocumentId.isSome
  document : ∀ p ∈ r.provenance, p.sourceDocumentId.isSome → r.sourceDocumentId.isSome
  resolved : ∀ d ∈ r.sourceDocumentId, s.hasDocument d = true

/-- What an edge is, whatever snapshot it was imported under. -/
def identity (e : TicketRelationship) : Int × String × String × String × Int :=
  (e.fromEventId, e.toExternalId, e.relationshipKind, e.evidenceKind, e.sourceDocumentId.getD 0)

/-- What succeeds succeeds again and then changes nothing, and what fails leaves nothing. -/
structure ImportLaw (import_ : ReviewState → ReviewState × Except String Nat) (s : ReviewState) :
    Prop where
  again : ∀ n, (import_ s).2 = .ok n → ∃ m, import_ (import_ s).1 = ((import_ s).1, .ok m)
  failed : ∀ e, (import_ s).2 = .error e → (import_ s).1 = s

/-- What is said of one import. -/
def OpLaw (env : ReviewEnv) (s : ReviewState) : ReviewOp → Prop
  | .sync _ | .document => True
  | .importReviews file => ImportLaw (importReviews env · file) s
  | .corpusReview call => ImportLaw (corpusReview env · call) s
  | .importReviewedEdge call =>
    (∀ row, reviewedEdge env s call = .ok row →
      ∃ e ∈ (importReviewedEdge env s call).1.edges, identity e = identity row) ∧
    ∀ e, (importReviewedEdge env s call).2 = .error e → (importReviewedEdge env s call).1 = s

/-- What is said of a step and of the state it leads to: no edge is lost, and none is there twice. -/
structure StepKept (env : ReviewEnv) (s : ReviewState) (op : ReviewOp) : Prop where
  law : OpLaw env s op
  checked : ∀ r ∈ (op.step env s).reviews, Checked (op.step env s) r
  once : ((op.step env s).edges.map identity).Nodup
  stay : s.edges <+: (op.step env s).edges

/-! ## The condition -/

/-- The ticket of the first entry that names one, if no entry before it lacks an identifier. -/
def firstTicket (c : CatalogTables) : List Json → Option Nat
  | [] => none
  | r :: rest =>
    match (r.get "external_id").bind Json.asStr with
    | none => none
    | some ext => (reviewTarget c ext).or (firstTicket c rest)

/-- The rows of a file up to its first error, and the error. -/
def callRows (env : ReviewEnv) (s : ReviewState) (call : ReviewCall) :
    List TicketReview × Option String :=
  match call.file with
  | .error e => ([], some e)
  | .ok parsed =>
    let reviewedAt := parsed.text "reviewed_at"
    if reviewedAt.isEmpty then ([], some "review file needs a reviewed_at timestamp")
    else okPrefix (entryRow env s call.sourceKind
      (((parsed.get "reviewer").bind Json.asStr).getD "analyst") reviewedAt call.aarDocumentId)
      (parsed.items "reviews")

/-- The plain import stops at a review that is there, or names no ticket; a file that fails has written
only what was there; an edge that is there is there under the snapshot of now. -/
def StepFair (env : ReviewEnv) (s : ReviewState) : ReviewOp → Prop
  | .sync _ | .document => True
  | .importReviews file => ∀ value id, file = .ok value →
    firstTicket s.tables (value.items "reviews") = some id → id ∈ s.reviews.map (·.catalogEventId)
  | .corpusReview call => (callRows env s call).2.isSome → ∀ r ∈ (callRows env s call).1,
    (s.reviews.find? fun a => decide (a.catalogEventId = r.catalogEventId)) =
      (callRows env s call).1.reverse.find? fun a => decide (a.catalogEventId = r.catalogEventId)
  | .importReviewedEdge call => ∀ row, reviewedEdge env s call = .ok row →
    ∀ e ∈ s.edges, identity e = identity row →
      e.sourceSnapshotId.getD 0 = row.sourceSnapshotId.getD 0

/-! ## What is validated -/

section Validate
variable {c : CatalogTables} {sourceKind : String} {review r : TicketReview} {aar : Option Int}

theorem eventByExternal_key {kind ext : String} {id : Nat} (h : eventByExternal c kind ext = some id) :
    c.eventKeys[id]? = some (kind, ext) := by
  obtain ⟨hlt, hkey, -⟩ := List.findIdx?_eq_some_iff_getElem.1 h
  rw [CatalogTables.eventKeys, List.getElem?_map, List.getElem?_eq_getElem hlt, Option.map_some,
    of_decide_eq_true hkey]

theorem resolveProvenance_ok {ext : String} {p q : ReviewProvenance}
    (h : resolveProvenance ext aar p = .ok q) :
    q.field = p.field ∧ (q.citesDocument = true → q.sourceDocumentId.isSome) := by
  unfold resolveProvenance at h
  split at h
  · split at h
    · cases h
      exact ⟨rfl, fun _ => rfl⟩
    · cases h
  · next hno =>
    cases h
    exact ⟨rfl, fun hyes => absurd hyes hno⟩

/-- What passes, and what becomes of it. -/
theorem validateReview_ok (h : validateReview c sourceKind review aar = .ok r) :
    ∃ id provenance, eventByExternal c sourceKind review.externalId = some id ∧
      (review.reviewedRoles ≠ [] ∧ ∀ role ∈ review.reviewedRoles, validRole role = true) ∧
      validApplicability review.analysisApplicability = true ∧
      (∀ field ∈ review.present, field ∈ review.provenance.map (·.field)) ∧
      List.Forall₂ (fun p q => resolveProvenance review.externalId aar p = .ok q) review.provenance
        provenance ∧
      r = { review with
        catalogEventId := id
        provenance := provenance
        sourceDocumentId := (provenance.findSome? (·.sourceDocumentId)).or review.sourceDocumentId
        reviewStatus := if review.reviewStatus.isEmpty then "Reviewed" else review.reviewStatus } := by
  unfold validateReview at h
  split at h
  · next id hid =>
    obtain ⟨hroles, h⟩ := guard_ok h
    obtain ⟨_, hvocabulary, h⟩ := bind_ok h
    obtain ⟨happlicability, h⟩ := guard_ok h
    obtain ⟨_, hcovered, h⟩ := bind_ok h
    obtain ⟨provenance, hprovenance, h⟩ := bind_ok h
    cases h
    refine ⟨id, provenance, hid, ⟨?_, fun role hrole => ?_⟩, ?_, fun field hfield => ?_,
      mapM_ok_forall₂ hprovenance, rfl⟩
    · simpa using hroles
    · have := forM_ok_iff.1 hvocabulary role hrole
      unfold checkRole at this
      split at this
      · assumption
      · cases this
    · simpa using happlicability
    · have := forM_ok_iff.1 hcovered field hfield
      unfold checkCovered at this
      split at this
      · next hc => simpa using hc
      · cases this
  · cases h

theorem entryRow_checked {env : ReviewEnv} {s : ReviewState} {reviewer reviewedAt : String} {item : Json}
    (h : entryRow env s sourceKind reviewer reviewedAt aar item = .ok r) : Checked s r := by
  unfold entryRow at h
  obtain ⟨entry, -, h⟩ := bind_ok h
  obtain ⟨review, hreview, h⟩ := bind_ok h
  obtain ⟨hdocument, h⟩ := guard_ok h
  cases h
  obtain ⟨id, provenance, hid, hroles, happlicability, hcovered, hprovenance, rfl⟩ :=
    validateReview_ok hreview
  have hfields : provenance.map (·.field) = entry.provenance.map (·.field) := by
    rw [← List.forall₂_eq_eq_eq, List.forall₂_map_left_iff, List.forall₂_map_right_iff]
    exact hprovenance.flip.imp fun q p hpq => (resolveProvenance_ok hpq).1
  refine ⟨⟨sourceKind, eventByExternal_key hid⟩, hroles, happlicability, ?_, fun p hp => ?_,
    fun p hp hsome => ?_, fun d hd => ?_⟩
  · rw [hfields]
    exact hcovered
  · obtain ⟨q, -, hpq⟩ := exists_of_forall₂ hprovenance hp
    exact (resolveProvenance_ok hpq).2
  · have hfound : (provenance.findSome? (·.sourceDocumentId)).isSome :=
      List.findSome?_isSome_iff.2 ⟨p, hp, hsome⟩
    obtain ⟨d, hd⟩ := Option.isSome_iff_exists.1 hfound
    rw [hd]
    rfl
  · have hno := hdocument
    rw [hd] at hno
    simpa using hno

end Validate

/-! ## The plain import -/

section Plain
variable (env : ReviewEnv) {c : CatalogTables} (reviewer reviewedAt : String) {items : List Json}
  {st : List TicketReview × Nat} {id : Nat}

variable {env reviewer reviewedAt} in
theorem insertReview_grows {st' : List TicketReview × Nat} {r : Json}
    (h : insertReview env c reviewer reviewedAt st r = .ok st') : st.1 <+: st'.1 := by
  unfold insertReview at h
  split at h
  · cases h
  · split at h
    · cases h
      exact List.prefix_rfl
    · split at h
      · cases h
      · cases h
        exact List.prefix_append ..

/-- Without a ticket, or at one with a review, nothing is written. -/
theorem insertReviews_same
    (h : ∀ id, firstTicket c items = some id → id ∈ st.1.map (·.catalogEventId)) :
    (untilError (insertReview env c reviewer reviewedAt) st items).1 = st := by
  induction items with
  | nil => rfl
  | cons r rest ih =>
    rw [untilError, insertReview]
    rw [firstTicket] at h
    cases hext : (r.get "external_id").bind Json.asStr with
    | none => rfl
    | some ext =>
      simp only [hext] at h
      dsimp only
      cases hid : reviewTarget c ext with
      | none =>
        rw [hid] at h
        exact ih h
      | some id =>
        have hmem := h id (by rw [hid]; rfl)
        have hany : st.1.any (fun a => decide (a.catalogEventId = id)) = true := by
          simpa using hmem
        dsimp only
        rw [hany, if_pos rfl]

theorem insertReviews_error (hfirst : firstTicket c items = some id)
    (hid : id ∈ st.1.map (·.catalogEventId)) :
    (untilError (insertReview env c reviewer reviewedAt) st items).2.isSome := by
  induction items with
  | nil => cases hfirst
  | cons r rest ih =>
    rw [untilError, insertReview]
    rw [firstTicket] at hfirst
    cases hext : (r.get "external_id").bind Json.asStr with
    | none => rfl
    | some ext =>
      simp only [hext] at hfirst
      dsimp only
      cases hid' : reviewTarget c ext with
      | none =>
        rw [hid'] at hfirst
        exact ih hfirst
      | some id' =>
        rw [hid'] at hfirst
        obtain rfl := Option.some.inj hfirst
        have hany : st.1.any (fun a => decide (a.catalogEventId = id')) = true := by
          simpa using hid
        dsimp only
        rw [hany, if_pos rfl]
        rfl

/-- The first ticket gets a review, if it has none. -/
theorem insertReviews_first (hfirst : firstTicket c items = some id)
    (hid : id ∉ st.1.map (·.catalogEventId)) : ∃ row : TicketReview, row.catalogEventId = id ∧
      st.1 ++ [row] <+: (untilError (insertReview env c reviewer reviewedAt) st items).1.1 := by
  induction items with
  | nil => cases hfirst
  | cons r rest ih =>
    rw [untilError, insertReview]
    rw [firstTicket] at hfirst
    cases hext : (r.get "external_id").bind Json.asStr with
    | none =>
      simp only [hext] at hfirst
      cases hfirst
    | some ext =>
      simp only [hext] at hfirst
      dsimp only
      cases hid' : reviewTarget c ext with
      | none =>
        rw [hid'] at hfirst
        exact ih hfirst
      | some id' =>
        rw [hid'] at hfirst
        obtain rfl := Option.some.inj hfirst
        have hany : st.1.any (fun a => decide (a.catalogEventId = id')) = false := by
          simpa using hid
        dsimp only
        rw [hany, if_neg Bool.false_ne_true]
        -- later entries only add to it
        let row := reviewRow env reviewer reviewedAt id' ext r
        exact ⟨row, rfl, untilError_invariant (P := fun s : List TicketReview × Nat =>
          st.1 ++ [row] <+: s.1) List.prefix_rfl fun s r s' hs hstep =>
            hs.trans (insertReview_grows hstep)⟩

theorem insertReviews_nodup (h : (st.1.map (·.catalogEventId)).Nodup) :
    ((untilError (insertReview env c reviewer reviewedAt) st items).1.1.map
      (·.catalogEventId)).Nodup := by
  refine untilError_invariant (P := fun s : List TicketReview × Nat =>
    (s.1.map (·.catalogEventId)).Nodup) h fun s r s' hs hstep => ?_
  unfold insertReview at hstep
  split at hstep
  · cases hstep
  · split at hstep
    · cases hstep
      exact hs
    · next id _ =>
      split at hstep
      · cases hstep
      · next hno =>
        cases hstep
        rw [List.map_append, List.nodup_append]
        refine ⟨hs, List.nodup_singleton _, ?_⟩
        rintro _ hmem _ hnew rfl
        rw [List.map_singleton, List.mem_singleton] at hnew
        subst hnew
        exact hno (by simpa using hmem)

variable {s : ReviewState} {file : Except String Json} {value : Json}

theorem importReviews_rest (s : ReviewState) (file : Except String Json) :
    ∃ reviews, (importReviews env s file).1 = { s with reviews := reviews } := by
  cases file with
  | error e => exact ⟨s.reviews, rfl⟩
  | ok value => exact ⟨_, rfl⟩

theorem importReviews_same
    (h : ∀ value id, file = .ok value → firstTicket s.tables (value.items "reviews") = some id →
      id ∈ s.reviews.map (·.catalogEventId)) : (importReviews env s file).1 = s := by
  cases file with
  | error e => rfl
  | ok value =>
    rw [importReviews]
    dsimp only
    rw [insertReviews_same env _ _ fun id hid => h value id rfl hid]

theorem importReviews_error (hfirst : firstTicket s.tables (value.items "reviews") = some id)
    (hid : id ∈ s.reviews.map (·.catalogEventId)) :
    ∃ e, (importReviews env s (.ok value)).2 = .error e := by
  have herror : (untilError (insertReview env s.tables
      (((value.get "reviewer").bind Json.asStr).getD "local-review")
      (((value.get "reviewed_at").bind Json.asStr).getD "1970-01-01T00:00:00Z")) (s.reviews, 0)
      (value.items "reviews")).2.isSome := insertReviews_error env _ _ hfirst hid
  obtain ⟨e, he⟩ := Option.isSome_iff_exists.1 herror
  refine ⟨e, ?_⟩
  rw [importReviews]
  dsimp only
  rw [he]
  rfl

theorem importReviews_first (hfirst : firstTicket s.tables (value.items "reviews") = some id)
    (hid : id ∉ s.reviews.map (·.catalogEventId)) : ∃ row : TicketReview, row.catalogEventId = id ∧
      s.reviews ++ [row] <+: (importReviews env s (.ok value)).1.reviews := by
  have hid' : id ∉ (s.reviews, 0).1.map (·.catalogEventId) := hid
  exact insertReviews_first env _ _ hfirst hid'

variable {env} in
/-- The plain import keeps its promise only where it writes nothing. -/
theorem importLaw_importReviews_iff : ImportLaw (importReviews env · file) s ↔
    ∀ value id, file = .ok value → firstTicket s.tables (value.items "reviews") = some id →
      id ∈ s.reviews.map (·.catalogEventId) := by
  constructor
  · rintro hlaw value id rfl hfirst
    by_contra hid
    obtain ⟨row, rfl, hrow⟩ := importReviews_first env hfirst hid
    cases hresult : (importReviews env s (.ok value)).2 with
    | error e =>
      -- the row is left behind
      rw [hlaw.failed e hresult] at hrow
      simpa using hrow.length_le
    | ok n =>
      -- the row is in the way of the second import
      obtain ⟨m, hm⟩ := hlaw.again n hresult
      obtain ⟨reviews, hrest⟩ := importReviews_rest env s (.ok value)
      have hmem : row.catalogEventId ∈ (importReviews env s (.ok value)).1.reviews.map
          (·.catalogEventId) := List.mem_map_of_mem (hrow.subset (by simp))
      have hfirst' : firstTicket (importReviews env s (.ok value)).1.tables (value.items "reviews") =
          some row.catalogEventId := by rw [hrest]; exact hfirst
      obtain ⟨e, he⟩ := importReviews_error env hfirst' hmem
      rw [hm] at he
      cases he
  · intro h
    have hsame := importReviews_same env h
    refine ⟨fun n hn => ⟨n, ?_⟩, fun _ _ => hsame⟩
    rw [hsame]
    exact Prod.ext hsame hn

end Plain

/-! ## The import of validated reviews -/

section Validated
variable {env : ReviewEnv} {s : ReviewState} {call : ReviewCall}

/-- The table after the rows. -/
def upsertReviews (reviews rows : List TicketReview) : List TicketReview :=
  rows.foldl (fun t r => upsert TicketReview.catalogEventId r t) reviews

theorem foldl_upsertTicketReview (rows : List TicketReview) (st : List TicketReview × Nat) :
    rows.foldl upsertTicketReview st = (upsertReviews st.1 rows, st.2 + rows.length) := by
  induction rows generalizing st with
  | nil => rfl
  | cons r rows ih =>
    rw [List.foldl_cons, ih, List.length_cons, upsertTicketReview, Nat.add_assoc, Nat.add_comm 1]
    rfl

theorem corpusReview_eq (env : ReviewEnv) (s : ReviewState) (call : ReviewCall) :
    corpusReview env s call =
      ({ s with reviews := upsertReviews s.reviews (callRows env s call).1 },
        loopResult (callRows env s call).2 (callRows env s call).1.length) := by
  unfold corpusReview callRows
  cases call.file with
  | error e => rfl
  | ok parsed =>
    dsimp only
    split
    · rfl
    · rw [untilError_map, foldl_upsertTicketReview]
      dsimp only
      rw [Nat.zero_add]

/-- The rows of a file do not depend on the reviews. -/
theorem callRows_reviews (reviews : List TicketReview) :
    callRows env { s with reviews := reviews } call = callRows env s call := rfl

theorem callRows_checked {r : TicketReview} (h : r ∈ (callRows env s call).1) : Checked s r := by
  unfold callRows at h
  split at h
  · cases h
  · dsimp only at h
    split at h
    · cases h
    · obtain ⟨item, -, hitem⟩ := mem_okPrefix h
      exact entryRow_checked hitem

theorem importLaw_corpusReview_iff (hunique : (s.reviews.map (·.catalogEventId)).Nodup) :
    ImportLaw (corpusReview env · call) s ↔
      ((callRows env s call).2.isSome → ∀ r ∈ (callRows env s call).1,
        (s.reviews.find? fun a => decide (a.catalogEventId = r.catalogEventId)) =
          (callRows env s call).1.reverse.find?
            fun a => decide (a.catalogEventId = r.catalogEventId)) := by
  rw [← foldl_upsert_eq_self_iff hunique]
  constructor
  · intro hlaw hsome
    obtain ⟨e, he⟩ := Option.isSome_iff_exists.1 hsome
    have hsame := hlaw.failed e (by rw [corpusReview_eq, he]; rfl)
    rw [corpusReview_eq] at hsame
    exact congrArg ReviewState.reviews hsame
  · intro hsame
    refine ⟨fun n hn => ?_, fun e he => ?_⟩
    · rw [corpusReview_eq] at hn ⊢
      refine ⟨n, ?_⟩
      rw [corpusReview_eq]
      dsimp only at hn ⊢
      rw [callRows_reviews (upsertReviews s.reviews (callRows env s call).1), hn, upsertReviews,
        upsertReviews, foldl_upsert_again hunique]
    · rw [corpusReview_eq] at he ⊢
      cases hrows : (callRows env s call).2 with
      | none =>
        rw [hrows] at he
        cases he
      | some e' =>
        dsimp only
        rw [upsertReviews, hsame (by rw [hrows]; rfl)]

end Validated

/-! ## Edges -/

section Edges
variable {env : ReviewEnv} {s : ReviewState} {call : EdgeCall} {row : TicketRelationship}

theorem dedupKey_eq_iff {e e' : TicketRelationship} : e.dedupKey = e'.dedupKey ↔
    identity e = identity e' ∧ e.sourceSnapshotId.getD 0 = e'.sourceSnapshotId.getD 0 := by
  simp only [TicketRelationship.dedupKey, identity, Prod.mk.injEq]
  tauto

theorem insertRelationship_initial (edges : List TicketRelationship) (row : TicketRelationship) :
    edges <+: (insertRelationship edges row).1 := by
  unfold insertRelationship
  split
  · exact List.prefix_rfl
  · exact List.prefix_append ..

theorem insertRelationship_mem (edges : List TicketRelationship) (row : TicketRelationship) :
    ∃ e ∈ (insertRelationship edges row).1, identity e = identity row := by
  unfold insertRelationship
  split
  · next hany =>
    obtain ⟨e, he, hkey⟩ := List.any_eq_true.1 hany
    exact ⟨e, he, (dedupKey_eq_iff.1 (of_decide_eq_true hkey)).1⟩
  · exact ⟨_, List.mem_append_right _ (List.mem_singleton_self _), rfl⟩

/-- An insertion keeps edges unique exactly if the edge is there under no other snapshot. -/
theorem insertRelationship_nodup_iff (row : TicketRelationship) {edges : List TicketRelationship}
    (h : (edges.map identity).Nodup) :
    ((insertRelationship edges row).1.map identity).Nodup ↔ ∀ e ∈ edges, identity e = identity row →
      e.sourceSnapshotId.getD 0 = row.sourceSnapshotId.getD 0 := by
  unfold insertRelationship
  split
  · next hany =>
    obtain ⟨e', he', hkey⟩ := List.any_eq_true.1 hany
    obtain ⟨hidentity, hsnapshot⟩ := dedupKey_eq_iff.1 (of_decide_eq_true hkey)
    refine iff_of_true h fun e he hsame => ?_
    -- it is the row that is there
    rw [List.inj_on_of_nodup_map h he he' (hsame.trans hidentity.symm), hsnapshot]
  · next hnone =>
    rw [List.map_append, List.nodup_append, List.map_singleton]
    constructor
    · rintro ⟨-, -, hnew⟩ e he hsame
      exact absurd hsame (hnew _ (List.mem_map_of_mem he) _ (List.mem_singleton_self _))
    · intro hfair
      refine ⟨h, List.nodup_singleton _, ?_⟩
      rintro _ hmem _ hnew rfl
      obtain ⟨e, he, hsame⟩ := List.mem_map.1 hmem
      rw [List.mem_singleton.1 hnew] at hsame
      refine hnone (List.any_eq_true.2 ⟨e, he, decide_eq_true (dedupKey_eq_iff.2 ⟨hsame, ?_⟩)⟩)
      exact hfair e he hsame

theorem importReviewedEdge_eq (h : reviewedEdge env s call = .ok row) : importReviewedEdge env s call =
    ({ s with edges := (insertRelationship s.edges row).1 },
      .ok (insertRelationship s.edges row).2) := by
  rw [importReviewedEdge, h]

theorem importReviewedEdge_error {e : String} (h : reviewedEdge env s call = .error e) :
    importReviewedEdge env s call = (s, .error e) := by
  rw [importReviewedEdge, h]

theorem opLaw_importReviewedEdge : OpLaw env s (.importReviewedEdge call) := by
  cases hrow : reviewedEdge env s call with
  | error e => exact ⟨fun row h => by simp [hrow] at h, fun _ _ => by rw [importReviewedEdge_error hrow]⟩
  | ok row =>
    refine ⟨fun row' h => ?_, fun e he => ?_⟩
    · rw [importReviewedEdge_eq h]
      exact insertRelationship_mem ..
    · rw [importReviewedEdge_eq hrow] at he
      cases he

end Edges

/-! ## Runs -/

structure Inv (s : ReviewState) : Prop where
  unique : (s.reviews.map (·.catalogEventId)).Nodup
  checked : ∀ r ∈ s.reviews, Checked s r
  once : (s.edges.map identity).Nodup

section Runs
variable {env : ReviewEnv} {s s' : ReviewState} {op : ReviewOp} {r : TicketReview}

/-- Events and documents stay. -/
theorem Checked.later (h : Checked s r) (hkeys : s.tables.eventKeys <+: s'.tables.eventKeys)
    (hdocuments : s.documents ≤ s'.documents) : Checked s' r := by
  obtain ⟨kind, hkind⟩ := h.ticket
  refine ⟨⟨kind, getElem?_of_initial hkeys hkind⟩, h.roles, h.applicability, h.covered, h.cited,
    h.document, fun d hd => ?_⟩
  have hbound := h.resolved d hd
  simp only [ReviewState.hasDocument, Bool.and_eq_true, decide_eq_true_eq] at hbound ⊢
  omega

theorem step_unique (h : (s.reviews.map (·.catalogEventId)).Nodup) (op : ReviewOp) :
    ((op.step env s).reviews.map (·.catalogEventId)).Nodup := by
  cases op with
  | sync f => exact h
  | document => exact h
  | importReviews file =>
    cases file with
    | error e => exact h
    | ok value => exact insertReviews_nodup env _ _ h
  | corpusReview call =>
    rw [ReviewOp.step, corpusReview_eq]
    exact foldl_upsert_nodup h
  | importReviewedEdge call =>
    cases hrow : reviewedEdge env s call with
    | error e => rwa [ReviewOp.step, importReviewedEdge_error hrow]
    | ok row => rwa [ReviewOp.step, importReviewedEdge_eq hrow]

/-- A step that is fair keeps what is said, and one that is not does not. -/
theorem stepKept_iff (h : Inv s) : StepKept env s op ↔ StepFair env s op := by
  cases op with
  | sync f =>
    refine iff_of_true ⟨trivial, fun r hr => (h.checked r hr).later ?_ le_rfl, h.once,
      List.prefix_rfl⟩ trivial
    rw [ReviewOp.step, storePayload_keys]
    exact insertUnique_initial ..
  | document =>
    exact iff_of_true ⟨trivial, fun r hr => (h.checked r hr).later List.prefix_rfl (Nat.le_succ _),
      h.once, List.prefix_rfl⟩ trivial
  | importReviews file =>
    constructor
    · exact fun hkept => importLaw_importReviews_iff.1 hkept.law
    · intro hfair
      have hsame : (importReviews env s file).1 = s := importReviews_same env hfair
      refine ⟨importLaw_importReviews_iff.2 hfair, ?_, ?_, ?_⟩
      all_goals rw [ReviewOp.step, hsame]
      · exact h.checked
      · exact h.once
  | corpusReview call =>
    constructor
    · exact fun hkept => (importLaw_corpusReview_iff h.unique).1 hkept.law
    · intro hfair
      refine ⟨(importLaw_corpusReview_iff h.unique).2 hfair, ?_, ?_, ?_⟩
      all_goals rw [ReviewOp.step, corpusReview_eq]
      · intro r hr
        have hchecked : Checked s r := by
          rcases mem_of_mem_foldl_upsert hr with hr | hr
          · exact callRows_checked hr
          · exact h.checked r hr
        exact hchecked.later List.prefix_rfl le_rfl
      · exact h.once
  | importReviewedEdge call =>
    cases hrow : reviewedEdge env s call with
    | error e =>
      refine iff_of_true ⟨opLaw_importReviewedEdge, ?_, ?_, ?_⟩ fun row hrow' => ?_
      · rw [ReviewOp.step, importReviewedEdge_error hrow]
        exact h.checked
      · rw [ReviewOp.step, importReviewedEdge_error hrow]
        exact h.once
      · rw [ReviewOp.step, importReviewedEdge_error hrow]
      · rw [hrow] at hrow'
        cases hrow'
    | ok row =>
      have honce := insertRelationship_nodup_iff row h.once
      constructor
      · intro hkept row' hrow'
        rw [hrow] at hrow'
        obtain rfl := Except.ok.inj hrow'
        have hnodup := hkept.once
        rw [ReviewOp.step, importReviewedEdge_eq hrow] at hnodup
        exact honce.1 hnodup
      · intro hfair
        refine ⟨opLaw_importReviewedEdge, ?_, ?_, ?_⟩
        all_goals rw [ReviewOp.step, importReviewedEdge_eq hrow]
        · exact fun r hr => (h.checked r hr).later List.prefix_rfl le_rfl
        · exact honce.2 (hfair row hrow)
        · exact insertRelationship_initial ..

theorem Inv.step (h : Inv s) (hkept : StepKept env s op) : Inv (op.step env s) :=
  ⟨step_unique h.unique op, hkept.checked, hkept.once⟩

theorem inv_empty : Inv .empty := ⟨List.nodup_nil, by simp [ReviewState.empty], List.nodup_nil⟩

end Runs

/-- A run keeps what is said of review imports at each of its steps exactly if each is fair. -/
theorem reviewsKept_iff (env : ReviewEnv) (ops : List ReviewOp) :
    Along (ReviewOp.step env) (StepKept env) .empty ops ↔
      Along (ReviewOp.step env) (StepFair env) .empty ops :=
  along_iff inv_empty (fun _ _ h hkept => h.step hkept) fun _ _ h => stepKept_iff h

/-! ## A review twice -/

namespace Twice

def env : ReviewEnv where
  sha256 := id
  normalizedId := fun _ => some "INC0040101"
  fromValue := fun _ => .error "missing field external_id"
  provenanceOf := fun _ => []
  listSnapshots := fun c id =>
    (snapshotsOf c id).insertionSort fun a b => b.fetchedAt ≤ a.fetchedAt
  listed := fun c id => listing_insertionSort EventSnapshot.fetchedAt (snapshotsOf c id)

def synced : Fetched where
  item := ⟨"grnoc-public-task-viewer", "INC0040101", "2026-08-01T00:00:00Z", "", "raw", "normalized"⟩
  at_ := "2026-08-01T00:00:00Z"

/-- One review, with a role of no vocabulary. -/
def reviews : Json :=
  .obj [("reviews", .arr [.obj [("external_id", .str "INC0040101"), ("roles", .arr [.str "Bystander"])]])]

end Twice

open Twice in
theorem not_reviewsKept : ¬ ∀ (env : ReviewEnv) (ops : List ReviewOp),
    Along (ReviewOp.step env) (StepKept env) .empty ops := by
  intro h
  obtain ⟨-, hkept, -⟩ := h env [.sync synced, .importReviews (.ok reviews)]
  have hid := importLaw_importReviews_iff.1 hkept.law reviews 0 rfl (by decide +kernel)
  cases hid

end Inim.Review
