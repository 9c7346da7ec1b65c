import Inim.Catalog.LatestView
import Inim.Catalog.Relationships
import Inim.Catalog.Runs
import Inim.Lib.Upserts
/-!
# Reviewed interpretations (`catalog/review.rs`, `corpus_import.rs:227-324`, `store.rs:1184-1228`)

| here | there |
| --- | --- |
| `TicketReview`, `ReviewProvenance`, `ReviewFileEntry` | `domain.rs:595-635`, `review.rs:40-76`; a row as `row_to_ticket_review` reads it |
| `validateReview`, `reviewedEdge`, `importReviewedEdge` | `review.rs:125-296` |
| `importReviews` | `corpus_import.rs:227-324` |
| `upsertTicketReview`, `insertRelationship` | `store.rs:1184`, `store.rs:897` |
| `corpusReview` | the loop over the reviews in `main.rs:3343-3369` |

serde's readers are parameters. The case study's document is resolved by the caller. Ids of rows count
from one; the number of reference documents is all that is kept of their table. A database that fails
on its own is outside.
-/

namespace Inim.Review

open Inim.Lib

/-! ## Data -/

structure ReviewProvenance where
  field : String
  source : String
  detail : String
  sourceDocumentId : Option Int
deriving DecidableEq, Repr

structure TicketReview where
  catalogEventId : Nat
  externalId : String
  reviewedRoles : List String
  entityLabels : List String
  linkedChangeIds : List String
  analysisApplicability : String
  applicabilityRationale : String
  relationshipToCaseStudy : String
  reviewStatus : String
  reviewer : String
  reviewedAt : String
  provenance : List ReviewProvenance
  sourceDocumentId : Option Int
deriving DecidableEq, Repr

structure ReviewFileEntry where
  externalId : String
  roles : List String
  entityLabels : List String
  linkedChangeIds : List String
  analysisApplicability : String
  applicabilityRationale : String
  relationshipToCaseStudy : String
  provenance : List ReviewProvenance
deriving DecidableEq, Repr

structure ReviewedEdgeInput where
  from_ : String
  to_ : String
  kind : String
  evidence : String
  note : Option String
  documentCited : Bool
deriving DecidableEq, Repr

structure ReviewState where
  tables : CatalogTables
  /-- How many reference documents there are. -/
  documents : Nat
  reviews : List TicketReview
  edges : List TicketRelationship

def ReviewState.empty : ReviewState := ⟨.empty, 0, [], []⟩

structure ReviewEnv extends SyncEnv where
  /-- `serde_json::from_value`. -/
  fromValue : Json → Except String ReviewFileEntry
  /-- The provenance column, `unwrap_or_default`. -/
  provenanceOf : Json → List ReviewProvenance
  listSnapshots : CatalogTables → Nat → List EventSnapshot
  listed : ∀ c id, IsSnapshotListing c id (listSnapshots c id)

/-- The id SQLite gives the row at a position. -/
def rowId (i : Nat) : Int := i + 1

/-- The foreign key of a document. -/
def ReviewState.hasDocument (s : ReviewState) (id : Int) : Bool := 1 ≤ id && id ≤ s.documents

def foreignKeyFailed : String := "catalog write failed: FOREIGN KEY constraint failed"

/-- `get_event_by_external`. -/
def eventByExternal (c : CatalogTables) (sourceKind externalId : String) : Option Nat :=
  c.events.findIdx? fun e => decide (e.key = (sourceKind, externalId))

/-! ## Validation -/

def validRole (role : String) : Bool :=
  ["ChangeWindow", "PrimaryIncident", "ParticipantImpact", "AlarmOrTelemetry", "RollbackOrRecovery",
    "OperationalTask", "Other"].contains role

def validApplicability (app : String) : Bool :=
  ["PotentiallyVisibleInPublicBgp", "NotApplicableToPublicBgp",
    "ApplicableTargetNotYetMapped"].contains app

def validReviewedEvidence (kind : String) : Bool :=
  ["ExplicitTicketText", "ReferenceDocument", "AnalystReviewed"].contains kind

def ReviewFileEntry.intoReview (e : ReviewFileEntry) (reviewer reviewedAt : String) : TicketReview where
  catalogEventId := 0
  externalId := e.externalId
  reviewedRoles := e.roles
  entityLabels := e.entityLabels
  linkedChangeIds := e.linkedChangeIds
  analysisApplicability := e.analysisApplicability
  applicabilityRationale := e.applicabilityRationale
  relationshipToCaseStudy := e.relationshipToCaseStudy
  reviewStatus := "Reviewed"
  reviewer := reviewer
  reviewedAt := reviewedAt
  provenance := e.provenance
  sourceDocumentId := none

/-- The fields that are not empty. -/
def TicketReview.present (r : TicketReview) : List String :=
  ([("roles", !r.reviewedRoles.isEmpty), ("entity_labels", !r.entityLabels.isEmpty),
    ("linked_change_ids", !r.linkedChangeIds.isEmpty),
    ("applicability", !r.analysisApplicability.isEmpty),
    ("relationship_to_case_study", !r.relationshipToCaseStudy.isEmpty)].filter (·.2)).map (·.1)

def ReviewProvenance.citesDocument (p : ReviewProvenance) : Bool :=
  p.source.startsWith "ReferenceDocument"

/-- An entry without its own document cites that of the case study. -/
def resolveProvenance (externalId : String) (aarDocumentId : Option Int) (p : ReviewProvenance) :
    Except String ReviewProvenance :=
  if p.citesDocument then
    match p.sourceDocumentId.or aarDocumentId with
    | some d => .ok { p with sourceDocumentId := some d }
    | none => .error (externalId ++ ": ReferenceDocument provenance for field '" ++ p.field ++
        "' requires a cited document")
  else .ok p

def checkRole (externalId role : String) : Except String Unit :=
  if validRole role then .ok ()
  else .error (externalId ++ ": unknown reviewed role '" ++ role ++
    "' (vocabulary: [\"ChangeWindow\", \"PrimaryIncident\", \"ParticipantImpact\", " ++
    "\"AlarmOrTelemetry\", \"RollbackOrRecovery\", \"OperationalTask\", \"Other\"])")

def checkCovered (externalId : String) (covered : List String) (field : String) : Except String Unit :=
  if covered.contains field then .ok ()
  else .error (externalId ++ ": field '" ++ field ++ "' has no provenance entry")

def validateReview (c : CatalogTables) (sourceKind : String) (review : TicketReview)
    (aarDocumentId : Option Int) : Except String TicketReview := do
  let some eventId := eventByExternal c sourceKind review.externalId
    | throw ("review target " ++ review.externalId ++ " is not a catalog event")
  if review.reviewedRoles.isEmpty then
    throw (review.externalId ++ ": at least one reviewed role is required")
  review.reviewedRoles.forM (checkRole review.externalId)
  if !validApplicability review.analysisApplicability then
    throw (review.externalId ++ ": unknown applicability '" ++ review.analysisApplicability ++ "'")
  review.present.forM (checkCovered review.externalId (review.provenance.map (·.field)))
  let provenance ← review.provenance.mapM (resolveProvenance review.externalId aarDocumentId)
  return { review with
    catalogEventId := eventId
    provenance := provenance
    sourceDocumentId := (provenance.findSome? (·.sourceDocumentId)).or review.sourceDocumentId
    reviewStatus := if review.reviewStatus.isEmpty then "Reviewed" else review.reviewStatus }

/-! ## The first path: `import_reviews` -/

/-- A column of texts, `unwrap_or_default`. -/
def strings (j : Json) : List String := (j.asArray.bind (·.mapM Json.asStr)).getD []

/-- The ticket of a review: of the corpus, or else of a reviewed manifest. -/
def reviewTarget (c : CatalogTables) (externalId : String) : Option Nat :=
  (eventByExternal c "grnoc-public-task-viewer" externalId).or
    (eventByExternal c "local-repository" externalId)

def reviewRow (env : ReviewEnv) (reviewer reviewedAt : String) (eventId : Nat) (externalId : String)
    (r : Json) : TicketReview where
  catalogEventId := eventId
  externalId := externalId
  reviewedRoles := strings ((r.get "roles").getD (.arr []))
  entityLabels := strings ((r.get "entity_labels").getD (.arr []))
  linkedChangeIds := strings ((r.get "linked_change_ids").getD (.arr []))
  analysisApplicability :=
    ((r.get "analysis_applicability").bind Json.asStr).getD "NotApplicableToPublicBgp"
  applicabilityRationale := r.text "applicability_rationale"
  relationshipToCaseStudy := ((r.get "relationship_to_case_study").bind Json.asStr).getD "Related"
  reviewStatus := "Reviewed"
  reviewer := reviewer
  reviewedAt := reviewedAt
  provenance := env.provenanceOf ((r.get "provenance").getD (.arr []))
  sourceDocumentId := none

/-- One entry: a plain `INSERT`. -/
def insertReview (env : ReviewEnv) (c : CatalogTables) (reviewer reviewedAt : String)
    (st : List TicketReview × Nat) (r : Json) : Except String (List TicketReview × Nat) :=
  match (r.get "external_id").bind Json.asStr with
  | none => .error "review missing external_id"
  | some ext =>
    match reviewTarget c ext with
    | none => .ok st
    | some eventId =>
      if st.1.any (·.catalogEventId = eventId) then
        .error ("cannot insert ticket review for " ++ ext ++
          ": UNIQUE constraint failed: ticket_reviews.catalog_event_id")
      else .ok (st.1 ++ [reviewRow env reviewer reviewedAt eventId ext r], st.2 + 1)

/-- What a loop over the reviews returns: its error, or how many it stored. -/
def loopResult (error : Option String) (count : Nat) : Except String Nat :=
  match error with
  | some e => .error e
  | none => .ok count

/-- The file as it was read and parsed. There is no transaction. -/
def importReviews (env : ReviewEnv) (s : ReviewState) (file : Except String Json) :
    ReviewState × Except String Nat :=
  match file with
  | .error e => (s, .error e)
  | .ok value =>
    let reviewer := ((value.get "reviewer").bind Json.asStr).getD "local-review"
    let reviewedAt := ((value.get "reviewed_at").bind Json.asStr).getD "1970-01-01T00:00:00Z"
    let r := untilError (insertReview env s.tables reviewer reviewedAt) (s.reviews, 0)
      (value.items "reviews")
    ({ s with reviews := r.1.1 }, loopResult r.2 r.1.2)

/-! ## The second path: `validate_review`, then `upsert_ticket_review` -/

/-- The row an entry is stored as. -/
def entryRow (env : ReviewEnv) (s : ReviewState) (sourceKind reviewer reviewedAt : String)
    (aarDocumentId : Option Int) (item : Json) : Except String TicketReview := do
  let entry ← (env.fromValue item).mapError ("invalid review entry: " ++ ·)
  let review ← validateReview s.tables sourceKind (entry.intoReview reviewer reviewedAt) aarDocumentId
  if review.sourceDocumentId.any (!s.hasDocument ·) then throw foreignKeyFailed
  return review

def upsertTicketReview (st : List TicketReview × Nat) (review : TicketReview) :
    List TicketReview × Nat :=
  (upsert TicketReview.catalogEventId review st.1, st.2 + 1)

/-- A file that was parsed, with the document of its case study. -/
structure ReviewCall where
  file : Except String Json
  sourceKind : String
  aarDocumentId : Option Int

def corpusReview (env : ReviewEnv) (s : ReviewState) (call : ReviewCall) :
    ReviewState × Except String Nat :=
  match call.file with
  | .error e => (s, .error e)
  | .ok parsed =>
    let reviewer := ((parsed.get "reviewer").bind Json.asStr).getD "analyst"
    let reviewedAt := parsed.text "reviewed_at"
    if reviewedAt.isEmpty then (s, .error "review file needs a reviewed_at timestamp")
    else
      let r := untilError (fun st item =>
        (entryRow env s call.sourceKind reviewer reviewedAt call.aarDocumentId item).map
          (upsertTicketReview st)) (s.reviews, 0) (parsed.items "reviews")
      ({ s with reviews := r.1.1 }, loopResult r.2 r.1.2)

/-! ## Reviewed edges -/

structure EdgeCall where
  sourceKind : String
  edge : ReviewedEdgeInput
  aarDocumentId : Option Int
  createdUtc : String

/-- The id of the first of `list_snapshots`. -/
def latestSnapshotId (env : ReviewEnv) (c : CatalogTables) (eventId : Nat) : Option Int :=
  ((env.listSnapshots c eventId).head?.bind fun s =>
    existingSnapshot c s.eventId s.contentSha256).map rowId

/-- The row of an edge. -/
def reviewedEdge (env : ReviewEnv) (s : ReviewState) (call : EdgeCall) :
    Except String TicketRelationship := do
  let edge := call.edge
  if !validReviewedEvidence edge.evidence then
    throw (edge.from_ ++ " -> " ++ edge.to_ ++ ": invalid evidence kind '" ++ edge.evidence ++ "'")
  let some fromId := eventByExternal s.tables call.sourceKind edge.from_
    | throw ("relationship source " ++ edge.from_ ++ " is not a catalog event")
  if edge.evidence = "ReferenceDocument" ∧ ¬ edge.documentCited then
    throw (edge.from_ ++ " -> " ++ edge.to_ ++ ": ReferenceDocument evidence requires document_cited")
  let sourceDocumentId := if edge.documentCited then call.aarDocumentId else none
  if sourceDocumentId.any (!s.hasDocument ·) then throw foreignKeyFailed
  return {
    id := 0
    fromEventId := rowId fromId
    toEventId := (eventByExternal s.tables call.sourceKind edge.to_).map rowId
    toExternalId := edge.to_
    relationshipKind := edge.kind
    evidenceKind := edge.evidence
    sourceSnapshotId := latestSnapshotId env s.tables fromId
    sourceDocumentId := sourceDocumentId
    reviewedStatus := "Accepted"
    note := edge.note
    createdUtc := call.createdUtc }

def importReviewedEdge (env : ReviewEnv) (s : ReviewState) (call : EdgeCall) :
    ReviewState × Except String Bool :=
  match reviewedEdge env s call with
  | .error e => (s, .error e)
  | .ok row =>
    let r := insertRelationship s.edges row
    ({ s with edges := r.1 }, .ok r.2)

/-! ## Histories -/

inductive ReviewOp where
  /-- A snapshot is synced. -/
  | sync (f : Fetched)
  /-- A reference document is recorded. -/
  | document
  | importReviews (file : Except String Json)
  | corpusReview (call : ReviewCall)
  | importReviewedEdge (call : EdgeCall)

def ReviewOp.step (env : ReviewEnv) (s : ReviewState) : ReviewOp → ReviewState
  | sync f => { s with tables := storePayload env.toSyncEnv s.tables f }
  | document => { s with documents := s.documents + 1 }
  | importReviews file => (Review.importReviews env s file).1
  | corpusReview call => (Review.corpusReview env s call).1
  | importReviewedEdge call => (Review.importReviewedEdge env s call).1

end Inim.Review
