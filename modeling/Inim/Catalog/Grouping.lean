import Inim.Catalog.PlanHash
import Inim.Catalog.Relationships

/-!
# Candidate groups of tickets (`catalog/grouping.rs`, `store.rs:1018-1145`)

| here | there |
| --- | --- |
| `GroupEvidence`, `IncidentGroupCandidate` | `domain.rs:520-540` |
| `evidenceFingerprint`     | `evidence_fingerprint` (`grouping.rs:51`) |
| `rejectCandidate`, `isRejectedFingerprint` | `grouping.rs:77-109` |
| `supersedePairGroups`, `insertGroupCandidate` | `store.rs:1022-1145` |
| `upsertGroup`             | `upsert_group` (`grouping.rs:119`) |
| `classifyPair`, `generateCandidates` | `grouping.rs:153-343` |

The rows of the case studies come in the order of their query. The two B-tree maps are lists, in the
order of their keys. Ids of deleted rows may come again.
-/

namespace Inim

open Std Inim.Lib

@[ext] structure GroupEvidence where
  signal : String
  detail : String
deriving DecidableEq, Repr

structure IncidentGroupCandidate where
  id : Int
  label : String
  memberEventIds : List Int
  evidence : List GroupEvidence
  confidence : String
  reviewStatus : String
  evidenceFingerprint : String
  createdUtc : String
  updatedUtc : String
deriving DecidableEq, Repr

/-- What of a reviewed interpretation is read here. -/
structure TicketReview where
  id : Int
  catalogEventId : Int
  externalId : String
  entityLabels : List String
  linkedChangeIds : List String
deriving DecidableEq, Repr

/-- A ticket of a case study, with the title of the study. -/
structure CaseStudyMember where
  caseStudyId : Int
  catalogEventId : Int
  title : String
deriving DecidableEq, Repr

/-- The tables that a generation reads, and the candidates. -/
structure GroupingState where
  caseStudies : List CaseStudyMember
  relationships : List TicketRelationship
  reviews : List TicketReview
  groups : List IncidentGroupCandidate
deriving DecidableEq, Repr

/-! ## The table of candidates -/

def GroupEvidence.text (e : GroupEvidence) : String := e.signal ++ ":" ++ e.detail

/-- The text that is hashed. -/
def fingerprintPayload (members : List Int) (signals : List String) : String :=
  jsonObject [("members", jsonArray (members.map toString)), ("signals", jsonArray (signals.map jsonString))]

section Table
variable (sha256 : String → String)

def evidenceFingerprint (members : List Int) (evidence : List GroupEvidence) : String :=
  sha256 (fingerprintPayload (sortBy compare members) (sortBy compare (evidence.map (·.text))))

def rejectCandidate (groups : List IncidentGroupCandidate) (candidateId : Int) (now : String) :
    List IncidentGroupCandidate :=
  groups.map fun g =>
    if g.id = candidateId then
      { g with confidence := "Rejected", reviewStatus := "Reviewed", updatedUtc := now }
    else g

def isRejectedFingerprint (groups : List IncidentGroupCandidate) (fingerprint : String) : Bool :=
  groups.any fun g => g.evidenceFingerprint = fingerprint && g.confidence = "Rejected"

def nextGroupId (groups : List IncidentGroupCandidate) : Int := (groups.map (·.id)).foldl max 0 + 1

/-- A row that a candidate with these members and signals replaces. -/
def supersededBy (members : List Int) (mergedSignals : List String) (c : IncidentGroupCandidate) : Bool :=
  let signals := c.evidence.map (·.signal)
  c.reviewStatus = "Unreviewed" && sortBy compare c.memberEventIds = sortBy compare members &&
    (!signals.isEmpty && signals.length < mergedSignals.length &&
      signals.all fun s => mergedSignals.any (· = s))

def supersedePairGroups (groups : List IncidentGroupCandidate) (members : List Int)
    (mergedSignals : List String) : List IncidentGroupCandidate :=
  groups.filter fun c => !supersededBy members mergedSignals c

/-- The rows after an insertion, and whether one is new. -/
def insertGroupCandidate (groups : List IncidentGroupCandidate) (candidate : IncidentGroupCandidate) :
    List IncidentGroupCandidate × Bool :=
  match groups.find? (·.evidenceFingerprint = candidate.evidenceFingerprint) with
  | some existing =>
    if existing.confidence = "Rejected" then (groups, false)
    else if existing.reviewStatus = "Unreviewed" then
      (groups.map fun g =>
        if g.id = existing.id then
          { g with
            confidence := candidate.confidence
            label := candidate.label
            updatedUtc := candidate.updatedUtc }
        else g, false)
    else (groups, false)
  | none => (groups ++ [{ candidate with id := nextGroupId groups }], true)

/-- What a generation offers: a candidate before it has an id. -/
structure GroupDraft where
  label : String
  members : List Int
  evidence : List GroupEvidence
  confidence : String
deriving DecidableEq, Repr

def GroupDraft.row (d : GroupDraft) (fingerprint createdUtc : String) : IncidentGroupCandidate where
  id := 0
  label := d.label
  memberEventIds := d.members
  evidence := d.evidence
  confidence := d.confidence
  reviewStatus := "Unreviewed"
  evidenceFingerprint := fingerprint
  createdUtc := createdUtc
  updatedUtc := createdUtc

/-- The rows, and how many are new. -/
def upsertGroup (createdUtc : String) (st : List IncidentGroupCandidate × Nat) (d : GroupDraft) :
    List IncidentGroupCandidate × Nat :=
  let fingerprint := evidenceFingerprint sha256 d.members d.evidence
  if isRejectedFingerprint st.1 fingerprint then st
  else
    let groups := supersedePairGroups st.1 d.members (d.evidence.map (·.signal))
    let r := insertGroupCandidate groups (d.row fingerprint createdUtc)
    (r.1, st.2 + r.2.toNat)

end Table

/-! ## What a generation offers -/

def classifyPair (hasExplicit hasSupport hasTemporal : Bool) : Option String :=
  if hasExplicit then some "ExplicitlyLinked"
  else if hasSupport then some "WeakCandidate"
  else if hasTemporal then some "TemporalCoincidence"
  else none

def sortPair (a b : Int) : Int × Int := if a < b then (a, b) else (b, a)

/-- The case studies with at least two members. -/
def caseStudyDrafts (rows : List CaseStudyMember) : List GroupDraft :=
  (sortDedup compare (rows.map (·.caseStudyId))).filterMap fun id =>
    let own := rows.filter (·.caseStudyId = id)
    let title := (own.head?.map (·.title)).getD ""
    if own.length < 2 then none
    else some
      { label := s!"Case study {id}: {title}"
        members := own.map (·.catalogEventId)
        evidence := [⟨"SharedCaseStudy", s!"reviewed case study {id} ({title})"⟩]
        confidence := "StrongCandidate" }

def listRelationships (edges : List TicketRelationship) : List TicketRelationship :=
  sortBy (compareLex (compareOn (·.fromEventId)) (compareLex (compareOn (·.toExternalId)) (compareOn (·.id))))
    edges

def listTicketReviews (reviews : List TicketReview) : List TicketReview :=
  sortBy (compareLex (compareOn (·.externalId)) (compareOn (·.id))) reviews

/-- A signal for a pair of tickets. -/
structure PairSignal where
  pair : Int × Int
  evidence : GroupEvidence
deriving DecidableEq, Repr

/-- The signals of the edges of one kind. -/
def edgeSignals (edges : List TicketRelationship) (evidenceKind signal : String)
    (detail : TicketRelationship → String) : List PairSignal :=
  ((listRelationships edges).filter (·.evidenceKind = evidenceKind)).filterMap fun edge =>
    edge.toEventId.map fun toId => ⟨sortPair edge.fromEventId toId, ⟨signal, detail edge⟩⟩

def explicitSignals (edges : List TicketRelationship) : List PairSignal :=
  edgeSignals edges "ExplicitTicketText" "ExplicitTicketText" fun edge =>
    s!"{edge.relationshipKind} ({edge.evidenceKind}): {edge.fromEventId} -> {edge.toExternalId}"

def temporalSignals (edges : List TicketRelationship) : List PairSignal :=
  edgeSignals edges "DerivedTemporalOverlap" "DerivedTemporalOverlap" fun edge => edge.note.getD ""

/-- The signal for what two reviews share, if they share anything. -/
def sharedSignal (pair : Int × Int) (signal text : String) (shared : List String) : List PairSignal :=
  if shared.isEmpty then [] else [⟨pair, ⟨signal, text ++ String.intercalate ", " shared⟩⟩]

def reviewSignals (a b : TicketReview) : List PairSignal :=
  let pair := sortPair a.catalogEventId b.catalogEventId
  sharedSignal pair "SharedReviewedEntity" "shared reviewed entity/asset label(s): "
      (a.entityLabels.filter (b.entityLabels.contains ·)) ++
    sharedSignal pair "SharedMaintenanceChange" "shared reviewed maintenance/change identifier(s): "
      (a.linkedChangeIds.filter (b.linkedChangeIds.contains ·))

/-- Each two reviews, the earlier one first. -/
def reviewPairSignals : List TicketReview → List PairSignal
  | [] => []
  | a :: rest => rest.flatMap (reviewSignals a) ++ reviewPairSignals rest

/-- All signals, in the order in which they are pushed. -/
def pairSignals (s : GroupingState) : List PairSignal :=
  explicitSignals s.relationships ++ temporalSignals s.relationships ++
    reviewPairSignals (listTicketReviews s.reviews)

def pairOrder : Int × Int → Int × Int → Ordering := compareLex (compareOn (·.1)) (compareOn (·.2))

def evidenceOrder : GroupEvidence → GroupEvidence → Ordering :=
  compareLex (compareOn (·.signal)) (compareOn (·.detail))

/-- The merged evidence of a pair: sorted, and without repetitions. -/
def pairEvidence (signals : List PairSignal) (pair : Int × Int) : List GroupEvidence :=
  sortDedup evidenceOrder ((signals.filter (·.pair = pair)).map (·.evidence))

def pairDraft (pair : Int × Int) (evidence : List GroupEvidence) : Option GroupDraft :=
  let (a, b) := pair
  let hasSignal (signal : String) : Bool := evidence.any (·.signal = signal)
  (classifyPair (hasSignal "ExplicitTicketText")
      (hasSignal "SharedReviewedEntity" || hasSignal "SharedMaintenanceChange")
      (hasSignal "DerivedTemporalOverlap")).map fun category =>
    { label :=
        if category = "ExplicitlyLinked" then s!"Explicit link {a} <-> {b}"
        else if category = "WeakCandidate" then s!"Weak candidate {a} <-> {b}"
        else s!"Temporal coincidence {a} <-> {b}"
      members := [a, b]
      evidence := evidence
      confidence := category }

/-- One draft for each pair with a signal. (The map also has the pairs of reviews that share nothing,
without evidence: these have no category.) -/
def pairDrafts (signals : List PairSignal) : List GroupDraft :=
  (sortDedup pairOrder (signals.map (·.pair))).filterMap fun pair =>
    pairDraft pair (pairEvidence signals pair)

def candidateDrafts (s : GroupingState) : List GroupDraft :=
  caseStudyDrafts s.caseStudies ++ pairDrafts (pairSignals s)

/-- The state after a generation, and the number of new rows. -/
def generateCandidates (sha256 : String → String) (createdUtc : String) (s : GroupingState) :
    GroupingState × Nat :=
  let r := (candidateDrafts s).foldl (upsertGroup sha256 createdUtc) (s.groups, 0)
  ({ s with groups := r.1 }, r.2)

/-! ## Histories -/

inductive GroupingOp where
  /-- The tables that a generation reads change in any way. -/
  | change (caseStudies : List CaseStudyMember) (relationships : List TicketRelationship)
      (reviews : List TicketReview)
  | reject (candidateId : Int) (now : String)
  | generate (createdUtc : String)

def GroupingOp.step (sha256 : String → String) (s : GroupingState) : GroupingOp → GroupingState
  | .change caseStudies relationships reviews =>
    { s with caseStudies := caseStudies, relationships := relationships, reviews := reviews }
  | .reject candidateId now => { s with groups := rejectCandidate s.groups candidateId now }
  | .generate createdUtc => (generateCandidates sha256 createdUtc s).1

def GroupingState.empty : GroupingState := ⟨[], [], [], []⟩

end Inim
