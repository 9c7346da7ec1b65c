import Inim.Catalog.Import
import Inim.Lib.Clusters
import Inim.Lib.Guards
import Inim.Lib.SortBy
import Mathlib.Data.Prod.Lex
/-!
# Importing case studies (`catalog/case_study_import.rs`, `catalog/store.rs:294-605`)

| here | there |
| --- | --- |
| `CaseStudyDataFile` and its parts | `case_study_import.rs:34-198` |
| `isUtc`, `normalizeUtc`, `problems`, `validate` | `:202-445` |
| `resolveDocument`, `importCaseStudy` | `:450-697` |
| `CaseTables` and its rows | `migrations.rs:147-259`; an id is the position of its row |
| `insertCaseStudy` to `insertCaseStudyTarget` | `store.rs:294-605` |

Outside are chrono, serde and SHA-256, as the parameters of `CaseEnv`. The interconnection context of a
file, which is only stored, is its JSON text. The foreign keys hold because every id that is inserted
was read from its table.
-/

namespace Inim.CaseImport

open Std Inim.Lib

/-! ## Data files -/

structure DataDocument where
  title : String
  sourceUrl : Option String
  docType : String
  mediaType : String
  sha256 : String
  pageCount : Option Int
  publicationDate : Option String
  provenance : String
  redistributionStatus : Option String
  localPath : Option String
deriving DecidableEq, Repr

structure DataDocumentLink where
  document : Nat
  relationship : String
  reviewedNote : Option String
deriving DecidableEq, Repr

structure DataPhase where
  label : String
  startUtc : String
  endUtc : String
  startPrecision : String
  endPrecision : String
  description : String
  sourceDocument : Nat
  sourcePageOrSection : String
  reviewStatus : String
deriving DecidableEq, Repr

structure DataEventLink where
  externalIdentifier : String
  relationship : String
  reviewedNote : Option String
  sourceDocument : Option Nat
deriving DecidableEq, Repr

structure DataClaim where
  claimType : String
  claimText : String
  qualification : Option String
  sourceDocument : Nat
  sourcePageOrSection : String
  reviewStatus : String
  timeOrPhase : Option String
  observability : String
  observabilityRationale : String
deriving DecidableEq, Repr

structure DataTarget where
  sourceLabel : String
  roleInReport : String
  candidateOrgIdentity : Option String
  candidateOriginAsns : List UInt32
  candidatePredicate : Option String
  historicalValidityStatus : String
  provenance : Option String
  researchStatus : String
  reviewedNote : Option String
deriving DecidableEq, Repr

structure CaseStudyDataFile where
  schemaVersion : UInt32
  slug : String
  title : String
  summary : String
  startUtc : Option String
  endUtc : Option String
  status : Option String
  documents : List DataDocument
  documentLinks : List DataDocumentLink
  phases : List DataPhase
  relatedEvents : List DataEventLink
  claims : List DataClaim
  targets : List DataTarget
  interconnectionContext : Option String
deriving DecidableEq, Repr

/-! ## Rows -/

structure ReferenceDocument where
  title : String
  sourceUrl : Option String
  docType : String
  redistributionStatus : String
  publicationDate : Option String
  provenance : String
  importedUtc : String
deriving DecidableEq, Repr

structure DocumentRevision where
  documentId : Nat
  revision : Nat
  sha256 : String
  mediaType : String
  pageCount : Option Int
  localPath : Option String
  importedUtc : String
deriving DecidableEq, Repr

structure CaseStudy where
  slug : String
  title : String
  summary : String
  startUtc : Option String
  endUtc : Option String
  status : String
  contentSha256 : String
  createdUtc : String
  updatedUtc : String
  interconnectionContext : Option String
deriving DecidableEq, Repr

structure CaseStudyDocumentLink where
  caseStudyId : Nat
  documentId : Nat
  relationship : String
  reviewedNote : Option String
deriving DecidableEq, Repr

structure CaseStudyEventLink where
  caseStudyId : Nat
  catalogEventId : Option Nat
  externalIdentifier : String
  relationship : String
  reviewedNote : Option String
  sortOrder : Nat
  sourceDocumentId : Option Nat
deriving DecidableEq, Repr

structure CaseStudyPhase where
  caseStudyId : Nat
  label : String
  startUtc : String
  endUtc : String
  startPrecision : String
  endPrecision : String
  description : String
  sourceDocumentId : Nat
  sourcePageOrSection : String
  reviewStatus : String
  sortOrder : Nat
deriving DecidableEq, Repr

structure CaseStudyClaim where
  caseStudyId : Nat
  claimType : String
  claimText : String
  qualification : Option String
  sourceDocumentId : Nat
  sourcePageOrSection : String
  reviewStatus : String
  timeOrPhase : Option String
  observability : String
  observabilityRationale : String
  sortOrder : Nat
deriving DecidableEq, Repr

structure CaseStudyTarget where
  caseStudyId : Nat
  sourceLabel : String
  roleInReport : String
  candidateOrgIdentity : Option String
  candidateOriginAsnsJson : Option String
  candidatePredicate : Option String
  historicalValidityStatus : String
  provenance : Option String
  researchStatus : String
  reviewedNote : Option String
  sortOrder : Nat
deriving DecidableEq, Repr

structure CaseTables where
  catalog : CatalogTables
  documents : List ReferenceDocument
  revisions : List DocumentRevision
  cases : List CaseStudy
  documentLinks : List CaseStudyDocumentLink
  eventLinks : List CaseStudyEventLink
  phases : List CaseStudyPhase
  claims : List CaseStudyClaim
  targets : List CaseStudyTarget
deriving DecidableEq, Repr

def CaseTables.empty : CaseTables := ⟨.empty, [], [], [], [], [], [], [], []⟩

/-! ## Times -/

/-- A UTC time: seconds, and the nanoseconds after them, from 10⁹ on in a leap second. -/
abbrev Moment := Int ×ₗ Nat

/-- What `SecondsFormat::Secs` keeps; a leap second is the second `60`. -/
def Moment.wholeSecond (m : Moment) : Moment :=
  toLex ((ofLex m).1, if 1000000000 ≤ (ofLex m).2 then 1000000000 else 0)

structure CaseEnv where
  parseFromRfc3339 : String → Option Moment
  /-- `to_rfc3339_opts` of a whole second, with `Z`. -/
  toRfc3339 : Moment → String
  /-- The SHA-256 of the file as serde writes it. -/
  contentSha : CaseStudyDataFile → String

def isUtc (env : CaseEnv) (s : String) : Bool := (env.parseFromRfc3339 s).isSome

def normalizeUtc (env : CaseEnv) (s : String) : Except String String :=
  match env.parseFromRfc3339 s with
  | some dt => .ok (env.toRfc3339 dt.wholeSecond)
  | none => .error ("timestamp is not valid UTC (RFC 3339): " ++ s)

/-! ## Validation -/

/-- `CASE_STUDY_DATA_SCHEMA_VERSION`. -/
def caseStudyDataSchemaVersion : UInt32 := 1

def validRelationship (s : String) : Bool :=
  ["PrimaryChange", "PrimaryIncident", "RollbackChange", "ParticipantIncident", "Alarm",
    "OperationalTask", "Communication", "Related"].contains s

def validClaimType (s : String) : Bool :=
  ["ReportedImpact", "ReportedMechanism", "ReportedTimeline", "ReportedRecovery",
    "ReportedLimitation", "ProcessFinding"].contains s

def validObservability (s : String) : Bool :=
  ["PotentiallyVisibleInPublicBgp", "IndirectlyVisible", "NotDirectlyVisible", "Unknown"].contains s

def validTargetStatus (s : String) : Bool :=
  ["Unresearched", "Candidate", "HistoricallyReviewed", "Unresolved", "NotApplicableToPublicBgp",
    "AmbiguousServiceIdentity"].contains s

/-- `MEDIA_TYPE_ALLOWLIST`. -/
def validMediaType (s : String) : Bool :=
  ["application/pdf", "text/plain", "application/json", "text/markdown", "text/csv"].contains s

/-- `is_ascii_hexdigit`. -/
def isAsciiHexdigit (c : Char) : Bool :=
  c.isDigit || ('a' ≤ c && c ≤ 'f') || ('A' ≤ c && c ≤ 'F')

def validSha256 (s : String) : Bool := s.utf8ByteSize == 64 && s.toList.all isAsciiHexdigit

def validPrecision (s : String) : Bool := ["exact", "summarized"].contains s

/-- A text, if the condition holds. -/
def problemIf (c : Bool) (text : String) : List String := if c then [text] else []

def documentProblems (d : DataDocument) (i : Nat) : List String :=
  problemIf (!validSha256 d.sha256) s!"documents[{i}] sha256 is not a 64-hex digest" ++
  problemIf (!validMediaType d.mediaType) s!"documents[{i}] media_type '{d.mediaType}' not allowlisted" ++
  problemIf (d.title.isEmpty || d.provenance.isEmpty)
    s!"documents[{i}] title and provenance must be non-empty" ++
  problemIf (d.localPath.any fun p => p.toList.head? == some '/' || textContains p "..")
    s!"documents[{i}] local_path must be catalog-relative"

def phaseProblems (env : CaseEnv) (ndocs : Nat) (p : DataPhase) (i : Nat) : List String :=
  problemIf (ndocs ≤ p.sourceDocument)
    s!"phases[{i}] references missing document {p.sourceDocument}" ++
  problemIf (p.sourcePageOrSection.isEmpty || p.reviewStatus.isEmpty)
    s!"phases[{i}] requires source_page_or_section and review_status (source provenance)" ++
  problemIf (!isUtc env p.startUtc || !isUtc env p.endUtc)
    s!"phases[{i}] boundaries must be UTC (RFC 3339)" ++
  problemIf (!validPrecision p.startPrecision)
    s!"phases[{i}] start_precision must be exact or summarized" ++
  problemIf (!validPrecision p.endPrecision)
    s!"phases[{i}] end_precision must be exact or summarized" ++
  problemIf p.label.isEmpty s!"phases[{i}] label must be non-empty"

/-- "consecutive phases must not overlap (touching boundaries are allowed)": the texts are compared. -/
def overlapProblems (phases : List DataPhase) : List String :=
  let sorted := sortBy (compareLex (compareOn (·.1.startUtc)) (compareOn (·.2))) phases.zipIdx
  (windows2 sorted).flatMap fun w =>
    problemIf (decide (w.2.1.startUtc < w.1.1.endUtc))
      ("phases overlap unintentionally: '" ++ w.1.1.label ++ "' ends " ++ w.1.1.endUtc ++ " after '" ++
        w.2.1.label ++ "' starts " ++ w.2.1.startUtc)

/-- "each phase start must precede its end", as texts. -/
def orderProblems (p : DataPhase) (i : Nat) : List String :=
  problemIf (decide (p.endUtc ≤ p.startUtc)) s!"phases[{i}] start must precede end"

def eventProblems (ndocs : Nat) (e : DataEventLink) (i : Nat) : List String :=
  problemIf e.externalIdentifier.isEmpty s!"related_events[{i}] external_identifier must be non-empty" ++
  problemIf (!validRelationship e.relationship)
    s!"related_events[{i}] relationship '{e.relationship}' is not in the vocabulary" ++
  match e.sourceDocument with
  | some d => problemIf (ndocs ≤ d) s!"related_events[{i}] references missing document {d}"
  | none => []

def claimProblems (ndocs : Nat) (c : DataClaim) (i : Nat) : List String :=
  problemIf (ndocs ≤ c.sourceDocument)
    s!"claims[{i}] references missing document {c.sourceDocument}" ++
  problemIf (c.sourcePageOrSection.isEmpty || c.reviewStatus.isEmpty)
    s!"claims[{i}] requires source provenance" ++
  problemIf (!validClaimType c.claimType)
    s!"claims[{i}] claim_type '{c.claimType}' is not in the vocabulary" ++
  problemIf (!validObservability c.observability)
    s!"claims[{i}] observability must be explicit (one of the four classifications)" ++
  problemIf c.observabilityRationale.isEmpty
    s!"claims[{i}] observability_rationale must be non-empty" ++
  problemIf c.claimText.isEmpty s!"claims[{i}] claim_text must be non-empty"

def targetProblems (t : DataTarget) (i : Nat) : List String :=
  problemIf (!validTargetStatus t.researchStatus)
    s!"targets[{i}] research_status '{t.researchStatus}' is not in the vocabulary" ++
  problemIf (!validTargetStatus t.historicalValidityStatus)
    s!"targets[{i}] historical_validity_status '{t.historicalValidityStatus}' is not in the vocabulary" ++
  problemIf t.sourceLabel.isEmpty s!"targets[{i}] source_label must be non-empty"

def problems (env : CaseEnv) (data : CaseStudyDataFile) : List String :=
  let ndocs := data.documents.length
  problemIf (data.schemaVersion != caseStudyDataSchemaVersion)
    s!"schema_version {data.schemaVersion} not supported (expected {caseStudyDataSchemaVersion})" ++
  problemIf (data.slug.isEmpty || data.title.isEmpty || data.summary.isEmpty)
    "slug, title, and summary must be non-empty" ++
  data.documents.zipIdx.flatMap (fun d => documentProblems d.1 d.2) ++
  data.documentLinks.zipIdx.flatMap (fun dl => problemIf (ndocs ≤ dl.1.document)
    s!"document_links[{dl.2}] references missing document {dl.1.document}") ++
  data.phases.zipIdx.flatMap (fun p => phaseProblems env ndocs p.1 p.2) ++
  overlapProblems data.phases ++
  data.phases.zipIdx.flatMap (fun p => orderProblems p.1 p.2) ++
  data.relatedEvents.zipIdx.flatMap (fun e => eventProblems ndocs e.1 e.2) ++
  data.claims.zipIdx.flatMap (fun c => claimProblems ndocs c.1 c.2) ++
  data.targets.zipIdx.flatMap (fun t => targetProblems t.1 t.2)

def validate (env : CaseEnv) (data : CaseStudyDataFile) : Except String Unit :=
  if (problems env data).isEmpty then .ok ()
  else .error ("case-study data file is invalid:\n  - " ++
    String.intercalate "\n  - " (problems env data))

/-! ## Writes -/

def CaseStudyDocumentLink.key (l : CaseStudyDocumentLink) : Nat × Nat × String :=
  (l.caseStudyId, l.documentId, l.relationship)

def CaseStudyEventLink.key (l : CaseStudyEventLink) : Nat × String :=
  (l.caseStudyId, l.externalIdentifier)

def CaseStudyPhase.key (p : CaseStudyPhase) : Nat × Nat := (p.caseStudyId, p.sortOrder)

def CaseStudyClaim.key (c : CaseStudyClaim) : Nat × Nat := (c.caseStudyId, c.sortOrder)

def CaseStudyTarget.key (t : CaseStudyTarget) : Nat × Nat := (t.caseStudyId, t.sortOrder)

/-- Idempotent for slug and content. -/
def insertCaseStudy (t : CaseTables) (cs : CaseStudy) : Except String (CaseTables × Nat) :=
  match t.cases.findIdx? fun row => decide (row.slug = cs.slug) with
  | some id =>
    if (t.cases[id]?).any (·.contentSha256 = cs.contentSha256) then .ok (t, id)
    else .error ("conflicting immutable case study revision for slug '" ++ cs.slug ++ "'")
  | none => .ok ({ t with cases := t.cases ++ [cs] }, t.cases.length)

def insertReferenceDocument (t : CaseTables) (d : ReferenceDocument) : CaseTables × Nat :=
  let r := insertUnique (fun d : ReferenceDocument => (d.title, d.sourceUrl)) d t.documents
  ({ t with documents := r.1 }, r.2)

def insertDocumentRevision (t : CaseTables) (rev : DocumentRevision) : CaseTables × Nat :=
  let r := insertUnique DocumentRevision.sha256 rev t.revisions
  ({ t with revisions := r.1 }, r.2)

def insertCaseStudyDocumentLink (t : CaseTables) (l : CaseStudyDocumentLink) : CaseTables × Nat :=
  let r := insertUnique CaseStudyDocumentLink.key l t.documentLinks
  ({ t with documentLinks := r.1 }, r.2)

def insertCaseStudyEventLink (t : CaseTables) (l : CaseStudyEventLink) : CaseTables × Nat :=
  let r := insertUnique CaseStudyEventLink.key l t.eventLinks
  ({ t with eventLinks := r.1 }, r.2)

def insertCaseStudyPhase (t : CaseTables) (p : CaseStudyPhase) : CaseTables × Nat :=
  let r := insertUnique CaseStudyPhase.key p t.phases
  ({ t with phases := r.1 }, r.2)

def insertCaseStudyClaim (t : CaseTables) (c : CaseStudyClaim) : CaseTables × Nat :=
  let r := insertUnique CaseStudyClaim.key c t.claims
  ({ t with claims := r.1 }, r.2)

def insertCaseStudyTarget (t : CaseTables) (x : CaseStudyTarget) : CaseTables × Nat :=
  let r := insertUnique CaseStudyTarget.key x t.targets
  ({ t with targets := r.1 }, r.2)

/-! ## The import -/

structure CaseStudyImportSummary where
  caseStudyId : Nat
  slug : String
  created : Bool
  documents : Nat := 0
  eventLinks : Nat := 0
  linkedEvents : Nat := 0
  unresolvedReferences : Nat := 0
  phases : Nat := 0
  claims : Nat := 0
  targets : Nat := 0
deriving DecidableEq, Repr

def resolveDocument (now : String) (t : CaseTables) (d : DataDocument) : CaseTables × Nat :=
  match t.revisions.find? fun r => decide (r.sha256 = d.sha256) with
  | some r => (t, r.documentId)
  | none =>
    let doc := insertReferenceDocument t {
      title := d.title
      sourceUrl := d.sourceUrl
      docType := d.docType
      redistributionStatus := d.redistributionStatus.getD "Unknown"
      publicationDate := d.publicationDate
      provenance := d.provenance
      importedUtc := now }
    let last := ((doc.1.revisions.filter (·.documentId = doc.2)).map (·.revision)).foldl max 0
    ((insertDocumentRevision doc.1 {
      documentId := doc.2
      revision := last + 1
      sha256 := d.sha256
      mediaType := d.mediaType
      pageCount := d.pageCount
      localPath := d.localPath
      importedUtc := now }).1, doc.2)

/-- The documents, with their ids in order. -/
def addDocuments (now : String) (t : CaseTables) (ds : List DataDocument) : CaseTables × List Nat :=
  ds.foldl (fun st d =>
    let r := resolveDocument now st.1 d
    (r.1, st.2 ++ [r.2])) (t, [])

/-- `doc_ids[i]`, for an index that was validated. -/
def docIdAt (docIds : List Nat) (i : Nat) : Nat := (docIds[i]?).getD 0

def documentLinkRow (id : Nat) (docIds : List Nat) (dl : DataDocumentLink) : CaseStudyDocumentLink where
  caseStudyId := id
  documentId := docIdAt docIds dl.document
  relationship := dl.relationship
  reviewedNote := dl.reviewedNote

/-- The first event with the identifier: the one with most plans, then by source. -/
def linkedEvent (c : CatalogTables) (externalId : String) : Option Nat :=
  let plans (id : Nat) := c.plans.countP fun p =>
    (c.manifestRevisions[p.manifestRevisionId]?).any (·.eventId = id)
  let found := c.events.zipIdx.filter (·.1.externalId = externalId)
  (sortBy (fun a b => (compare (plans b.2) (plans a.2)).then (compare a.1.sourceKind b.1.sourceKind))
    found).head?.map (·.2)

def eventLinkRow (id : Nat) (eventId sourceDocumentId : Option Nat) (e : DataEventLink) (i : Nat) :
    CaseStudyEventLink where
  caseStudyId := id
  catalogEventId := eventId
  externalIdentifier := e.externalIdentifier
  relationship := e.relationship
  reviewedNote := e.reviewedNote
  sortOrder := i
  sourceDocumentId := sourceDocumentId

/-- The document named, or else the first one. -/
def eventDocument (docIds : List Nat) (e : DataEventLink) : Option Nat :=
  (e.sourceDocument.map (docIdAt docIds)).or docIds.head?

def phaseRow (id docId : Nat) (startUtc endUtc : String) (p : DataPhase) (i : Nat) : CaseStudyPhase where
  caseStudyId := id
  label := p.label
  startUtc := startUtc
  endUtc := endUtc
  startPrecision := p.startPrecision
  endPrecision := p.endPrecision
  description := p.description
  sourceDocumentId := docId
  sourcePageOrSection := p.sourcePageOrSection
  reviewStatus := p.reviewStatus
  sortOrder := i

def claimRow (id docId : Nat) (c : DataClaim) (i : Nat) : CaseStudyClaim where
  caseStudyId := id
  claimType := c.claimType
  claimText := c.claimText
  qualification := c.qualification
  sourceDocumentId := docId
  sourcePageOrSection := c.sourcePageOrSection
  reviewStatus := c.reviewStatus
  timeOrPhase := c.timeOrPhase
  observability := c.observability
  observabilityRationale := c.observabilityRationale
  sortOrder := i

def targetRow (id : Nat) (x : DataTarget) (i : Nat) : CaseStudyTarget where
  caseStudyId := id
  sourceLabel := x.sourceLabel
  roleInReport := x.roleInReport
  candidateOrgIdentity := x.candidateOrgIdentity
  candidateOriginAsnsJson :=
    if x.candidateOriginAsns.isEmpty then none else some (jsonArray (x.candidateOriginAsns.map toString))
  candidatePredicate := x.candidatePredicate
  historicalValidityStatus := x.historicalValidityStatus
  provenance := x.provenance
  researchStatus := x.researchStatus
  reviewedNote := x.reviewedNote
  sortOrder := i

def addDocumentLinks (id : Nat) (docIds : List Nat) (t : CaseTables) (ls : List DataDocumentLink) :
    CaseTables :=
  ls.foldl (fun t dl => (insertCaseStudyDocumentLink t (documentLinkRow id docIds dl)).1) t

def addEventLinks (id : Nat) (docIds : List Nat) (t : CaseTables) (es : List DataEventLink) :
    CaseTables :=
  es.zipIdx.foldl (fun t e => (insertCaseStudyEventLink t (eventLinkRow id
    (linkedEvent t.catalog e.1.externalIdentifier) (eventDocument docIds e.1) e.1 e.2)).1) t

def addPhases (env : CaseEnv) (id : Nat) (docIds : List Nat) (t : CaseTables) (ps : List DataPhase) :
    Except String CaseTables :=
  ps.zipIdx.foldlM (fun t p => do
    let startUtc ← normalizeUtc env p.1.startUtc
    let endUtc ← normalizeUtc env p.1.endUtc
    return (insertCaseStudyPhase t
      (phaseRow id (docIdAt docIds p.1.sourceDocument) startUtc endUtc p.1 p.2)).1) t

def addClaims (id : Nat) (docIds : List Nat) (t : CaseTables) (cs : List DataClaim) : CaseTables :=
  cs.zipIdx.foldl (fun t c =>
    (insertCaseStudyClaim t (claimRow id (docIdAt docIds c.1.sourceDocument) c.1 c.2)).1) t

def addTargets (id : Nat) (t : CaseTables) (xs : List DataTarget) : CaseTables :=
  xs.zipIdx.foldl (fun t x => (insertCaseStudyTarget t (targetRow id x.1 x.2)).1) t

def caseRow (env : CaseEnv) (data : CaseStudyDataFile) (startUtc endUtc : Option String) (now : String) :
    CaseStudy where
  slug := data.slug
  title := data.title
  summary := data.summary
  startUtc := startUtc
  endUtc := endUtc
  status := data.status.getD "Active"
  contentSha256 := env.contentSha data
  createdUtc := now
  updatedUtc := now
  interconnectionContext := data.interconnectionContext

/-- What the children of a new case study count. -/
def childSummary (t : CaseTables) (data : CaseStudyDataFile) (id : Nat) : CaseStudyImportSummary :=
  let linked := data.relatedEvents.countP fun e => (linkedEvent t.catalog e.externalIdentifier).isSome
  { caseStudyId := id
    slug := data.slug
    created := true
    documents := data.documents.length
    eventLinks := data.relatedEvents.length
    linkedEvents := linked
    unresolvedReferences := data.relatedEvents.length - linked
    phases := data.phases.length
    claims := data.claims.length
    targets := data.targets.length }

/-- The documents and the children of the case study `id`. -/
def addChildren (env : CaseEnv) (now : String) (id : Nat) (t : CaseTables) (data : CaseStudyDataFile) :
    Except String CaseTables := do
  let docs := addDocuments now t data.documents
  let t := addDocumentLinks id docs.2 docs.1 data.documentLinks
  let t := addEventLinks id docs.2 t data.relatedEvents
  let t ← addPhases env id docs.2 t data.phases
  return addTargets id (addClaims id docs.2 t data.claims) data.targets

/-- The transaction. A case study that has a phase has been imported. -/
def importRows (env : CaseEnv) (now : String) (t : CaseTables) (data : CaseStudyDataFile) :
    Except String (CaseTables × CaseStudyImportSummary) := do
  validate env data
  let startUtc ← data.startUtc.mapM (normalizeUtc env)
  let endUtc ← data.endUtc.mapM (normalizeUtc env)
  let cs ← insertCaseStudy t (caseRow env data startUtc endUtc now)
  if cs.1.phases.any (·.caseStudyId = cs.2) then
    return (cs.1, { caseStudyId := cs.2, slug := data.slug, created := false })
  let t ← addChildren env now cs.2 cs.1 data
  return (t, childSummary cs.1 data cs.2)

/-- The file as it was read, the time, and the error of a write or of the commit, if there is one. -/
structure ImportCall where
  file : Except String CaseStudyDataFile
  now : String
  refused : Option String

/-- An error drops the transaction. -/
def importCaseStudy (env : CaseEnv) (t : CaseTables) (call : ImportCall) :
    CaseTables × Except String CaseStudyImportSummary :=
  match call.file.bind (importRows env call.now t) with
  | .error e => (t, .error e)
  | .ok r =>
    match call.refused with
    | some e => (t, .error e)
    | none => (r.1, .ok r.2)

/-! ## Histories -/

/-- An import, or what other writers do: the catalog changes, and documents are added. -/
inductive CaseOp where
  | import_ (call : ImportCall)
  | others (catalog : CatalogTables) (documents : List ReferenceDocument)
      (revisions : List DocumentRevision)

def CaseOp.step (env : CaseEnv) (t : CaseTables) : CaseOp → CaseTables
  | import_ call => (importCaseStudy env t call).1
  | others catalog documents revisions =>
    { t with
      catalog := catalog
      documents := t.documents ++ documents
      revisions := t.revisions ++ revisions }

end Inim.CaseImport
