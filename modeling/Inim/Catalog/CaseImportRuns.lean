import Inim.Catalog.CaseImport
import Inim.Lib.Runs
/-!
# What an import of a case study leaves (`catalog/case_study_import.rs`)

"The import is transactional, idempotent (slug + content hash), and schema-validated; a conflicting
immutable revision for the same slug is rejected." So it is: what is in the catalog of a file stays,
whatever is imported (`CasesHeld`), the same file changes nothing, and an error changes nothing.
-/

namespace Inim.CaseImport

open Std Inim.Lib

/-! ## The children -/

section Children
variable (env : CaseEnv) (now : String) (id : Nat) (docIds : List Nat) (t : CaseTables)

theorem addDocumentLinks_eq (ls : List DataDocumentLink) :
    addDocumentLinks id docIds t ls = { t with
      documentLinks := (ls.map (documentLinkRow id docIds)).foldl
        (fun t l => (insertUnique CaseStudyDocumentLink.key l t).1) t.documentLinks } := by
  induction ls generalizing t with
  | nil => rfl
  | cons l ls ih => exact ih _

def eventLinkRows (c : CatalogTables) (es : List DataEventLink) : List CaseStudyEventLink :=
  es.zipIdx.map fun e => eventLinkRow id (linkedEvent c e.1.externalIdentifier)
    (eventDocument docIds e.1) e.1 e.2

theorem addEventLinks_eq (es : List DataEventLink) :
    addEventLinks id docIds t es = { t with
      eventLinks := (eventLinkRows id docIds t.catalog es).foldl
        (fun t l => (insertUnique CaseStudyEventLink.key l t).1) t.eventLinks } := by
  unfold addEventLinks eventLinkRows
  generalize es.zipIdx = rows
  induction rows generalizing t with
  | nil => rfl
  | cons e rows ih => exact ih _

def claimRows (cs : List DataClaim) : List CaseStudyClaim :=
  cs.zipIdx.map fun c => claimRow id (docIdAt docIds c.1.sourceDocument) c.1 c.2

theorem addClaims_eq (cs : List DataClaim) :
    addClaims id docIds t cs = { t with
      claims := (claimRows id docIds cs).foldl
        (fun t c => (insertUnique CaseStudyClaim.key c t).1) t.claims } := by
  unfold addClaims claimRows
  generalize cs.zipIdx = rows
  induction rows generalizing t with
  | nil => rfl
  | cons c rows ih => exact ih _

def targetRows (xs : List DataTarget) : List CaseStudyTarget :=
  xs.zipIdx.map fun x => targetRow id x.1 x.2

theorem addTargets_eq (xs : List DataTarget) :
    addTargets id t xs = { t with
      targets := (targetRows id xs).foldl
        (fun t x => (insertUnique CaseStudyTarget.key x t).1) t.targets } := by
  unfold addTargets targetRows
  generalize xs.zipIdx = rows
  induction rows generalizing t with
  | nil => rfl
  | cons x rows ih => exact ih _

/-- The text a time is stored as. -/
def storedUtc (s : String) : String :=
  ((env.parseFromRfc3339 s).map fun dt => env.toRfc3339 dt.wholeSecond).getD ""

theorem normalizeUtc_eq {env : CaseEnv} {s : String} (h : isUtc env s = true) :
    normalizeUtc env s = .ok (storedUtc env s) := by
  obtain ⟨dt, hdt⟩ := Option.isSome_iff_exists.1 h
  simp only [normalizeUtc, storedUtc, hdt, Option.map_some, Option.getD_some]

def phaseRows (ps : List DataPhase) : List CaseStudyPhase :=
  ps.zipIdx.map fun p => phaseRow id (docIdAt docIds p.1.sourceDocument) (storedUtc env p.1.startUtc)
    (storedUtc env p.1.endUtc) p.1 p.2

theorem addPhases_eq {ps : List DataPhase}
    (h : ∀ p ∈ ps, isUtc env p.startUtc = true ∧ isUtc env p.endUtc = true) :
    addPhases env id docIds t ps = .ok { t with
      phases := (phaseRows env id docIds ps).foldl
        (fun t p => (insertUnique CaseStudyPhase.key p t).1) t.phases } := by
  have hrows : ∀ p ∈ ps.zipIdx, isUtc env p.1.startUtc = true ∧ isUtc env p.1.endUtc = true :=
    fun p hp => h p.1 (List.fst_mem_of_mem_zipIdx hp)
  unfold addPhases phaseRows
  generalize ps.zipIdx = rows at hrows
  induction rows generalizing t with
  | nil => rfl
  | cons p rows ih =>
    obtain ⟨hp, hrows⟩ := List.forall_mem_cons.1 hrows
    rw [List.foldlM_cons, normalizeUtc_eq hp.1, normalizeUtc_eq hp.2]
    exact ih _ hrows

end Children

/-! ## The documents -/

/-- The document that has a revision with the digest. -/
def docOf (revisions : List DocumentRevision) (sha : String) : Option Nat :=
  (revisions.find? fun r => decide (r.sha256 = sha)).map (·.documentId)

def docIdsOf (revisions : List DocumentRevision) (ds : List DataDocument) : List Nat :=
  ds.map fun d => (docOf revisions d.sha256).getD 0

section Documents
variable {revisions more : List DocumentRevision} {now : String} {t : CaseTables}

theorem docOf_append {sha : String} (h : (docOf revisions sha).isSome) :
    docOf (revisions ++ more) sha = docOf revisions sha := by
  rw [docOf, Option.isSome_map] at h
  obtain ⟨r, hr⟩ := Option.isSome_iff_exists.1 h
  rw [docOf, docOf, List.find?_append, hr]
  rfl

theorem docIdsOf_append {ds : List DataDocument}
    (h : ∀ d ∈ ds, (docOf revisions d.sha256).isSome) :
    docIdsOf (revisions ++ more) ds = docIdsOf revisions ds :=
  List.map_congr_left fun d hd => by rw [docOf_append (h d hd)]

theorem resolveDocument_present {d : DataDocument} {id : Nat}
    (h : docOf t.revisions d.sha256 = some id) : resolveDocument now t d = (t, id) := by
  obtain ⟨r, hr, rfl⟩ := Option.map_eq_some_iff.1 h
  rw [resolveDocument, hr]

/-- Other tables stay, and the digest is found from now on. -/
theorem resolveDocument_spec (now : String) (t : CaseTables) (d : DataDocument) :
    ∃ documents more, (resolveDocument now t d).1 =
        { t with documents := documents, revisions := t.revisions ++ more } ∧
      docOf (t.revisions ++ more) d.sha256 = some (resolveDocument now t d).2 := by
  cases hdoc : docOf t.revisions d.sha256 with
  | some id =>
    rw [resolveDocument_present hdoc]
    exact ⟨t.documents, [], by rw [List.append_nil], by rw [List.append_nil, hdoc]⟩
  | none =>
    have hnone : (t.revisions.find? fun r => decide (r.sha256 = d.sha256)) = none :=
      Option.map_eq_none_iff.1 hdoc
    have hidx : (t.revisions.findIdx? fun r => decide (r.sha256 = d.sha256)) = none := by
      rw [List.findIdx?_eq_none_iff]
      intro r hr
      simpa using List.find?_eq_none.1 hnone r hr
    simp only [resolveDocument, hnone, insertReferenceDocument, insertDocumentRevision, insertUnique,
      hidx]
    refine ⟨_, _, rfl, ?_⟩
    rw [docOf, List.find?_append, hnone]
    simp

theorem addDocuments_concat (now : String) (t : CaseTables) (ds : List DataDocument)
    (d : DataDocument) : addDocuments now t (ds ++ [d]) =
      ((resolveDocument now (addDocuments now t ds).1 d).1,
        (addDocuments now t ds).2 ++ [(resolveDocument now (addDocuments now t ds).1 d).2]) := by
  rw [addDocuments, List.foldl_append]
  rfl

theorem addDocuments_present {ds : List DataDocument}
    (h : ∀ d ∈ ds, (docOf t.revisions d.sha256).isSome) :
    addDocuments now t ds = (t, docIdsOf t.revisions ds) := by
  induction ds using List.reverseRecOn with
  | nil => rfl
  | append_singleton ds d ih =>
    obtain ⟨id, hid⟩ := Option.isSome_iff_exists.1 (h d (by simp))
    rw [addDocuments_concat, ih fun d hd => h d (List.mem_append_left _ hd),
      resolveDocument_present hid, docIdsOf, docIdsOf, List.map_append, List.map_singleton, hid]
    rfl

theorem addDocuments_spec (now : String) (t : CaseTables) (ds : List DataDocument) :
    ∃ documents more, (addDocuments now t ds).1 =
        { t with documents := documents, revisions := t.revisions ++ more } ∧
      (∀ d ∈ ds, (docOf (t.revisions ++ more) d.sha256).isSome) ∧
      (addDocuments now t ds).2 = docIdsOf (t.revisions ++ more) ds := by
  induction ds using List.reverseRecOn with
  | nil => exact ⟨t.documents, [], by rw [List.append_nil]; rfl, by simp, rfl⟩
  | append_singleton ds d ih =>
    obtain ⟨documents, more, htables, hfound, hids⟩ := ih
    obtain ⟨documents', more', htables', hd⟩ := resolveDocument_spec now (addDocuments now t ds).1 d
    rw [addDocuments_concat]
    rw [htables] at hd htables' ⊢
    rw [List.append_assoc] at hd htables'
    refine ⟨documents', more ++ more', htables', fun d' hd' => ?_, ?_⟩
    · rcases List.mem_append.1 hd' with hd' | hd'
      · rw [← List.append_assoc, docOf_append (hfound d' hd')]
        exact hfound d' hd'
      · rw [List.mem_singleton.1 hd', hd]
        rfl
    · dsimp only
      rw [hids, docIdsOf, docIdsOf, List.map_append, List.map_singleton, hd, Option.getD_some]
      congr 1
      refine List.map_congr_left fun d' hd' => ?_
      rw [← List.append_assoc, docOf_append (hfound d' hd')]

end Documents

/-! ## One import -/

/-- What the file says of itself is in order: nothing is wrong in it, and its times can be read. -/
structure Valid (env : CaseEnv) (data : CaseStudyDataFile) : Prop where
  problems : problems env data = []
  startUtc : ∀ s ∈ data.startUtc, isUtc env s = true
  endUtc : ∀ s ∈ data.endUtc, isUtc env s = true

section Import
variable {env : CaseEnv} {now : String} {id : Nat} {t : CaseTables} {data : CaseStudyDataFile}

theorem problemIf_eq_nil {c : Bool} {text : String} : problemIf c text = [] ↔ c = false := by
  cases c <;> simp [problemIf]

theorem Valid.phases (h : Valid env data) :
    ∀ p ∈ data.phases, isUtc env p.startUtc = true ∧ isUtc env p.endUtc = true := by
  intro p hp
  obtain ⟨i, hi⟩ := List.getElem?_of_mem hp
  have hproblems := h.problems
  simp only [CaseImport.problems, List.append_eq_nil_iff, List.flatMap_eq_nil_iff] at hproblems
  have hphase := hproblems.1.1.1.1.1.2 (p, i) (List.mk_mem_zipIdx_iff_getElem?.2 hi)
  simp only [phaseProblems, List.append_eq_nil_iff, problemIf_eq_nil, Bool.or_eq_false_iff,
    Bool.not_eq_false'] at hphase
  exact hphase.1.1.1.2

theorem Valid.overlaps (h : Valid env data) : overlapProblems data.phases = [] := by
  have hproblems := h.problems
  simp only [CaseImport.problems, List.append_eq_nil_iff] at hproblems
  exact hproblems.1.1.1.1.2

theorem Valid.ordered (h : Valid env data) : ∀ p ∈ data.phases, p.startUtc < p.endUtc := by
  intro p hp
  obtain ⟨i, hi⟩ := List.getElem?_of_mem hp
  have hproblems := h.problems
  simp only [CaseImport.problems, List.append_eq_nil_iff, List.flatMap_eq_nil_iff] at hproblems
  have hphase := hproblems.1.1.1.2 (p, i) (List.mk_mem_zipIdx_iff_getElem?.2 hi)
  rw [orderProblems, problemIf_eq_nil, decide_eq_false_iff_not] at hphase
  exact lt_of_not_ge hphase

/-- What the file's documents and children make of the tables. -/
def children (env : CaseEnv) (now : String) (id : Nat) (t : CaseTables) (data : CaseStudyDataFile) :
    CaseTables :=
  let docs := addDocuments now t data.documents
  { docs.1 with
    documentLinks := (data.documentLinks.map (documentLinkRow id docs.2)).foldl
      (fun t l => (insertUnique CaseStudyDocumentLink.key l t).1) docs.1.documentLinks
    eventLinks := (eventLinkRows id docs.2 docs.1.catalog data.relatedEvents).foldl
      (fun t l => (insertUnique CaseStudyEventLink.key l t).1) docs.1.eventLinks
    phases := (phaseRows env id docs.2 data.phases).foldl
      (fun t p => (insertUnique CaseStudyPhase.key p t).1) docs.1.phases
    claims := (claimRows id docs.2 data.claims).foldl
      (fun t c => (insertUnique CaseStudyClaim.key c t).1) docs.1.claims
    targets := (targetRows id data.targets).foldl
      (fun t x => (insertUnique CaseStudyTarget.key x t).1) docs.1.targets }

theorem addChildren_eq (h : Valid env data) :
    addChildren env now id t data = .ok (children env now id t data) := by
  unfold addChildren
  dsimp only
  rw [addDocumentLinks_eq, addEventLinks_eq, addPhases_eq _ _ _ _ h.phases]
  change Except.ok _ = _
  rw [addClaims_eq, addTargets_eq]
  rfl

theorem mapM_normalizeUtc {s : Option String} (h : ∀ a ∈ s, isUtc env a = true) :
    s.mapM (normalizeUtc env) = .ok (s.map (storedUtc env)) := by
  cases s with
  | none => rfl
  | some a =>
    change (some <$> normalizeUtc env a) = _
    rw [normalizeUtc_eq (h a rfl)]
    rfl

theorem isUtc_of_mapM {s r : Option String} (h : s.mapM (normalizeUtc env) = .ok r) :
    ∀ a ∈ s, isUtc env a = true := by
  rintro a rfl
  change (some <$> normalizeUtc env a) = _ at h
  unfold normalizeUtc at h
  rw [isUtc]
  cases hparse : env.parseFromRfc3339 a with
  | none =>
    rw [hparse] at h
    cases h
  | some dt => rfl

/-- The row of the file. -/
def fileRow (env : CaseEnv) (now : String) (data : CaseStudyDataFile) : CaseStudy :=
  caseRow env data (data.startUtc.map (storedUtc env)) (data.endUtc.map (storedUtc env)) now

theorem importRows_eq (h : Valid env data) : importRows env now t data = (do
    let cs ← insertCaseStudy t (fileRow env now data)
    if cs.1.phases.any (·.caseStudyId = cs.2) then
      return (cs.1, { caseStudyId := cs.2, slug := data.slug, created := false })
    return (children env now cs.2 cs.1 data, childSummary cs.1 data cs.2)) := by
  have hvalidate : validate env data = .ok () := by
    rw [validate, h.problems]
    rfl
  unfold importRows
  rw [hvalidate, mapM_normalizeUtc h.startUtc, mapM_normalizeUtc h.endUtc]
  simp only [addChildren_eq h]
  rfl

theorem importRows_ok (h : Valid env data) {cs : CaseTables × Nat}
    (hcs : insertCaseStudy t (fileRow env now data) = .ok cs) : importRows env now t data = .ok
      (if cs.1.phases.any (·.caseStudyId = cs.2) then
        (cs.1, { caseStudyId := cs.2, slug := data.slug, created := false })
      else (children env now cs.2 cs.1 data, childSummary cs.1 data cs.2)) := by
  rw [importRows_eq h, hcs, apply_ite Except.ok]
  rfl

theorem valid_of_importRows {r : CaseTables × CaseStudyImportSummary}
    (h : importRows env now t data = .ok r) : Valid env data := by
  unfold importRows at h
  obtain ⟨u, hvalidate, h⟩ := bind_ok h
  obtain ⟨startUtc, hstart, h⟩ := bind_ok h
  obtain ⟨endUtc, hend, h⟩ := bind_ok h
  refine ⟨?_, isUtc_of_mapM hstart, isUtc_of_mapM hend⟩
  unfold validate at hvalidate
  split at hvalidate
  · next hnil => exact List.isEmpty_iff.1 hnil
  · cases hvalidate

end Import

/-! ## What the tables hold of a file -/

/-- A row but for the ids of its document and of its event. -/
def CaseStudyPhase.listed (p : CaseStudyPhase) : CaseStudyPhase := { p with sourceDocumentId := 0 }

def CaseStudyClaim.listed (c : CaseStudyClaim) : CaseStudyClaim := { c with sourceDocumentId := 0 }

def CaseStudyEventLink.listed (l : CaseStudyEventLink) : CaseStudyEventLink :=
  { l with catalogEventId := none, sourceDocumentId := none }

/-- The rows of a case study, as they are listed. -/
def CaseTables.phasesOf (t : CaseTables) (id : Nat) : List CaseStudyPhase :=
  (t.phases.filter (·.caseStudyId = id)).map (·.listed)

def CaseTables.claimsOf (t : CaseTables) (id : Nat) : List CaseStudyClaim :=
  (t.claims.filter (·.caseStudyId = id)).map (·.listed)

def CaseTables.targetsOf (t : CaseTables) (id : Nat) : List CaseStudyTarget :=
  t.targets.filter (·.caseStudyId = id)

def CaseTables.eventLinksOf (t : CaseTables) (id : Nat) : List CaseStudyEventLink :=
  (t.eventLinks.filter (·.caseStudyId = id)).map (·.listed)

/-- The phases and claims a file lists. -/
def listedPhases (env : CaseEnv) (id : Nat) (ps : List DataPhase) : List CaseStudyPhase :=
  ps.zipIdx.map fun p => phaseRow id 0 (storedUtc env p.1.startUtc) (storedUtc env p.1.endUtc) p.1 p.2

def listedClaims (id : Nat) (cs : List DataClaim) : List CaseStudyClaim :=
  cs.zipIdx.map fun c => claimRow id 0 c.1 c.2

/-- The links of some of the related events. -/
def listedLinks (id : Nat) (es : List (DataEventLink × Nat)) : List CaseStudyEventLink :=
  es.map fun e => eventLinkRow id none none e.1 e.2

/-- What is left of the related events: the first of each identifier. -/
def keptEvents (es : List DataEventLink) : List (DataEventLink × Nat) :=
  keepFirst (·.1.externalIdentifier) es.zipIdx

/-- The tables hold the file under `id`: its children, and all it would look up again. -/
structure FileHeld (env : CaseEnv) (t : CaseTables) (id : Nat) (f : CaseStudyDataFile) : Prop where
  phases : t.phasesOf id = listedPhases env id f.phases
  claims : t.claimsOf id = listedClaims id f.claims
  targets : t.targetsOf id = targetRows id f.targets
  eventLinks : t.eventLinksOf id = listedLinks id (keptEvents f.relatedEvents)
  documents : ∀ d ∈ f.documents, (docOf t.revisions d.sha256).isSome
  documentLinks : ∀ dl ∈ f.documentLinks, ∃ l ∈ t.documentLinks,
    l.key = (documentLinkRow id (docIdsOf t.revisions f.documents) dl).key

/-- Every child belongs to one of the first `n` case studies. -/
structure ChildrenBelow (t : CaseTables) (n : Nat) : Prop where
  phases : ∀ p ∈ t.phases, p.caseStudyId < n
  claims : ∀ c ∈ t.claims, c.caseStudyId < n
  targets : ∀ x ∈ t.targets, x.caseStudyId < n
  eventLinks : ∀ l ∈ t.eventLinks, l.caseStudyId < n
  documentLinks : ∀ l ∈ t.documentLinks, l.caseStudyId < n

section Held
variable {env : CaseEnv} {now : String} {id : Nat} {t : CaseTables} {f : CaseStudyDataFile}

theorem mem_phasesOf {p : CaseStudyPhase} :
    p ∈ t.phasesOf id ↔ ∃ a ∈ t.phases, a.caseStudyId = id ∧ a.listed = p := by
  simp [CaseTables.phasesOf, and_assoc]

theorem mem_claimsOf {c : CaseStudyClaim} :
    c ∈ t.claimsOf id ↔ ∃ a ∈ t.claims, a.caseStudyId = id ∧ a.listed = c := by
  simp [CaseTables.claimsOf, and_assoc]

theorem mem_eventLinksOf {l : CaseStudyEventLink} :
    l ∈ t.eventLinksOf id ↔ ∃ a ∈ t.eventLinks, a.caseStudyId = id ∧ a.listed = l := by
  simp [CaseTables.eventLinksOf, and_assoc]

/-- What the tables hold is not written again. -/
theorem FileHeld.children_eq (h : FileHeld env t id f) : children env now id t f = t := by
  unfold children
  rw [addDocuments_present h.documents]
  dsimp only
  rw [foldl_insertUnique_present, foldl_insertUnique_present, foldl_insertUnique_present,
    foldl_insertUnique_present, foldl_insertUnique_present]
  · intro x hx
    rw [← h.targets] at hx
    exact ⟨x, (List.mem_filter.1 hx).1, rfl⟩
  · intro c hc
    obtain ⟨row, hrow, rfl⟩ := List.mem_map.1 hc
    have hlisted : claimRow id 0 row.1 row.2 ∈ t.claimsOf id := by
      rw [h.claims]
      exact List.mem_map_of_mem hrow
    obtain ⟨a, ha, -, heq⟩ := mem_claimsOf.1 hlisted
    exact ⟨a, ha, show a.listed.key = _ by rw [heq]; rfl⟩
  · intro p hp
    obtain ⟨row, hrow, rfl⟩ := List.mem_map.1 hp
    have hlisted : phaseRow id 0 (storedUtc env row.1.startUtc) (storedUtc env row.1.endUtc) row.1
        row.2 ∈ t.phasesOf id := by
      rw [h.phases]
      exact List.mem_map_of_mem hrow
    obtain ⟨a, ha, -, heq⟩ := mem_phasesOf.1 hlisted
    exact ⟨a, ha, show a.listed.key = _ by rw [heq]; rfl⟩
  · intro l hl
    obtain ⟨e, he, rfl⟩ := List.mem_map.1 hl
    -- the first event with the identifier has its link
    let key := fun e : DataEventLink × Nat => e.1.externalIdentifier
    have hfirst : firstLike key f.relatedEvents.zipIdx e ∈ keptEvents f.relatedEvents :=
      mem_keepFirst.2 ⟨e, he, rfl⟩
    have hkey := firstLike_key key f.relatedEvents.zipIdx e
    have hlisted := List.mem_map_of_mem (f := fun e => eventLinkRow id none none e.1 e.2) hfirst
    rw [← listedLinks, ← h.eventLinks] at hlisted
    obtain ⟨a, ha, -, heq⟩ := mem_eventLinksOf.1 hlisted
    refine ⟨a, ha, ?_⟩
    change a.listed.key = _
    rw [heq]
    exact Prod.ext rfl hkey
  · intro l hl
    obtain ⟨dl, hdl, rfl⟩ := List.mem_map.1 hl
    exact h.documentLinks dl hdl

end Held

/-! ## A new case study -/

section Fresh
variable {env : CaseEnv} {now : String} {id j : Nat} {t : CaseTables} {f : CaseStudyDataFile}

/-- Rows of a new case study go behind those of the others. -/
theorem foldl_insertUnique_new {α κ : Type*} [DecidableEq κ] {key : α → Nat × κ} {rows t : List α}
    (ht : ∀ a ∈ t, (key a).1 < id) (hrows : ∀ x ∈ rows, (key x).1 = id) :
    rows.foldl (fun t x => (insertUnique key x t).1) t = t ++ keepFirst key rows := by
  refine foldl_insertUnique_fresh fun x hx a ha h => ?_
  have hlt := ht a ha
  rw [h, hrows x hx] at hlt
  exact lt_irrefl id hlt

theorem ChildrenBelow.addDocuments (h : ChildrenBelow t id) (now : String) (ds : List DataDocument) :
    ChildrenBelow (addDocuments now t ds).1 id := by
  obtain ⟨documents, more, htables, -⟩ := addDocuments_spec now t ds
  rw [htables]
  exact ⟨h.phases, h.claims, h.targets, h.eventLinks, h.documentLinks⟩

theorem children_fresh (h : ChildrenBelow t id) : children env now id t f =
    let docs := addDocuments now t f.documents
    { docs.1 with
      documentLinks := docs.1.documentLinks ++
        keepFirst CaseStudyDocumentLink.key (f.documentLinks.map (documentLinkRow id docs.2))
      eventLinks := docs.1.eventLinks ++
        keepFirst CaseStudyEventLink.key (eventLinkRows id docs.2 docs.1.catalog f.relatedEvents)
      phases := docs.1.phases ++ phaseRows env id docs.2 f.phases
      claims := docs.1.claims ++ claimRows id docs.2 f.claims
      targets := docs.1.targets ++ targetRows id f.targets } := by
  have hdocs := h.addDocuments now f.documents
  unfold children
  dsimp only
  generalize addDocuments now t f.documents = docs at hdocs ⊢
  have hphases : keepFirst CaseStudyPhase.key (phaseRows env id docs.2 f.phases) =
      phaseRows env id docs.2 f.phases := by
    rw [keepFirst_eq_self_iff, phaseRows, List.map_map]
    exact nodup_map_zipIdx id f.phases
  have hclaims : keepFirst CaseStudyClaim.key (claimRows id docs.2 f.claims) =
      claimRows id docs.2 f.claims := by
    rw [keepFirst_eq_self_iff, claimRows, List.map_map]
    exact nodup_map_zipIdx id f.claims
  have htargets : keepFirst CaseStudyTarget.key (targetRows id f.targets) = targetRows id f.targets := by
    rw [keepFirst_eq_self_iff, targetRows, List.map_map]
    exact nodup_map_zipIdx id f.targets
  rw [foldl_insertUnique_new hdocs.documentLinks, foldl_insertUnique_new hdocs.eventLinks,
    foldl_insertUnique_new hdocs.phases, foldl_insertUnique_new hdocs.claims,
    foldl_insertUnique_new hdocs.targets, hphases, hclaims, htargets]
  all_goals
    intro x hx
    obtain ⟨y, -, rfl⟩ := List.mem_map.1 hx
    rfl

theorem filter_owner_new {α : Type*} {owner : α → Nat} {t new : List α}
    (ht : ∀ a ∈ t, owner a < id) (hnew : ∀ a ∈ new, owner a = id) :
    (t ++ new).filter (fun a => decide (owner a = id)) = new := by
  rw [List.filter_append, List.filter_eq_nil_iff.2 fun a ha => by simpa using (ht a ha).ne,
    List.filter_eq_self.2 fun a ha => by simpa using hnew a ha, List.nil_append]

theorem filter_owner_old {α : Type*} {owner : α → Nat} {t new : List α}
    (hnew : ∀ a ∈ new, owner a = id) (hj : j < id) :
    (t ++ new).filter (fun a => decide (owner a = j)) = t.filter fun a => decide (owner a = j) := by
  have hnone : new.filter (fun a => decide (owner a = j)) = [] :=
    List.filter_eq_nil_iff.2 fun a ha => by simpa [hnew a ha] using hj.ne'
  rw [List.filter_append, hnone, List.append_nil]

theorem forall_owner_lt_succ {α : Type*} {owner : α → Nat} {t new : List α}
    (ht : ∀ a ∈ t, owner a < id) (hnew : ∀ a ∈ new, owner a = id) :
    ∀ a ∈ t ++ new, owner a < id + 1 := by
  intro a ha
  rcases List.mem_append.1 ha with ha | ha
  · exact Nat.lt_succ_of_lt (ht a ha)
  · exact hnew a ha ▸ Nat.lt_succ_self id

section Rows
variable {docIds : List Nat} {c : CatalogTables}

theorem phaseRows_caseStudyId : ∀ p ∈ phaseRows env id docIds f.phases, p.caseStudyId = id := by
  intro p hp
  obtain ⟨row, -, rfl⟩ := List.mem_map.1 hp
  rfl

theorem claimRows_caseStudyId : ∀ c ∈ claimRows id docIds f.claims, c.caseStudyId = id := by
  intro c hc
  obtain ⟨row, -, rfl⟩ := List.mem_map.1 hc
  rfl

theorem targetRows_caseStudyId : ∀ x ∈ targetRows id f.targets, x.caseStudyId = id := by
  intro x hx
  obtain ⟨row, -, rfl⟩ := List.mem_map.1 hx
  rfl

/-- One link for each identifier. -/
theorem keepFirst_eventLinkRows : keepFirst CaseStudyEventLink.key
    (eventLinkRows id docIds c f.relatedEvents) = (keptEvents f.relatedEvents).map fun e =>
      eventLinkRow id (linkedEvent c e.1.externalIdentifier) (eventDocument docIds e.1) e.1 e.2 := by
  have hkeys : keepFirst (fun e : DataEventLink × Nat => (id, e.1.externalIdentifier))
      f.relatedEvents.zipIdx = keptEvents f.relatedEvents :=
    keepFirst_injective (fun _ _ h => (Prod.mk.inj h).2) _ _
  rw [eventLinkRows, keepFirst_map, ← hkeys]
  rfl

theorem eventLinks_caseStudyId : ∀ l ∈ keepFirst CaseStudyEventLink.key
    (eventLinkRows id docIds c f.relatedEvents), l.caseStudyId = id := by
  intro l hl
  obtain ⟨row, -, rfl⟩ := List.mem_map.1 ((keepFirst_sublist _ _).mem hl)
  rfl

theorem documentLinks_caseStudyId : ∀ l ∈ keepFirst CaseStudyDocumentLink.key
    (f.documentLinks.map (documentLinkRow id docIds)), l.caseStudyId = id := by
  intro l hl
  obtain ⟨dl, -, rfl⟩ := List.mem_map.1 ((keepFirst_sublist _ _).mem hl)
  rfl

end Rows

theorem ChildrenBelow.children (h : ChildrenBelow t id) :
    ChildrenBelow (children env now id t f) (id + 1) := by
  have hdocs := h.addDocuments now f.documents
  rw [children_fresh h]
  exact ⟨forall_owner_lt_succ hdocs.phases phaseRows_caseStudyId,
    forall_owner_lt_succ hdocs.claims claimRows_caseStudyId,
    forall_owner_lt_succ hdocs.targets targetRows_caseStudyId,
    forall_owner_lt_succ hdocs.eventLinks eventLinks_caseStudyId,
    forall_owner_lt_succ hdocs.documentLinks documentLinks_caseStudyId⟩

/-- A new case study has all that its file lists, but for the links of repeated identifiers. -/
theorem FileHeld.of_fresh (h : ChildrenBelow t id) : FileHeld env (children env now id t f) id f := by
  have hdocs := h.addDocuments now f.documents
  obtain ⟨documents, more, htables, hfound, hids⟩ := addDocuments_spec now t f.documents
  have hrevisions : (CaseImport.addDocuments now t f.documents).1.revisions = t.revisions ++ more := by
    rw [htables]
  rw [children_fresh h]
  refine ⟨?_, ?_, ?_, ?_, ?_, ?_⟩
  · dsimp only [CaseTables.phasesOf]
    rw [filter_owner_new hdocs.phases phaseRows_caseStudyId, phaseRows, List.map_map]
    rfl
  · dsimp only [CaseTables.claimsOf]
    rw [filter_owner_new hdocs.claims claimRows_caseStudyId, claimRows, List.map_map]
    rfl
  · exact filter_owner_new hdocs.targets targetRows_caseStudyId
  · dsimp only [CaseTables.eventLinksOf]
    rw [filter_owner_new hdocs.eventLinks eventLinks_caseStudyId, keepFirst_eventLinkRows,
      List.map_map]
    rfl
  · dsimp only
    rwa [hrevisions]
  · dsimp only
    rw [hrevisions, hids]
    intro dl hdl
    exact ⟨_, List.mem_append_right _ (mem_keepFirst.2 ⟨_, List.mem_map_of_mem hdl, rfl⟩),
      firstLike_key _ _ _⟩

/-- What is held of another file stays. -/
theorem FileHeld.children {g : CaseStudyDataFile} (h : FileHeld env t j g) (ht : ChildrenBelow t id)
    (hj : j < id) : FileHeld env (children env now id t f) j g := by
  obtain ⟨documents, more, htables, -⟩ := addDocuments_spec now t f.documents
  rw [children_fresh ht]
  dsimp only
  generalize CaseImport.addDocuments now t f.documents = docs at htables ⊢
  obtain ⟨docTables, docIds⟩ := docs
  obtain rfl : docTables = _ := htables
  refine ⟨?_, ?_, ?_, ?_, ?_, ?_⟩
  · rw [← h.phases]
    dsimp only [CaseTables.phasesOf]
    rw [filter_owner_old phaseRows_caseStudyId hj]
  · rw [← h.claims]
    dsimp only [CaseTables.claimsOf]
    rw [filter_owner_old claimRows_caseStudyId hj]
  · rw [← h.targets]
    exact filter_owner_old targetRows_caseStudyId hj
  · rw [← h.eventLinks]
    dsimp only [CaseTables.eventLinksOf]
    rw [filter_owner_old eventLinks_caseStudyId hj]
  · intro d hd
    dsimp only
    rw [docOf_append (h.documents d hd)]
    exact h.documents d hd
  · intro dl hdl
    obtain ⟨l, hl, hkey⟩ := h.documentLinks dl hdl
    dsimp only
    rw [docIdsOf_append h.documents]
    exact ⟨l, List.mem_append_left _ hl, hkey⟩

end Fresh

/-! ## Runs -/

/-- The case studies are `files`, in order, each with its children. -/
structure CasesHeld (env : CaseEnv) (files : List CaseStudyDataFile) (t : CaseTables) : Prop where
  rows : t.cases.map (fun c => (c.slug, c.contentSha256)) =
    files.map fun f => (f.slug, env.contentSha f)
  slugs : (files.map (·.slug)).Nodup
  valid : ∀ f ∈ files, Valid env f
  held : ∀ id f, files[id]? = some f → FileHeld env t id f
  below : ChildrenBelow t files.length

section Runs
variable {env : CaseEnv} {now : String} {id : Nat} {t : CaseTables} {data : CaseStudyDataFile}
  {files : List CaseStudyDataFile}

theorem CasesHeld.nil (env : CaseEnv) : CasesHeld env [] .empty :=
  ⟨rfl, List.nodup_nil, by simp, by simp, by constructor <;> simp [CaseTables.empty]⟩

theorem CasesHeld.length_eq (h : CasesHeld env files t) : t.cases.length = files.length := by
  simpa using congrArg List.length h.rows

theorem CasesHeld.row (h : CasesHeld env files t) {f : CaseStudyDataFile} (hid : files[id]? = some f) :
    ∃ row, t.cases[id]? = some row ∧ row.slug = f.slug ∧ row.contentSha256 = env.contentSha f := by
  have hrow := congrArg (·[id]?) h.rows
  simp only [List.getElem?_map, hid, Option.map_some, Option.map_eq_some_iff] at hrow
  obtain ⟨row, hrow, heq⟩ := hrow
  exact ⟨row, hrow, congrArg Prod.fst heq, congrArg Prod.snd heq⟩

theorem CasesHeld.file (h : CasesHeld env files t) {row : CaseStudy} (hid : t.cases[id]? = some row) :
    ∃ f, files[id]? = some f ∧ row.slug = f.slug ∧ row.contentSha256 = env.contentSha f := by
  have hfile := congrArg (·[id]?) h.rows
  simp only [List.getElem?_map, hid, Option.map_some] at hfile
  obtain ⟨f, hf, heq⟩ := Option.map_eq_some_iff.1 hfile.symm
  exact ⟨f, hf, (congrArg Prod.fst heq).symm, (congrArg Prod.snd heq).symm⟩

theorem CasesHeld.findIdx? (h : CasesHeld env files t) {f : CaseStudyDataFile}
    (hid : files[id]? = some f) :
    (t.cases.findIdx? fun row => decide (row.slug = f.slug)) = some id := by
  obtain ⟨row, hrow, hslug, -⟩ := h.row hid
  obtain ⟨hlt, hget⟩ := List.getElem?_eq_some_iff.1 hrow
  refine List.findIdx?_eq_some_iff_getElem.2 ⟨hlt, by rw [hget, hslug]; simp, fun j hj hjp => ?_⟩
  -- slugs are unique
  have hrowj := List.getElem?_eq_getElem (hj.trans hlt)
  obtain ⟨g, hg, hgslug, -⟩ := h.file hrowj
  have hjid : j = id := id_eq_of_key h.slugs hg hid (by rw [← hgslug]; exact of_decide_eq_true hjp)
  exact hj.ne hjid

/-- A file that is held is found under its id. -/
theorem insertCaseStudy_known (h : CasesHeld env files t) (hid : files[id]? = some data) :
    insertCaseStudy t (fileRow env now data) = .ok (t, id) := by
  obtain ⟨row, hrow, -, hsha⟩ := h.row hid
  have hfound : (t.cases.findIdx? fun row => decide (row.slug = (fileRow env now data).slug)) = some id :=
    h.findIdx? hid
  rw [insertCaseStudy, hfound]
  dsimp only
  rw [if_pos (by rw [hrow]; exact decide_eq_true hsha)]

/-- Another content under a slug that is held is a conflict. -/
theorem insertCaseStudy_conflict (h : CasesHeld env files t) {f : CaseStudyDataFile}
    (hid : files[id]? = some f) (hslug : f.slug = data.slug)
    (hsha : env.contentSha f ≠ env.contentSha data) :
    insertCaseStudy t (fileRow env now data) =
      .error ("conflicting immutable case study revision for slug '" ++ data.slug ++ "'") := by
  obtain ⟨row, hrow, -, hrowsha⟩ := h.row hid
  have hfound : (t.cases.findIdx? fun row => decide (row.slug = data.slug)) = some id := by
    rw [← hslug]
    exact h.findIdx? hid
  have hfound : (t.cases.findIdx? fun row => decide (row.slug = (fileRow env now data).slug)) = some id :=
    hfound
  have hother : row.contentSha256 ≠ (fileRow env now data).contentSha256 := hrowsha ▸ hsha
  rw [insertCaseStudy, hfound]
  dsimp only
  rw [if_neg (by rw [hrow]; simpa using hother)]
  rfl

theorem insertCaseStudy_new (h : CasesHeld env files t) (hslug : data.slug ∉ files.map (·.slug)) :
    insertCaseStudy t (fileRow env now data) =
      .ok ({ t with cases := t.cases ++ [fileRow env now data] }, files.length) := by
  have hnone : (t.cases.findIdx? fun row => decide (row.slug = (fileRow env now data).slug)) = none := by
    refine List.findIdx?_eq_none_iff.2 fun row hrow => decide_eq_false fun heq => hslug ?_
    obtain ⟨id, hid⟩ := List.getElem?_of_mem hrow
    obtain ⟨f, hf, hfslug, -⟩ := h.file hid
    rw [show data.slug = f.slug from heq.symm.trans hfslug]
    exact List.mem_map_of_mem (List.mem_of_getElem? hf)
  rw [insertCaseStudy, hnone, h.length_eq]

/-- The import of a file that is held writes nothing. -/
theorem importRows_known (now : String) (h : CasesHeld env files t) (hid : files[id]? = some data) :
    ∃ s, importRows env now t data = .ok (t, s) ∧ s.caseStudyId = id := by
  rw [importRows_ok (h.valid data (List.mem_of_getElem? hid)) (insertCaseStudy_known h hid)]
  dsimp only
  rw [(h.held id data hid).children_eq]
  split
  · exact ⟨_, rfl, rfl⟩
  · exact ⟨_, rfl, rfl⟩

theorem importRows_conflict (now : String) (h : CasesHeld env files t) (hvalid : Valid env data)
    {f : CaseStudyDataFile} (hid : files[id]? = some f) (hslug : f.slug = data.slug)
    (hsha : env.contentSha f ≠ env.contentSha data) : ∃ e, importRows env now t data = .error e := by
  rw [importRows_eq hvalid, insertCaseStudy_conflict h hid hslug hsha]
  exact ⟨_, rfl⟩

/-- The tables after the first import of a file. -/
def withFile (env : CaseEnv) (now : String) (t : CaseTables) (data : CaseStudyDataFile) : CaseTables :=
  children env now t.cases.length { t with cases := t.cases ++ [fileRow env now data] } data

theorem importRows_new (now : String) (h : CasesHeld env files t) (hvalid : Valid env data)
    (hslug : data.slug ∉ files.map (·.slug)) :
    ∃ s, importRows env now t data = .ok (withFile env now t data, s) ∧
      s.caseStudyId = files.length := by
  have hno : t.phases.any (fun p => decide (p.caseStudyId = files.length)) = false :=
    List.any_eq_false.2 fun p hp => by simpa using (h.below.phases p hp).ne
  rw [importRows_ok hvalid (insertCaseStudy_new h hslug)]
  dsimp only
  rw [hno, if_neg Bool.false_ne_true, withFile, h.length_eq]
  exact ⟨_, rfl, rfl⟩

theorem CasesHeld.withFile (h : CasesHeld env files t) (hvalid : Valid env data)
    (hslug : data.slug ∉ files.map (·.slug)) :
    CasesHeld env (files ++ [data]) (withFile env now t data) := by
  have hbelow : ChildrenBelow { t with cases := t.cases ++ [fileRow env now data] } files.length :=
    ⟨h.below.phases, h.below.claims, h.below.targets, h.below.eventLinks, h.below.documentLinks⟩
  rw [CaseImport.withFile, h.length_eq]
  refine ⟨?_, ?_, ?_, ?_, ?_⟩
  · obtain ⟨documents, more, htables, -⟩ := addDocuments_spec now
      { t with cases := t.cases ++ [fileRow env now data] } data.documents
    rw [children_fresh hbelow]
    dsimp only
    rw [htables]
    dsimp only
    rw [List.map_append, List.map_append, h.rows]
    rfl
  · rw [List.map_append, List.nodup_append]
    refine ⟨h.slugs, List.nodup_singleton _, ?_⟩
    rintro s hs _ hmem rfl
    rw [List.mem_singleton.1 hmem] at hs
    exact hslug hs
  · intro f hf
    rcases List.mem_append.1 hf with hf | hf
    · exact h.valid f hf
    · exact List.mem_singleton.1 hf ▸ hvalid
  · intro id f hid
    rcases Nat.lt_trichotomy id files.length with hlt | rfl | hgt
    · rw [List.getElem?_append_left hlt] at hid
      have hheld := h.held id f hid
      exact FileHeld.children ⟨hheld.phases, hheld.claims, hheld.targets, hheld.eventLinks,
        hheld.documents, hheld.documentLinks⟩ hbelow hlt
    · rw [List.getElem?_concat_length] at hid
      obtain rfl := Option.some.inj hid
      exact FileHeld.of_fresh hbelow
    · rw [List.getElem?_eq_none (by simpa using hgt)] at hid
      cases hid
  · rw [List.length_append]
    exact hbelow.children

/-- After an import that writes, the file is held under the id it reports. -/
theorem CasesHeld.importRows (hsha : Function.Injective env.contentSha) (h : CasesHeld env files t)
    {r : CaseTables × CaseStudyImportSummary} (hr : importRows env now t data = .ok r) :
    ∃ files', files <+: files' ∧ CasesHeld env files' r.1 ∧ files'[r.2.caseStudyId]? = some data := by
  have hvalid := valid_of_importRows hr
  by_cases hslug : data.slug ∈ files.map (·.slug)
  · obtain ⟨f, hf, hfslug⟩ := List.mem_map.1 hslug
    obtain ⟨id, hid⟩ := List.getElem?_of_mem hf
    by_cases hsame : env.contentSha f = env.contentSha data
    · obtain rfl := hsha hsame
      obtain ⟨s, hs, hsid⟩ := importRows_known now h hid
      rw [hs] at hr
      obtain rfl := Except.ok.inj hr
      exact ⟨files, List.prefix_rfl, h, hsid ▸ hid⟩
    · obtain ⟨e, he⟩ := importRows_conflict now h hvalid hid hfslug hsame
      rw [he] at hr
      cases hr
  · obtain ⟨s, hs, hsid⟩ := importRows_new now h hvalid hslug
    rw [hs] at hr
    obtain rfl := Except.ok.inj hr
    exact ⟨files ++ [data], List.prefix_append .., h.withFile hvalid hslug,
      by rw [hsid, List.getElem?_concat_length]⟩

theorem importCaseStudy_of_ok (call : ImportCall) {r : CaseTables × CaseStudyImportSummary}
    (hfile : call.file = .ok data) (hr : importRows env call.now t data = .ok r) :
    importCaseStudy env t call =
      match call.refused with
      | some e => (t, .error e)
      | none => (r.1, .ok r.2) := by
  unfold importCaseStudy
  cases call.refused <;> simp only [hfile, Except.bind, hr]

theorem importCaseStudy_ok {call : ImportCall} {s : CaseStudyImportSummary} :
    (importCaseStudy env t call).2 = .ok s ↔ call.refused = none ∧ ∃ data, call.file = .ok data ∧
      importRows env call.now t data = .ok ((importCaseStudy env t call).1, s) := by
  unfold importCaseStudy
  cases call.file with
  | error e => simp [Except.bind]
  | ok data =>
    simp only [Except.bind]
    cases hr : importRows env call.now t data with
    | error e => simp [hr]
    | ok r => cases call.refused <;> simp [hr, Prod.ext_iff]

theorem importCaseStudy_error {call : ImportCall} {e : String}
    (h : (importCaseStudy env t call).2 = .error e) : (importCaseStudy env t call).1 = t := by
  unfold importCaseStudy at h ⊢
  split
  · rfl
  · next hr =>
    rw [hr] at h
    split
    · rfl
    · next hnone =>
      rw [hnone] at h
      cases h

theorem CasesHeld.step (hsha : Function.Injective env.contentSha) (h : CasesHeld env files t)
    (op : CaseOp) : ∃ files', files <+: files' ∧ CasesHeld env files' (op.step env t) := by
  cases op with
  | import_ call =>
    cases hresult : (importCaseStudy env t call).2 with
    | error e =>
      refine ⟨files, List.prefix_rfl, ?_⟩
      rw [CaseOp.step, importCaseStudy_error hresult]
      exact h
    | ok s =>
      obtain ⟨-, data, -, hr⟩ := importCaseStudy_ok.1 hresult
      obtain ⟨files', hprefix, hheld, -⟩ := h.importRows hsha hr
      exact ⟨files', hprefix, hheld⟩
  | others catalog documents revisions =>
    refine ⟨files, List.prefix_rfl, h.rows, h.slugs, h.valid, fun id f hid => ?_,
      h.below.phases, h.below.claims, h.below.targets, h.below.eventLinks, h.below.documentLinks⟩
    have hheld := h.held id f hid
    refine ⟨hheld.phases, hheld.claims, hheld.targets, hheld.eventLinks, fun d hd => ?_, ?_⟩
    · dsimp only [CaseOp.step]
      rw [docOf_append (hheld.documents d hd)]
      exact hheld.documents d hd
    · dsimp only [CaseOp.step]
      rw [docIdsOf_append hheld.documents]
      exact hheld.documentLinks

theorem CasesHeld.run (hsha : Function.Injective env.contentSha) (h : CasesHeld env files t)
    (ops : List CaseOp) :
    ∃ files', files <+: files' ∧ CasesHeld env files' (run (CaseOp.step env) t ops) := by
  induction ops generalizing files t with
  | nil => exact ⟨files, List.prefix_rfl, h⟩
  | cons op ops ih =>
    obtain ⟨files', hprefix, hstep⟩ := h.step hsha op
    obtain ⟨files'', hprefix', hrun⟩ := ih hstep
    exact ⟨files'', hprefix.trans hprefix', hrun⟩

end Runs

end Inim.CaseImport
