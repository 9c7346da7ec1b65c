import Inim.Catalog.CaseImportRuns
import Inim.Sources.Viewer
/-!
# What an import of a case study promises (`catalog/case_study_import.rs:350-368`, `:505-697`)

"Unintended overlap: consecutive phases must not overlap (touching boundaries are allowed); each phase
start must precede its end." "The import is transactional, idempotent (slug + content hash), and
schema-validated; a conflicting immutable revision for the same slug is rejected."

* **Bug**: the boundaries are compared as texts, so offsets and fractions let phases through that
  overlap or end before they start; and as whole seconds are stored, a phase within a second is empty.
* **Bug**: one link is kept for each identifier, so a second relationship of a ticket is dropped.

`importKept_iff` is the exact condition.
-/

namespace Inim.CaseImport

open Inim.Lib

/-! ## Phases in time -/

section Times
variable (env : CaseEnv) (view : Moment → Moment)

/-- One text's time is before another's. Times are seen as instants, or in whole seconds. -/
def Earlier (a b : String) : Prop :=
  ∃ x ∈ env.parseFromRfc3339 a, ∃ y ∈ env.parseFromRfc3339 b, view x < view y

def NoLater (a b : String) : Prop :=
  ∃ x ∈ env.parseFromRfc3339 a, ∃ y ∈ env.parseFromRfc3339 b, view x ≤ view y

/-- Each phase starts before it ends, and no two overlap. -/
structure InOrder (phases : List DataPhase) : Prop where
  each : ∀ p ∈ phases, Earlier env view p.startUtc p.endUtc
  apart : phases.Pairwise fun p q =>
    NoLater env view p.endUtc q.startUtc ∨ NoLater env view q.endUtc p.startUtc

/-- Where the texts are in order the times are, a phase's even in whole seconds. -/
structure TextsTell (phases : List DataPhase) : Prop where
  each : ∀ p ∈ phases, p.startUtc < p.endUtc → Earlier env Moment.wholeSecond p.startUtc p.endUtc
  apart : phases.Pairwise fun p q => (p.endUtc ≤ q.startUtc ∨ q.endUtc ≤ p.startUtc) →
    (NoLater env id p.endUtc q.startUtc ∨ NoLater env id q.endUtc p.startUtc)

end Times

theorem wholeSecond_mono {x y : Moment} (h : x ≤ y) : x.wholeSecond ≤ y.wholeSecond := by
  rw [Prod.Lex.le_iff] at h
  rw [Prod.Lex.le_iff]
  rcases h with h | ⟨hsecond, hnanos⟩
  · exact Or.inl h
  · refine Or.inr ⟨hsecond, ?_⟩
    simp only [Moment.wholeSecond, ofLex_toLex]
    split <;> split <;> omega

section Texts
variable {env : CaseEnv} {phases : List DataPhase} {data : CaseStudyDataFile}

theorem Earlier.of_wholeSecond {a b : String} (h : Earlier env Moment.wholeSecond a b) :
    Earlier env id a b := by
  obtain ⟨x, hx, y, hy, hlt⟩ := h
  exact ⟨x, hx, y, hy, lt_of_not_ge fun hle => hlt.not_ge (wholeSecond_mono hle)⟩

theorem NoLater.wholeSecond {a b : String} (h : NoLater env id a b) :
    NoLater env Moment.wholeSecond a b := by
  obtain ⟨x, hx, y, hy, hle⟩ := h
  exact ⟨x, hx, y, hy, wholeSecond_mono hle⟩

/-- What is checked of neighbours holds of any two, as no text of a start is past its end's. -/
theorem pairwise_texts (hover : overlapProblems phases = [])
    (hordered : ∀ p ∈ phases, p.startUtc < p.endUtc) :
    phases.Pairwise fun p q => p.endUtc ≤ q.startUtc ∨ q.endUtc ≤ p.startUtc := by
  let R : DataPhase × Nat → DataPhase × Nat → Prop := fun a b =>
    a.1.endUtc ≤ b.1.startUtc ∧ b.1.startUtc < b.1.endUtc
  have : IsTrans _ R := ⟨fun a b c hab hbc => ⟨hab.1.trans (hab.2.le.trans hbc.1), hbc.2⟩⟩
  let sorted := sortBy (compareLex (compareOn (·.1.startUtc)) (compareOn (·.2))) phases.zipIdx
  have hperm : sorted.Perm phases.zipIdx := sortBy_perm _ _
  have hchain : sorted.IsChain R := by
    rw [isChain_iff_windows2]
    intro w hw
    have hno := List.flatMap_eq_nil_iff.1 hover w hw
    rw [problemIf_eq_nil, decide_eq_false_iff_not, not_lt] at hno
    have hmem : w.2 ∈ sorted := List.mem_of_mem_tail (List.of_mem_zip hw).2
    exact ⟨hno, hordered _ (List.fst_mem_of_mem_zipIdx (hperm.mem_iff.1 hmem))⟩
  have hsorted : sorted.Pairwise fun a b =>
      a.1.endUtc ≤ b.1.startUtc ∨ b.1.endUtc ≤ a.1.startUtc :=
    hchain.pairwise.imp fun hab => Or.inl hab.1
  have hrows := (hperm.pairwise_iff fun {a b} => Or.symm).1 hsorted
  rw [← List.zipIdx_map_fst 0 phases, List.pairwise_map]
  exact hrows

theorem TextsTell.inOrder (h : TextsTell env data.phases) (hvalid : Valid env data) :
    InOrder env id data.phases ∧ InOrder env Moment.wholeSecond data.phases := by
  have hordered := hvalid.ordered
  have heach : ∀ p ∈ data.phases, Earlier env Moment.wholeSecond p.startUtc p.endUtc :=
    fun p hp => h.each p hp (hordered p hp)
  have hapart : data.phases.Pairwise fun p q =>
      NoLater env id p.endUtc q.startUtc ∨ NoLater env id q.endUtc p.startUtc :=
    h.apart.imp₂ (fun _ _ htell htexts => htell htexts) (pairwise_texts hvalid.overlaps hordered)
  exact ⟨⟨fun p hp => (heach p hp).of_wholeSecond, hapart⟩, heach,
    hapart.imp fun hpq => hpq.imp NoLater.wholeSecond NoLater.wholeSecond⟩

theorem TextsTell.of_inOrder (h : InOrder env id phases)
    (h' : InOrder env Moment.wholeSecond phases) : TextsTell env phases := by
  refine ⟨fun p hp _ => h'.each p hp, h.apart.imp ?_⟩
  intro p q hpq _
  exact hpq

end Texts

/-! ## The promise -/

section Promise
variable (env : CaseEnv) (t : CaseTables) (call : ImportCall)

/-- What is said of an import. -/
structure ImportKept : Prop where
  inOrder : ∀ data s, call.file = .ok data → (importCaseStudy env t call).2 = .ok s →
    InOrder env id data.phases ∧ InOrder env Moment.wholeSecond data.phases
  stored : ∀ data s, call.file = .ok data → (importCaseStudy env t call).2 = .ok s →
    let t' := (importCaseStudy env t call).1
    t'.phasesOf s.caseStudyId = listedPhases env s.caseStudyId data.phases ∧
      t'.claimsOf s.caseStudyId = listedClaims s.caseStudyId data.claims ∧
      t'.targetsOf s.caseStudyId = targetRows s.caseStudyId data.targets ∧
      t'.eventLinksOf s.caseStudyId = listedLinks s.caseStudyId data.relatedEvents.zipIdx
  again : ∀ s, (importCaseStudy env t call).2 = .ok s → ∀ ops now refused,
    let t' := run (CaseOp.step env) (importCaseStudy env t call).1 ops
    let second := importCaseStudy env t' { file := call.file, now := now, refused := refused }
    second.1 = t' ∧ (refused = none → ∃ s', second.2 = .ok s')
  rejected : ∀ e, (importCaseStudy env t call).2 = .error e → (importCaseStudy env t call).1 = t
  conflicting : ∀ data, call.file = .ok data →
    (∃ row ∈ t.cases, row.slug = data.slug ∧ row.contentSha256 ≠ env.contentSha data) →
    ∃ e, importCaseStudy env t call = (t, .error e)

/-- Of a file that is imported the texts of the boundaries tell their order, and no identifier is
listed twice. -/
def ImportFair : Prop :=
  ∀ data, call.file = .ok data → call.refused = none → Valid env data →
    (∀ row ∈ t.cases, row.slug = data.slug → row.contentSha256 = env.contentSha data) →
    TextsTell env data.phases ∧ (data.relatedEvents.map (·.externalIdentifier)).Nodup

end Promise

section Kept
variable {env : CaseEnv} {t : CaseTables} {call : ImportCall} {data : CaseStudyDataFile}
  {files : List CaseStudyDataFile}

/-- A valid file goes in when its slug has no other content. -/
theorem exists_importRows (hsha : Function.Injective env.contentSha) (h : CasesHeld env files t)
    (hvalid : Valid env data)
    (hslug : ∀ row ∈ t.cases, row.slug = data.slug → row.contentSha256 = env.contentSha data)
    (now : String) : ∃ r, importRows env now t data = .ok r := by
  by_cases hknown : data.slug ∈ files.map (·.slug)
  · obtain ⟨f, hf, hfslug⟩ := List.mem_map.1 hknown
    obtain ⟨id, hid⟩ := List.getElem?_of_mem hf
    obtain ⟨row, hrow, hrowslug, hrowsha⟩ := h.row hid
    have hsame := hslug row (List.mem_of_getElem? hrow) (hrowslug.trans hfslug)
    obtain rfl := hsha (hrowsha.symm.trans hsame)
    obtain ⟨s, hs, -⟩ := importRows_known now h hid
    exact ⟨_, hs⟩
  · obtain ⟨s, hs, -⟩ := importRows_new now h hvalid hknown
    exact ⟨_, hs⟩

/-- An import that succeeds finds no other content under the slug. -/
theorem same_content_of_importRows (h : CasesHeld env files t) {now : String}
    {r : CaseTables × CaseStudyImportSummary} (hr : importRows env now t data = .ok r) :
    ∀ row ∈ t.cases, row.slug = data.slug → row.contentSha256 = env.contentSha data := by
  intro row hrow hslug
  obtain ⟨id, hid⟩ := List.getElem?_of_mem hrow
  obtain ⟨f, hf, hfslug, hfsha⟩ := h.file hid
  by_contra hother
  obtain ⟨e, he⟩ := importRows_conflict now h (valid_of_importRows hr) hf
    (hfslug.symm.trans hslug) fun hsame => hother (hfsha.trans hsame)
  rw [he] at hr
  cases hr

theorem keptEvents_eq_iff {es : List DataEventLink} :
    keptEvents es = es.zipIdx ↔ (es.map (·.externalIdentifier)).Nodup := by
  have hkeys : es.zipIdx.map (·.1.externalIdentifier) = es.map (·.externalIdentifier) := by
    conv_rhs => rw [← List.zipIdx_map_fst 0 es, List.map_map]
    rfl
  rw [keptEvents, keepFirst_eq_self_iff, hkeys]

theorem nodup_of_listedLinks {id : Nat} {es : List DataEventLink}
    (h : listedLinks id (keptEvents es) = listedLinks id es.zipIdx) :
    (es.map (·.externalIdentifier)).Nodup := by
  have hlength := congrArg List.length h
  rw [listedLinks, listedLinks, List.length_map, List.length_map] at hlength
  exact keptEvents_eq_iff.1 ((keepFirst_sublist _ _).eq_of_length hlength)

variable (hsha : Function.Injective env.contentSha)
include hsha

theorem ImportKept.fair (hheld : CasesHeld env files t) (h : ImportKept env t call) :
    ImportFair env t call := by
  intro data hfile hrefused hvalid hslug
  obtain ⟨r, hr⟩ := exists_importRows hsha hheld hvalid hslug call.now
  have hcall : importCaseStudy env t call = (r.1, .ok r.2) := by
    rw [importCaseStudy_of_ok call hfile hr, hrefused]
  have hok : (importCaseStudy env t call).2 = .ok r.2 := by rw [hcall]
  obtain ⟨horder, hseconds⟩ := h.inOrder data r.2 hfile hok
  refine ⟨.of_inOrder horder hseconds, ?_⟩
  have hlinks := (h.stored data r.2 hfile hok).2.2.2
  rw [hcall] at hlinks
  obtain ⟨files', -, hheld', hid⟩ := hheld.importRows hsha hr
  rw [(hheld'.held _ _ hid).eventLinks] at hlinks
  exact nodup_of_listedLinks hlinks

theorem ImportFair.kept (hheld : CasesHeld env files t) (h : ImportFair env t call) :
    ImportKept env t call := by
  have hfair : ∀ data s, call.file = .ok data → (importCaseStudy env t call).2 = .ok s →
      importRows env call.now t data = .ok ((importCaseStudy env t call).1, s) ∧
      TextsTell env data.phases ∧ (data.relatedEvents.map (·.externalIdentifier)).Nodup := by
    intro data s hfile hok
    obtain ⟨hrefused, data', hfile', hr⟩ := importCaseStudy_ok.1 hok
    rw [hfile] at hfile'
    obtain rfl := Except.ok.inj hfile'
    exact ⟨hr, h data hfile hrefused (valid_of_importRows hr) (same_content_of_importRows hheld hr)⟩
  refine ⟨fun data s hfile hok => ?_, fun data s hfile hok => ?_, fun s hok ops now refused => ?_,
    fun e => importCaseStudy_error, fun data hfile hother => ?_⟩
  · obtain ⟨hr, htexts, -⟩ := hfair data s hfile hok
    exact htexts.inOrder (valid_of_importRows hr)
  · obtain ⟨hr, -, hnodup⟩ := hfair data s hfile hok
    obtain ⟨files', -, hheld', hid⟩ := hheld.importRows hsha hr
    have hfile := hheld'.held _ _ hid
    refine ⟨hfile.phases, hfile.claims, hfile.targets, ?_⟩
    rw [hfile.eventLinks, keptEvents_eq_iff.2 hnodup]
  · -- the file is held, whatever has happened in between
    obtain ⟨-, data, hfile, hr⟩ := importCaseStudy_ok.1 hok
    obtain ⟨files', -, hheld', hid⟩ := hheld.importRows hsha hr
    obtain ⟨files'', hprefix, hlater⟩ := hheld'.run hsha ops
    obtain ⟨s', hs', -⟩ := importRows_known now hlater (getElem?_of_initial hprefix hid)
    dsimp only
    rw [importCaseStudy_of_ok { file := call.file, now := now, refused := refused } hfile hs']
    cases refused with
    | none => exact ⟨rfl, fun _ => ⟨s', rfl⟩⟩
    | some e => exact ⟨rfl, fun hnone => by cases hnone⟩
  · obtain ⟨row, hrow, hslug, hsha'⟩ := hother
    cases hok : (importCaseStudy env t call).2 with
    | error e => exact ⟨e, Prod.ext (importCaseStudy_error hok) hok⟩
    | ok s =>
      obtain ⟨hr, -⟩ := hfair data s hfile hok
      exact absurd (same_content_of_importRows hheld hr row hrow hslug) hsha'

end Kept

/-- In every reachable state an import keeps what is said of it exactly if the file is fair. -/
theorem importKept_iff {env : CaseEnv} (hsha : Function.Injective env.contentSha)
    (ops : List CaseOp) (call : ImportCall) :
    let t := run (CaseOp.step env) .empty ops
    ImportKept env t call ↔ ImportFair env t call := by
  obtain ⟨files, -, hheld⟩ := (CasesHeld.nil env).run hsha ops
  exact ⟨ImportKept.fair hsha hheld, ImportFair.kept hsha hheld⟩

/-! ## A shared hour -/

namespace Shared

instance countableChar : Countable Char :=
  Function.Injective.countable (f := Char.toNat) fun _ _ => Char.toNat_inj.1

instance countableString : Countable String :=
  Function.Injective.countable (f := String.toList) fun _ _ => String.toList_inj.1

instance countableUInt32 : Countable UInt32 :=
  Function.Injective.countable (f := UInt32.toNat) fun _ _ => UInt32.toNat_inj.1

deriving instance Countable for DataDocument, DataDocumentLink, DataPhase, DataEventLink, DataClaim,
  DataTarget, CaseStudyDataFile

/-- Some digest without collisions. -/
noncomputable def digest (f : CaseStudyDataFile) : String :=
  String.ofList (List.replicate (Classical.choose (exists_injective_nat CaseStudyDataFile) f) '0')

theorem digest_injective : Function.Injective digest := by
  intro f g h
  have hlist := congrArg List.length (String.ofList_inj.1 h)
  rw [List.length_replicate, List.length_replicate] at hlist
  exact Classical.choose_spec (exists_injective_nat CaseStudyDataFile) hlist

/-- What the texts here mean; the third has an offset. -/
def times : List (String × Moment) :=
  [("2026-01-01T10:00:00Z", toLex (1767261600, 0)),
    ("2026-01-01T12:00:00Z", toLex (1767268800, 0)),
    ("2026-01-01T12:30:00+01:00", toLex (1767267000, 0)),
    ("2026-01-01T13:00:00Z", toLex (1767272400, 0))]

noncomputable def env : CaseEnv where
  parseFromRfc3339 := fun s => times.lookup s
  toRfc3339 := fun m => formatRfc3339 (ofLex m).1
  contentSha := digest

def report : DataDocument where
  title := "After-action report"
  sourceUrl := none
  docType := "AfterActionReport"
  mediaType := "application/pdf"
  sha256 := "00112233445566778899aabbccddeeff00112233445566778899aabbccddeeff"
  pageCount := none
  publicationDate := none
  provenance := "network operator"
  redistributionStatus := none
  localPath := none

def phase (label startUtc endUtc : String) : DataPhase where
  label := label
  startUtc := startUtc
  endUtc := endUtc
  startPrecision := "exact"
  endPrecision := "exact"
  description := ""
  sourceDocument := 0
  sourcePageOrSection := "p. 1"
  reviewStatus := "Reviewed"

def file (phases : List DataPhase) : CaseStudyDataFile where
  schemaVersion := 1
  slug := "incident-a"
  title := "Incident A"
  summary := "Two phases."
  startUtc := none
  endUtc := none
  status := none
  documents := [report]
  documentLinks := []
  phases := phases
  relatedEvents := []
  claims := []
  targets := []
  interconnectionContext := none

def outage : DataPhase := phase "Outage" "2026-01-01T10:00:00Z" "2026-01-01T12:00:00Z"

/-- It starts at 11:30. -/
def recovery : DataPhase := phase "Recovery" "2026-01-01T12:30:00+01:00" "2026-01-01T13:00:00Z"

def call (phases : List DataPhase) : ImportCall := ⟨.ok (file phases), "2026-01-02T00:00:00Z", none⟩

theorem valid_both : Valid env (file [outage, recovery]) := by
  refine ⟨?_, by simp [file], by simp [file]⟩
  decide +kernel

theorem not_noLater {a b : String} {x y : Moment} (ha : times.lookup a = some x)
    (hb : times.lookup b = some y) (h : y < x) : ¬ NoLater env id a b := by
  rintro ⟨x', hx, y', hy, hle⟩
  obtain rfl := Option.some.inj (ha.symm.trans hx)
  obtain rfl := Option.some.inj (hb.symm.trans hy)
  exact absurd h hle.not_gt

/-- The texts put the outage before the recovery, but half an hour of them is shared. -/
theorem not_textsTell : ¬ TextsTell env [outage, recovery] := by
  intro h
  have hapart := (List.pairwise_pair.1 h.apart) (Or.inl (by decide +kernel))
  rcases hapart with hle | hle
  · exact not_noLater (x := toLex (1767268800, 0)) (y := toLex (1767267000, 0)) (by decide +kernel)
      (by decide +kernel) (by decide +kernel) hle
  · exact not_noLater (x := toLex (1767272400, 0)) (y := toLex (1767261600, 0)) (by decide +kernel)
      (by decide +kernel) (by decide +kernel) hle

end Shared

open Shared in
theorem not_importKept : ¬ ∀ env : CaseEnv, Function.Injective env.contentSha →
    ∀ (ops : List CaseOp) (call : ImportCall),
      ImportKept env (run (CaseOp.step env) .empty ops) call := by
  intro h
  have hfair := (h env digest_injective [] (call [outage, recovery])).fair digest_injective (.nil env)
  exact not_textsTell (hfair (file [outage, recovery]) rfl rfl valid_both (by simp [CaseTables.empty])).1

open Shared in
theorem importKept_outage : ImportKept env .empty (call [outage]) := by
  refine (importKept_iff digest_injective [] (call [outage])).2 fun data hfile _ _ _ => ?_
  obtain rfl := Except.ok.inj hfile
  refine ⟨⟨fun p hp _ => ?_, List.pairwise_singleton _ _⟩, List.nodup_nil⟩
  obtain rfl := List.mem_singleton.1 hp
  exact ⟨toLex (1767261600, 0), rfl, toLex (1767268800, 0), rfl, by decide +kernel⟩

end Inim.CaseImport
