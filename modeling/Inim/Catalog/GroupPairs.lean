import Inim.Catalog.GroupTable

/-!
# The candidates of one pair (`catalog/grouping.rs:179-343`)

Candidates of different pairs do not touch each other, nor do the groups of case studies. So a generation
is described pair by pair (`generateCandidates_spec`): the signals of the pair are merged, and the merged
evidence is offered once (`OpenAfter`). What was offered is there, so a second generation inserts nothing
(`generateCandidates_again`).
-/

namespace Inim

open Std Inim.Lib

/-! ## The candidates of one pair -/

def HasOpen (groups : List IncidentGroupCandidate) (p : Int × Int) (E : List GroupEvidence) : Prop :=
  ∃ g ∈ groups, OpenRow p g ∧ g.evidence = E

def HasRejected (groups : List IncidentGroupCandidate) (p : Int × Int) (E : List GroupEvidence) : Prop :=
  ∃ g ∈ groups, RejectedRow p g ∧ g.evidence = E

/-- Evidence that a candidate with the evidence `C` supersedes: shorter, and with no other signals. -/
def Smaller (C E : List GroupEvidence) : Prop :=
  E.length < C.length ∧ ∀ e ∈ E, ∃ c ∈ C, c.signal = e.signal

section Pair
variable {sha256 : String → String} {groups : List IncidentGroupCandidate} {p q : Int × Int}
  {E : List GroupEvidence}

theorem Relabelled.hasOpen_iff {groups' : List IncidentGroupCandidate} (h : Relabelled groups groups') :
    HasOpen groups' p E ↔ HasOpen groups p E := by
  obtain ⟨f, rfl, hf⟩ := h
  constructor
  · rintro ⟨g', hg', ⟨⟨hm, hs⟩, hr⟩, rfl⟩
    obtain ⟨g, hg, rfl⟩ := List.mem_map.mp hg'
    rw [(hf g hg).members] at hm
    rw [(hf g hg).evidence] at hs
    rw [(hf g hg).reviewStatus] at hr
    exact ⟨g, hg, ⟨⟨hm, hs⟩, hr⟩, (hf g hg).evidence.symm⟩
  · rintro ⟨g, hg, ⟨⟨hm, hs⟩, hr⟩, rfl⟩
    refine ⟨f g, List.mem_map_of_mem hg, ⟨⟨?_, ?_⟩, ?_⟩, (hf g hg).evidence⟩
    · rw [(hf g hg).members, hm]
    · rwa [(hf g hg).evidence]
    · rw [(hf g hg).reviewStatus, hr]

theorem Relabelled.hasRejected_iff {groups' : List IncidentGroupCandidate}
    (h : Relabelled groups groups') : HasRejected groups' p E ↔ HasRejected groups p E := by
  obtain ⟨f, rfl, hf⟩ := h
  constructor
  · rintro ⟨g', hg', ⟨⟨hm, hs⟩, hr⟩, rfl⟩
    obtain ⟨g, hg, rfl⟩ := List.mem_map.mp hg'
    rw [(hf g hg).members] at hm
    rw [(hf g hg).evidence] at hs
    exact ⟨g, hg, ⟨⟨hm, hs⟩, (hf g hg).rejected.mp hr⟩, (hf g hg).evidence.symm⟩
  · rintro ⟨g, hg, ⟨⟨hm, hs⟩, hr⟩, rfl⟩
    refine ⟨f g, List.mem_map_of_mem hg, ⟨⟨?_, ?_⟩, (hf g hg).rejected.mpr hr⟩, (hf g hg).evidence⟩
    · rw [(hf g hg).members, hm]
    · rwa [(hf g hg).evidence]

/-- Which rows of a pair a draft of a pair supersedes. -/
theorem supersededBy_iff (h : TableInv sha256 groups) {g : IncidentGroupCandidate} (hg : g ∈ groups)
    (ho : OpenRow q g) (hp : p.1 ≤ p.2) (C : List GroupEvidence) :
    supersededBy [p.1, p.2] (C.map (·.signal)) g = true ↔ q = p ∧ Smaller C g.evidence := by
  obtain ⟨hq, hE⟩ := ho.1.evidence (h.shape g hg)
  have hpairs : ([q.1, q.2] : List Int) = [p.1, p.2] ↔ q = p := by
    simp only [List.cons.injEq, and_true]
    exact Prod.ext_iff.symm
  have hsignals : (g.evidence.map (·.signal)).isEmpty = false := by
    simpa using hE.ne_nil
  simp only [supersededBy, ho.2, ho.1.1, sortBy_pair hq, sortBy_pair hp, hpairs, hsignals, decide_true,
    Bool.true_and, Bool.not_false, Bool.and_eq_true, decide_eq_true_eq, Smaller, List.length_map,
    List.all_map, List.any_map, List.all_eq_true, List.any_eq_true, Function.comp_apply]

/-- A row with the fingerprint of evidence of a pair is a row of the pair with this evidence. -/
theorem row_of_fingerprint (hsha : Function.Injective sha256) (h : TableInv sha256 groups)
    {g : IncidentGroupCandidate} (hg : g ∈ groups) (hp : p.1 ≤ p.2) (hE : PairEvidence E)
    (hf : g.evidenceFingerprint = evidenceFingerprint sha256 [p.1, p.2] E) :
    IsPairRow p g ∧ g.evidence = E := by
  have hshape := h.shape g hg
  rw [h.fingerprint g hg] at hf
  obtain ⟨hm, -, hmem⟩ := perm_of_fingerprint_eq hsha hshape (.pair p rfl hp hE) hf
  cases hshape with
  | pair q hgm hq hgE =>
    rw [hgm, sortBy_pair hq, sortBy_pair hp] at hm
    refine ⟨⟨hgm.trans hm, fun e he hs => ?_⟩, hgE.eq_of_mem_iff hE hmem⟩
    have hname := hgE.signals e he
    rw [hs] at hname
    exact absurd hname (by decide)
  | study detail hgE =>
    have hin := (hmem ⟨"SharedCaseStudy", detail⟩).mp (by rw [hgE]; exact List.mem_singleton_self _)
    have hname : "SharedCaseStudy" ∈ pairSignalNames := hE.signals _ hin
    exact absurd hname (by decide)

/-- Two rows of the table with evidence of one pair are one row. -/
theorem eq_of_pairRow (h : TableInv sha256 groups) {g g' : IncidentGroupCandidate} (hg : g ∈ groups)
    (hg' : g' ∈ groups) (hp : IsPairRow p g) (hp' : IsPairRow p g') (he : g.evidence = g'.evidence) :
    g = g' := by
  refine List.inj_on_of_nodup_map h.unique hg hg' ?_
  rw [h.fingerprint g hg, h.fingerprint g' hg', hp.1, hp'.1, he]

/-- What an upsert of a pair's evidence leaves of the candidates of each pair. -/
structure PairUpserted (before after : List IncidentGroupCandidate) (p : Int × Int)
    (C : List GroupEvidence) : Prop where
  rejected : ∀ q E, HasRejected after q E ↔ HasRejected before q E
  others : ∀ q E, q ≠ p → (HasOpen after q E ↔ HasOpen before q E)
  suppressed : HasRejected before p C → ∀ E, HasOpen after p E ↔ HasOpen before p E
  merged : ¬ HasRejected before p C →
    ∀ E, HasOpen after p E ↔ E = C ∨ (HasOpen before p E ∧ ¬ Smaller C E)

theorem hasRejected_supersede (h : TableInv sha256 groups) (members : List Int) (signals : List String) :
    HasRejected (supersedePairGroups groups members signals) q E ↔ HasRejected groups q E := by
  constructor
  · rintro ⟨g, hg, hr⟩
    exact ⟨g, List.mem_of_mem_filter hg, hr⟩
  · rintro ⟨g, hg, hr, he⟩
    have hstatus : g.reviewStatus ≠ "Unreviewed" := fun hs => (h.status g hg).mp hs hr.2
    exact ⟨g, List.mem_filter.mpr ⟨hg, by simp [supersededBy, hstatus]⟩, hr, he⟩

theorem hasOpen_supersede (h : TableInv sha256 groups) (hp : p.1 ≤ p.2) (C : List GroupEvidence) :
    HasOpen (supersedePairGroups groups [p.1, p.2] (C.map (·.signal))) q E ↔
      HasOpen groups q E ∧ ¬ (q = p ∧ Smaller C E) := by
  constructor
  · rintro ⟨g, hg, ho, rfl⟩
    obtain ⟨hg, hs⟩ := List.mem_filter.mp hg
    refine ⟨⟨g, hg, ho, rfl⟩, fun hsm => ?_⟩
    rw [(supersededBy_iff h hg ho hp C).mpr hsm] at hs
    exact absurd hs (by decide)
  · rintro ⟨⟨g, hg, ho, rfl⟩, hsm⟩
    refine ⟨g, List.mem_filter.mpr ⟨hg, ?_⟩, ho, rfl⟩
    rw [← supersededBy_iff h hg ho hp C] at hsm
    simpa using hsm

theorem hasOpen_concat {row : IncidentGroupCandidate} :
    HasOpen (groups ++ [row]) q E ↔ HasOpen groups q E ∨ (OpenRow q row ∧ row.evidence = E) := by
  simp only [HasOpen, List.mem_append, List.mem_singleton]
  constructor
  · rintro ⟨g, hg | rfl, h⟩
    · exact .inl ⟨g, hg, h⟩
    · exact .inr h
  · rintro (⟨g, hg, h⟩ | h)
    · exact ⟨g, .inl hg, h⟩
    · exact ⟨row, .inr rfl, h⟩

theorem hasRejected_concat {row : IncidentGroupCandidate} (hr : row.confidence ≠ "Rejected") :
    HasRejected (groups ++ [row]) q E ↔ HasRejected groups q E := by
  simp only [HasRejected, List.mem_append, List.mem_singleton]
  constructor
  · rintro ⟨g, hg | rfl, h⟩
    · exact ⟨g, hg, h⟩
    · exact absurd h.1.2 hr
  · rintro ⟨g, hg, h⟩
    exact ⟨g, .inl hg, h⟩

theorem Upserted.pair (hsha : Function.Injective sha256) {st st' : List IncidentGroupCandidate × Nat}
    {d : GroupDraft} (h : TableInv sha256 st.1) (hm : d.members = [p.1, p.2]) (hp : p.1 ≤ p.2)
    (hC : PairEvidence d.evidence) (hconf : d.confidence ≠ "Rejected") (hup : Upserted sha256 st d st') :
    PairUpserted st.1 st'.1 p d.evidence := by
  have hnot : ∀ {g}, g ∈ st.1 → IsPairRow p g → g.evidence = d.evidence → g.confidence ≠ "Rejected" →
      ¬ HasRejected st.1 p d.evidence := by
    rintro g hg hpair he hr ⟨g', hg', ⟨hpair', hr'⟩, he'⟩
    obtain rfl := eq_of_pairRow h hg hg' hpair hpair' (he.trans he'.symm)
    exact hr hr'
  have hself : ¬ Smaller d.evidence d.evidence := fun hs => Nat.lt_irrefl _ hs.1
  cases hup with
  | rejected g hg hf hr =>
    rw [hm] at hf
    obtain ⟨hpair, he⟩ := row_of_fingerprint hsha h hg hp hC hf
    exact ⟨fun q E => Iff.rfl, fun q E _ => Iff.rfl, fun _ E => Iff.rfl,
      fun hnr => absurd ⟨g, hg, ⟨hpair, hr⟩, he⟩ hnr⟩
  | kept groups g hg hf hr hsame =>
    rw [hm] at hf hg hsame
    have hg₀ := List.mem_of_mem_filter hg
    obtain ⟨hpair, he⟩ := row_of_fingerprint hsha h hg₀ hp hC hf
    have hopen : HasOpen st.1 p d.evidence := ⟨g, hg₀, ⟨hpair, (h.status g hg₀).mpr hr⟩, he⟩
    refine ⟨fun q E => ?_, fun q E hq => ?_, fun hrej => absurd hrej (hnot hg₀ hpair he hr), fun _ E => ?_⟩
    · rw [hsame.hasRejected_iff, hasRejected_supersede h]
    · rw [hsame.hasOpen_iff, hasOpen_supersede h hp]
      simp [hq]
    · rw [hsame.hasOpen_iff, hasOpen_supersede h hp]
      constructor
      · rintro ⟨ho, hs⟩
        exact .inr ⟨ho, fun hsm => hs ⟨rfl, hsm⟩⟩
      · rintro (rfl | ⟨ho, hs⟩)
        · exact ⟨hopen, fun hs => hself hs.2⟩
        · exact ⟨ho, fun hsm => hs hsm.2⟩
  | inserted row hrm hre hrs hrc hf hid hnone hrej =>
    rw [hm] at hrm hf
    have hrow : IsPairRow p row := by
      refine ⟨hrm, fun e he hs => ?_⟩
      rw [hre] at he
      have hname := hC.signals e he
      rw [hs] at hname
      exact absurd hname (by decide)
    have hnr : ¬ HasRejected st.1 p d.evidence := by
      rintro ⟨g, hg, ⟨hpair, hr⟩, he⟩
      refine hrej g hg ?_ hr
      rw [h.fingerprint g hg, hf, hpair.1, he]
    have hopen : ∀ q, OpenRow q row ↔ q = p := by
      intro q
      constructor
      · intro ho
        have hmem := ho.1.1.symm.trans hrm
        simp only [List.cons.injEq, and_true] at hmem
        exact Prod.ext hmem.1 hmem.2
      · rintro rfl
        exact ⟨hrow, hrs⟩
    rw [hm]
    refine ⟨fun q E => ?_, fun q E hq => ?_, fun hrej => absurd hrej hnr, fun _ E => ?_⟩
    · rw [hasRejected_concat (hrc ▸ hconf), hasRejected_supersede h]
    · rw [hasOpen_concat, hasOpen_supersede h hp, hopen]
      simp [hq]
    · rw [hasOpen_concat, hasOpen_supersede h hp, hopen, hre]
      constructor
      · rintro (⟨ho, hs⟩ | ⟨-, rfl⟩)
        · exact .inr ⟨ho, fun hsm => hs ⟨rfl, hsm⟩⟩
        · exact .inl rfl
      · rintro (rfl | ⟨ho, hs⟩)
        · exact .inr ⟨rfl, rfl⟩
        · exact .inl ⟨ho, fun hsm => hs hsm.2⟩

/-- One signal supersedes nothing: no row has fewer. -/
theorem supersededBy_singleton (members : List Int) (signal : String) (g : IncidentGroupCandidate) :
    supersededBy members [signal] g = false := by
  rw [← Bool.not_eq_true]
  intro hs
  simp only [supersededBy, List.length_singleton, Bool.and_eq_true, Bool.not_eq_true', decide_eq_true_eq,
    List.length_map, Nat.lt_one_iff, List.length_eq_zero_iff] at hs
  obtain ⟨-, ⟨hne, hnil⟩, -⟩ := hs
  rw [hnil] at hne
  exact absurd hne (by decide)

/-- The group of a case study leaves the candidates of pairs alone. -/
theorem Upserted.study {st st' : List IncidentGroupCandidate × Nat} {d : GroupDraft}
    {detail : String} (he : d.evidence = [⟨"SharedCaseStudy", detail⟩])
    (hconf : d.confidence ≠ "Rejected") (hup : Upserted sha256 st d st') :
    (∀ q E, HasRejected st'.1 q E ↔ HasRejected st.1 q E) ∧
      ∀ q E, HasOpen st'.1 q E ↔ HasOpen st.1 q E := by
  have hnone : supersedePairGroups st.1 d.members (d.evidence.map (·.signal)) = st.1 := by
    refine List.filter_eq_self.mpr fun g hg => ?_
    rw [he, List.map_singleton, supersededBy_singleton, Bool.not_false]
  cases hup with
  | rejected => exact ⟨fun q E => Iff.rfl, fun q E => Iff.rfl⟩
  | kept groups g hg hf hr hsame =>
    rw [hnone] at hsame
    exact ⟨fun q E => hsame.hasRejected_iff, fun q E => hsame.hasOpen_iff⟩
  | inserted row hrm hre hrs hrc hf hid hnone' hrej =>
    rw [hnone]
    refine ⟨fun q E => hasRejected_concat (hrc ▸ hconf), fun q E => ?_⟩
    rw [hasOpen_concat, or_iff_left]
    rintro ⟨ho, -⟩
    refine ho.1.2 ⟨"SharedCaseStudy", detail⟩ ?_ rfl
    rw [hre, he]
    exact List.mem_singleton_self _

end Pair

/-! ## The drafts of a generation -/

theorem sortPair_le (a b : Int) : (sortPair a b).1 ≤ (sortPair a b).2 := by
  unfold sortPair
  split <;> simp only <;> omega

theorem mem_edgeSignals {edges : List TicketRelationship} {kind signal : String}
    {detail : TicketRelationship → String} {x : PairSignal}
    (h : x ∈ edgeSignals edges kind signal detail) : x.pair.1 ≤ x.pair.2 ∧ x.evidence.signal = signal := by
  obtain ⟨edge, -, hx⟩ := List.mem_filterMap.mp h
  obtain ⟨toId, -, rfl⟩ := Option.map_eq_some_iff.mp hx
  exact ⟨sortPair_le .., rfl⟩

theorem mem_reviewSignals {a b : TicketReview} {x : PairSignal} (h : x ∈ reviewSignals a b) :
    x.pair.1 ≤ x.pair.2 ∧ x.evidence.signal ∈ pairSignalNames := by
  have hshared : ∀ {signal text shared}, x ∈ sharedSignal (sortPair a.catalogEventId b.catalogEventId)
      signal text shared → x.pair.1 ≤ x.pair.2 ∧ x.evidence.signal = signal := by
    intro signal text shared hx
    unfold sharedSignal at hx
    split at hx
    · exact absurd hx List.not_mem_nil
    · obtain rfl := List.mem_singleton.mp hx
      exact ⟨sortPair_le .., rfl⟩
  rcases List.mem_append.mp h with h | h
  · exact ⟨(hshared h).1, by rw [(hshared h).2]; decide⟩
  · exact ⟨(hshared h).1, by rw [(hshared h).2]; decide⟩

theorem mem_reviewPairSignals {reviews : List TicketReview} {x : PairSignal}
    (h : x ∈ reviewPairSignals reviews) :
    x.pair.1 ≤ x.pair.2 ∧ x.evidence.signal ∈ pairSignalNames := by
  induction reviews with
  | nil => exact absurd h List.not_mem_nil
  | cons a rest ih =>
    rcases List.mem_append.mp h with h | h
    · obtain ⟨b, -, hb⟩ := List.mem_flatMap.mp h
      exact mem_reviewSignals hb
    · exact ih h

/-- Each signal is one of a pair, under one of the names of signals of pairs. -/
theorem mem_pairSignals {s : GroupingState} {x : PairSignal} (h : x ∈ pairSignals s) :
    x.pair.1 ≤ x.pair.2 ∧ x.evidence.signal ∈ pairSignalNames := by
  rcases List.mem_append.mp h with h | h
  · rcases List.mem_append.mp h with h | h
    · exact ⟨(mem_edgeSignals h).1, by rw [(mem_edgeSignals h).2]; decide⟩
    · exact ⟨(mem_edgeSignals h).1, by rw [(mem_edgeSignals h).2]; decide⟩
  · exact mem_reviewPairSignals h

/-- The signals of a pair, as the tables have them now. -/
def currentSignals (s : GroupingState) (p : Int × Int) : List GroupEvidence :=
  ((pairSignals s).filter (·.pair = p)).map (·.evidence)

theorem mem_pairEvidence {s : GroupingState} {p : Int × Int} {e : GroupEvidence} :
    e ∈ pairEvidence (pairSignals s) p ↔ e ∈ currentSignals s p := mem_sortDedup

theorem currentSignals_names {s : GroupingState} {p : Int × Int} {e : GroupEvidence}
    (h : e ∈ currentSignals s p) : p.1 ≤ p.2 ∧ e.signal ∈ pairSignalNames := by
  obtain ⟨x, hx, rfl⟩ := List.mem_map.mp h
  obtain ⟨hx, hp⟩ := List.mem_filter.mp hx
  rw [← of_decide_eq_true hp]
  exact mem_pairSignals hx

theorem pairEvidence_pairEvidence {s : GroupingState} {p : Int × Int} (h : currentSignals s p ≠ []) :
    p.1 ≤ p.2 ∧ PairEvidence (pairEvidence (pairSignals s) p) := by
  obtain ⟨e, he⟩ := List.exists_mem_of_ne_nil _ h
  refine ⟨(currentSignals_names he).1, fun hnil => ?_, ⟨_, rfl⟩, fun e he => ?_⟩
  · have hmem := mem_pairEvidence.mpr he
    rw [hnil] at hmem
    exact absurd hmem List.not_mem_nil
  · exact (currentSignals_names (mem_pairEvidence.mp he)).2

theorem pairDraft_eq_some {p : Int × Int} {E : List GroupEvidence} {d : GroupDraft}
    (h : pairDraft p E = some d) :
    d.members = [p.1, p.2] ∧ d.evidence = E ∧ d.confidence ≠ "Rejected" ∧ E ≠ [] := by
  obtain ⟨category, hc, rfl⟩ := Option.map_eq_some_iff.mp h
  refine ⟨rfl, rfl, ?_, ?_⟩
  · rintro rfl
    revert hc
    unfold classifyPair
    split
    · decide
    · split
      · decide
      · split <;> decide
  · rintro rfl
    exact absurd hc (by simp [classifyPair])

theorem classifyPair_isSome (hasExplicit hasSupport hasTemporal : Bool) :
    (classifyPair hasExplicit hasSupport hasTemporal).isSome =
      (hasExplicit || hasSupport || hasTemporal) := by
  cases hasExplicit <;> cases hasSupport <;> cases hasTemporal <;> rfl

/-- Evidence under the names of signals has a category. -/
theorem pairDraft_isSome {p : Int × Int} {E : List GroupEvidence} (hne : E ≠ [])
    (hnames : ∀ e ∈ E, e.signal ∈ pairSignalNames) : (pairDraft p E).isSome := by
  obtain ⟨e, he⟩ := List.exists_mem_of_ne_nil _ hne
  have hany : ∀ signal, e.signal = signal → (E.any fun x => decide (x.signal = signal)) = true :=
    fun signal hs => List.any_eq_true.mpr ⟨e, he, decide_eq_true hs⟩
  have hname := hnames e he
  simp only [pairSignalNames, List.mem_cons, List.not_mem_nil, or_false] at hname
  simp only [pairDraft, Option.isSome_map, classifyPair_isSome, Bool.or_eq_true]
  rcases hname with hs | hs | hs | hs
  · exact .inl (.inl (hany _ hs))
  · exact .inr (hany _ hs)
  · exact .inl (.inr (.inl (hany _ hs)))
  · exact .inl (.inr (.inr (hany _ hs)))

theorem caseStudyDrafts_shape {rows : List CaseStudyMember} {d : GroupDraft}
    (h : d ∈ caseStudyDrafts rows) :
    (∃ detail, d.evidence = [⟨"SharedCaseStudy", detail⟩]) ∧ d.confidence ≠ "Rejected" := by
  obtain ⟨id, -, hd⟩ := List.mem_filterMap.mp h
  simp only at hd
  split at hd
  · exact absurd hd (by simp)
  · obtain rfl := Option.some.inj hd
    have hconf : "StrongCandidate" ≠ "Rejected" := by decide
    exact ⟨⟨_, rfl⟩, hconf⟩

/-! ## A whole generation -/

/-- The open candidates of a pair after its draft was offered. -/
def OpenAfter (before : List IncidentGroupCandidate) (p : Int × Int) (draft : Option GroupDraft)
    (E : List GroupEvidence) : Prop :=
  match draft with
  | none => HasOpen before p E
  | some d => (HasRejected before p d.evidence ∧ HasOpen before p E) ∨
      (¬ HasRejected before p d.evidence ∧
        (E = d.evidence ∨ (HasOpen before p E ∧ ¬ Smaller d.evidence E)))

theorem PairUpserted.openAfter {before after : List IncidentGroupCandidate} {p : Int × Int}
    {d : GroupDraft} (h : PairUpserted before after p d.evidence) (E : List GroupEvidence) :
    HasOpen after p E ↔ OpenAfter before p (some d) E := by
  unfold OpenAfter
  by_cases hr : HasRejected before p d.evidence
  · simp [hr, h.suppressed hr]
  · simp [hr, h.merged hr]

theorem openAfter_congr {before before' : List IncidentGroupCandidate}
    (hrej : ∀ q E, HasRejected before' q E ↔ HasRejected before q E)
    (hopen : ∀ q E, HasOpen before' q E ↔ HasOpen before q E) {p : Int × Int} {draft : Option GroupDraft}
    {E : List GroupEvidence} : OpenAfter before' p draft E ↔ OpenAfter before p draft E := by
  cases draft with
  | none => exact hopen p E
  | some d => simp only [OpenAfter, hrej, hopen]

instance : TransCmp pairOrder := inferInstanceAs (TransCmp (compareLex _ _))

instance : LawfulEqCmp pairOrder where
  eq_of_compare {a b} h := by
    obtain ⟨h1, h2⟩ := Ordering.then_eq_eq.mp h
    exact Prod.ext (LawfulEqCmp.eq_of_compare h1) (LawfulEqCmp.eq_of_compare h2)

section Fold
variable {sha256 : String → String} (hsha : Function.Injective sha256) (createdUtc : String)
include hsha

omit hsha in
theorem foldl_studyDrafts {ds : List GroupDraft}
    (hds : ∀ d ∈ ds, (∃ detail, d.evidence = [⟨"SharedCaseStudy", detail⟩]) ∧ d.confidence ≠ "Rejected")
    {st : List IncidentGroupCandidate × Nat} (h : TableInv sha256 st.1) :
    TableInv sha256 (ds.foldl (upsertGroup sha256 createdUtc) st).1 ∧
      (∀ q E, HasRejected (ds.foldl (upsertGroup sha256 createdUtc) st).1 q E ↔ HasRejected st.1 q E) ∧
      ∀ q E, HasOpen (ds.foldl (upsertGroup sha256 createdUtc) st).1 q E ↔ HasOpen st.1 q E := by
  induction ds generalizing st with
  | nil => exact ⟨h, fun q E => Iff.rfl, fun q E => Iff.rfl⟩
  | cons d ds ih =>
    obtain ⟨⟨⟨detail, he⟩, hconf⟩, hds⟩ := List.forall_mem_cons.mp hds
    have hup := upsertGroup_upserted createdUtc h hconf
    obtain ⟨hrej, hopen⟩ := hup.study he hconf
    obtain ⟨hinv, hrej', hopen'⟩ := ih hds (hup.tableInv h ⟨.study detail he, hconf⟩)
    exact ⟨hinv, fun q E => (hrej' q E).trans (hrej q E), fun q E => (hopen' q E).trans (hopen q E)⟩

/-- What a draft of the pair is. -/
structure IsPairDraft (p : Int × Int) (d : GroupDraft) : Prop where
  members : d.members = [p.1, p.2]
  ordered : p.1 ≤ p.2
  evidence : PairEvidence d.evidence
  confidence : d.confidence ≠ "Rejected"

omit hsha in
theorem IsPairDraft.shape {p : Int × Int} {d : GroupDraft} (h : IsPairDraft p d) : DraftShape d :=
  ⟨.pair p h.members h.ordered h.evidence, h.confidence⟩

omit hsha in
theorem isPairDraft {s : GroupingState} {p : Int × Int} {d : GroupDraft}
    (h : pairDraft p (pairEvidence (pairSignals s) p) = some d) : IsPairDraft p d := by
  obtain ⟨hm, he, hconf, hne⟩ := pairDraft_eq_some h
  have hcur : currentSignals s p ≠ [] := by
    obtain ⟨e, hmem⟩ := List.exists_mem_of_ne_nil _ hne
    exact List.ne_nil_of_mem (mem_pairEvidence.mp hmem)
  obtain ⟨hle, hpe⟩ := pairEvidence_pairEvidence hcur
  exact ⟨hm, hle, he ▸ hpe, hconf⟩

theorem foldl_pairDrafts {draft : Int × Int → Option GroupDraft}
    (hdraft : ∀ p d, draft p = some d → IsPairDraft p d) {ks : List (Int × Int)} (hks : ks.Nodup)
    {st : List IncidentGroupCandidate × Nat} (h : TableInv sha256 st.1) :
    TableInv sha256 ((ks.filterMap draft).foldl (upsertGroup sha256 createdUtc) st).1 ∧
      (∀ q E, HasRejected ((ks.filterMap draft).foldl (upsertGroup sha256 createdUtc) st).1 q E ↔
        HasRejected st.1 q E) ∧
      ∀ p E, HasOpen ((ks.filterMap draft).foldl (upsertGroup sha256 createdUtc) st).1 p E ↔
        OpenAfter st.1 p (if p ∈ ks then draft p else none) E := by
  induction ks generalizing st with
  | nil => exact ⟨h, fun q E => Iff.rfl, fun p E => by simp [OpenAfter]⟩
  | cons k ks ih =>
    obtain ⟨hk, hks⟩ := List.nodup_cons.mp hks
    cases hd : draft k with
    | none =>
      rw [List.filterMap_cons_none hd]
      obtain ⟨hinv, hrej, hopen⟩ := ih hks h
      refine ⟨hinv, hrej, fun p E => ?_⟩
      rw [hopen]
      by_cases hp : p = k
      · subst hp
        simp [hk, hd]
      · simp [hp]
    | some d =>
      rw [List.filterMap_cons_some hd, List.foldl_cons]
      have hpd := hdraft k d hd
      have hup := upsertGroup_upserted createdUtc h hpd.confidence
      have hpair := hup.pair hsha h hpd.members hpd.ordered hpd.evidence hpd.confidence
      obtain ⟨hinv, hrej, hopen⟩ := ih hks (hup.tableInv h hpd.shape)
      refine ⟨hinv, fun q E => (hrej q E).trans (hpair.rejected q E), fun p E => ?_⟩
      rw [hopen]
      by_cases hp : p = k
      · -- The pair of this draft has no later one.
        subst hp
        simpa [hk, hd, OpenAfter] using hpair.openAfter E
      · have hiff : ∀ E, HasOpen (upsertGroup sha256 createdUtc st d).1 p E ↔ HasOpen st.1 p E :=
          fun E => hpair.others p E hp
        simp only [List.mem_cons, hp, false_or]
        unfold OpenAfter
        split
        · exact hiff E
        · rw [hiff E, hpair.rejected]

theorem generateCandidates_spec {s : GroupingState} (h : TableInv sha256 s.groups) :
    TableInv sha256 (generateCandidates sha256 createdUtc s).1.groups ∧
      (∀ q E, HasRejected (generateCandidates sha256 createdUtc s).1.groups q E ↔
        HasRejected s.groups q E) ∧
      ∀ p E, HasOpen (generateCandidates sha256 createdUtc s).1.groups p E ↔
        OpenAfter s.groups p (pairDraft p (pairEvidence (pairSignals s) p)) E := by
  have hdraft : ∀ p d, pairDraft p (pairEvidence (pairSignals s) p) = some d → IsPairDraft p d :=
    fun p d hd => isPairDraft hd
  have hstart : TableInv sha256 (s.groups, 0).1 := h
  obtain ⟨hinv, hrej, hopen⟩ := foldl_studyDrafts createdUtc
    (fun d (hd : d ∈ caseStudyDrafts s.caseStudies) => caseStudyDrafts_shape hd) hstart
  obtain ⟨hinv', hrej', hopen'⟩ := foldl_pairDrafts hsha createdUtc hdraft
    (sortDedup_nodup ((pairSignals s).map fun x => x.pair) : (sortDedup pairOrder _).Nodup) hinv
  simp only [generateCandidates, candidateDrafts, List.foldl_append]
  refine ⟨hinv', fun q E => (hrej' q E).trans (hrej q E), fun p E => (hopen' p E).trans ?_⟩
  have hkey : (if p ∈ sortDedup pairOrder ((pairSignals s).map fun x => x.pair) then
      pairDraft p (pairEvidence (pairSignals s) p) else none) =
        pairDraft p (pairEvidence (pairSignals s) p) := by
    by_cases hp : p ∈ sortDedup pairOrder ((pairSignals s).map fun x => x.pair)
    · rw [if_pos hp]
    · rw [if_neg hp]
      -- A pair without signals has no evidence, and so no draft.
      cases hd : pairDraft p (pairEvidence (pairSignals s) p) with
      | none => rfl
      | some d =>
        obtain ⟨e, he⟩ := List.exists_mem_of_ne_nil _ (pairDraft_eq_some hd).2.2.2
        obtain ⟨x, hx, -⟩ := List.mem_map.mp (mem_pairEvidence.mp he)
        obtain ⟨hx, hxp⟩ := List.mem_filter.mp hx
        exact absurd (mem_sortDedup.mpr (List.mem_map.mpr ⟨x, hx, of_decide_eq_true hxp⟩)) hp
  rw [hkey]
  exact openAfter_congr hrej hopen

/-! ## A second generation -/

omit hsha in
theorem mem_candidateDrafts {s : GroupingState} {d : GroupDraft} (h : d ∈ candidateDrafts s) :
    DraftShape d ∧ ((∃ detail, d.evidence = [⟨"SharedCaseStudy", detail⟩]) ∨
      ∃ p, IsPairDraft p d ∧ pairDraft p (pairEvidence (pairSignals s) p) = some d) := by
  rcases List.mem_append.mp h with h | h
  · obtain ⟨⟨detail, he⟩, hconf⟩ := caseStudyDrafts_shape h
    exact ⟨⟨.study detail he, hconf⟩, .inl ⟨detail, he⟩⟩
  · obtain ⟨p, -, hd⟩ := List.mem_filterMap.mp h
    have hpd := isPairDraft hd
    exact ⟨hpd.shape, .inr ⟨p, hpd, hd⟩⟩

/-- A row with the fingerprint of a draft is superseded by no draft of the generation. -/
theorem draft_not_superseded {s : GroupingState} {groups : List IncidentGroupCandidate}
    (h : TableInv sha256 groups) {d d' : GroupDraft} (hd : d ∈ candidateDrafts s)
    (hd' : d' ∈ candidateDrafts s) {g : IncidentGroupCandidate} (hg : g ∈ groups)
    (hf : g.evidenceFingerprint = evidenceFingerprint sha256 d.members d.evidence) :
    supersededBy d'.members (d'.evidence.map (·.signal)) g = false := by
  obtain ⟨hshape, hkind⟩ := mem_candidateDrafts hd
  obtain ⟨-, ⟨detail', he'⟩ | ⟨p', hpd', hp'⟩⟩ := mem_candidateDrafts hd'
  · rw [he', List.map_singleton, supersededBy_singleton]
  · rw [h.fingerprint g hg] at hf
    obtain ⟨hm, hlen, hmem⟩ := perm_of_fingerprint_eq hsha (h.shape g hg) hshape.shape hf
    rw [← Bool.not_eq_true]
    intro hs
    simp only [supersededBy, Bool.and_eq_true, decide_eq_true_eq, List.length_map, List.all_map,
      List.all_eq_true, List.any_map, List.any_eq_true, Function.comp_apply] at hs
    obtain ⟨⟨-, hmembers⟩, ⟨-, hlt⟩, hall⟩ := hs
    rcases hkind with ⟨detail, he⟩ | ⟨p, hpd, hp⟩
    · obtain ⟨c, hc, hsig⟩ := hall ⟨"SharedCaseStudy", detail⟩
        ((hmem _).mpr (by rw [he]; exact List.mem_singleton_self _))
      have hname : "SharedCaseStudy" ∈ pairSignalNames := by
        rw [← show c.signal = "SharedCaseStudy" from hsig]
        exact hpd'.evidence.signals c hc
      exact absurd hname (by decide)
    · rw [hm, hpd.members, hpd'.members, sortBy_pair hpd.ordered, sortBy_pair hpd'.ordered] at hmembers
      simp only [List.cons.injEq, and_true] at hmembers
      obtain rfl : p = p' := Prod.ext hmembers.1 hmembers.2
      obtain rfl : d = d' := Option.some.inj (hp.symm.trans hp')
      omega

/-- There is a row with the fingerprint of the draft. -/
def Present (sha256 : String → String) (groups : List IncidentGroupCandidate) (d : GroupDraft) : Prop :=
  ∃ g ∈ groups, g.evidenceFingerprint = evidenceFingerprint sha256 d.members d.evidence

/-- Offering drafts of a generation keeps what is present, makes them present, and inserts no row for
one that is. -/
theorem foldl_present {s : GroupingState} {ds : List GroupDraft} (hds : ∀ d ∈ ds, d ∈ candidateDrafts s)
    {st : List IncidentGroupCandidate × Nat} (h : TableInv sha256 st.1) :
    (∀ d ∈ candidateDrafts s, Present sha256 st.1 d ∨ d ∈ ds →
      Present sha256 (ds.foldl (upsertGroup sha256 createdUtc) st).1 d) ∧
    ((∀ d ∈ candidateDrafts s, Present sha256 st.1 d) →
      (ds.foldl (upsertGroup sha256 createdUtc) st).2 = st.2) := by
  induction ds generalizing st with
  | nil => exact ⟨fun d _ hd => hd.elim id fun hd => absurd hd List.not_mem_nil, fun _ => rfl⟩
  | cons d ds ih =>
    obtain ⟨hd, hds⟩ := List.forall_mem_cons.mp hds
    have hshape := (mem_candidateDrafts hd).1
    have hup := upsertGroup_upserted createdUtc h hshape.confidence
    have hinv := hup.tableInv h hshape
    have hkeep : ∀ d' ∈ candidateDrafts s, Present sha256 st.1 d' →
        Present sha256 (upsertGroup sha256 createdUtc st d).1 d' := by
      rintro d' hd' ⟨g, hg, hf⟩
      obtain ⟨g', hg', hf'⟩ := hup.fingerprint_kept hg (draft_not_superseded hsha h hd' hd hg hf)
      exact ⟨g', hg', hf'.trans hf⟩
    obtain ⟨hpresent, hcount⟩ := ih hds hinv
    refine ⟨fun d' hd' hor => hpresent d' hd' ?_, fun hall => ?_⟩
    · rcases hor with hp | hmem
      · exact .inl (hkeep d' hd' hp)
      · rcases List.mem_cons.mp hmem with rfl | hmem
        · exact .inl hup.fingerprint_self
        · exact .inr hmem
    · rw [List.foldl_cons, hcount fun d' hd' => hkeep d' hd' (hall d' hd')]
      obtain ⟨g, hg, hf⟩ := hall d hd
      exact hup.count_of_present hg hf (draft_not_superseded hsha h hd hd hg hf)

/-- A second generation inserts nothing. -/
theorem generateCandidates_again (againUtc : String) {s : GroupingState}
    (h : TableInv sha256 s.groups) :
    (generateCandidates sha256 againUtc (generateCandidates sha256 createdUtc s).1).2 = 0 := by
  have hstart : TableInv sha256 (s.groups, 0).1 := h
  have hfirst := (foldl_present hsha createdUtc (s := s) (fun d hd => hd) hstart).1
  have hdrafts : candidateDrafts (generateCandidates sha256 createdUtc s).1 = candidateDrafts s := rfl
  have hinv : TableInv sha256 ((generateCandidates sha256 createdUtc s).1.groups, 0).1 :=
    (generateCandidates_spec hsha createdUtc h).1
  have hsecond := (foldl_present hsha againUtc (s := s) (fun d hd => hd) hinv).2
  exact hsecond fun d hd => hfirst d hd (.inr hd)

end Fold

end Inim
