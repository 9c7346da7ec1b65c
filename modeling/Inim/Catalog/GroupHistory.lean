import Inim.Catalog.GroupPairs
import Inim.Lib.Runs

/-!
# Histories of candidate groups (`catalog/grouping.rs`)

"A pair gets ONE candidate whose evidence is the union of every supporting signal", superseded rows are
kept in the merged one, and "a rejected candidate is not regenerated without NEW evidence"
(`grouping.rs:16-25`). A row is superseded by the names of its signals and the length of its evidence,
and a rejection is found by its exact fingerprint.

* **Bug** (`two_open_candidates`): evidence whose text has changed under the same signals leaves two open
  candidates of one pair. So does evidence that has become less.
* **Bug**: evidence that is only part of what was rejected comes back as a new candidate.

`generateCandidates_iff` gives the exact condition, for every history.
-/

namespace Inim

open Std Inim.Lib

/-! ## The law of a generation -/

/-- What a generation is meant to do to the candidates of each pair. -/
structure GenerationLaw (s s' : GroupingState) : Prop where
  one : ∀ p, ∀ g ∈ s'.groups, ∀ g' ∈ s'.groups, OpenRow p g → OpenRow p g' → g = g'
  union : ∀ p, ∀ g ∈ s'.groups, OpenRow p g → ∀ e, e ∈ g.evidence ↔ e ∈ currentSignals s p
  /-- The evidence of a row that was deleted is in the row that stays. -/
  merged : ∀ p, ∀ g ∈ s.groups, OpenRow p g →
    (∀ g' ∈ s'.groups, g'.evidenceFingerprint ≠ g.evidenceFingerprint) →
    ∃ g' ∈ s'.groups, OpenRow p g' ∧ ∀ e ∈ g.evidence, e ∈ g'.evidence
  /-- A new row of a pair has evidence that a rejected candidate did not have. -/
  suppressed : ∀ p, ∀ r ∈ s.groups, RejectedRow p r → ∀ n ∈ s'.groups, OpenRow p n →
    (∀ g ∈ s.groups, g.evidenceFingerprint ≠ n.evidenceFingerprint) → ∃ e ∈ n.evidence, e ∉ r.evidence

/-- What each pair has to meet before a generation. -/
structure Mergeable (s : GroupingState) (p : Int × Int) : Prop where
  /-- Nothing that an open candidate shows has gone. -/
  known : ∀ g ∈ s.groups, OpenRow p g → ∀ e ∈ g.evidence, e ∈ currentSignals s p
  /-- If the signals are again those of a rejected candidate, no candidate is open. -/
  settled : ∀ r ∈ s.groups, RejectedRow p r → (∀ e, e ∈ r.evidence ↔ e ∈ currentSignals s p) →
    ∀ g ∈ s.groups, ¬ OpenRow p g
  /-- If the signals are those of no candidate, each rejected one lacks one of them. -/
  fresh : currentSignals s p ≠ [] →
    (∀ g ∈ s.groups, IsPairRow p g → ¬ ∀ e, e ∈ g.evidence ↔ e ∈ currentSignals s p) →
    ∀ r ∈ s.groups, RejectedRow p r → ∃ e ∈ currentSignals s p, e ∉ r.evidence

section Law
variable {sha256 : String → String} (hsha : Function.Injective sha256) (createdUtc : String)
  {s : GroupingState} {p : Int × Int}

theorem TableInv.open_evidence {groups : List IncidentGroupCandidate} (h : TableInv sha256 groups)
    {E : List GroupEvidence} (ho : HasOpen groups p E) : PairEvidence E := by
  obtain ⟨g, hg, ho, rfl⟩ := ho
  exact (ho.1.evidence (h.shape g hg)).2

theorem TableInv.rejected_evidence {groups : List IncidentGroupCandidate} (h : TableInv sha256 groups)
    {E : List GroupEvidence} (hr : HasRejected groups p E) : PairEvidence E := by
  obtain ⟨g, hg, hr, rfl⟩ := hr
  exact (hr.1.evidence (h.shape g hg)).2

/-- The law in terms of the evidence that is open and rejected, before and after. -/
structure PairLaw (before after : List IncidentGroupCandidate) (p : Int × Int) (C : List GroupEvidence) :
    Prop where
  union : ∀ E, HasOpen after p E → ∀ e, e ∈ E ↔ e ∈ C
  merged : ∀ E, HasOpen before p E → ¬ HasOpen after p E →
    ∃ E', HasOpen after p E' ∧ ∀ e ∈ E, e ∈ E'
  suppressed : ∀ R, HasRejected before p R → ∀ E, HasOpen after p E → ¬ HasOpen before p E →
    ∃ e ∈ E, e ∉ R

/-- A row with the fingerprint of an open or a rejected row of the pair is that row. -/
theorem fingerprint_mem_iff (hsha : Function.Injective sha256) {groups : List IncidentGroupCandidate}
    (h : TableInv sha256 groups) {before : List IncidentGroupCandidate} (hb : TableInv sha256 before)
    {g : IncidentGroupCandidate} (hg : g ∈ before) (hp : IsPairRow p g) :
    (∃ g' ∈ groups, g'.evidenceFingerprint = g.evidenceFingerprint) ↔
      HasOpen groups p g.evidence ∨ HasRejected groups p g.evidence := by
  obtain ⟨hle, hE⟩ := hp.evidence (hb.shape g hg)
  have hfp := hb.fingerprint g hg
  rw [hp.1] at hfp
  constructor
  · rintro ⟨g', hg', hf⟩
    obtain ⟨hp', he'⟩ := row_of_fingerprint hsha h hg' hle hE (hf.trans hfp)
    by_cases hr : g'.confidence = "Rejected"
    · exact .inr ⟨g', hg', ⟨hp', hr⟩, he'⟩
    · exact .inl ⟨g', hg', ⟨hp', (h.status g' hg').mpr hr⟩, he'⟩
  · have hback : ∀ g' ∈ groups, IsPairRow p g' → g'.evidence = g.evidence →
        g'.evidenceFingerprint = g.evidenceFingerprint := by
      intro g' hg' hp' he'
      rw [h.fingerprint g' hg', hfp, hp'.1, he']
    rintro (⟨g', hg', ho, he'⟩ | ⟨g', hg', hr, he'⟩)
    · exact ⟨g', hg', hback g' hg' ho.1 he'⟩
    · exact ⟨g', hg', hback g' hg' hr.1 he'⟩

/-- Evidence of a pair is not both open and rejected. -/
theorem not_open_of_rejected {groups : List IncidentGroupCandidate} (h : TableInv sha256 groups)
    {E : List GroupEvidence} (hr : HasRejected groups p E) : ¬ HasOpen groups p E := by
  rintro ⟨g, hg, ho, rfl⟩
  obtain ⟨r, hrg, hr, he⟩ := hr
  obtain rfl := eq_of_pairRow h hg hrg ho.1 hr.1 he.symm
  exact (h.status g hg).mp ho.2 hr.2

include hsha

theorem generationLaw_iff {s' : GroupingState} (h : TableInv sha256 s.groups)
    (h' : TableInv sha256 s'.groups)
    (hrej : ∀ q E, HasRejected s'.groups q E ↔ HasRejected s.groups q E) :
    GenerationLaw s s' ↔ ∀ p, PairLaw s.groups s'.groups p (currentSignals s p) := by
  constructor
  · rintro ⟨-, hunion, hmerged, hsuppressed⟩ p
    refine ⟨?_, ?_, ?_⟩
    · rintro E ⟨g, hg, ho, rfl⟩
      exact hunion p g hg ho
    · rintro E ⟨g, hg, ho, rfl⟩ hnot
      obtain ⟨g', hg', ho', hsub⟩ := hmerged p g hg ho fun g' hg' hf => by
        rcases (fingerprint_mem_iff hsha h' h hg ho.1).mp ⟨g', hg', hf⟩ with hopen | hr
        · exact hnot hopen
        · exact not_open_of_rejected h ((hrej p _).mp hr) ⟨g, hg, ho, rfl⟩
      exact ⟨g'.evidence, ⟨g', hg', ho', rfl⟩, hsub⟩
    · rintro R ⟨r, hr, hrr, rfl⟩ E ⟨n, hn, ho, rfl⟩ hnot
      refine hsuppressed p r hr hrr n hn ho fun g hg hf => ?_
      rcases (fingerprint_mem_iff hsha h h' hn ho.1).mp ⟨g, hg, hf⟩ with hopen | hr
      · exact hnot hopen
      · exact not_open_of_rejected h' ((hrej p _).mpr hr) ⟨n, hn, ho, rfl⟩
  · intro hpair
    refine ⟨?_, ?_, ?_, ?_⟩
    · intro p g hg g' hg' ho ho'
      refine eq_of_pairRow h' hg hg' ho.1 ho'.1 ?_
      refine (ho.1.evidence (h'.shape g hg)).2.eq_of_mem_iff (ho'.1.evidence (h'.shape g' hg')).2 ?_
      intro e
      rw [(hpair p).union _ ⟨g, hg, ho, rfl⟩, (hpair p).union _ ⟨g', hg', ho', rfl⟩]
    · exact fun p g hg ho => (hpair p).union _ ⟨g, hg, ho, rfl⟩
    · intro p g hg ho hnone
      obtain ⟨E', ⟨g', hg', ho', rfl⟩, hsub⟩ := (hpair p).merged _ ⟨g, hg, ho, rfl⟩ fun hopen => by
        obtain ⟨g', hg', hf⟩ := (fingerprint_mem_iff hsha h' h hg ho.1).mpr (.inl hopen)
        exact hnone g' hg' hf
      exact ⟨g', hg', ho', hsub⟩
    · intro p r hr hrr n hn ho hnew
      refine (hpair p).suppressed _ ⟨r, hr, hrr, rfl⟩ _ ⟨n, hn, ho, rfl⟩ fun hopen => ?_
      obtain ⟨g, hg, hf⟩ := (fingerprint_mem_iff hsha h h' hn ho.1).mpr (.inl hopen)
      exact hnew g hg hf

omit hsha in
/-- The condition, in terms of the evidence that is open and rejected. -/
theorem mergeable_iff (h : TableInv sha256 s.groups) :
    Mergeable s p ↔
      (∀ E, HasOpen s.groups p E → ∀ e ∈ E, e ∈ currentSignals s p) ∧
      (∀ R, HasRejected s.groups p R → (∀ e, e ∈ R ↔ e ∈ currentSignals s p) →
        ∀ E, ¬ HasOpen s.groups p E) ∧
      (currentSignals s p ≠ [] →
        (∀ E, HasOpen s.groups p E ∨ HasRejected s.groups p E →
          ¬ ∀ e, e ∈ E ↔ e ∈ currentSignals s p) →
        ∀ R, HasRejected s.groups p R → ∃ e ∈ currentSignals s p, e ∉ R) := by
  have hrows : ∀ {Q : List GroupEvidence → Prop},
      (∀ E, HasOpen s.groups p E ∨ HasRejected s.groups p E → Q E) ↔
        ∀ g ∈ s.groups, IsPairRow p g → Q g.evidence := by
    intro Q
    constructor
    · intro hall g hg hp
      by_cases hr : g.confidence = "Rejected"
      · exact hall _ (.inr ⟨g, hg, ⟨hp, hr⟩, rfl⟩)
      · exact hall _ (.inl ⟨g, hg, ⟨hp, (h.status g hg).mpr hr⟩, rfl⟩)
    · rintro hall E (⟨g, hg, ho, rfl⟩ | ⟨g, hg, hr, rfl⟩)
      · exact hall g hg ho.1
      · exact hall g hg hr.1
  rw [hrows]
  constructor
  · rintro ⟨hknown, hsettled, hfresh⟩
    refine ⟨?_, ?_, fun hne hno => ?_⟩
    · rintro E ⟨g, hg, ho, rfl⟩
      exact hknown g hg ho
    · rintro R ⟨r, hr, hrr, rfl⟩ hiff E ⟨g, hg, ho, -⟩
      exact hsettled r hr hrr hiff g hg ho
    · rintro R ⟨r, hr, hrr, rfl⟩
      exact hfresh hne hno r hr hrr
  · rintro ⟨hknown, hsettled, hfresh⟩
    exact ⟨fun g hg ho => hknown _ ⟨g, hg, ho, rfl⟩,
      fun r hr hrr hiff g hg ho => hsettled _ ⟨r, hr, hrr, rfl⟩ hiff _ ⟨g, hg, ho, rfl⟩,
      fun hne hno r hr hrr => hfresh hne hno _ ⟨r, hr, hrr, rfl⟩⟩

omit hsha in
/-- No signals: the candidates of the pair stay as they are. -/
theorem pairLaw_of_no_signals {after : List IncidentGroupCandidate} (h : TableInv sha256 s.groups)
    (hafter : ∀ E, HasOpen after p E ↔ HasOpen s.groups p E) (hnil : currentSignals s p = []) :
    PairLaw s.groups after p (currentSignals s p) ↔ Mergeable s p := by
  rw [mergeable_iff h]
  constructor
  · rintro ⟨hunion, -, -⟩
    refine ⟨fun E ho e he => (hunion E ((hafter E).mpr ho) e).mp he, fun R hr hiff => ?_,
      fun hne => absurd hnil hne⟩
    refine absurd (List.eq_nil_iff_forall_not_mem.mpr fun e he => ?_) (h.rejected_evidence hr).ne_nil
    have hmem := (hiff e).mp he
    rw [hnil] at hmem
    exact absurd hmem List.not_mem_nil
  · rintro ⟨hknown, -, -⟩
    have hnone : ∀ E, ¬ HasOpen s.groups p E := by
      intro E ho
      obtain ⟨e, he⟩ := List.exists_mem_of_ne_nil _ (h.open_evidence ho).ne_nil
      have hmem := hknown E ho e he
      rw [hnil] at hmem
      exact absurd hmem List.not_mem_nil
    exact ⟨fun E ho => absurd ((hafter E).mp ho) (hnone E), fun E ho => absurd ho (hnone E),
      fun R _ E ho => absurd ((hafter E).mp ho) (hnone E)⟩

omit hsha in
/-- The signals are those of a rejected candidate: nothing is done. -/
theorem pairLaw_of_rejected {after : List IncidentGroupCandidate} {D : List GroupEvidence}
    (h : TableInv sha256 s.groups) (hafter : ∀ E, HasOpen after p E ↔ HasOpen s.groups p E)
    (hD : PairEvidence D) (hmem : ∀ e, e ∈ D ↔ e ∈ currentSignals s p)
    (hr : HasRejected s.groups p D) :
    PairLaw s.groups after p (currentSignals s p) ↔ Mergeable s p := by
  rw [mergeable_iff h]
  constructor
  · rintro ⟨hunion, -, -⟩
    refine ⟨fun E ho e he => (hunion E ((hafter E).mpr ho) e).mp he, fun _ _ _ E ho => ?_,
      fun _ hno => absurd hmem (hno _ (.inr hr))⟩
    obtain rfl : E = D := (h.open_evidence ho).eq_of_mem_iff hD fun e => by
      rw [hunion E ((hafter E).mpr ho), hmem]
    exact not_open_of_rejected h hr ho
  · rintro ⟨-, hsettled, -⟩
    have hnone := hsettled _ hr hmem
    exact ⟨fun E ho => absurd ((hafter E).mp ho) (hnone E), fun E ho => absurd ho (hnone E),
      fun R _ E ho => absurd ((hafter E).mp ho) (hnone E)⟩

omit hsha in
/-- The evidence is merged, and replaces what it supersedes. -/
theorem pairLaw_of_merged {after : List IncidentGroupCandidate} {D : List GroupEvidence}
    (h : TableInv sha256 s.groups)
    (hafter : ∀ E, HasOpen after p E ↔ E = D ∨ (HasOpen s.groups p E ∧ ¬ Smaller D E))
    (hD : PairEvidence D) (hmem : ∀ e, e ∈ D ↔ e ∈ currentSignals s p)
    (hr : ¬ HasRejected s.groups p D) :
    PairLaw s.groups after p (currentSignals s p) ↔ Mergeable s p := by
  rw [mergeable_iff h]
  have heq : ∀ {E}, PairEvidence E → (∀ e, e ∈ E ↔ e ∈ currentSignals s p) → E = D :=
    fun hE hiff => hE.eq_of_mem_iff hD fun e => by rw [hiff, hmem]
  constructor
  · rintro ⟨hunion, hmerged, hsuppressed⟩
    refine ⟨fun E ho e heE => ?_, fun R hR hiff => ?_, fun _ hno R hR => ?_⟩
    · by_cases ha : HasOpen after p E
      · exact (hunion E ha e).mp heE
      · obtain ⟨E', ha', hsub⟩ := hmerged E ho ha
        exact (hunion E' ha' e).mp (hsub e heE)
    · obtain rfl := heq (h.rejected_evidence hR) hiff
      exact absurd hR hr
    · have hnot : ¬ HasOpen s.groups p D := fun ho => hno _ (.inl ho) hmem
      obtain ⟨e, heD, heR⟩ := hsuppressed R hR D ((hafter _).mpr (.inl rfl)) hnot
      exact ⟨e, (hmem e).mp heD, heR⟩
  · rintro ⟨hknown, -, hfresh⟩
    have hsmaller : ∀ E, HasOpen s.groups p E → E ≠ D → Smaller D E := by
      intro E ho hneD
      have hsub : ∀ e ∈ E, e ∈ D := fun e heE => (hmem e).mpr (hknown E ho e heE)
      exact ⟨(h.open_evidence ho).length_lt hD hsub hneD, fun e heE => ⟨e, hsub e heE, rfl⟩⟩
    refine ⟨fun E ha => ?_, fun E ho hna => ?_, fun R hR E ha hnot => ?_⟩
    · rcases (hafter E).mp ha with rfl | ⟨ho, hns⟩
      · exact hmem
      · obtain rfl : E = D := by
          by_contra hneD
          exact hns (hsmaller E ho hneD)
        exact hmem
    · exact ⟨D, (hafter _).mpr (.inl rfl), fun e heE => (hmem e).mpr (hknown E ho e heE)⟩
    · obtain rfl : E = D := by
        rcases (hafter E).mp ha with rfl | ⟨ho, -⟩
        · rfl
        · exact absurd ho hnot
      have hcur : currentSignals s p ≠ [] := by
        obtain ⟨e, heD⟩ := List.exists_mem_of_ne_nil _ hD.ne_nil
        exact List.ne_nil_of_mem ((hmem e).mp heD)
      obtain ⟨e, heC, heR⟩ := hfresh hcur (fun E hE hiff => by
        rcases hE with ho | hR'
        · obtain rfl := heq (h.open_evidence ho) hiff
          exact hnot ho
        · obtain rfl := heq (h.rejected_evidence hR') hiff
          exact hr hR') R hR
      exact ⟨e, (hmem e).mpr heC, heR⟩

/-- A generation keeps the law for a pair exactly if the pair meets the condition. -/
theorem pairLaw_iff (h : TableInv sha256 s.groups) :
    PairLaw s.groups (generateCandidates sha256 createdUtc s).1.groups p (currentSignals s p) ↔
      Mergeable s p := by
  obtain ⟨-, -, hopen⟩ := generateCandidates_spec hsha createdUtc h
  cases hd : pairDraft p (pairEvidence (pairSignals s) p) with
  | none =>
    have hnil : currentSignals s p = [] := by
      by_contra hne
      obtain ⟨-, hpe⟩ := pairEvidence_pairEvidence hne
      have hsome := pairDraft_isSome (p := p) hpe.ne_nil hpe.signals
      rw [hd] at hsome
      exact absurd hsome (by decide)
    exact pairLaw_of_no_signals h (fun E => by rw [hopen, hd, OpenAfter]) hnil
  | some d =>
    obtain ⟨-, he, -, -⟩ := pairDraft_eq_some hd
    have hmem : ∀ e, e ∈ d.evidence ↔ e ∈ currentSignals s p := fun e => by
      rw [he, mem_pairEvidence]
    by_cases hr : HasRejected s.groups p d.evidence
    · exact pairLaw_of_rejected h (fun E => by simp [hopen, hd, OpenAfter, hr])
        (isPairDraft hd).evidence hmem hr
    · exact pairLaw_of_merged h (fun E => by simp [hopen, hd, OpenAfter, hr])
        (isPairDraft hd).evidence hmem hr

end Law

/-! ## Histories -/

theorem TableInv.reject {sha256 : String → String} {groups : List IncidentGroupCandidate}
    (h : TableInv sha256 groups) (candidateId : Int) (now : String) :
    TableInv sha256 (rejectCandidate groups candidateId now) := by
  have hids : (rejectCandidate groups candidateId now).map (·.id) = groups.map (·.id) := by
    rw [rejectCandidate, List.map_map]
    exact List.map_congr_left fun g _ => by
      simp only [Function.comp_apply]
      split <;> rfl
  have hfps : (rejectCandidate groups candidateId now).map (·.evidenceFingerprint) =
      groups.map (·.evidenceFingerprint) := by
    rw [rejectCandidate, List.map_map]
    exact List.map_congr_left fun g _ => by
      simp only [Function.comp_apply]
      split <;> rfl
  refine ⟨hids ▸ h.ids, hfps ▸ h.unique, ?_, ?_, ?_⟩ <;>
    rw [rejectCandidate, List.forall_mem_map] <;> intro g hg <;> split
  · exact h.fingerprint g hg
  · exact h.fingerprint g hg
  · exact h.shape g hg
  · exact h.shape g hg
  · have hno : "Reviewed" ≠ "Unreviewed" := by decide
    exact iff_of_false hno fun hne => hne rfl
  · exact h.status g hg

section Histories
variable {sha256 : String → String} (hsha : Function.Injective sha256) (ops : List GroupingOp)
include hsha

theorem tableInv_run : TableInv sha256 (run (GroupingOp.step sha256) .empty ops).groups := by
  refine run_invariant (P := fun s : GroupingState => TableInv sha256 s.groups) ?_ (fun s op h => ?_) ops
  · exact ⟨List.nodup_nil, List.nodup_nil, fun g hg => absurd hg List.not_mem_nil,
      fun g hg => absurd hg List.not_mem_nil, fun g hg => absurd hg List.not_mem_nil⟩
  · cases op with
    | change => exact h
    | reject candidateId now => exact h.reject candidateId now
    | generate createdUtc => exact (generateCandidates_spec hsha createdUtc h).1

/-- After any history of changes, rejections and generations: a second generation inserts nothing, and a
generation keeps the law exactly if each pair meets the condition before it. -/
theorem generateCandidates_iff (createdUtc againUtc : String) :
    (generateCandidates sha256 againUtc
      (generateCandidates sha256 createdUtc (run (GroupingOp.step sha256) .empty ops)).1).2 = 0 ∧
    (GenerationLaw (run (GroupingOp.step sha256) .empty ops)
        (generateCandidates sha256 createdUtc (run (GroupingOp.step sha256) .empty ops)).1 ↔
      ∀ p, Mergeable (run (GroupingOp.step sha256) .empty ops) p) := by
  have h := tableInv_run hsha ops
  obtain ⟨h', hrej, -⟩ := generateCandidates_spec hsha createdUtc h
  refine ⟨generateCandidates_again hsha createdUtc againUtc h, ?_⟩
  rw [generationLaw_iff hsha h h' hrej]
  exact forall_congr' fun p => pairLaw_iff hsha createdUtc h

end Histories

namespace SharedLabels

/-- Two tickets whose reviews share the labels. -/
def reviews (labels : List String) : List TicketReview :=
  [⟨1, 1, "INC0040100", labels, []⟩, ⟨2, 2, "INC0040101", labels, []⟩]

/-- A generation, and then another label is reviewed. -/
def history : List GroupingOp :=
  [.change [] [] (reviews ["router-a"]), .generate "2026-08-01T00:00:00Z",
    .change [] [] (reviews ["router-a", "router-b"])]

/-- The first generation keeps the law. -/
theorem generateCandidates_first :
    (generateCandidates id "2026-08-02T00:00:00Z" (generateCandidates id "2026-08-01T00:00:00Z"
      (run (GroupingOp.step id) .empty (history.take 1))).1).2 = 0 ∧
    GenerationLaw (run (GroupingOp.step id) .empty (history.take 1))
      (generateCandidates id "2026-08-01T00:00:00Z"
        (run (GroupingOp.step id) .empty (history.take 1))).1 := by
  obtain ⟨hcount, hlaw⟩ := generateCandidates_iff Function.injective_id (history.take 1)
    "2026-08-01T00:00:00Z" "2026-08-02T00:00:00Z"
  refine ⟨hcount, hlaw.mpr fun p => ?_⟩
  have hnone : ∀ g, g ∉ (run (GroupingOp.step id) .empty (history.take 1)).groups :=
    fun g => List.not_mem_nil
  exact ⟨fun g hg => absurd hg (hnone g), fun r hr => absurd hr (hnone r),
    fun _ _ r hr => absurd hr (hnone r)⟩

def row (id : Int) (labels at_ : String) : IncidentGroupCandidate where
  id := id
  label := "Weak candidate 1 <-> 2"
  memberEventIds := [1, 2]
  evidence := [⟨"SharedReviewedEntity", "shared reviewed entity/asset label(s): " ++ labels⟩]
  confidence := "WeakCandidate"
  reviewStatus := "Unreviewed"
  evidenceFingerprint := evidenceFingerprint (fun s => s) [1, 2]
    [⟨"SharedReviewedEntity", "shared reviewed entity/asset label(s): " ++ labels⟩]
  createdUtc := at_
  updatedUtc := at_

end SharedLabels

open SharedLabels in
/-- **Bug.** The shared labels are one text. With another label the text is new, the signal is not, and
so the earlier candidate stays open beside the new one. -/
theorem two_open_candidates :
    ¬ ∀ (sha256 : String → String), Function.Injective sha256 →
      ∀ (ops : List GroupingOp) (createdUtc againUtc : String),
      (generateCandidates sha256 againUtc
        (generateCandidates sha256 createdUtc (run (GroupingOp.step sha256) .empty ops)).1).2 = 0 ∧
      GenerationLaw (run (GroupingOp.step sha256) .empty ops)
        (generateCandidates sha256 createdUtc (run (GroupingOp.step sha256) .empty ops)).1 := by
  intro h
  obtain ⟨-, hlaw⟩ := h (fun s => s) Function.injective_id history "2026-08-02T00:00:00Z"
    "2026-08-03T00:00:00Z"
  have hgroups : (generateCandidates (fun s => s) "2026-08-02T00:00:00Z"
      (run (GroupingOp.step fun s => s) .empty history)).1.groups =
        [row 1 "router-a" "2026-08-01T00:00:00Z",
          row 2 "router-a, router-b" "2026-08-02T00:00:00Z"] := by
    decide +kernel
  have hopen : ∀ id labels at_, OpenRow (1, 2) (row id labels at_) := by
    refine fun id labels at_ => ⟨⟨rfl, fun e he => ?_⟩, rfl⟩
    obtain rfl := List.mem_singleton.mp he
    have hno : "SharedReviewedEntity" ≠ "SharedCaseStudy" := by decide
    exact hno
  have hsame := hlaw.one (1, 2) (row 1 "router-a" "2026-08-01T00:00:00Z") (by simp [hgroups])
    (row 2 "router-a, router-b" "2026-08-02T00:00:00Z") (by simp [hgroups]) (hopen ..) (hopen ..)
  exact absurd (congrArg (·.id) hsame) (by decide)

end Inim
