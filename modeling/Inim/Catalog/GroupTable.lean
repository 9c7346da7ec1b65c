import Inim.Catalog.Grouping

/-!
# The table of candidate groups (`catalog/grouping.rs`, `store.rs:1018-1145`)

A fingerprint tells the members and the evidence of a candidate, under a digest without collisions
(`perm_of_fingerprint_eq`). `TableInv` is what holds of the table at any time, and `Upserted` what one
upsert does to it.
-/

namespace Inim

open Std Inim.Lib

/-! ## Fingerprints -/

theorem toString_int_ne_nil (n : Int) : (toString n).toList ≠ [] := by
  intro h
  cases n with
  | ofNat n =>
    have hlen := @Nat.length_toDigits_pos 10 n
    change (toString n).toList = [] at h
    rw [Nat.toString_eq_ofList_toDigits, String.toList_ofList] at h
    exact absurd (congrArg List.length h) hlen.ne'
  | negSucc n =>
    change ("-" ++ Nat.repr (n + 1)).toList = [] at h
    simp at h

theorem jsonInts_code : PrefixCode fun l : List Int => (jsonArray (l.map toString)).toList := by
  have hstart : ∀ (n : Int) (r s : List Char), (toString n).toList ++ r ≠ ']' :: s := by
    intro n r s h
    obtain ⟨d, ds, hd⟩ := List.exists_cons_of_ne_nil (toString_int_ne_nil n)
    have hmem : d ∈ (toString n).toList := hd ▸ List.mem_cons_self
    rw [hd, List.cons_append] at h
    rw [(List.cons.inj h).1] at hmem
    exact toString_int_free hmem (by decide)
  have hcode := (CodeBefore.sepBy (c := ',') (w := []) jsonInt_code (by decide) (by decide)
    (by decide) hstart).lit_append ['[']
  intro l m r s h
  exact @hcode l m r s (by simpa [jsonArray, Function.comp_def] using h)

theorem fingerprintPayload_inj {m m' : List Int} {s s' : List String}
    (h : fingerprintPayload m s = fingerprintPayload m' s') : m = m' ∧ s = s' := by
  have h' := congrArg String.toList h
  simp only [fingerprintPayload, jsonObject, List.map_cons, List.map_nil, String.intercalate_cons_cons,
    String.intercalate_singleton, String.toList_append, List.append_assoc] at h'
  obtain ⟨hm, h'⟩ := jsonInts_code (List.append_cancel_left (List.append_cancel_left
    (List.append_cancel_left h')))
  obtain ⟨hs, -⟩ := jsonStrings_code (List.append_cancel_left (List.append_cancel_left
    (List.append_cancel_left h')))
  exact ⟨hm, hs⟩

/-- The signals of pairs: none of them has a colon. -/
def pairSignalNames : List String :=
  ["ExplicitTicketText", "DerivedTemporalOverlap", "SharedReviewedEntity", "SharedMaintenanceChange"]

/-- A text tells its signal and its detail, unless the signal has a colon. -/
theorem text_inj {e e' : GroupEvidence} (hs : ':' ∉ e.signal.toList) (hs' : ':' ∉ e'.signal.toList)
    (h : e.text = e'.text) : e = e' := by
  have h' := congrArg String.toList h
  have hcolon : ":".toList = [':'] := rfl
  simp only [GroupEvidence.text, String.toList_append, List.append_assoc, hcolon,
    List.singleton_append] at h'
  obtain ⟨hsignal, hdetail⟩ := append_cons_inj hs hs' h'
  exact GroupEvidence.ext (String.toList_inj.mp hsignal) (String.toList_inj.mp hdetail)

/-- Evidence of a pair, as a generation merges it. -/
structure PairEvidence (E : List GroupEvidence) : Prop where
  ne_nil : E ≠ []
  sorted : ∃ l, E = sortDedup evidenceOrder l
  signals : ∀ e ∈ E, e.signal ∈ pairSignalNames

theorem no_colon {signal : String} (h : signal ∈ pairSignalNames ∨ signal = "SharedCaseStudy") :
    ':' ∉ signal.toList := by
  have hall : ∀ signal ∈ "SharedCaseStudy" :: pairSignalNames, ':' ∉ signal.toList := by decide
  rcases h with h | rfl
  · exact hall signal (List.mem_cons_of_mem _ h)
  · exact hall _ List.mem_cons_self

instance : TransCmp evidenceOrder := inferInstanceAs (TransCmp (compareLex _ _))

instance : LawfulEqCmp evidenceOrder where
  eq_of_compare {a b} h := by
    obtain ⟨hs, hd⟩ := Ordering.then_eq_eq.mp h
    exact GroupEvidence.ext (LawfulEqCmp.eq_of_compare hs) (LawfulEqCmp.eq_of_compare hd)

namespace PairEvidence
variable {E E' : List GroupEvidence}

theorem eq_of_mem_iff (h : PairEvidence E) (h' : PairEvidence E') (hmem : ∀ e, e ∈ E ↔ e ∈ E') :
    E = E' := by
  obtain ⟨l, rfl⟩ := h.sorted
  obtain ⟨l', rfl⟩ := h'.sorted
  refine sortDedup_eq_iff.mpr fun e => ?_
  rw [← @mem_sortDedup _ _ evidenceOrder, hmem, mem_sortDedup]

theorem nodup (h : PairEvidence E) : E.Nodup := by
  obtain ⟨l, rfl⟩ := h.sorted
  exact sortDedup_nodup l

/-- Evidence that is part of other evidence, and not all of it, is shorter. -/
theorem length_lt (h : PairEvidence E) (h' : PairEvidence E') (hsub : ∀ e ∈ E, e ∈ E') (hne : E ≠ E') :
    E.length < E'.length := by
  have hsubperm := h.nodup.subperm hsub
  refine hsubperm.length_le.lt_of_ne fun hlen => hne ?_
  exact h.eq_of_mem_iff h' fun e => (hsubperm.perm_of_length_le hlen.ge).mem_iff

end PairEvidence

/-- What the members and the evidence of a candidate are. -/
inductive RowShape (members : List Int) (E : List GroupEvidence) : Prop
  | pair (p : Int × Int) (hm : members = [p.1, p.2]) (hp : p.1 ≤ p.2) (hE : PairEvidence E)
  | study (detail : String) (hE : E = [⟨"SharedCaseStudy", detail⟩])

theorem RowShape.no_colon {members : List Int} {E : List GroupEvidence} (h : RowShape members E) :
    ∀ e ∈ E, ':' ∉ e.signal.toList := by
  cases h with
  | pair p _ _ hE => exact fun e he => Inim.no_colon (.inl (hE.signals e he))
  | study detail hE =>
    rw [hE]
    intro e he
    obtain rfl := List.mem_singleton.mp he
    exact Inim.no_colon (.inr rfl)

section Fingerprint
variable {sha256 : String → String} (hsha : Function.Injective sha256) {m m' : List Int}
  {E E' : List GroupEvidence}
include hsha

/-- A fingerprint tells the members and the evidence, but not the order of either. -/
theorem perm_of_fingerprint_eq (hE : RowShape m E) (hE' : RowShape m' E')
    (h : evidenceFingerprint sha256 m E = evidenceFingerprint sha256 m' E') :
    sortBy compare m = sortBy compare m' ∧ E.length = E'.length ∧ ∀ e, e ∈ E ↔ e ∈ E' := by
  obtain ⟨hm, hs⟩ := fingerprintPayload_inj (hsha h)
  have hperm : (E.map (·.text)).Perm (E'.map (·.text)) := sortBy_eq_iff_perm.mp hs
  refine ⟨hm, by simpa using hperm.length_eq, fun e => ⟨fun he => ?_, fun he => ?_⟩⟩
  · obtain ⟨e', he', heq⟩ := List.mem_map.mp (hperm.subset (List.mem_map_of_mem he))
    exact text_inj (hE'.no_colon e' he') (hE.no_colon e he) heq ▸ he'
  · obtain ⟨e', he', heq⟩ := List.mem_map.mp (hperm.symm.subset (List.mem_map_of_mem he))
    exact text_inj (hE.no_colon e' he') (hE'.no_colon e he) heq ▸ he'

end Fingerprint

theorem sortBy_pair {p : Int × Int} (h : p.1 ≤ p.2) : sortBy compare [p.1, p.2] = [p.1, p.2] := by
  refine sortBy_eq_self (List.pairwise_pair.mpr ?_)
  simpa [CmpLE, Ordering.isLE_iff_ne_gt] using compare_le_iff_le.mpr h

/-! ## The table -/

/-- A candidate of the pair, and not the group of a case study. -/
def IsPairRow (p : Int × Int) (g : IncidentGroupCandidate) : Prop :=
  g.memberEventIds = [p.1, p.2] ∧ ∀ e ∈ g.evidence, e.signal ≠ "SharedCaseStudy"

def OpenRow (p : Int × Int) (g : IncidentGroupCandidate) : Prop :=
  IsPairRow p g ∧ g.reviewStatus = "Unreviewed"

def RejectedRow (p : Int × Int) (g : IncidentGroupCandidate) : Prop :=
  IsPairRow p g ∧ g.confidence = "Rejected"

/-- What holds of the candidates at any time. -/
structure TableInv (sha256 : String → String) (groups : List IncidentGroupCandidate) : Prop where
  ids : (groups.map (·.id)).Nodup
  unique : (groups.map (·.evidenceFingerprint)).Nodup
  fingerprint : ∀ g ∈ groups,
    g.evidenceFingerprint = evidenceFingerprint sha256 g.memberEventIds g.evidence
  shape : ∀ g ∈ groups, RowShape g.memberEventIds g.evidence
  status : ∀ g ∈ groups, g.reviewStatus = "Unreviewed" ↔ g.confidence ≠ "Rejected"

theorem IsPairRow.evidence {p : Int × Int} {g : IncidentGroupCandidate} (h : IsPairRow p g)
    (hshape : RowShape g.memberEventIds g.evidence) : p.1 ≤ p.2 ∧ PairEvidence g.evidence := by
  cases hshape with
  | pair q hm hq hE =>
    rw [h.1] at hm
    simp only [List.cons.injEq, and_true] at hm
    obtain ⟨h1, h2⟩ := hm
    exact ⟨by omega, hE⟩
  | study detail hE =>
    exact absurd rfl (h.2 ⟨"SharedCaseStudy", detail⟩ (by rw [hE]; exact List.mem_singleton_self _))

/-- `g'` is `g` under another label or category. -/
structure SameRow (g g' : IncidentGroupCandidate) : Prop where
  id : g'.id = g.id
  members : g'.memberEventIds = g.memberEventIds
  evidence : g'.evidence = g.evidence
  reviewStatus : g'.reviewStatus = g.reviewStatus
  fingerprint : g'.evidenceFingerprint = g.evidenceFingerprint
  rejected : g'.confidence = "Rejected" ↔ g.confidence = "Rejected"

theorem SameRow.refl (g : IncidentGroupCandidate) : SameRow g g := ⟨rfl, rfl, rfl, rfl, rfl, Iff.rfl⟩

/-- `groups'` is `groups` with some rows relabelled. -/
def Relabelled (groups groups' : List IncidentGroupCandidate) : Prop :=
  ∃ f : IncidentGroupCandidate → IncidentGroupCandidate,
    groups' = groups.map f ∧ ∀ g ∈ groups, SameRow g (f g)

/-- What one upsert does. -/
inductive Upserted (sha256 : String → String) (st : List IncidentGroupCandidate × Nat) (d : GroupDraft) :
    List IncidentGroupCandidate × Nat → Prop
  /-- The evidence was rejected. -/
  | rejected (g : IncidentGroupCandidate) (hg : g ∈ st.1)
      (hf : g.evidenceFingerprint = evidenceFingerprint sha256 d.members d.evidence)
      (hr : g.confidence = "Rejected") : Upserted sha256 st d st
  /-- There is a candidate with the evidence. -/
  | kept (groups : List IncidentGroupCandidate) (g : IncidentGroupCandidate)
      (hg : g ∈ supersedePairGroups st.1 d.members (d.evidence.map (·.signal)))
      (hf : g.evidenceFingerprint = evidenceFingerprint sha256 d.members d.evidence)
      (hr : g.confidence ≠ "Rejected")
      (hsame : Relabelled (supersedePairGroups st.1 d.members (d.evidence.map (·.signal))) groups) :
      Upserted sha256 st d (groups, st.2)
  /-- There is none, and one is inserted. -/
  | inserted (row : IncidentGroupCandidate) (hm : row.memberEventIds = d.members)
      (he : row.evidence = d.evidence) (hs : row.reviewStatus = "Unreviewed")
      (hc : row.confidence = d.confidence)
      (hf : row.evidenceFingerprint = evidenceFingerprint sha256 d.members d.evidence)
      (hid : row.id = nextGroupId (supersedePairGroups st.1 d.members (d.evidence.map (·.signal))))
      (hnone : ∀ g ∈ supersedePairGroups st.1 d.members (d.evidence.map (·.signal)),
        g.evidenceFingerprint ≠ row.evidenceFingerprint)
      (hrej : ∀ g ∈ st.1, g.evidenceFingerprint = row.evidenceFingerprint → g.confidence ≠ "Rejected") :
      Upserted sha256 st d
        (supersedePairGroups st.1 d.members (d.evidence.map (·.signal)) ++ [row], st.2 + 1)

section Upsert
variable {sha256 : String → String} {groups : List IncidentGroupCandidate}

theorem TableInv.supersede (h : TableInv sha256 groups) (members : List Int) (signals : List String) :
    TableInv sha256 (supersedePairGroups groups members signals) := by
  have hsub : (supersedePairGroups groups members signals).Sublist groups := List.filter_sublist
  exact ⟨h.ids.sublist (hsub.map _), h.unique.sublist (hsub.map _),
    fun g hg => h.fingerprint g (hsub.subset hg), fun g hg => h.shape g (hsub.subset hg),
    fun g hg => h.status g (hsub.subset hg)⟩

theorem isRejectedFingerprint_iff {fingerprint : String} :
    isRejectedFingerprint groups fingerprint = true ↔
      ∃ g ∈ groups, g.evidenceFingerprint = fingerprint ∧ g.confidence = "Rejected" := by
  simp [isRejectedFingerprint]

/-- An insertion under a fingerprint that is there relabels its row at most. -/
theorem insertGroupCandidate_existing (h : TableInv sha256 groups) {candidate g : IncidentGroupCandidate}
    (hc : candidate.confidence ≠ "Rejected")
    (hfind : groups.find? (·.evidenceFingerprint = candidate.evidenceFingerprint) = some g) :
    ∃ groups', insertGroupCandidate groups candidate = (groups', false) ∧ Relabelled groups groups' := by
  have hg : g ∈ groups := List.mem_of_find?_eq_some hfind
  have hid : Relabelled groups groups := ⟨id, by simp, fun g _ => SameRow.refl g⟩
  unfold insertGroupCandidate
  rw [hfind]
  simp only
  split
  · exact ⟨groups, rfl, hid⟩
  · rename_i hrej
    split
    · refine ⟨_, rfl, _, rfl, fun g' hg' => ?_⟩
      split
      · rename_i heq
        obtain rfl : g' = g := List.inj_on_of_nodup_map h.ids hg' hg heq
        exact ⟨rfl, rfl, rfl, rfl, rfl, iff_of_false hc hrej⟩
      · exact SameRow.refl g'
    · exact ⟨groups, rfl, hid⟩

theorem upsertGroup_upserted (createdUtc : String) {st : List IncidentGroupCandidate × Nat}
    (h : TableInv sha256 st.1) {d : GroupDraft} (hd : d.confidence ≠ "Rejected") :
    Upserted sha256 st d (upsertGroup sha256 createdUtc st d) := by
  unfold upsertGroup
  by_cases hrej : isRejectedFingerprint st.1 (evidenceFingerprint sha256 d.members d.evidence) = true
  · rw [if_pos hrej]
    obtain ⟨g, hg, hf, hr⟩ := isRejectedFingerprint_iff.mp hrej
    exact .rejected g hg hf hr
  · rw [if_neg hrej]
    have hnot : ∀ g ∈ st.1, g.evidenceFingerprint = evidenceFingerprint sha256 d.members d.evidence →
        g.confidence ≠ "Rejected" := fun g hg hf hr =>
      hrej (isRejectedFingerprint_iff.mpr ⟨g, hg, hf, hr⟩)
    have hinv := h.supersede d.members (d.evidence.map (·.signal))
    cases hfind : (supersedePairGroups st.1 d.members (d.evidence.map (·.signal))).find?
        (·.evidenceFingerprint = evidenceFingerprint sha256 d.members d.evidence) with
    | some g =>
      have hg := List.mem_of_find?_eq_some hfind
      have hf : g.evidenceFingerprint = evidenceFingerprint sha256 d.members d.evidence := by
        simpa using List.find?_some hfind
      have hrow : (d.row (evidenceFingerprint sha256 d.members d.evidence) createdUtc).confidence ≠
        "Rejected" := hd
      obtain ⟨groups', hins, hsame⟩ := insertGroupCandidate_existing hinv hrow hfind
      simp only [hins]
      exact .kept groups' g hg hf (hnot g (List.mem_of_mem_filter hg) hf) hsame
    | none =>
      have hfind' : (supersedePairGroups st.1 d.members (d.evidence.map (·.signal))).find?
          (·.evidenceFingerprint = (d.row (evidenceFingerprint sha256 d.members d.evidence)
            createdUtc).evidenceFingerprint) = none := hfind
      simp only [insertGroupCandidate, hfind', Bool.toNat_true]
      refine .inserted _ rfl rfl rfl rfl rfl rfl (fun g hg => ?_) hnot
      have hne : g.evidenceFingerprint ≠ evidenceFingerprint sha256 d.members d.evidence := by
        simpa using List.find?_eq_none.mp hfind g hg
      exact hne

theorem Relabelled.tableInv {groups' : List IncidentGroupCandidate} (h : TableInv sha256 groups)
    (hsame : Relabelled groups groups') : TableInv sha256 groups' := by
  obtain ⟨f, rfl, hf⟩ := hsame
  have hids : (groups.map f).map (·.id) = groups.map (·.id) := by
    rw [List.map_map]
    exact List.map_congr_left fun g hg => (hf g hg).id
  have hfps : (groups.map f).map (·.evidenceFingerprint) = groups.map (·.evidenceFingerprint) := by
    rw [List.map_map]
    exact List.map_congr_left fun g hg => (hf g hg).fingerprint
  refine ⟨hids ▸ h.ids, hfps ▸ h.unique, ?_, ?_, ?_⟩ <;> rw [List.forall_mem_map] <;> intro g hg
  · rw [(hf g hg).fingerprint, (hf g hg).members, (hf g hg).evidence]
    exact h.fingerprint g hg
  · rw [(hf g hg).members, (hf g hg).evidence]
    exact h.shape g hg
  · rw [(hf g hg).reviewStatus, h.status g hg]
    exact not_congr (hf g hg).rejected.symm

theorem le_foldl_max (l : List Int) (b : Int) : b ≤ l.foldl max b ∧ ∀ x ∈ l, x ≤ l.foldl max b := by
  induction l generalizing b with
  | nil => exact ⟨Int.le_refl b, fun x hx => absurd hx List.not_mem_nil⟩
  | cons a l ih =>
    obtain ⟨hb, hl⟩ := ih (max b a)
    refine ⟨(le_max_left b a).trans hb, fun x hx => ?_⟩
    rcases List.mem_cons.mp hx with rfl | hx
    · exact (le_max_right b x).trans hb
    · exact hl x hx

theorem lt_nextGroupId {g : IncidentGroupCandidate} (hg : g ∈ groups) : g.id < nextGroupId groups := by
  have hle := (le_foldl_max (groups.map (·.id)) 0).2 g.id (List.mem_map_of_mem hg)
  exact Int.lt_add_one_of_le hle

/-- What a draft is: the group of a case study, or merged evidence of a pair. -/
structure DraftShape (d : GroupDraft) : Prop where
  shape : RowShape d.members d.evidence
  confidence : d.confidence ≠ "Rejected"

theorem Upserted.tableInv {st st' : List IncidentGroupCandidate × Nat} {d : GroupDraft}
    (h : TableInv sha256 st.1) (hd : DraftShape d) (hup : Upserted sha256 st d st') :
    TableInv sha256 st'.1 := by
  have hinv := h.supersede d.members (d.evidence.map (·.signal))
  cases hup with
  | rejected g hg hf hr => exact h
  | kept groups g hg hf hr hsame => exact hsame.tableInv hinv
  | inserted row hm he hs hc hf hid hnone hrej =>
    refine ⟨?_, ?_, fun g hg => ?_, fun g hg => ?_, fun g hg => ?_⟩
    · rw [List.map_append, List.map_singleton]
      refine hinv.ids.append (List.nodup_singleton _) ?_
      rw [List.disjoint_singleton]
      intro hmem
      obtain ⟨g, hg, heq⟩ := List.mem_map.mp hmem
      have hlt := lt_nextGroupId hg
      omega
    · rw [List.map_append, List.map_singleton]
      refine hinv.unique.append (List.nodup_singleton _) ?_
      rw [List.disjoint_singleton]
      intro hmem
      obtain ⟨g, hg, heq⟩ := List.mem_map.mp hmem
      exact hnone g hg heq
    all_goals rcases List.mem_append.mp hg with hg | hg
    · exact hinv.fingerprint g hg
    · obtain rfl := List.mem_singleton.mp hg
      rw [hm, he, hf]
    · exact hinv.shape g hg
    · obtain rfl := List.mem_singleton.mp hg
      rw [hm, he]
      exact hd.shape
    · exact hinv.status g hg
    · obtain rfl := List.mem_singleton.mp hg
      exact iff_of_true hs (hc ▸ hd.confidence)

/-- A row that is not superseded keeps its fingerprint in the table. -/
theorem Upserted.fingerprint_kept {st st' : List IncidentGroupCandidate × Nat} {d : GroupDraft}
    (hup : Upserted sha256 st d st') {g : IncidentGroupCandidate} (hg : g ∈ st.1)
    (hs : supersededBy d.members (d.evidence.map (·.signal)) g = false) :
    ∃ g' ∈ st'.1, g'.evidenceFingerprint = g.evidenceFingerprint := by
  have hin : g ∈ supersedePairGroups st.1 d.members (d.evidence.map (·.signal)) :=
    List.mem_filter.mpr ⟨hg, by simp [hs]⟩
  cases hup with
  | rejected => exact ⟨g, hg, rfl⟩
  | kept groups _ _ _ _ hsame =>
    obtain ⟨f, rfl, hf⟩ := hsame
    exact ⟨f g, List.mem_map_of_mem hin, (hf g hin).fingerprint⟩
  | inserted => exact ⟨g, List.mem_append_left _ hin, rfl⟩

/-- No row is inserted for a fingerprint that is there and stays. -/
theorem Upserted.count_of_present {st st' : List IncidentGroupCandidate × Nat} {d : GroupDraft}
    (hup : Upserted sha256 st d st') {g : IncidentGroupCandidate} (hg : g ∈ st.1)
    (hf : g.evidenceFingerprint = evidenceFingerprint sha256 d.members d.evidence)
    (hs : supersededBy d.members (d.evidence.map (·.signal)) g = false) : st'.2 = st.2 := by
  cases hup with
  | rejected => rfl
  | kept => rfl
  | inserted row hm he hstatus hc hrf hid hnone =>
    exact absurd (hf.trans hrf.symm) (hnone g (List.mem_filter.mpr ⟨hg, by simp [hs]⟩))

/-- After the upsert there is a row with the fingerprint of the draft. -/
theorem Upserted.fingerprint_self {st st' : List IncidentGroupCandidate × Nat} {d : GroupDraft}
    (hup : Upserted sha256 st d st') :
    ∃ g ∈ st'.1, g.evidenceFingerprint = evidenceFingerprint sha256 d.members d.evidence := by
  cases hup with
  | rejected g hg hf => exact ⟨g, hg, hf⟩
  | kept groups g hg hf _ hsame =>
    obtain ⟨f, rfl, hf'⟩ := hsame
    exact ⟨f g, List.mem_map_of_mem hg, (hf' g hg).fingerprint.trans hf⟩
  | inserted row hm he hs hc hf => exact ⟨row, List.mem_append_right _ (List.mem_singleton_self _), hf⟩

end Upsert

end Inim
