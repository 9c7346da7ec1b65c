import Inim.Lib.Pick
import Inim.Workbench.Findings

/-!
# Principal findings (`catalog/workbench.rs:2697-2857`)

The findings are ranked by a score, then by when and where they were observed. The first of each
observer site is principal until the cap is reached, and what is left of the cap is filled in rank
order. The score of a finding depends on the others: findings of the same exact prefixes at several
sites with different effects get a bonus.

| here | there |
| --- | --- |
| `disagreement`       | the set of stable ids (`:2720-2742`) |
| `planeDeparted`, `score`, `rank` | the closures (`:2744-2813`) |
| `selectPrincipalFindings` | `select_principal_findings` |

With a cap of zero the function returns its argument as it is, unranked; otherwise the result is the
same however the findings are listed (`selectPrincipalFindings_spec`).
-/

namespace Inim

open Std Inim.Lib

/-! ## The ranking -/

/-- The same exact prefixes, at two sites or more, with different effects. -/
def disagreement (findings : List RoutingFinding) : List String :=
  (((groupOn (·.exactPrefixes) findings).map Prod.snd).filter fun g =>
    1 < (g.map (·.effect.label)).dedup.length && 1 < (g.map (·.observerSite)).dedup.length).flatMap
    (·.map (·.stableId))

/-- The first baseline path has a plane ASN, the first changed path has none. -/
def planeDeparted (planeAsns : List UInt32) (f : RoutingFinding) : Bool :=
  let baseline := (f.streams.find? (!·.baselinePath.isEmpty)).map (·.baselinePath)
  let changed := f.streams.findSome? (·.changedPath)
  match baseline, changed with
  | some b, some c => !planeAsns.isEmpty && planeAsns.any b.contains && !planeAsns.any c.contains
  | _, _ => false

def CooldownOutcome.stillAway : CooldownOutcome → Bool
  | .stillChangingBeforeAnalysisEnd _ => true
  | .noRestorationBeforeAnalysisEnd _ => true
  | _ => false

def baseScore (planeAsns : List UInt32) (f : RoutingFinding) : Int :=
  if f.effect = .prefixesTemporarilyAbsent ∨ f.effect = .prefixesWithdrawn then 1000
  else if planeDeparted planeAsns f ∧ 5 ≤ f.distinctPrefixes then 900
  else if f.effect = .asPathChanged ∨ f.effect = .prependingChanged then 700
  else 300

def score (disagreeing : List String) (planeAsns : List UInt32) (f : RoutingFinding) : Int :=
  baseScore planeAsns f + (min f.distinctPrefixes 12 : Nat) * 5 +
    (if planeDeparted planeAsns f ∧ f.distinctPrefixes < 5 then 40 else 0) +
    (if f.stateAtAnalysisEnd.stillAway then 80 else 0) +
    if f.stableId ∈ disagreeing then 40 else 0

/-- The higher score first, then as the findings are listed. -/
def rank (disagreeing : List String) (planeAsns : List UInt32) :
    RoutingFinding → RoutingFinding → Ordering :=
  compareLex (fun a b => compare (score disagreeing planeAsns b) (score disagreeing planeAsns a))
    findingOrder

instance : TransCmp findingOrder :=
  inferInstanceAs (TransCmp (compareLex _ (compareLex _ (compareLex _ (compareLex _ _)))))

instance (disagreeing : List String) (planeAsns : List UInt32) :
    TransCmp (rank disagreeing planeAsns) :=
  inferInstanceAs (TransCmp (compareLex (fun a b =>
    compareOn (score disagreeing planeAsns) b a) findingOrder))

def selectPrincipalFindings (findings : List RoutingFinding) (planeAsns : List UInt32) (max : Nat) :
    List RoutingFinding × List RoutingFinding :=
  if max = 0 then ([], findings)
  else
    let cmp := rank (disagreement findings) planeAsns
    let picked := pick (·.observerSite) max (sortBy cmp findings)
    (sortBy cmp picked.1, picked.2)

/-! ## The disagreement of a listing -/

theorem mem_disagreement {findings : List RoutingFinding} {id : String} :
    id ∈ disagreement findings ↔ ∃ f ∈ findings, f.stableId = id ∧
      1 < ((findings.filter (·.exactPrefixes = f.exactPrefixes)).map (·.effect.label)).dedup.length ∧
      1 < ((findings.filter (·.exactPrefixes = f.exactPrefixes)).map (·.observerSite)).dedup.length := by
  simp only [disagreement, List.mem_flatMap, List.mem_filter, List.mem_map, Bool.and_eq_true,
    decide_eq_true_eq]
  constructor
  · rintro ⟨g, ⟨⟨⟨k, g'⟩, hg, rfl⟩, heffects, hsites⟩, f, hf, rfl⟩
    obtain ⟨-, rfl⟩ := (mem_groupOn _).1 hg
    obtain ⟨hmem, hk⟩ := List.mem_filter.1 hf
    obtain rfl : f.exactPrefixes = k := of_decide_eq_true hk
    exact ⟨f, hmem, rfl, heffects, hsites⟩
  · rintro ⟨f, hf, rfl, heffects, hsites⟩
    refine ⟨_, ⟨⟨(f.exactPrefixes, _), (mem_groupOn _).2 ⟨⟨f, hf, rfl⟩, rfl⟩, rfl⟩, heffects, hsites⟩,
      f, ?_, rfl⟩
    exact List.mem_filter.2 ⟨hf, decide_eq_true rfl⟩

theorem mem_disagreement_congr {l l' : List RoutingFinding} (h : l.Perm l') (id : String) :
    id ∈ disagreement l ↔ id ∈ disagreement l' := by
  have hlength : ∀ {κ : Type} [DecidableEq κ] (key : RoutingFinding → κ) (f : RoutingFinding),
      ((l.filter (·.exactPrefixes = f.exactPrefixes)).map key).dedup.length =
        ((l'.filter (·.exactPrefixes = f.exactPrefixes)).map key).dedup.length :=
    fun key f => (((h.filter _).map key).dedup).length_eq
  simp only [mem_disagreement, h.mem_iff, hlength]

/-- The score of a finding does not depend on how the findings are listed. -/
theorem rank_congr {l l' : List RoutingFinding} (h : l.Perm l') (planeAsns : List UInt32) :
    rank (disagreement l) planeAsns = rank (disagreement l') planeAsns := by
  have hscore : score (disagreement l) planeAsns = score (disagreement l') planeAsns := by
    funext f
    simp only [score, mem_disagreement_congr h]
  rw [rank, rank, hscore]

/-- Findings that tie have one stable id. -/
theorem stableId_of_rank {disagreeing : List String} {planeAsns : List UInt32}
    {f g : RoutingFinding} (h : rank disagreeing planeAsns f g = .eq) : f.stableId = g.stableId := by
  simp only [rank, findingOrder, compareLex_eq_eq] at h
  exact LawfulEqCmp.eq_of_compare h.2.2.2.2.2

/-! ## The selection -/

/-- What is promised of a selection of at most `max` findings. -/
structure PrincipalSelection (cmp : RoutingFinding → RoutingFinding → Ordering) (max : Nat)
    (findings : List RoutingFinding) (sel : List RoutingFinding × List RoutingFinding) : Prop where
  perm : (sel.1 ++ sel.2).Perm findings
  length : sel.1.length = min max findings.length
  /-- No site has two principal findings while another has none. -/
  diverse : ∀ f ∈ findings, (∀ p ∈ sel.1, p.observerSite ≠ f.observerSite) →
    (sel.1.map (·.observerSite)).Nodup
  /-- Within a site no principal finding is ranked below another finding. -/
  ranked : ∀ p ∈ sel.1, ∀ f ∈ sel.2, p.observerSite = f.observerSite → cmp p f ≠ .gt

theorem principalSelection_nil (cmp : RoutingFinding → RoutingFinding → Ordering)
    (findings : List RoutingFinding) : PrincipalSelection cmp 0 findings ([], findings) where
  perm := List.Perm.refl _
  length := (Nat.zero_min _).symm
  diverse := fun _ _ _ => List.nodup_nil
  ranked := fun p hp => by cases hp

theorem principalSelection_pick (cmp : RoutingFinding → RoutingFinding → Ordering) [TransCmp cmp]
    (max : Nat) (findings : List RoutingFinding) :
    PrincipalSelection cmp max findings
      (sortBy cmp (pick (·.observerSite) max (sortBy cmp findings)).1,
        (pick (·.observerSite) max (sortBy cmp findings)).2) where
  perm := ((sortBy_perm cmp _).append_right _).trans
    ((pick_perm _ max (sortBy cmp findings)).trans (sortBy_perm cmp findings))
  length := by
    rw [(sortBy_perm cmp _).length_eq, length_pick, (sortBy_perm cmp findings).length_eq]
  diverse := by
    intro f hf hnot
    refine (((sortBy_perm cmp _).map _).nodup_iff).2 (pick_diverse _ max (mem_sortBy.2 hf) ?_)
    exact fun p hp => hnot p (mem_sortBy.2 hp)
  ranked := by
    intro p hp f hf hsite
    have hpair := pick_ranked _ max (mem_sortBy.1 hp) hf hsite
    have hle : CmpLE cmp p f := List.rel_of_pairwise_cons
      ((sortBy_pairwise findings).sublist hpair) List.mem_cons_self
    intro hgt
    rw [CmpLE, hgt] at hle
    cases hle

theorem selectPrincipalFindings_congr {l l' : List RoutingFinding} (h : l.Perm l')
    (hids : (l.map (·.stableId)).Nodup) (planeAsns : List UInt32) {max : Nat} (hmax : max ≠ 0) :
    selectPrincipalFindings l planeAsns max = selectPrincipalFindings l' planeAsns max := by
  have hsort : sortBy (rank (disagreement l') planeAsns) l =
      sortBy (rank (disagreement l') planeAsns) l' := by
    refine sortBy_eq_of_perm h fun f hf g hg htie => ?_
    exact List.inj_on_of_nodup_map hids hf hg (stableId_of_rank htie)
  simp only [selectPrincipalFindings, if_neg hmax, rank_congr h, hsort]

/-- **The principal findings are a ranked, diverse selection, and they are the same however the
findings are listed.** With a cap of zero nothing is principal and nothing is ranked. -/
theorem selectPrincipalFindings_spec (findings : List RoutingFinding) (planeAsns : List UInt32)
    (max : Nat) (hids : (findings.map (·.stableId)).Nodup) :
    PrincipalSelection (rank (disagreement findings) planeAsns) max findings
        (selectPrincipalFindings findings planeAsns max) ∧
      (max = 0 → selectPrincipalFindings findings planeAsns max = ([], findings)) ∧
      (max ≠ 0 → ∀ findings', findings.Perm findings' →
        selectPrincipalFindings findings' planeAsns max =
          selectPrincipalFindings findings planeAsns max) := by
  refine ⟨?_, ?_, ?_⟩
  · by_cases hmax : max = 0
    · rw [selectPrincipalFindings, if_pos hmax, hmax]
      exact principalSelection_nil _ findings
    · rw [selectPrincipalFindings, if_neg hmax]
      exact principalSelection_pick _ max findings
  · intro hmax
    rw [selectPrincipalFindings, if_pos hmax]
  · intro hmax findings' h
    exact (selectPrincipalFindings_congr h hids planeAsns hmax).symm

/-- A withdrawal of one prefix at a site. -/
def withdrawalAt (id site : String) : RoutingFinding where
  stableId := id
  targetLabel := "UVA (AS225)"
  targetOriginAsns := [225]
  targetName := "UVA"
  eventBaselinePathSignature := "—"
  earlierChange := none
  observerSite := site
  observerRegion := "Europe"
  sourceFamily := "ris"
  collector := site
  peerIp := "192.0.2.1"
  peerAsn := some 64500
  peerName := "name not reviewed"
  peerRole := ""
  peerAsnAmbiguous := false
  relationship := .other
  effect := .prefixesWithdrawn
  firstObserved := none
  lastObserved := none
  namedPathPlane := ""
  visibilityRestoredAt := none
  equivalentRouteRestoredAt := none
  reviewedPlaneRestoredAt := none
  exactBaselineRestoredAt := none
  stateAtWindowEnd := .absentAtWindowEnd
  stateAtAnalysisEnd := .none
  analysisEnd := ""
  observerStreamCount := 1
  distinctPrefixes := 1
  baselinePathSignature := "—"
  changedPathSignature := "—"
  finalPathSignature := "—"
  exactPrefixes := ["192.0.2.0/24"]
  evidenceRefs := []
  scopeLimit := ""
  streams := []

theorem selectPrincipalFindings_one_site :
    ((["f1", "f2"].map fun id => withdrawalAt id "rrc00").map (·.stableId)).Nodup ∧
      (selectPrincipalFindings (["f1", "f2"].map fun id => withdrawalAt id "rrc00") [] 1).1.length = 1 :=
  ⟨by decide, ((selectPrincipalFindings_spec (["f1", "f2"].map fun id => withdrawalAt id "rrc00") [] 1
    (by decide)).1.length).trans (by decide)⟩

/-- With a cap of zero the rest is the argument, in its own order. -/
theorem no_cap_keeps_the_listing :
    ([withdrawalAt "f1" "rrc00", withdrawalAt "f2" "rrc01"].map (·.stableId)).Nodup ∧
      [withdrawalAt "f1" "rrc00", withdrawalAt "f2" "rrc01"].Perm
        [withdrawalAt "f2" "rrc01", withdrawalAt "f1" "rrc00"] ∧
      selectPrincipalFindings [withdrawalAt "f1" "rrc00", withdrawalAt "f2" "rrc01"] [] 0 ≠
        selectPrincipalFindings [withdrawalAt "f2" "rrc01", withdrawalAt "f1" "rrc00"] [] 0 := by
  refine ⟨by decide, List.Perm.swap _ _ _, fun h => ?_⟩
  exact absurd (congrArg (fun sel => sel.2.map (·.stableId)) h) (by decide)

end Inim
