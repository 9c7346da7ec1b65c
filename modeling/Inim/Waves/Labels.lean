import Inim.Lifecycle.Category
import Inim.Waves.Semantic
/-!
# What a wave label stands for (`lifecycle.rs:600-651`, `:732-781`)

`StreamWithdrawal` is documented as an observer-prefix stream withdrawal and `transit_departed` as
a stream that "remains visible without a matching route". Both are counted instance by instance:
the wave builder is handed the lifecycles and does not look at them.

| here | there |
| --- | --- |
| `carries`             | a transition counts for a label |
| `WithdrawalsLead`     | withdrawals are the one most frequent label |
| `LabelsMatchStreams`  | what label and count are documented to mean |
-/

namespace Inim

open Std Inim.Lib

/-! ## The dominant label -/

instance : TransCmp labelOrder := by
  have : TransCmp fun a b : WaveLabel × Nat => compare b.2 a.2 :=
    inferInstanceAs (TransCmp fun a b => compareOn Prod.snd b a)
  unfold labelOrder
  infer_instance

theorem labelOrder_count {a b : WaveLabel × Nat} (h : CmpLE labelOrder a b) : b.2 ≤ a.2 := by
  by_contra hlt
  simp [CmpLE, labelOrder, compareLex, compare_gt_iff_gt.2 (Nat.not_le.1 hlt)] at h

/-- A label other than `MixedRouteChange` is dominant iff it has the one largest count. -/
theorem dominantLabel_iff {counts : List (WaveLabel × Nat)} (hnd : (counts.map Prod.fst).Nodup)
    {label : WaveLabel} (hmixed : label ≠ .mixedRouteChange) : dominantLabel counts = label ↔
      ∃ n, (label, n) ∈ counts ∧ ∀ e ∈ counts, e.1 ≠ label → e.2 < n := by
  have hperm := sortBy_perm labelOrder counts
  have hsorted : (sortBy labelOrder counts).Pairwise (CmpLE labelOrder) := sortBy_pairwise counts
  have hnd' := (hperm.map Prod.fst).nodup_iff.2 hnd
  simp only [← hperm.mem_iff]
  unfold dominantLabel
  rcases hs : sortBy labelOrder counts with _ | ⟨top, _ | ⟨runnerUp, rest⟩⟩
  · simpa using hmixed.symm
  · constructor
    · rintro rfl
      exact ⟨top.2, by simp, by simp⟩
    · rintro ⟨n, hn, -⟩
      rw [← List.mem_singleton.1 hn]
  · rw [hs] at hsorted hnd'
    obtain ⟨htop, hrest⟩ := List.pairwise_cons.1 hsorted
    obtain ⟨hnew, -⟩ := List.nodup_cons.1 hnd'
    have hrunner := labelOrder_count (htop runnerUp (by simp))
    constructor
    · intro h
      dsimp only at h
      split at h
      · exact absurd h.symm hmixed
      · next hne =>
        subst h
        refine ⟨top.2, by simp, fun e he hlabel => ?_⟩
        rcases List.mem_cons.1 he with rfl | he
        · exact absurd rfl hlabel
        · rcases List.mem_cons.1 he with rfl | he
          · omega
          · have := labelOrder_count ((List.pairwise_cons.1 hrest).1 e he)
            omega
    · rintro ⟨n, hn, hall⟩
      rcases List.mem_cons.1 hn with heq | hn
      · subst heq
        have hlt := hall runnerUp (by simp) fun h => hnew (by simp [h])
        exact if_neg hlt.ne
      · have hlabel : top.1 ≠ label := fun h => hnew (h ▸ List.mem_map_of_mem hn)
        have hlt := hall top (by simp) hlabel
        have hle := labelOrder_count (htop _ hn)
        exact absurd hle (Nat.not_le.2 hlt)

section Labels
variable (pred : TransitPredicate)

/-- `t` counts for the label. -/
def carries : WaveLabel → RouteTransition → Bool
  | .prependReduction, t => t.effects.prepend == .reduced
  | .prependIncrease, t => t.effects.prepend == .increased
  | .streamWithdrawal, t => t.kind == .withdrawal
  | .transitDeparture, t => departsTransit pred t
  | .streamRestoration, t => t.kind == .restoration
  | .transitReturn, t => returnsTransit pred t
  | .baselinePolicyRestoration, t => t.kind == .returnToBaseline
  | .mixedRouteChange, _ => false

theorem count_labelSupport (label : WaveLabel) (t : RouteTransition) :
    (labelSupport pred t).count label = (carries pred label t).toNat := by
  have hprepend : (prependSupport t).count label =
      if label = .prependReduction then (t.effects.prepend == .reduced).toNat
      else if label = .prependIncrease then (t.effects.prepend == .increased).toNat else 0 := by
    unfold prependSupport
    cases t.effects.prepend <;> cases label <;> rfl
  have htransit : (transitSupport pred t).count label =
      if label = .transitDeparture then (departsTransit pred t).toNat
      else if label = .transitReturn then (returnsTransit pred t).toNat else 0 := by
    unfold transitSupport departsTransit returnsTransit
    cases toHas pred t with
    | none => cases label <;> simp
    | some toHasRoute => cases toHasRoute <;> cases fromHas pred t <;> cases label <;> rfl
  have hkind : (kindSupport t).count label =
      if label = .streamWithdrawal then (t.kind == .withdrawal).toNat
      else if label = .streamRestoration then (t.kind == .restoration).toNat
      else if label = .baselinePolicyRestoration then (t.kind == .returnToBaseline).toNat
      else 0 := by
    unfold kindSupport
    cases t.kind <;> cases label <;> rfl
  rw [labelSupport, List.count_append, List.count_append, hprepend, htransit, hkind]
  cases label <;> simp [carries]

theorem count_labels (label : WaveLabel) (group : List RouteTransition) :
    (group.flatMap (labelSupport pred)).count label = group.countP (carries pred label) := by
  induction group with
  | nil => rfl
  | cons t group ih =>
    rw [List.flatMap_cons, List.count_append, ih, count_labelSupport, List.countP_cons, Nat.add_comm]
    cases carries pred label t <;> rfl

/-- Withdrawals outnumber the transitions that count for any other label. -/
def WithdrawalsLead (group : List RouteTransition) : Prop :=
  ∀ label ≠ .streamWithdrawal,
    group.countP (carries pred label) < group.countP (·.kind == .withdrawal)

theorem label_streamWithdrawal_iff (group : List RouteTransition) :
    (buildSemanticWave pred group).label = .streamWithdrawal ↔ WithdrawalsLead pred group := by
  have hcount := fun label => count_labels pred label group
  have hlead : group.countP (·.kind == .withdrawal) =
      (group.flatMap (labelSupport pred)).count .streamWithdrawal := (hcount .streamWithdrawal).symm
  change dominantLabel (labelCounts pred group) = _ ↔ _
  rw [labelCounts, dominantLabel_iff (map_fst_tally_nodup _) (by decide)]
  simp only [WithdrawalsLead, hlead, ← hcount, mem_tally, Prod.forall]
  constructor
  · rintro ⟨n, ⟨hmem, rfl⟩, hall⟩ label hne
    by_cases hlabel : label ∈ group.flatMap (labelSupport pred)
    · exact hall label _ ⟨hlabel, rfl⟩ hne
    · rw [List.count_eq_zero.2 hlabel]
      exact List.count_pos_iff.2 hmem
  · intro hall
    have hpos := Nat.zero_lt_of_lt (hall .mixedRouteChange (by decide))
    refine ⟨_, ⟨List.count_pos_iff.1 hpos, rfl⟩, ?_⟩
    rintro label n ⟨-, rfl⟩ hne
    exact hall label hne

end Labels

/-! ## Waves and streams -/

section Streams
variable (cohort : FrozenCohort) (transitions : List RouteTransition) (maxGapSecs : GapSecs)
  (pred : TransitPredicate)

/-- In the replay of its stream, `t` meets the instances `active`. -/
def Meets (t : RouteTransition) (active : InstanceMap) : Prop :=
  ∃ pre post, streamTransitions t.key.observerPrefixKey transitions = pre ++ t :: post ∧
    active = activeRun (baselineFor cohort t.key.observerPrefixKey) pre

/-- A wave labelled `StreamWithdrawal` contains the loss of a stream; a transition counted in
`transit_departed` leaves its stream visible, and off the reviewed transit. -/
structure LabelsMatchStreams : Prop where
  withdrawal : ∀ group ∈ semanticGroups transitions maxGapSecs,
    (buildSemanticWave pred group).label = .streamWithdrawal →
    ∃ t ∈ group, ∃ active, Meets cohort transitions t active ∧ losesStream active t = true
  departure : ∀ group ∈ semanticGroups transitions maxGapSecs, ∀ t ∈ group,
    departsTransit pred t = true → ∀ active, Meets cohort transitions t active →
    departed pred (activeAfter active t) = true

/-- Where withdrawals lead a cluster one of them takes the only instance left; a route that leaves
the transit is the last one on it (and, being taken for a withdrawal when its AS path is empty, not
the last one at all). -/
structure InstancesStandForStreams : Prop where
  last : ∀ group ∈ semanticGroups transitions maxGapSecs, WithdrawalsLead pred group →
    ∃ t ∈ group, t.kind = .withdrawal ∧
      ∃ active, Meets cohort transitions t active ∧ ∀ k ∈ active, k = t.key
  alone : ∀ t ∈ transitions, t.phase = .event → departsTransit pred t = true →
    ∀ active, Meets cohort transitions t active →
    (∀ (k : RouteKey) s, active[k]? = some s → k ≠ t.key →
      pred.evaluate s.attributes.asPath = false) ∧
    (t.kind = .withdrawal → ∃ k ∈ active, k ≠ t.key)

variable {cohort transitions maxGapSecs pred}

theorem losesStream_iff {active : InstanceMap} {t : RouteTransition} : losesStream active t = true ↔
    t.kind = .withdrawal ∧ ∀ k ∈ active, k = t.key := by
  rw [losesStream, Bool.and_eq_true, beq_iff_eq, ExtTreeMap.isEmpty_iff,
    ExtTreeMap.eq_empty_iff_forall_not_mem]
  refine and_congr_right fun hk => forall_congr' fun k => ?_
  rw [mem_activeAfter]
  by_cases hkey : k = t.key
  · simp [hkey, hk]
  · simp [hkey]

/-- What a departing route leaves of its stream. -/
theorem departed_iff {active : InstanceMap} {t : RouteTransition}
    (ht : departsTransit pred t = true) : departed pred (activeAfter active t) = true ↔
    (∀ (k : RouteKey) s, active[k]? = some s → k ≠ t.key →
      pred.evaluate s.attributes.asPath = false) ∧
    (t.kind = .withdrawal → ∃ k ∈ active, k ≠ t.key) := by
  obtain ⟨-, hto⟩ : fromHas pred t = true ∧ toHas pred t = some false := by
    simpa [departsTransit] using ht
  obtain ⟨s, hs, hno⟩ : ∃ s, t.to_.state = some s ∧ pred.evaluate s.attributes.asPath = false := by
    simpa [toHas] using hto
  have hlookup : ∀ (k : RouteKey), k ≠ t.key → (activeAfter active t)[k]? = active[k]? := by
    intro k hk
    unfold activeAfter
    split
    · rw [ExtTreeMap.getElem?_erase, if_neg]
      rwa [LawfulEqCmp.compare_eq_iff_eq, eq_comm]
    · simp only [hs, InstanceMap.getElem?_insert]
      rw [if_neg (Ne.symm hk)]
  have hown : ∀ s', (activeAfter active t)[t.key]? = some s' →
      pred.evaluate s'.attributes.asPath = false := by
    intro s' h
    unfold activeAfter at h
    split at h
    · simp at h
    · simp only [hs, InstanceMap.getElem?_insert, if_pos, Option.some.injEq] at h
      exact h ▸ hno
  have hmatch : pred.anyMatch (activeAfter active t) = false ↔
      ∀ (k : RouteKey) s, active[k]? = some s → k ≠ t.key →
        pred.evaluate s.attributes.asPath = false := by
    rw [TransitPredicate.anyMatch, List.any_eq_false]
    constructor
    · intro h k s' hk hkey
      simpa using h s' (InstanceMap.mem_values.2 ⟨k, (hlookup k hkey).trans hk⟩)
    · intro h s' hmem
      obtain ⟨k, hk⟩ := InstanceMap.mem_values.1 hmem
      by_cases hkey : k = t.key
      · subst hkey
        simpa using hown s' hk
      · simpa using h k s' ((hlookup k hkey).symm.trans hk) hkey
  have hvisible : (activeAfter active t).isEmpty = false ↔
      (t.kind = .withdrawal → ∃ k ∈ active, k ≠ t.key) := by
    rw [← Bool.not_eq_true, ExtTreeMap.isEmpty_iff, ExtTreeMap.eq_empty_iff_forall_not_mem]
    simp only [mem_activeAfter, hs, Option.isSome_some, true_or, and_true]
    by_cases hk : t.kind = .withdrawal
    · simp [hk, and_comm]
    · simpa [hk] using ⟨t.key, fun h => absurd rfl h⟩
  rw [departed, Bool.and_eq_true, Bool.not_eq_true', Bool.not_eq_true', hvisible, hmatch, and_comm]

variable (cohort transitions maxGapSecs pred)

/-- **Labels and departures stand for streams** exactly where the instances behind them do. -/
theorem labelsMatchStreams_iff : LabelsMatchStreams cohort transitions maxGapSecs pred ↔
    InstancesStandForStreams cohort transitions maxGapSecs pred := by
  have hevent : ∀ t, (∃ group ∈ semanticGroups transitions maxGapSecs, t ∈ group) ↔
      t ∈ transitions ∧ t.phase = .event := by
    intro t
    rw [← List.mem_flatten, semanticGroups, flatten_clusters, eventTransitions, mem_sortBy,
      List.mem_filter, decide_eq_true_eq]
  constructor
  · intro h
    refine ⟨fun group hg hlead => ?_, fun t ht hphase hdep active hmeets => ?_⟩
    · obtain ⟨t, ht, active, hmeets, hloss⟩ :=
        h.withdrawal group hg ((label_streamWithdrawal_iff pred group).2 hlead)
      obtain ⟨hk, hlast⟩ := losesStream_iff.1 hloss
      exact ⟨t, ht, hk, active, hmeets, hlast⟩
    · obtain ⟨group, hg, hmem⟩ := (hevent t).2 ⟨ht, hphase⟩
      exact (departed_iff hdep).1 (h.departure group hg t hmem hdep active hmeets)
  · intro h
    refine ⟨fun group hg hlabel => ?_, fun group hg t ht hdep active hmeets => ?_⟩
    · obtain ⟨t, ht, hk, active, hmeets, hlast⟩ :=
        h.last group hg ((label_streamWithdrawal_iff pred group).1 hlabel)
      exact ⟨t, ht, active, hmeets, losesStream_iff.2 ⟨hk, hlast⟩⟩
    · obtain ⟨hmem, hphase⟩ := (hevent t).1 ⟨group, hg, ht⟩
      exact (departed_iff hdep).2 (h.alone t hmem hphase hdep active hmeets)

end Streams

/-- Two instances of one stream; the first is withdrawn. -/
def oneWithdrawnSample : List RouteObservation :=
  [.plain "rrc00" 0 .ribEntry 0 (some 1) [1, 2], .plain "rrc00" 1 .ribEntry 0 (some 2) [1, 2],
    .plain "rrc00" 0 .withdrawal 15 (some 1)]

def oneWithdrawnTransitions : List RouteTransition := transitionsAfter 10 20 30 oneWithdrawnSample

/-- **Bug**: the stream stays visible over instance 2 and the wave is a `StreamWithdrawal`. -/
theorem instance_withdrawal_labels_wave :
    (deriveSemanticWaves oneWithdrawnTransitions 120 (.containsAny [1])).map (·.label) =
        [.streamWithdrawal] ∧
      ¬ LabelsMatchStreams (freezeCohort [2] (.containsAny [1]) oneWithdrawnSample)
        oneWithdrawnTransitions 120 (.containsAny [1]) := by
  have hlabels : (deriveSemanticWaves oneWithdrawnTransitions 120 (.containsAny [1])).map (·.label) =
      [.streamWithdrawal] := by decide +kernel
  have hgroups : semanticGroups oneWithdrawnTransitions 120 = [oneWithdrawnTransitions] := by
    decide +kernel
  have hstream : ∀ t ∈ oneWithdrawnTransitions,
      streamTransitions t.key.observerPrefixKey oneWithdrawnTransitions = [t] := by decide +kernel
  have hkept : ∀ t ∈ oneWithdrawnTransitions, losesStream (baselineFor
      (freezeCohort [2] (.containsAny [1]) oneWithdrawnSample) t.key.observerPrefixKey) t = false := by
    decide +kernel
  refine ⟨hlabels, fun h => ?_⟩
  rw [deriveSemanticWaves, numberWaves_map _ _ fun _ _ => rfl, hgroups] at hlabels
  obtain ⟨t, ht, active, ⟨pre, post, hsplit, rfl⟩, hloss⟩ :=
    h.withdrawal oneWithdrawnTransitions (by simp [hgroups]) (by simpa using hlabels)
  rw [hstream t ht, List.singleton_eq_append_iff] at hsplit
  obtain ⟨rfl, -⟩ | ⟨-, hnil⟩ := hsplit
  · exact Bool.noConfusion (hloss.symm.trans (hkept t ht))
  · cases hnil

end Inim
