import Inim.Assess
import Inim.Lifecycle.Active
/-!
# Loss verdicts and ambiguous streams (`assess.rs:196-346`)

`assess` is documented to use per-stream lifecycle evidence rather than raw transition counts.
Only the participant branch does; the others count instance-level withdrawals, of ambiguous
streams too. `loss_supported_iff` says for which inputs

* a verdict that asserts loss comes with a stream that really became absent, and
* a strong verdict does not rest on a stream with ambiguous ADD-PATH encoding: it is also the
  verdict of the other streams alone.
-/

namespace Inim

/-- The verdict asserts that a stream was lost. -/
def Verdict.assertsLoss (v : Verdict) : Bool :=
  v == .redundancyFailureObserved || v == .expectedLossOfReachability ||
    v == .expectedParticipantUnavailability || v == .unexpectedWithdrawals

/-- Anything but "cannot tell". -/
def Verdict.isStrong (v : Verdict) : Bool := v != .insufficientVisibility && v != .indeterminate

/-- The transitions of the streams that are not ambiguous. -/
def cleanTransitions (cohort : FrozenCohort) (transitions : List RouteTransition) :
    List RouteTransition :=
  transitions.filter fun t => !ambiguousStream cohort transitions t.key.observerPrefixKey

section Statement
variable (kind : ExpectationKind) (unknown : Bool) (transitions clean : List RouteTransition)
  (lcs : List StreamLifecycle)

/-- No loss is asserted unless some stream was absent. -/
def NoFalseLoss : Prop :=
  (∀ lc ∈ lcs, lc.wasWithdrawn = false) →
    (deriveVerdict transitions kind unknown (some lcs)).assertsLoss = false

/-- A strong verdict needs an unambiguous stream (if there is any stream), and is the verdict of
the unambiguous streams alone. -/
def StrongIsClean : Prop :=
  (deriveVerdict transitions kind unknown (some lcs)).isStrong = true →
    (lcs = [] ∨ strongStreams lcs ≠ []) ∧
    deriveVerdict clean kind unknown (some (strongStreams lcs)) =
      deriveVerdict transitions kind unknown (some lcs)

/-- The condition: what the counting branches need of the streams. -/
def LossSupported : Prop :=
  unknown = true ∨ hasSessionResets transitions = true ∨
  (transitions = [] ∧ (lcs = [] ∨ strongStreams lcs ≠ [])) ∨
  (transitions ≠ [] ∧ match kind with
    | .participantRelationshipUnavailable | .unknown => True
    | .nonRedundant => strongStreams lcs ≠ [] ∧
      (hasWithdrawals transitions = true →
        hasWithdrawals clean = true ∧ ∃ lc ∈ lcs, lc.wasWithdrawn = true)
    | .redundant | .peerRelationshipUnavailable => strongStreams lcs ≠ [] ∧
      (hasWithdrawals transitions = true →
        hasWithdrawals clean = true ∧ ∃ lc ∈ lcs, lc.wasWithdrawn = true) ∧
      (hasWithdrawals transitions = false → hasPathChanges transitions = true →
        hasPathChanges clean = true))

end Statement

theorem any_filter_of_false {p q : RouteTransition → Bool} {l : List RouteTransition}
    (h : l.any p = false) : (l.filter q).any p = false := by
  rw [List.any_eq_false] at h ⊢
  exact fun t ht => h t (List.mem_of_mem_filter ht)

theorem strongStreams_idem (lcs : List StreamLifecycle) :
    strongStreams (strongStreams lcs) = strongStreams lcs := by
  simp [strongStreams, List.filter_filter]

theorem any_ambiguous_strong (lcs : List StreamLifecycle) :
    (strongStreams lcs).any (·.flags.addPathAmbiguous) = false := by
  rw [List.any_eq_false]
  intro lc hlc
  simpa using (List.mem_filter.1 hlc).2

/-- The participant verdict over unambiguous streams is the set-based one. -/
theorem participantVerdict_strong {lcs : List StreamLifecycle} (h : strongStreams lcs ≠ []) :
    participantVerdict (strongStreams lcs) = strongVerdict (strongStreams lcs) := by
  have hlen : (strongStreams lcs).length ≠ 0 := by simpa using h
  have hemp : (strongStreams lcs).isEmpty = false := by simpa using h
  simp [participantVerdict, hlen, strongStreams_idem, hemp, any_ambiguous_strong]

section Built
variable {transitions : List RouteTransition} {cohort : FrozenCohort} {cooldownEnd : DateTime}
  {pred : TransitPredicate}

/-- If every transition is on an ambiguous stream, no unambiguous stream shows anything. -/
theorem strongVerdict_of_clean_nil (h : cleanTransitions cohort transitions = []) :
    strongVerdict (strongStreams (buildLifecycles transitions cohort cooldownEnd pred)) =
      .policyChangeObserved := by
  have hquiet : ∀ lc ∈ strongStreams (buildLifecycles transitions cohort cooldownEnd pred),
      lc.wasWithdrawn = false ∧ lc.category = .unchanged := by
    intro lc hlc
    obtain ⟨hlc, hamb⟩ := List.mem_filter.1 hlc
    obtain ⟨opk, -, rfl⟩ := mem_buildLifecycles.1 hlc
    have hnone : streamTransitions opk transitions = [] := by
      rw [List.eq_nil_iff_forall_not_mem]
      intro t ht
      obtain ⟨ht, hopk⟩ := List.mem_filter.1 (Lib.mem_sortBy.1 ht)
      have hclean : t ∈ cleanTransitions cohort transitions := by
        refine List.mem_filter.2 ⟨ht, ?_⟩
        rw [of_decide_eq_true hopk]
        exact hamb
      simp [h] at hclean
    rw [hnone]
    exact ⟨rfl, rfl⟩
  obtain ⟨h', -, -⟩ | ⟨-, -, h2⟩ | ⟨-, h1, -⟩ | ⟨-, ⟨lc, hlc, h1⟩⟩ :=
    strongVerdict_cases (strongStreams (buildLifecycles transitions cohort cooldownEnd pred))
  · exact h'
  · exact absurd (fun lc hlc => Or.inl (hquiet lc hlc).2) h2
  · rcases h1 with ⟨lc, hlc, h1⟩ | ⟨lc, hlc, h1⟩
    · simp [(hquiet lc hlc).1] at h1
    · simp [(hquiet lc hlc).2] at h1
  · simp [(hquiet lc hlc).1] at h1

/-- A transition on an ambiguous stream shows in the lifecycles. -/
theorem any_ambiguous_of_clean_nil (hne : transitions ≠ [])
    (h : cleanTransitions cohort transitions = []) :
    (buildLifecycles transitions cohort cooldownEnd pred).any (·.flags.addPathAmbiguous) = true := by
  obtain ⟨t, ht⟩ := List.exists_mem_of_ne_nil _ hne
  have hamb : ambiguousStream cohort transitions t.key.observerPrefixKey = true := by
    by_contra hno
    have hclean : t ∈ cleanTransitions cohort transitions :=
      List.mem_filter.2 ⟨ht, by simpa using hno⟩
    simp [h] at hclean
  rw [List.any_eq_true]
  exact ⟨_, mem_buildLifecycles.2 ⟨_, mem_lifecycleStreams.2 (Or.inr ⟨t, ht, rfl⟩), rfl⟩, hamb⟩

/-- The participant branch keeps both promises. -/
theorem participant_supported (cohort : FrozenCohort) (cooldownEnd : DateTime)
    (pred : TransitPredicate) (hne : transitions ≠ []) :
    ((∀ lc ∈ buildLifecycles transitions cohort cooldownEnd pred, lc.wasWithdrawn = false) →
      (participantVerdict (buildLifecycles transitions cohort cooldownEnd pred)).assertsLoss = false) ∧
    ((participantVerdict (buildLifecycles transitions cohort cooldownEnd pred)).isStrong = true →
      strongStreams (buildLifecycles transitions cohort cooldownEnd pred) ≠ [] ∧
      cleanTransitions cohort transitions ≠ [] ∧
      participantVerdict (strongStreams (buildLifecycles transitions cohort cooldownEnd pred)) =
        participantVerdict (buildLifecycles transitions cohort cooldownEnd pred)) := by
  have hlen : (buildLifecycles transitions cohort cooldownEnd pred).length ≠ 0 := by
    simpa using buildLifecycles_ne_nil hne cohort cooldownEnd pred
  have hclean : cleanTransitions cohort transitions = [] → strongVerdict (strongStreams
      (buildLifecycles transitions cohort cooldownEnd pred)) = .policyChangeObserved :=
    strongVerdict_of_clean_nil
  have hamb : cleanTransitions cohort transitions = [] →
      (buildLifecycles transitions cohort cooldownEnd pred).any (·.flags.addPathAmbiguous) = true :=
    any_ambiguous_of_clean_nil hne
  generalize buildLifecycles transitions cohort cooldownEnd pred = lcs at *
  by_cases hs : strongStreams lcs = []
  · simp [participantVerdict, hlen, hs, Verdict.assertsLoss, Verdict.isStrong]
  · have hemp : (strongStreams lcs).isEmpty = false := by simpa using hs
    rw [participantVerdict_strong hs]
    simp only [participantVerdict, hlen, if_false, hemp, Bool.false_eq_true]
    refine ⟨fun hww => ?_, fun hstrong => ⟨hs, fun hnil => ?_, ?_⟩⟩
    · have hno : ¬ ∃ lc ∈ strongStreams lcs, lc.wasWithdrawn = true := by
        rintro ⟨lc, hlc, h⟩
        simp [hww lc (List.mem_of_mem_filter hlc)] at h
      obtain ⟨h, -⟩ | ⟨h, -⟩ | ⟨h, -⟩ | ⟨-, h⟩ := strongVerdict_cases (strongStreams lcs)
      · rw [h]; split <;> rfl
      · rw [h]; split <;> rfl
      · rw [h]; split <;> rfl
      · exact absurd h hno
    · rw [hclean hnil, hamb hnil] at hstrong
      simp [Verdict.isStrong] at hstrong
    · split
      · next h =>
        rw [if_pos h] at hstrong
        simp [Verdict.isStrong] at hstrong
      · rfl

end Built

section Counting
variable {kind : ExpectationKind} {transitions clean : List RouteTransition}
  {lcs : List StreamLifecycle}

/-- The counting branches assert a loss with any withdrawal; all their verdicts are strong. -/
theorem findingsVerdict_counting (hk : kind ≠ .unknown)
    (hp : kind ≠ .participantRelationshipUnavailable) (l : Option (List StreamLifecycle)) :
    (findingsVerdict transitions l kind).assertsLoss = hasWithdrawals transitions ∧
      (findingsVerdict transitions l kind).isStrong = true := by
  unfold findingsVerdict
  cases kind with
  | unknown => exact absurd rfl hk
  | participantRelationshipUnavailable => exact absurd rfl hp
  | redundant | peerRelationshipUnavailable =>
    cases hasWithdrawals transitions <;> cases hasPathChanges transitions <;> exact ⟨rfl, rfl⟩
  | nonRedundant => cases hasWithdrawals transitions <;> exact ⟨rfl, rfl⟩

/-- A counting branch: its withdrawals need an absent stream, its verdict the clean transitions. -/
theorem counting_supported (hk : kind ≠ .unknown) (hp : kind ≠ .participantRelationshipUnavailable)
    (hreset : hasSessionResets transitions = false) (hreset' : hasSessionResets clean = false)
    (hlcs : lcs ≠ []) :
    (NoFalseLoss kind false transitions lcs ∧ StrongIsClean kind false transitions clean lcs) ↔
      (hasWithdrawals transitions = true → ∃ lc ∈ lcs, lc.wasWithdrawn = true) ∧
        strongStreams lcs ≠ [] ∧ findingsVerdict clean (some (strongStreams lcs)) kind =
          findingsVerdict transitions (some lcs) kind := by
  obtain ⟨hloss, hstrong⟩ := @findingsVerdict_counting kind transitions hk hp (some lcs)
  rw [NoFalseLoss, StrongIsClean, deriveVerdict_counting hk hp hreset,
    deriveVerdict_counting hk hp hreset', hloss, hstrong]
  have habsent : ((∀ lc ∈ lcs, lc.wasWithdrawn = false) → hasWithdrawals transitions = false) ↔
      (hasWithdrawals transitions = true → ∃ lc ∈ lcs, lc.wasWithdrawn = true) := by
    rw [← not_imp_not]
    simp
  rw [habsent, or_iff_right hlcs]
  exact and_congr_right' ⟨fun h => h rfl, fun h _ => h⟩

end Counting

/-- A suppressed verdict says nothing, so both properties hold. -/
theorem supported_of_suppressed {kind : ExpectationKind} {unknown : Bool}
    {transitions clean : List RouteTransition} {lcs : List StreamLifecycle}
    (hgate : unknown = true ∨ hasSessionResets transitions = true) :
    NoFalseLoss kind unknown transitions lcs ∧ StrongIsClean kind unknown transitions clean lcs := by
  have hv : deriveVerdict transitions kind unknown (some lcs) = .insufficientVisibility := by
    rcases hgate with h | h <;> simp [deriveVerdict, h]
  simp [NoFalseLoss, StrongIsClean, hv, Verdict.assertsLoss, Verdict.isStrong]

/-- Where there is no transition the verdict asserts no loss, and a strong one is right unless all the
streams are ambiguous. -/
theorem supported_nil_iff (kind : ExpectationKind) (lcs : List StreamLifecycle) :
    (NoFalseLoss kind false [] lcs ∧ StrongIsClean kind false [] [] lcs) ↔
      LossSupported kind false [] [] lcs := by
  have hv (l : List StreamLifecycle) : deriveVerdict [] kind false (some l) = emptyVerdict kind := by
    simp [deriveVerdict, hasSessionResets]
  have hreset : hasSessionResets [] = false := rfl
  have hloss : (emptyVerdict kind).assertsLoss = false := by cases kind <;> rfl
  have hstrong : (emptyVerdict kind).isStrong = true := by cases kind <;> rfl
  simp [NoFalseLoss, StrongIsClean, LossSupported, hv, hloss, hstrong, hreset]

/-- The participant branch: it asserts a loss with an absent stream only, and its strong verdicts are
those of the unambiguous streams. -/
theorem participant_branch_supported {transitions : List RouteTransition} (cohort : FrozenCohort)
    (cooldownEnd : DateTime) (pred : TransitPredicate) (hnil : transitions ≠ [])
    (hreset : hasSessionResets transitions = false) :
    let lcs := buildLifecycles transitions cohort cooldownEnd pred
    let clean := cleanTransitions cohort transitions
    NoFalseLoss .participantRelationshipUnavailable false transitions lcs ∧
      StrongIsClean .participantRelationshipUnavailable false transitions clean lcs := by
  intro lcs clean
  obtain ⟨h1, h2⟩ := participant_supported cohort cooldownEnd pred hnil
  have hreset' : hasSessionResets clean = false := any_filter_of_false hreset
  have hv : deriveVerdict transitions .participantRelationshipUnavailable false (some lcs) =
      participantVerdict lcs := by
    have hemp : transitions.isEmpty = false := by simpa using hnil
    simp [deriveVerdict, hreset, hemp, findingsVerdict]
  refine ⟨fun hall => hv ▸ h1 hall, fun hstrong => ?_⟩
  rw [hv] at hstrong ⊢
  obtain ⟨hs, hc, heq⟩ := h2 hstrong
  have hemp : clean.isEmpty = false := by simpa using hc
  refine ⟨Or.inr hs, ?_⟩
  refine Eq.trans ?_ heq
  simp only [deriveVerdict, hreset', hemp, Bool.or_self, Bool.false_eq_true, if_false,
    findingsVerdict]
  rfl

/-- **When loss and strength are supported.** For every expectation, every list of transitions
and the lifecycles built from it: no loss is asserted without an absent stream and no strong
verdict rests on an ambiguous stream, iff the verdict is suppressed by the continuity gate, or it
is the participant branch, or the kinds counted are also seen on an unambiguous stream and a
counted withdrawal comes with an absent stream. -/
theorem loss_supported_iff (kind : ExpectationKind) (unknown : Bool)
    (transitions : List RouteTransition) (cohort : FrozenCohort) (cooldownEnd : DateTime)
    (pred : TransitPredicate) :
    let lcs := buildLifecycles transitions cohort cooldownEnd pred
    let clean := cleanTransitions cohort transitions
    (NoFalseLoss kind unknown transitions lcs ∧ StrongIsClean kind unknown transitions clean lcs) ↔
      LossSupported kind unknown transitions clean lcs := by
  intro lcs clean
  by_cases hgate : unknown = true ∨ hasSessionResets transitions = true
  · have hsup : LossSupported kind unknown transitions clean lcs := by
      rcases hgate with h | h
      · exact Or.inl h
      · exact Or.inr (Or.inl h)
    exact iff_of_true (supported_of_suppressed hgate) hsup
  rw [not_or, Bool.not_eq_true, Bool.not_eq_true] at hgate
  obtain ⟨rfl, hreset⟩ := hgate
  have hreset' : hasSessionResets clean = false := any_filter_of_false hreset
  by_cases hnil : transitions = []
  · subst hnil
    exact supported_nil_iff kind lcs
  have hlcs : lcs ≠ [] := buildLifecycles_ne_nil hnil cohort cooldownEnd pred
  have hsubW : hasWithdrawals transitions = false → hasWithdrawals clean = false :=
    any_filter_of_false
  have hsubP : hasPathChanges transitions = false → hasPathChanges clean = false :=
    any_filter_of_false
  have hunfold : LossSupported kind false transitions clean lcs ↔ match kind with
      | .participantRelationshipUnavailable | .unknown => True
      | .nonRedundant => strongStreams lcs ≠ [] ∧
        (hasWithdrawals transitions = true →
          hasWithdrawals clean = true ∧ ∃ lc ∈ lcs, lc.wasWithdrawn = true)
      | .redundant | .peerRelationshipUnavailable => strongStreams lcs ≠ [] ∧
        (hasWithdrawals transitions = true →
          hasWithdrawals clean = true ∧ ∃ lc ∈ lcs, lc.wasWithdrawn = true) ∧
        (hasWithdrawals transitions = false → hasPathChanges transitions = true →
          hasPathChanges clean = true) := by
    simp [LossSupported, hreset, hnil]
  rw [hunfold]
  cases kind with
  | unknown =>
    have hemp : transitions.isEmpty = false := by simpa using hnil
    simp [NoFalseLoss, StrongIsClean, deriveVerdict, hreset, hemp, findingsVerdict,
      Verdict.assertsLoss, Verdict.isStrong]
  | participantRelationshipUnavailable =>
    exact iff_true_intro (participant_branch_supported cohort cooldownEnd pred hnil hreset)
  | redundant | peerRelationshipUnavailable =>
    rw [counting_supported (by simp) (by simp) hreset hreset' hlcs,
      findingsVerdict_graded_iff (by simp)]
    constructor
    · rintro ⟨habsent, hs, hWW, hPP⟩
      exact ⟨hs, fun hW => ⟨hWW.trans hW, habsent hW⟩, fun hW hP => (hPP (hWW.trans hW)).trans hP⟩
    · rintro ⟨hs, hW, hP⟩
      refine ⟨fun h => (hW h).2, hs, ?_, fun hW' => ?_⟩
      · cases h : hasWithdrawals transitions with
        | false => exact hsubW h
        | true => exact (hW h).1
      · have hnone : hasWithdrawals transitions = false := by
          by_contra hno
          rw [(hW (by simpa using hno)).1] at hW'
          cases hW'
        cases h : hasPathChanges transitions with
        | false => exact hsubP h
        | true => exact hP hnone h
  | nonRedundant =>
    rw [counting_supported (by simp) (by simp) hreset hreset' hlcs, findingsVerdict_nonRedundant_iff]
    constructor
    · rintro ⟨habsent, hs, hWW⟩
      exact ⟨hs, fun hW => ⟨hWW.trans hW, habsent hW⟩⟩
    · rintro ⟨hs, hW⟩
      refine ⟨fun h => (hW h).2, hs, ?_⟩
      cases h : hasWithdrawals transitions with
      | false => exact hsubW h
      | true => exact (hW h).1

/-- Two instances of one stream from the RIB, one of them withdrawn in the event window. -/
def twoInstances : List RouteObservation :=
  [.plain "rrc00" 0 .ribEntry 0 (some 1) [1, 2], .plain "rrc00" 1 .ribEntry 0 (some 2) [1, 3, 2],
    .plain "rrc00" 0 .withdrawal 15 (some 1)]

/-- **Bug**: the loss of one instance, the stream staying visible through the other, is promoted
to a redundancy failure. -/
theorem instance_loss_promoted :
    ¬ NoFalseLoss .redundant false (transitionsAfter 10 20 30 twoInstances)
      (buildLifecycles (transitionsAfter 10 20 30 twoInstances)
        (freezeCohort [2] (.containsAny [1]) twoInstances) 30 (.containsAny [1])) := by
  intro h
  have hloss := h (by decide)
  revert hloss
  decide

end Inim
