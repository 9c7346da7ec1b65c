import Inim.Lifecycle.Step
/-!
# Verdicts (`assess.rs:196-346`, `domain/assessment.rs:12-128`)

| here | there |
| --- | --- |
| `ExpectationKind`, `Verdict`, `ObservedResultKind` | `expectation.rs:15`, `assessment.rs:12`, `:272` |
| `Verdict.observedResultKind` | `assessment.rs:109-128` |
| `participantVerdict`  | the lifecycle arm of `ParticipantRelationshipUnavailable` (`assess.rs:254-306`) |
| `legacyParticipantVerdict` | its fallback without lifecycles (`assess.rs:307-327`) |
| `deriveVerdict`       | `derive_verdict` (`assess.rs:196`) |

`assess` itself adds the evidence texts, which nothing here reads.
-/

namespace Inim

inductive ExpectationKind where
  | redundant
  | nonRedundant
  | participantRelationshipUnavailable
  | peerRelationshipUnavailable
  | unknown
deriving DecidableEq, Repr

inductive Verdict where
  | expectedRedundantImpact
  | expectedLossOfReachability
  | expectedParticipantUnavailability
  | expectedAlternateRouting
  | partialImpact
  | unexpectedContinuedInternet2Path
  | policyChangeObserved
  | provisionalImpactObserved
  | provisionalNoImpactSoFar
  | unexpectedWithdrawals
  | redundancyFailureObserved
  | unexpectedBlastRadius
  | lessImpactThanExpected
  | noObservableBgpImpact
  | insufficientVisibility
  | indeterminate
deriving DecidableEq, Repr

inductive ObservedResultKind where
  | routeStateChangesObserved
  | noRouteStateChangeObserved
  | insufficientQualifyingVisibility
  | analysisIncomplete
deriving DecidableEq, Repr

def Verdict.observedResultKind : Verdict → ObservedResultKind
  | .expectedRedundantImpact | .expectedLossOfReachability | .expectedParticipantUnavailability
  | .expectedAlternateRouting | .partialImpact | .policyChangeObserved | .provisionalImpactObserved
  | .unexpectedWithdrawals | .redundancyFailureObserved | .unexpectedBlastRadius =>
    .routeStateChangesObserved
  | .unexpectedContinuedInternet2Path | .provisionalNoImpactSoFar | .lessImpactThanExpected
  | .noObservableBgpImpact => .noRouteStateChangeObserved
  | .insufficientVisibility => .insufficientQualifyingVisibility
  | .indeterminate => .analysisIncomplete

section Derive
variable (transitions : List RouteTransition)

def hasWithdrawals : Bool := transitions.any fun t => t.kind == .withdrawal

def hasPathChanges : Bool := transitions.any fun t => Sim.isPathReplacement t.kind

def hasSessionResets : Bool := transitions.any fun t => t.kind == .sessionReset

/-- The set-based rules over the unambiguous streams (`assess.rs:266-293`). -/
def strongVerdict (strong : List StreamLifecycle) : Verdict :=
  let withdrawn := strong.countP (·.wasWithdrawn)
  let departed := strong.countP fun l => l.category == .departedTransitPath
  let onlyPrepend := strong.all fun l => l.category == .unchanged || l.category == .prependOnly
  let someAffected := decide (0 < withdrawn) || decide (0 < departed)
  let allAffected := decide (withdrawn + departed = strong.length) && someAffected
  if onlyPrepend && !someAffected then .policyChangeObserved
  else if decide (0 < departed) && decide (withdrawn = 0) then .expectedAlternateRouting
  else if allAffected then .expectedParticipantUnavailability
  else if someAffected then .partialImpact
  else .unexpectedContinuedInternet2Path

def strongStreams (lcs : List StreamLifecycle) : List StreamLifecycle :=
  lcs.filter fun l => !l.flags.addPathAmbiguous

/-- Ambiguous streams carry no strong conclusion, and next to them "no impact" is suppressed. -/
def participantVerdict (lcs : List StreamLifecycle) : Verdict :=
  if lcs.length = 0 then .unexpectedContinuedInternet2Path
  else if (strongStreams lcs).isEmpty then .insufficientVisibility
  else
    let verdict := strongVerdict (strongStreams lcs)
    if lcs.any (·.flags.addPathAmbiguous) &&
        (verdict == .unexpectedContinuedInternet2Path || verdict == .policyChangeObserved) then
      .insufficientVisibility
    else verdict

/-- AS 11537 left a path. -/
def departsInternet2 (t : RouteTransition) : Bool :=
  Sim.isPathReplacement t.kind &&
    ((t.fromState.map fun s => s.attributes.asPath.contains 11537).getD false) &&
    !t.to_.attributes.asPath.contains 11537

def legacyParticipantVerdict : Verdict :=
  let departures := transitions.any departsInternet2
  if hasWithdrawals transitions && !departures then .expectedParticipantUnavailability
  else if departures && !hasWithdrawals transitions then .expectedAlternateRouting
  else if hasWithdrawals transitions && departures then .partialImpact
  else .unexpectedContinuedInternet2Path

/-- No finding at all, continuity established (`assess.rs:224-235`). -/
def emptyVerdict : ExpectationKind → Verdict
  | .participantRelationshipUnavailable => .unexpectedContinuedInternet2Path
  | .nonRedundant => .lessImpactThanExpected
  | .peerRelationshipUnavailable => .unexpectedContinuedInternet2Path
  | .redundant => .noObservableBgpImpact
  | .unknown => .noObservableBgpImpact

/-- The branches of the expectation kinds (`assess.rs:237-345`). -/
def findingsVerdict (lifecycles : Option (List StreamLifecycle)) : ExpectationKind → Verdict
  | .redundant =>
    if hasWithdrawals transitions then .redundancyFailureObserved
    else if hasPathChanges transitions then .expectedRedundantImpact
    else .noObservableBgpImpact
  | .nonRedundant =>
    if hasWithdrawals transitions then .expectedLossOfReachability else .lessImpactThanExpected
  | .participantRelationshipUnavailable =>
    match lifecycles with
    | some lcs => participantVerdict lcs
    | none => legacyParticipantVerdict transitions
  | .peerRelationshipUnavailable =>
    if hasWithdrawals transitions then .expectedParticipantUnavailability
    else if hasPathChanges transitions then .expectedAlternateRouting
    else .unexpectedContinuedInternet2Path
  | .unknown => .indeterminate

def deriveVerdict (kind : ExpectationKind) (anyUnknownContinuity : Bool)
    (lifecycles : Option (List StreamLifecycle)) : Verdict :=
  -- the continuity gate comes before anything is concluded from the findings
  if anyUnknownContinuity || hasSessionResets transitions then .insufficientVisibility
  else if transitions.isEmpty then emptyVerdict kind
  else findingsVerdict transitions lifecycles kind

end Derive

/-- Behind an open gate the counting branches need no case for "no findings". -/
theorem deriveVerdict_counting {kind : ExpectationKind} (hk : kind ≠ .unknown)
    (hp : kind ≠ .participantRelationshipUnavailable) {transitions : List RouteTransition}
    (hreset : hasSessionResets transitions = false) (lcs : Option (List StreamLifecycle)) :
    deriveVerdict transitions kind false lcs = findingsVerdict transitions lcs kind := by
  simp only [deriveVerdict, hreset, Bool.or_self, Bool.false_eq_true, if_false]
  split
  · next h =>
    obtain rfl := List.isEmpty_iff.1 h
    cases kind <;> simp_all [emptyVerdict, findingsVerdict, hasWithdrawals, hasPathChanges]
  · rfl

/-- Two of the branches ask for withdrawals first and for path changes then. -/
theorem findingsVerdict_graded_iff {kind : ExpectationKind}
    (hkind : kind = .redundant ∨ kind = .peerRelationshipUnavailable) {ts ts' : List RouteTransition}
    {lcs lcs' : Option (List StreamLifecycle)} :
    findingsVerdict ts lcs kind = findingsVerdict ts' lcs' kind ↔
      hasWithdrawals ts = hasWithdrawals ts' ∧
        (hasWithdrawals ts = false → hasPathChanges ts = hasPathChanges ts') := by
  rcases hkind with rfl | rfl <;> unfold findingsVerdict <;> cases hasWithdrawals ts <;>
    cases hasWithdrawals ts' <;> cases hasPathChanges ts <;> cases hasPathChanges ts' <;> simp

theorem findingsVerdict_nonRedundant_iff {ts ts' : List RouteTransition}
    {lcs lcs' : Option (List StreamLifecycle)} :
    findingsVerdict ts lcs .nonRedundant = findingsVerdict ts' lcs' .nonRedundant ↔
      hasWithdrawals ts = hasWithdrawals ts' := by
  unfold findingsVerdict
  cases hasWithdrawals ts <;> cases hasWithdrawals ts' <;> simp

/-- Some stream of the list became absent or left the transit. -/
def SomeAffected (strong : List StreamLifecycle) : Prop :=
  (∃ lc ∈ strong, lc.wasWithdrawn = true) ∨ ∃ lc ∈ strong, lc.category = .departedTransitPath

/-- No stream of the list shows more than prepending. -/
def OnlyPrepend (strong : List StreamLifecycle) : Prop :=
  ∀ lc ∈ strong, lc.category = .unchanged ∨ lc.category = .prependOnly

/-- The five outcomes of the set-based rules. -/
theorem strongVerdict_cases (strong : List StreamLifecycle) :
    (strongVerdict strong = .policyChangeObserved ∧ ¬ SomeAffected strong ∧ OnlyPrepend strong) ∨
    (strongVerdict strong = .unexpectedContinuedInternet2Path ∧ ¬ SomeAffected strong ∧
      ¬ OnlyPrepend strong) ∨
    (strongVerdict strong = .expectedAlternateRouting ∧ SomeAffected strong ∧
      ¬ ∃ lc ∈ strong, lc.wasWithdrawn = true) ∨
    ((strongVerdict strong = .expectedParticipantUnavailability ∨ strongVerdict strong = .partialImpact) ∧
      ∃ lc ∈ strong, lc.wasWithdrawn = true) := by
  have hw : 0 < strong.countP (·.wasWithdrawn) ↔ ∃ lc ∈ strong, lc.wasWithdrawn = true :=
    List.countP_pos_iff
  have hd : (0 < strong.countP fun l => l.category == .departedTransitPath) ↔
      ∃ lc ∈ strong, lc.category = .departedTransitPath := by
    simp [List.countP_pos_iff]
  have hp : (strong.all fun l => l.category == .unchanged || l.category == .prependOnly) = true ↔
      OnlyPrepend strong := by
    simp [OnlyPrepend]
  rw [SomeAffected, ← hw, ← hd, ← hp]
  simp only [strongVerdict]
  generalize strong.countP (·.wasWithdrawn) = w
  generalize (strong.countP fun l => l.category == .departedTransitPath) = d
  generalize (strong.all fun l => l.category == .unchanged || l.category == .prependOnly) = p
  rcases Nat.eq_zero_or_pos w with rfl | hw
  · rcases Nat.eq_zero_or_pos d with rfl | hd
    · cases p <;> simp
    · simp [hd]
  · have hw' : w ≠ 0 := Nat.pos_iff_ne_zero.1 hw
    simp only [hw, hw', decide_true, Bool.true_or, Bool.not_true, Bool.and_false, decide_false,
      Bool.false_eq_true, if_false, Bool.and_true]
    split <;> simp

/-! ## Lifecycles of a transition list -/

/-- The ambiguity flag `build_lifecycles` gives the stream. -/
def ambiguousStream (cohort : FrozenCohort) (transitions : List RouteTransition)
    (opk : ObserverPrefixKey) : Bool :=
  (detectStreamAmbiguity opk (baselineFor cohort opk) (streamTransitions opk transitions)).isSome

theorem buildLifecycles_ne_nil {transitions : List RouteTransition} (h : transitions ≠ [])
    (cohort : FrozenCohort) (cooldownEnd : DateTime) (pred : TransitPredicate) :
    buildLifecycles transitions cohort cooldownEnd pred ≠ [] := by
  obtain ⟨t, ht⟩ := List.exists_mem_of_ne_nil _ h
  have hmem : buildOneLifecycle t.key.observerPrefixKey (baselineFor cohort t.key.observerPrefixKey)
      (streamTransitions t.key.observerPrefixKey transitions) cooldownEnd pred ∈
      buildLifecycles transitions cohort cooldownEnd pred := by
    rw [buildLifecycles, Lib.mem_sortBy]
    exact List.mem_map_of_mem (mem_lifecycleStreams.2 (Or.inr ⟨t, ht, rfl⟩))
  exact List.ne_nil_of_mem hmem

/-- A lifecycle is withdrawn iff its category says so. -/
theorem buildOneLifecycle_wasWithdrawn (opk : ObserverPrefixKey) (baseline : InstanceMap)
    (transitions : List RouteTransition) (cooldownEnd : DateTime) (pred : TransitPredicate) :
    (buildOneLifecycle opk baseline transitions cooldownEnd pred).wasWithdrawn = true ↔
      (buildOneLifecycle opk baseline transitions cooldownEnd pred).category = .withdrawn := by
  simp only [buildOneLifecycle, Sim.finish, Sim.category, decide_eq_true_eq]
  split
  · simp [*]
  · split
    · simp [*]
    · split
      · simp [*]
      · split <;> simp [*]

theorem mem_buildLifecycles {transitions : List RouteTransition} {cohort : FrozenCohort}
    {cooldownEnd : DateTime} {pred : TransitPredicate} {lc : StreamLifecycle} :
    lc ∈ buildLifecycles transitions cohort cooldownEnd pred ↔
      ∃ opk ∈ lifecycleStreams transitions cohort, buildOneLifecycle opk (baselineFor cohort opk)
        (streamTransitions opk transitions) cooldownEnd pred = lc := by
  rw [buildLifecycles, Lib.mem_sortBy, List.mem_map]

theorem wasWithdrawn_iff_category {transitions : List RouteTransition} {cohort : FrozenCohort}
    {cooldownEnd : DateTime} {pred : TransitPredicate} {lc : StreamLifecycle}
    (h : lc ∈ buildLifecycles transitions cohort cooldownEnd pred) :
    lc.wasWithdrawn = true ↔ lc.category = .withdrawn := by
  obtain ⟨opk, -, rfl⟩ := mem_buildLifecycles.1 h
  exact buildOneLifecycle_wasWithdrawn _ _ _ _ _

end Inim
