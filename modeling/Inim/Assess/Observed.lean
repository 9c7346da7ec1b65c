import Inim.Assess
/-!
# The observed result (`assessment.rs:109-128` over `assess.rs:196-346`)

`ObservedResultKind` is documented to say what public BGP showed, whatever was expected:
`RouteStateChangesObserved` for at least one transition, `NoRouteStateChangeObserved` for none.
It is computed from the verdict, and every expectation has verdicts that are also returned for
transitions the branch does not look at. `observedResult_truthful_iff` says for which inputs the
result is the documented one.
-/

namespace Inim

/-- What the observed result should say of a list of transitions. -/
def TruthfulResult (v : Verdict) (transitions : List RouteTransition) : Prop :=
  (v.observedResultKind = .noRouteStateChangeObserved ↔ transitions = []) ∧
    (transitions ≠ [] → v ≠ .insufficientVisibility → v ≠ .indeterminate →
      v.observedResultKind = .routeStateChangesObserved)

theorem truthfulResult_iff (v : Verdict) (transitions : List RouteTransition) :
    TruthfulResult v transitions ↔
      (v.observedResultKind = .noRouteStateChangeObserved ↔ transitions = []) := by
  refine and_iff_left_of_imp fun h hne hiv hind => ?_
  have hno : v.observedResultKind ≠ .noRouteStateChangeObserved := fun hv => hne (h.1 hv)
  cases v <;> simp_all [Verdict.observedResultKind]

/-- Some transition (for participants: some stream) is of a kind the expectation's branch counts. -/
def ChangeCounts (kind : ExpectationKind) (transitions : List RouteTransition)
    (lcs : List StreamLifecycle) : Prop :=
  match kind with
  | .redundant | .peerRelationshipUnavailable =>
    hasWithdrawals transitions = true ∨ hasPathChanges transitions = true
  | .nonRedundant => hasWithdrawals transitions = true
  | .participantRelationshipUnavailable =>
    (∃ lc ∈ lcs, lc.flags.addPathAmbiguous = true) ∨
    (∃ lc ∈ lcs, lc.category = .withdrawn ∨ lc.category = .departedTransitPath) ∨
    ∀ lc ∈ lcs, lc.category = .unchanged ∨ lc.category = .prependOnly
  | .unknown => True

/-- With lifecycles at hand, "no change" is said for participants iff no stream is ambiguous,
none is withdrawn or departed, and some stream changed its path within the transit. -/
theorem participantVerdict_observed {lcs : List StreamLifecycle} (hne : lcs ≠ [])
    (hww : ∀ lc ∈ lcs, (lc.wasWithdrawn = true ↔ lc.category = .withdrawn)) :
    (participantVerdict lcs).observedResultKind = .noRouteStateChangeObserved ↔
      ¬ ((∃ lc ∈ lcs, lc.flags.addPathAmbiguous = true) ∨
        (∃ lc ∈ lcs, lc.category = .withdrawn ∨ lc.category = .departedTransitPath) ∨
        ∀ lc ∈ lcs, lc.category = .unchanged ∨ lc.category = .prependOnly) := by
  have hlen : lcs.length ≠ 0 := by simpa using hne
  by_cases hamb : ∃ lc ∈ lcs, lc.flags.addPathAmbiguous = true
  · have hany : lcs.any (·.flags.addPathAmbiguous) = true := by simpa using hamb
    simp only [hamb, true_or, not_true_eq_false, iff_false, participantVerdict, hlen, if_false, hany,
      Bool.true_and]
    split
    · simp [Verdict.observedResultKind]
    · -- the two verdicts that read as "no change" are suppressed here
      obtain ⟨h, -⟩ | ⟨h, -⟩ | ⟨h, -⟩ | ⟨h | h, -⟩ := strongVerdict_cases (strongStreams lcs) <;>
        simp [h, Verdict.observedResultKind]
  · have hany : lcs.any (·.flags.addPathAmbiguous) = false := by simpa using hamb
    have hstrong : strongStreams lcs = lcs := by
      rw [strongStreams, List.filter_eq_self]
      simpa using hamb
    have hemp : lcs.isEmpty = false := by simpa using hne
    have haff : SomeAffected lcs ↔
        ∃ lc ∈ lcs, lc.category = .withdrawn ∨ lc.category = .departedTransitPath := by
      constructor
      · rintro (⟨lc, hlc, h⟩ | ⟨lc, hlc, h⟩)
        · exact ⟨lc, hlc, Or.inl ((hww lc hlc).1 h)⟩
        · exact ⟨lc, hlc, Or.inr h⟩
      · rintro ⟨lc, hlc, h | h⟩
        · exact Or.inl ⟨lc, hlc, (hww lc hlc).2 h⟩
        · exact Or.inr ⟨lc, hlc, h⟩
    simp only [participantVerdict, hlen, if_false, hstrong, hany, hemp, Bool.false_and,
      Bool.false_eq_true, hamb, false_or]
    rw [← haff, not_or]
    change _ ↔ ¬ SomeAffected lcs ∧ ¬ OnlyPrepend lcs
    obtain ⟨h, h1, h2⟩ | ⟨h, h1, h2⟩ | ⟨h, h1, -⟩ | ⟨h, h1⟩ := strongVerdict_cases lcs
    · simp [h, h2, Verdict.observedResultKind]
    · simp [h, h1, h2, Verdict.observedResultKind]
    · simp [h, h1, Verdict.observedResultKind]
    · have h1' : SomeAffected lcs := Or.inl h1
      rcases h with h | h <;> simp [h, h1', Verdict.observedResultKind]

/-- **When the observed result is truthful**: for transitions without a session reset and known
continuity, iff there are no transitions or some transition is of a kind that the expectation's
branch of `derive_verdict` counts. -/
theorem observedResult_truthful_iff (kind : ExpectationKind) (transitions : List RouteTransition)
    (hreset : hasSessionResets transitions = false) (cohort : FrozenCohort) (cooldownEnd : DateTime)
    (pred : TransitPredicate) :
    TruthfulResult (deriveVerdict transitions kind false
        (some (buildLifecycles transitions cohort cooldownEnd pred))) transitions ↔
      transitions = [] ∨
        ChangeCounts kind transitions (buildLifecycles transitions cohort cooldownEnd pred) := by
  rw [truthfulResult_iff]
  by_cases hnil : transitions = []
  · subst hnil
    cases kind <;> simp [deriveVerdict, hreset, emptyVerdict, Verdict.observedResultKind]
  · have hemp : transitions.isEmpty = false := by simpa using hnil
    simp only [deriveVerdict, hreset, hemp, Bool.or_self, Bool.false_eq_true, if_false, hnil,
      iff_false, false_or]
    cases kind with
    | redundant =>
      cases hw : hasWithdrawals transitions <;> cases hp : hasPathChanges transitions <;>
        simp [ChangeCounts, findingsVerdict, hw, hp, Verdict.observedResultKind]
    | nonRedundant =>
      cases hw : hasWithdrawals transitions <;>
        simp [ChangeCounts, findingsVerdict, hw, Verdict.observedResultKind]
    | participantRelationshipUnavailable =>
      dsimp only [ChangeCounts, findingsVerdict]
      rw [participantVerdict_observed (buildLifecycles_ne_nil hnil cohort cooldownEnd pred)
        fun lc hlc => wasWithdrawn_iff_category hlc, not_not]
    | peerRelationshipUnavailable =>
      cases hw : hasWithdrawals transitions <;> cases hp : hasPathChanges transitions <;>
        simp [ChangeCounts, findingsVerdict, hw, hp, Verdict.observedResultKind]
    | unknown => simp [ChangeCounts, findingsVerdict, Verdict.observedResultKind]

/-- A MED change of the one route of a stream. -/
def attributeOnly : List RouteTransition :=
  let st (med : Option UInt32) (ts : DateTime) : RouteState :=
    ⟨"10.0.0.0/8", { RouteAttributes.fromAsPath [1, 2] with med := med }, ts, "rrc00:0.0.0.1", none⟩
  let ev := EvidenceRef.fromObservation (.plain "rrc00" 0 .announcement 15)
  [{ key := ⟨"rrc00", .v4 1, "10.0.0.0/8", none⟩
     eventBaseline := none
     from_ := some (.present (st none 0) ev)
     to_ := .present (st (some 5) 15) ev
     kind := .attributeChange
     effects := { medChanged := true }
     triggering := ev
     phase := .event }]

/-- **Bug**: an observed attribute change is reported as "no route-state change observed". -/
theorem attributeChange_reported_as_none :
    hasSessionResets attributeOnly = false ∧
    ¬ TruthfulResult (deriveVerdict attributeOnly .redundant false
      (some (buildLifecycles attributeOnly (freezeCohort [2] (.containsAny [1]) []) 30
        (.containsAny [1])))) attributeOnly := by
  refine ⟨by decide, fun h => ?_⟩
  have hno := h.1
  revert hno
  decide

theorem observedResult_truthful_iff_attributeOnly :
    TruthfulResult (deriveVerdict attributeOnly .redundant false
        (some (buildLifecycles attributeOnly (freezeCohort [2] (.containsAny [1]) []) 30
          (.containsAny [1])))) attributeOnly ↔
      attributeOnly = [] ∨ ChangeCounts .redundant attributeOnly
        (buildLifecycles attributeOnly (freezeCohort [2] (.containsAny [1]) []) 30 (.containsAny [1])) :=
  observedResult_truthful_iff .redundant attributeOnly (by decide) _ 30 _

end Inim
