import Inim.Assess
import Inim.Lifecycle.Active
/-!
# What the cooldown does to categories and verdicts (`lifecycle.rs:1062-1263`, `assess.rs:196-346`)

The cooldown is documented to serve restoration only: it never changes the verdict of the event
window. `build_one_lifecycle` records the phase of a transition but simulates and classifies both
phases alike, and `derive_verdict` counts both alike.

A stream's category is the highest-ranking contribution of its transitions (`category_run`), so
the cooldown leaves it alone iff no cooldown transition contributes more than the event window
did. `cooldown_changes_nothing`: two lists with the same event part have the same categories and
the same verdict, if the cooldown of each adds nothing of the kinds that are counted.
-/

namespace Inim

open Inim.Lib

/-- The precedence of the categories. -/
def StreamCategory.rank : StreamCategory → Nat
  | .unchanged => 0
  | .prependOnly => 1
  | .pathChangedStillViaTransit => 2
  | .departedTransitPath => 3
  | .withdrawn => 4

theorem StreamCategory.rank_injective : Function.Injective StreamCategory.rank := by
  intro a b h
  cases a <;> cases b <;> simp_all [rank]

/-- What one transition contributes to the category, where `active` are the instances. -/
def stepCategory (pred : TransitPredicate) (active : InstanceMap) (t : RouteTransition) :
    StreamCategory :=
  if losesStream active t then .withdrawn
  else if departed pred (activeAfter active t) then .departedTransitPath
  else (replacementCategory pred t).getD .unchanged

namespace Sim

theorem category_step (pred : TransitPredicate) (baseline : InstanceMap) (s : Sim)
    (t : RouteTransition) : (s.step pred baseline t).category.rank =
      max s.category.rank (stepCategory pred s.active t).rank := by
  unfold category stepCategory
  rw [step_count]
  simp only [step_categories]
  by_cases hl : losesStream s.active t = true
  · simp only [hl, if_true]
    rw [if_pos (Nat.succ_pos _)]
    split_ifs <;> rfl
  · by_cases hc : 0 < s.streamWithdrawalCount
    · simp only [hl, Bool.false_eq_true, if_false, Nat.add_zero, hc, if_true]
      rcases replacementCategory_cases pred t with h | h | h | h <;>
        split_ifs <;> simp [h, StreamCategory.rank]
    · by_cases hd : departed pred (activeAfter s.active t) = true <;>
        by_cases h3 : StreamCategory.departedTransitPath ∈ s.seenCategories <;>
        by_cases h2 : StreamCategory.pathChangedStillViaTransit ∈ s.seenCategories <;>
        by_cases h1 : StreamCategory.prependOnly ∈ s.seenCategories <;>
        rcases replacementCategory_cases pred t with h | h | h | h <;>
        simp [hl, hc, hd, h1, h2, h3, h, StreamCategory.rank]

/-- The category of a longer run is at most `n` in rank iff the shorter one's is and every
contribution is. -/
theorem category_run_le (pred : TransitPredicate) (baseline : InstanceMap)
    (before l : List RouteTransition) (n : Nat) :
    (run pred baseline (before ++ l)).category.rank ≤ n ↔
      (run pred baseline before).category.rank ≤ n ∧ ∀ pre t post, l = pre ++ t :: post →
        (stepCategory pred (activeRun baseline (before ++ pre)) t).rank ≤ n := by
  induction l using List.reverseRecOn with
  | nil => simp
  | append_singleton l t ih =>
    rw [← List.append_assoc, run_concat, category_step, run_active, max_le_iff, ih,
      forall_split_concat, and_assoc]

/-- **The category a cooldown leaves alone.** -/
theorem category_run_eq_iff (pred : TransitPredicate) (baseline : InstanceMap)
    (before l : List RouteTransition) :
    (run pred baseline (before ++ l)).category = (run pred baseline before).category ↔
      ∀ pre t post, l = pre ++ t :: post →
        (stepCategory pred (activeRun baseline (before ++ pre)) t).rank ≤
          (run pred baseline before).category.rank := by
  have hge := ((category_run_le pred baseline before l _).1 le_rfl).1
  constructor
  · intro h
    exact ((category_run_le pred baseline before l _).1 (by rw [h])).2
  · intro h
    have hle := (category_run_le pred baseline before l _).2 ⟨le_rfl, h⟩
    exact StreamCategory.rank_injective (le_antisymm hle hge)

end Sim

/-! ## The two phases of a transition list -/

/-- Event transitions are dated up to `event_end`, cooldown transitions after it. -/
def PhasesByTime (eventEnd : DateTime) (transitions : List RouteTransition) : Prop :=
  ∀ t ∈ transitions, (t.phase = .event ∧ t.to_.timestamp ≤ eventEnd) ∨
    (t.phase = .cooldown ∧ eventEnd < t.to_.timestamp)

/-- What `reconstruct_routes` emits is phased by time. -/
theorem transitionsAfter_phases (eventStart eventEnd cooldownEnd : DateTime)
    (l : List RouteObservation) :
    PhasesByTime eventEnd (transitionsAfter eventStart eventEnd cooldownEnd l) := by
  induction l using List.reverseRecOn with
  | nil => intro t ht; cases ht
  | append_singleton l o ih =>
    intro t ht
    rw [transitionsAfter_concat, List.mem_append] at ht
    rcases ht with ht | ht
    · exact ih t ht
    · by_cases he : emits eventStart cooldownEnd l o = true
      · rw [if_pos he, List.mem_singleton] at ht
        subst ht
        rw [emits_eq eventStart eventEnd, Bool.and_eq_true] at he
        rw [transitionFor_timestamp eventStart eventEnd cooldownEnd he.2]
        change (phaseOf eventEnd o = .event ∧ _) ∨ (phaseOf eventEnd o = .cooldown ∧ _)
        by_cases hle : o.timestamp ≤ eventEnd
        · simp [phaseOf, hle]
        · simp [phaseOf, hle, lt_of_not_ge hle]
      · rw [if_neg he] at ht
        cases ht

def eventPart (transitions : List RouteTransition) : List RouteTransition :=
  transitions.filter (·.phase = .event)

/-- The stream's cooldown transitions, sorted. -/
def streamCooldown (opk : ObserverPrefixKey) (transitions : List RouteTransition) :
    List RouteTransition :=
  (streamTransitions opk transitions).filter fun t => !decide (t.phase = .event)

theorem streamTransitions_split {eventEnd : DateTime} {transitions : List RouteTransition}
    (h : PhasesByTime eventEnd transitions) (opk : ObserverPrefixKey) :
    streamTransitions opk transitions =
      streamTransitions opk (eventPart transitions) ++ streamCooldown opk transitions := by
  have hevent : streamTransitions opk (eventPart transitions) =
      (streamTransitions opk transitions).filter (·.phase = .event) := by
    rw [streamTransitions, streamTransitions, sortBy_filter, transitionsOf, transitionsOf, eventPart,
      List.filter_comm]
  rw [hevent, streamCooldown]
  refine filter_append_filter_not ?_
  refine (sortBy_pairwise (transitionsOf opk transitions)).imp_of_mem ?_
  intro a b ha hb hab hbe
  rw [decide_eq_true_eq] at hbe ⊢
  have hmem {t} (ht : t ∈ sortBy transitionOrder (transitionsOf opk transitions)) :
      t ∈ transitions := List.mem_of_mem_filter (mem_sortBy.1 ht)
  rcases h a (hmem ha) with hae | hae
  · exact hae.1
  · -- a cooldown transition cannot come before an event one
    rcases h b (hmem hb) with hb' | hb'
    · have hlt : b.to_.timestamp < a.to_.timestamp := lt_of_le_of_lt hb'.2 hae.2
      rw [CmpLE, transitionOrder, compareLex, compareOn, compare_gt_iff_gt.2 hlt] at hab
      cases hab
    · rw [hb'.1] at hbe
      cases hbe

/-! ## The verdict sees a lifecycle through three fields -/

/-- What `derive_verdict` reads of a lifecycle. -/
def StreamLifecycle.verdictView (lc : StreamLifecycle) : StreamCategory × Bool × Bool :=
  (lc.category, lc.wasWithdrawn, lc.flags.addPathAmbiguous)

/-- The set-based verdict depends on the multiset of views only. -/
theorem participantVerdict_congr {lcs lcs' : List StreamLifecycle}
    (h : (lcs.map (·.verdictView)).Perm (lcs'.map (·.verdictView))) :
    participantVerdict lcs = participantVerdict lcs' := by
  have hcount (q : StreamCategory × Bool × Bool → Bool) :
      lcs.countP (q ·.verdictView) = lcs'.countP (q ·.verdictView) := by
    have := h.countP_eq q
    rwa [List.countP_map, List.countP_map] at this
  have hlen : lcs.length = lcs'.length := by simpa using h.length_eq
  have hany : lcs.any (·.flags.addPathAmbiguous) = lcs'.any (·.flags.addPathAmbiguous) := by
    have := hcount (·.2.2)
    rw [Bool.eq_iff_iff, List.any_eq_true, List.any_eq_true, ← List.countP_pos_iff,
      ← List.countP_pos_iff]
    exact iff_of_eq (congrArg (0 < ·) this)
  have hstrong (q : StreamCategory × Bool × Bool → Bool) :
      (strongStreams lcs).countP (q ·.verdictView) = (strongStreams lcs').countP (q ·.verdictView) := by
    rw [strongStreams, strongStreams, List.countP_filter, List.countP_filter]
    exact hcount fun v => q v && !v.2.2
  have hslen : (strongStreams lcs).length = (strongStreams lcs').length := by
    simpa using hstrong fun _ => true
  have hemp : (strongStreams lcs).isEmpty = (strongStreams lcs').isEmpty := by
    rw [Bool.eq_iff_iff, List.isEmpty_iff, List.isEmpty_iff, ← List.length_eq_zero_iff,
      ← List.length_eq_zero_iff, hslen]
  have hall : ((strongStreams lcs).all fun l => l.category == .unchanged || l.category == .prependOnly) =
      (strongStreams lcs').all fun l => l.category == .unchanged || l.category == .prependOnly := by
    have := hstrong fun v => v.1 == .unchanged || v.1 == .prependOnly
    rw [Bool.eq_iff_iff, List.all_eq_true, List.all_eq_true, ← List.countP_eq_length,
      ← List.countP_eq_length, ← hslen]
    exact iff_of_eq (congrArg (· = (strongStreams lcs).length) this)
  have hw : (strongStreams lcs).countP (·.wasWithdrawn) =
      (strongStreams lcs').countP (·.wasWithdrawn) := hstrong (·.2.1)
  have hd : ((strongStreams lcs).countP fun l => l.category == .departedTransitPath) =
      (strongStreams lcs').countP fun l => l.category == .departedTransitPath :=
    hstrong fun v => v.1 == .departedTransitPath
  have hsv : strongVerdict (strongStreams lcs) = strongVerdict (strongStreams lcs') := by
    simp only [strongVerdict, hall, hw, hd, hslen]
  simp only [participantVerdict, hlen, hemp, hsv, hany]

/-! ## Cooldowns that add nothing -/

/-- No cooldown transition of the stream contributes more than the event window did. -/
def ImpactNeutral (cohort : FrozenCohort) (pred : TransitPredicate)
    (transitions : List RouteTransition) (opk : ObserverPrefixKey) : Prop :=
  ∀ pre t post, streamCooldown opk transitions = pre ++ t :: post →
    (stepCategory pred (activeRun (baselineFor cohort opk)
      (streamTransitions opk (eventPart transitions) ++ pre)) t).rank ≤
      (Sim.run pred (baselineFor cohort opk)
        (streamTransitions opk (eventPart transitions))).category.rank

/-- The cooldown adds nothing of what the expectation's branch of `derive_verdict` reads. -/
def FindingsNeutral (kind : ExpectationKind) (cohort : FrozenCohort) (pred : TransitPredicate)
    (transitions : List RouteTransition) : Prop :=
  (hasSessionResets transitions = true → hasSessionResets (eventPart transitions) = true) ∧
  match kind with
  | .redundant | .peerRelationshipUnavailable =>
    (hasWithdrawals transitions = true → hasWithdrawals (eventPart transitions) = true) ∧
    (hasWithdrawals (eventPart transitions) = false → hasPathChanges transitions = true →
      hasPathChanges (eventPart transitions) = true)
  | .nonRedundant =>
    hasWithdrawals transitions = true → hasWithdrawals (eventPart transitions) = true
  | .participantRelationshipUnavailable =>
    (eventPart transitions = [] → transitions = []) ∧
    (∀ t ∈ transitions, t.key.observerPrefixKey ∉ cohort.observerPrefixes →
      ∃ t' ∈ eventPart transitions, t'.key.observerPrefixKey = t.key.observerPrefixKey ∧
        ImpactNeutral cohort pred transitions t.key.observerPrefixKey) ∧
    ∀ opk ∈ lifecycleStreams transitions cohort,
      ambiguousStream cohort transitions opk = true →
        ambiguousStream cohort (eventPart transitions) opk = true
  | .unknown => eventPart transitions = [] → transitions = []

/-- The cooldown of `transitions` adds nothing: to any cohort stream's category, to the findings. -/
structure CooldownNeutral (kind : ExpectationKind) (cohort : FrozenCohort) (pred : TransitPredicate)
    (transitions : List RouteTransition) : Prop where
  impact : ∀ opk ∈ cohort.observerPrefixes, ImpactNeutral cohort pred transitions opk
  findings : FindingsNeutral kind cohort pred transitions

section Neutral
variable {kind : ExpectationKind} {cohort : FrozenCohort} {pred : TransitPredicate}
  {transitions : List RouteTransition} {eventEnd cooldownEnd : DateTime}

/-- Exactly the impact-neutral cooldowns leave a stream's category alone. -/
theorem category_eventPart_iff (hph : PhasesByTime eventEnd transitions) (opk : ObserverPrefixKey) :
    (lifecycleOf cohort cooldownEnd pred transitions opk).category =
      (lifecycleOf cohort cooldownEnd pred (eventPart transitions) opk).category ↔
      ImpactNeutral cohort pred transitions opk := by
  have hcat (l : List RouteTransition) :
      (lifecycleOf cohort cooldownEnd pred l opk).category =
        (Sim.run pred (baselineFor cohort opk) (streamTransitions opk l)).category := rfl
  rw [hcat, hcat, streamTransitions_split hph, Sim.category_run_eq_iff]
  rfl

theorem any_eventPart {p : RouteTransition → Bool} (h : (eventPart transitions).any p = true) :
    transitions.any p = true := by
  obtain ⟨t, ht, hp⟩ := List.any_eq_true.1 h
  exact List.any_eq_true.2 ⟨t, List.mem_of_mem_filter ht, hp⟩

/-- Ambiguity of the event part is ambiguity of the whole. -/
theorem ambiguous_of_eventPart {opk : ObserverPrefixKey}
    (h : ambiguousStream cohort (eventPart transitions) opk = true) :
    ambiguousStream cohort transitions opk = true := by
  have hsub : ∀ t ∈ streamTransitions opk (eventPart transitions),
      t ∈ streamTransitions opk transitions := by
    intro t ht
    obtain ⟨ht, hopk⟩ := List.mem_filter.1 (mem_sortBy.1 ht)
    exact mem_sortBy.2 (List.mem_filter.2 ⟨List.mem_of_mem_filter ht, hopk⟩)
  have hfind {p : RouteTransition → Bool}
      (hp : ((streamTransitions opk (eventPart transitions)).find? p).isSome = true) :
      ((streamTransitions opk transitions).find? p).isSome = true := by
    rw [List.find?_isSome] at hp ⊢
    obtain ⟨t, ht, hpt⟩ := hp
    exact ⟨t, hsub t ht, hpt⟩
  unfold ambiguousStream detectStreamAmbiguity at h ⊢
  dsimp only at h ⊢
  split at h
  · cases h
  · next hboth =>
    rw [if_neg]
    · rfl
    · simp only [Bool.not_eq_true', Bool.not_eq_false, Bool.and_eq_true, Bool.or_eq_true] at hboth ⊢
      exact ⟨hboth.1.imp_right hfind, hboth.2.imp_right hfind⟩

/-- Without new streams of its own the cooldown leaves the list of streams as it is. -/
theorem lifecycleStreams_perm (transitions : List RouteTransition) (cohort : FrozenCohort)
    (h : ∀ t ∈ transitions, t.key.observerPrefixKey ∉ cohort.observerPrefixes →
    ∃ t' ∈ eventPart transitions, t'.key.observerPrefixKey = t.key.observerPrefixKey) :
    (lifecycleStreams transitions cohort).Perm (lifecycleStreams (eventPart transitions) cohort) := by
  refine List.Perm.append_left _ ((List.perm_ext_iff_of_nodup ?_ ?_).2 fun opk => ?_)
  · exact (List.nodup_dedup _).filter _
  · exact (List.nodup_dedup _).filter _
  · simp only [List.mem_filter, List.mem_dedup, List.mem_map, decide_eq_true_eq]
    refine and_congr_left fun hno => ⟨?_, ?_⟩
    · rintro ⟨t, ht, rfl⟩
      exact h t ht hno
    · rintro ⟨t, ht, rfl⟩
      exact ⟨t, List.mem_of_mem_filter ht, rfl⟩

/-- The views agree stream by stream. -/
theorem verdictView_eventPart {opk : ObserverPrefixKey}
    (hcat : (lifecycleOf cohort cooldownEnd pred transitions opk).category =
      (lifecycleOf cohort cooldownEnd pred (eventPart transitions) opk).category)
    (hamb : ambiguousStream cohort transitions opk = true →
      ambiguousStream cohort (eventPart transitions) opk = true) :
    (lifecycleOf cohort cooldownEnd pred transitions opk).verdictView =
      (lifecycleOf cohort cooldownEnd pred (eventPart transitions) opk).verdictView := by
  have hww : (lifecycleOf cohort cooldownEnd pred transitions opk).wasWithdrawn =
      (lifecycleOf cohort cooldownEnd pred (eventPart transitions) opk).wasWithdrawn := by
    rw [Bool.eq_iff_iff, lifecycleOf, lifecycleOf, buildOneLifecycle_wasWithdrawn,
      buildOneLifecycle_wasWithdrawn, ← lifecycleOf, ← lifecycleOf, hcat]
  have hflag : ambiguousStream cohort transitions opk =
      ambiguousStream cohort (eventPart transitions) opk := by
    rw [Bool.eq_iff_iff]
    exact ⟨hamb, ambiguous_of_eventPart⟩
  rw [StreamLifecycle.verdictView, hcat, hww]
  exact congrArg (fun b => ((lifecycleOf cohort cooldownEnd pred (eventPart transitions) opk).category,
    (lifecycleOf cohort cooldownEnd pred (eventPart transitions) opk).wasWithdrawn, b)) hflag

theorem verdictViews_perm (cohort : FrozenCohort) (cooldownEnd : DateTime) (pred : TransitPredicate)
    (transitions : List RouteTransition) :
    ((buildLifecycles transitions cohort cooldownEnd pred).map (·.verdictView)).Perm
      ((lifecycleStreams transitions cohort).map fun opk =>
        (lifecycleOf cohort cooldownEnd pred transitions opk).verdictView) := by
  have h := (sortBy_perm lifecycleOrder ((lifecycleStreams transitions cohort).map fun opk =>
    lifecycleOf cohort cooldownEnd pred transitions opk)).map (·.verdictView)
  rwa [List.map_map] at h

theorem participantVerdict_eventPart (hph : PhasesByTime eventEnd transitions)
    (himpact : ∀ opk ∈ cohort.observerPrefixes, ImpactNeutral cohort pred transitions opk)
    (hnew : ∀ t ∈ transitions, t.key.observerPrefixKey ∉ cohort.observerPrefixes →
      ∃ t' ∈ eventPart transitions, t'.key.observerPrefixKey = t.key.observerPrefixKey ∧
        ImpactNeutral cohort pred transitions t.key.observerPrefixKey)
    (hamb : ∀ opk ∈ lifecycleStreams transitions cohort, ambiguousStream cohort transitions opk = true →
      ambiguousStream cohort (eventPart transitions) opk = true) :
    participantVerdict (buildLifecycles transitions cohort cooldownEnd pred) =
      participantVerdict (buildLifecycles (eventPart transitions) cohort cooldownEnd pred) := by
  have hstreams := lifecycleStreams_perm transitions cohort
    fun t ht hno => (hnew t ht hno).imp fun _ h => ⟨h.1, h.2.1⟩
  have hneutral : ∀ opk ∈ lifecycleStreams transitions cohort,
      ImpactNeutral cohort pred transitions opk := by
    intro opk hopk
    rcases List.mem_append.1 hopk with hin | hout
    · exact himpact opk hin
    · obtain ⟨hmem, hno⟩ := List.mem_filter.1 hout
      obtain ⟨t, ht, rfl⟩ := List.mem_map.1 (List.mem_dedup.1 hmem)
      exact (hnew t ht (of_decide_eq_true hno)).choose_spec.2.2
  refine participantVerdict_congr ?_
  have hview : (lifecycleStreams transitions cohort).map
        (fun opk => (lifecycleOf cohort cooldownEnd pred transitions opk).verdictView) =
      (lifecycleStreams transitions cohort).map
        fun opk => (lifecycleOf cohort cooldownEnd pred (eventPart transitions) opk).verdictView :=
    List.map_congr_left fun opk hopk => verdictView_eventPart
      ((category_eventPart_iff hph opk).2 (hneutral opk hopk)) (hamb opk hopk)
  have hviews := verdictViews_perm cohort cooldownEnd pred transitions
  rw [hview] at hviews
  exact (hviews.trans (hstreams.map _)).trans
    (verdictViews_perm cohort cooldownEnd pred (eventPart transitions)).symm

theorem deriveVerdict_eventPart (hph : PhasesByTime eventEnd transitions)
    (h : CooldownNeutral kind cohort pred transitions) (unknown : Bool) :
    deriveVerdict transitions kind unknown
        (some (buildLifecycles transitions cohort cooldownEnd pred)) =
      deriveVerdict (eventPart transitions) kind unknown
        (some (buildLifecycles (eventPart transitions) cohort cooldownEnd pred)) := by
  obtain ⟨himpact, hreset, hfind⟩ := h
  cases unknown with
  | true => simp [deriveVerdict]
  | false =>
  cases hr : hasSessionResets (eventPart transitions) with
  | true =>
    have hr' : hasSessionResets transitions = true := any_eventPart hr
    simp [deriveVerdict, hr, hr']
  | false =>
  have hr' : hasSessionResets transitions = false := by
    by_contra hno
    rw [hreset (by simpa using hno)] at hr
    cases hr
  have hW (h : hasWithdrawals transitions = true → hasWithdrawals (eventPart transitions) = true) :
      hasWithdrawals transitions = hasWithdrawals (eventPart transitions) :=
    Bool.eq_iff_iff.2 ⟨h, any_eventPart⟩
  have hnil : transitions = [] → eventPart transitions = [] := by
    rintro rfl
    rfl
  cases kind with
  | redundant | peerRelationshipUnavailable =>
    obtain ⟨hwithdrawals, hpaths⟩ := hfind
    rw [deriveVerdict_counting (by simp) (by simp) hr', deriveVerdict_counting (by simp) (by simp) hr,
      findingsVerdict_graded_iff (by simp)]
    refine ⟨hW hwithdrawals, fun hnone => Bool.eq_iff_iff.2 ⟨hpaths ?_, any_eventPart⟩⟩
    rw [← hW hwithdrawals, hnone]
  | nonRedundant =>
    rw [deriveVerdict_counting (by simp) (by simp) hr', deriveVerdict_counting (by simp) (by simp) hr]
    exact findingsVerdict_nonRedundant_iff.2 (hW hfind)
  | unknown =>
    have hiff : transitions.isEmpty = (eventPart transitions).isEmpty := by
      rw [Bool.eq_iff_iff, List.isEmpty_iff, List.isEmpty_iff]
      exact ⟨hnil, hfind⟩
    simp [deriveVerdict, hr, hr', hiff, findingsVerdict]
  | participantRelationshipUnavailable =>
    obtain ⟨hempty, hnew, hamb⟩ := hfind
    have hiff : transitions.isEmpty = (eventPart transitions).isEmpty := by
      rw [Bool.eq_iff_iff, List.isEmpty_iff, List.isEmpty_iff]
      exact ⟨hnil, hempty⟩
    simp only [deriveVerdict, hr, hr', hiff, findingsVerdict,
      participantVerdict_eventPart hph himpact hnew hamb]

end Neutral

/-- **A cooldown that adds nothing changes nothing.** Two transition lists with the same event
part, phased by time as `reconstruct_routes` phases them, whose cooldowns are both neutral: every
cohort stream has the same category in both, and the verdicts are the same. -/
theorem cooldown_changes_nothing {kind : ExpectationKind} {cohort : FrozenCohort}
    {pred : TransitPredicate} {eventEnd : DateTime} (cooldownEnd : DateTime)
    {ts ts' : List RouteTransition} (hph : PhasesByTime eventEnd ts) (hph' : PhasesByTime eventEnd ts')
    (hevent : eventPart ts = eventPart ts') (h : CooldownNeutral kind cohort pred ts)
    (h' : CooldownNeutral kind cohort pred ts') (unknown : Bool) :
    (∀ opk ∈ cohort.observerPrefixes, (lifecycleOf cohort cooldownEnd pred ts opk).category =
      (lifecycleOf cohort cooldownEnd pred ts' opk).category) ∧
    deriveVerdict ts kind unknown (some (buildLifecycles ts cohort cooldownEnd pred)) =
      deriveVerdict ts' kind unknown (some (buildLifecycles ts' cohort cooldownEnd pred)) := by
  refine ⟨fun opk hopk => ?_, ?_⟩
  · rw [(category_eventPart_iff hph opk).2 (h.impact opk hopk),
      (category_eventPart_iff hph' opk).2 (h'.impact opk hopk), hevent]
  · rw [deriveVerdict_eventPart hph h, deriveVerdict_eventPart hph' h', hevent]

/-- A route from the RIB, withdrawn in the event window, back in the cooldown. -/
def restoredSample : List RouteObservation :=
  [.plain "rrc00" 0 .ribEntry 0 none [1, 2], .plain "rrc00" 0 .withdrawal 15,
    .plain "rrc00" 1 .announcement 25 none [1, 2]]

theorem restoredSample_neutral : CooldownNeutral .nonRedundant
    (freezeCohort [2] (.containsAny [1]) restoredSample) (.containsAny [1])
    (transitionsAfter 10 20 30 restoredSample) where
  impact := by
    have hone : (freezeCohort [2] (.containsAny [1]) restoredSample).observerPrefixes = [sampleStream] := by
      decide
    intro opk hopk pre t post h
    rw [hone, List.mem_singleton] at hopk
    subst hopk
    have hlen : (streamCooldown sampleStream (transitionsAfter 10 20 30 restoredSample)).length = 1 := by
      decide
    rw [h, List.length_append, List.length_cons] at hlen
    obtain rfl : pre = [] := List.length_eq_zero_iff.1 (by omega)
    obtain rfl : t = (streamCooldown sampleStream (transitionsAfter 10 20 30 restoredSample)).head
        (by decide) := by simp [h]
    decide
  findings := ⟨by decide, by decide⟩

theorem unrestoredSample_neutral : CooldownNeutral .nonRedundant
    (freezeCohort [2] (.containsAny [1]) restoredSample) (.containsAny [1])
    (transitionsAfter 10 20 30 (restoredSample.take 2)) where
  impact := by
    have hone : (freezeCohort [2] (.containsAny [1]) restoredSample).observerPrefixes = [sampleStream] := by
      decide
    intro opk hopk pre t post h
    rw [hone, List.mem_singleton] at hopk
    subst hopk
    have hlen : (streamCooldown sampleStream
      (transitionsAfter 10 20 30 (restoredSample.take 2))).length = 0 := by decide
    simp [h] at hlen
  findings := ⟨by decide, by decide⟩

/-- The restoration in the cooldown, or its absence, makes no difference. -/
theorem cooldown_changes_nothing_restored :
    (lifecycleOf (freezeCohort [2] (.containsAny [1]) restoredSample) 30 (.containsAny [1])
        (transitionsAfter 10 20 30 restoredSample) sampleStream).category =
      (lifecycleOf (freezeCohort [2] (.containsAny [1]) restoredSample) 30 (.containsAny [1])
        (transitionsAfter 10 20 30 (restoredSample.take 2)) sampleStream).category ∧
    deriveVerdict (transitionsAfter 10 20 30 restoredSample) .nonRedundant false
        (some (buildLifecycles (transitionsAfter 10 20 30 restoredSample)
          (freezeCohort [2] (.containsAny [1]) restoredSample) 30 (.containsAny [1]))) =
      deriveVerdict (transitionsAfter 10 20 30 (restoredSample.take 2)) .nonRedundant false
        (some (buildLifecycles (transitionsAfter 10 20 30 (restoredSample.take 2))
          (freezeCohort [2] (.containsAny [1]) restoredSample) 30 (.containsAny [1]))) := by
  obtain ⟨h1, h2⟩ := cooldown_changes_nothing 30
    (transitionsAfter_phases 10 20 30 restoredSample)
    (transitionsAfter_phases 10 20 30 (restoredSample.take 2)) (by decide) restoredSample_neutral
    unrestoredSample_neutral false
  exact ⟨h1 sampleStream (by decide), h2⟩

/-- The same route, first lost in the cooldown. -/
def cooldownLoss : List RouteObservation :=
  [.plain "rrc00" 0 .ribEntry 0 none [1, 2], .plain "rrc00" 0 .withdrawal 25]

/-- **Bug**: with no event transition at all, a withdrawal in the cooldown makes the stream
`Withdrawn` and the verdict a redundancy failure. -/
theorem cooldown_withdrawal_changes_verdict :
    eventPart (transitionsAfter 10 20 30 cooldownLoss) = eventPart [] ∧
    (lifecycleOf (freezeCohort [2] (.containsAny [1]) cooldownLoss) 30 (.containsAny [1])
        (transitionsAfter 10 20 30 cooldownLoss) sampleStream).category ≠
      (lifecycleOf (freezeCohort [2] (.containsAny [1]) cooldownLoss) 30 (.containsAny [1])
        [] sampleStream).category ∧
    deriveVerdict (transitionsAfter 10 20 30 cooldownLoss) .redundant false
        (some (buildLifecycles (transitionsAfter 10 20 30 cooldownLoss)
          (freezeCohort [2] (.containsAny [1]) cooldownLoss) 30 (.containsAny [1]))) ≠
      deriveVerdict [] .redundant false (some (buildLifecycles []
        (freezeCohort [2] (.containsAny [1]) cooldownLoss) 30 (.containsAny [1]))) := by
  decide

end Inim
