import Inim.Domain.IpText
import Inim.Lifecycle.Order
import Inim.Lifecycle.Timeline
/-!
# One lifecycle a stream (`lifecycle.rs:847-910`, `:1042-1069`)

`build_lifecycles` groups the transitions in a `HashMap` and adds the streams it finds there to
those of the cohort. No stream is lost or doubled, nothing of one stream reaches another, and the
order the map is walked in leaves no mark: the final sort compares collector, peer text and prefix,
which no two streams share (`lifecycleOrder_eq_iff`).
-/

namespace Inim

open Std Inim.Lib

/-- The record of a transition (`lifecycle.rs:1042-1061`). -/
def lifecycleTransition (pred : TransitPredicate) (t : RouteTransition) : LifecycleTransition where
  timestamp := t.to_.timestamp
  phase := t.phase
  kind := transitionKindStr t.kind
  pathId := t.key.pathId
  beforePath := (t.fromState.map (·.attributes.asPath)).getD []
  afterPath := (t.to_.state.map (·.attributes.asPath)).getD []
  pathShape := pathShapeFromTransition t pred
  observationId := t.triggering.observationId
  archiveSha256 := t.triggering.archiveSha256
  hasGshutAfter := t.toGshut

/-! ## The records of one stream -/

namespace Sim
variable (pred : TransitPredicate) (baseline : InstanceMap) (s : Sim) (t : RouteTransition)

theorem step_lifecycleTransitions : (s.step pred baseline t).lifecycleTransitions =
    s.lifecycleTransitions ++
      if t.phase = .cooldown then [] else [lifecycleTransition pred t] := by
  rw [step_of_applyInstance pred baseline s t (·.lifecycleTransitions) (fun _ _ _ _ => rfl)
    (fun _ _ _ _ _ _ => rfl) (fun _ _ _ _ _ _ _ => rfl),
    applyInstance_frame _ _ _ (·.lifecycleTransitions) fun _ _ _ _ _ _ _ _ _ _ _ _ _ _ _ _ => rfl]
  dsimp only [record]
  split
  · simp [noteGshut]
  · rfl

theorem step_cooldownTransitions : (s.step pred baseline t).cooldownTransitions =
    s.cooldownTransitions ++
      if t.phase = .cooldown then [lifecycleTransition pred t] else [] := by
  rw [step_of_applyInstance pred baseline s t (·.cooldownTransitions) (fun _ _ _ _ => rfl)
    (fun _ _ _ _ _ _ => rfl) (fun _ _ _ _ _ _ _ => rfl),
    applyInstance_frame _ _ _ (·.cooldownTransitions) fun _ _ _ _ _ _ _ _ _ _ _ _ _ _ _ _ => rfl]
  dsimp only [record]
  split
  · rfl
  · simp [noteGshut]

/-- Every transition is recorded once, in the list of its phase, in order. -/
theorem run_records (l : List RouteTransition) :
    (run pred baseline l).lifecycleTransitions =
        (l.filter (·.phase ≠ .cooldown)).map (lifecycleTransition pred) ∧
      (run pred baseline l).cooldownTransitions =
        (l.filter (·.phase = .cooldown)).map (lifecycleTransition pred) := by
  induction l using List.reverseRecOn with
  | nil => exact ⟨rfl, rfl⟩
  | append_singleton l t ih =>
    obtain ⟨hl, hc⟩ := ih
    rw [run_concat, step_lifecycleTransitions, step_cooldownTransitions, hl, hc]
    by_cases h : t.phase = .cooldown <;> simp [h]

end Sim

/-! ## All streams -/

/-- Collector, peer text and prefix name one stream. -/
theorem lifecycleOrder_eq_iff {cohort cohort' : FrozenCohort} {cooldownEnd : DateTime}
    {pred : TransitPredicate} {transitions transitions' : List RouteTransition}
    {a b : ObserverPrefixKey} :
    lifecycleOrder (lifecycleOf cohort cooldownEnd pred transitions a)
      (lifecycleOf cohort' cooldownEnd pred transitions' b) = .eq ↔ a = b := by
  have hident (cohort : FrozenCohort) (transitions : List RouteTransition) (k : ObserverPrefixKey) :
      (lifecycleOf cohort cooldownEnd pred transitions k).collector = k.collector ∧
      (lifecycleOf cohort cooldownEnd pred transitions k).peerIp = k.peerIp.display ∧
      (lifecycleOf cohort cooldownEnd pred transitions k).pfx = k.pfx := ⟨rfl, rfl, rfl⟩
  simp only [lifecycleOrder, compareLex_eq_eq, compareOn, LawfulEqCmp.compare_eq_iff_eq,
    hident cohort transitions a, hident cohort' transitions' b]
  obtain ⟨c, p, x⟩ := a
  obtain ⟨c', p', x'⟩ := b
  simp only [ObserverPrefixKey.mk.injEq, IpAddr.display_injective.eq_iff]

section Streams
variable (transitions : List RouteTransition) (cohort : FrozenCohort)

theorem nodup_lifecycleStreams (h : cohort.observerPrefixes.Nodup) :
    (lifecycleStreams transitions cohort).Nodup := by
  refine List.nodup_append.2 ⟨h, (List.nodup_dedup _).filter _, fun a ha b hb hab => ?_⟩
  subst hab
  exact of_decide_eq_true (List.mem_filter.1 hb).2 ha

variable (cooldownEnd : DateTime) (pred : TransitPredicate)

/-- What `build_lifecycles` returns, stream by stream. -/
structure OnePerStream : Prop where
  /-- One lifecycle for each stream of the cohort or with transitions, and no other; strictly
  ascending by collector, peer and prefix. -/
  streams : ∃ streams : List ObserverPrefixKey, streams.Nodup ∧
    (∀ opk, opk ∈ streams ↔
      opk ∈ cohort.observerPrefixes ∨ ∃ t ∈ transitions, t.key.observerPrefixKey = opk) ∧
    buildLifecycles transitions cohort cooldownEnd pred =
      streams.map (lifecycleOf cohort cooldownEnd pred transitions)
  sorted : (buildLifecycles transitions cohort cooldownEnd pred).Pairwise
    fun a b => lifecycleOrder a b = .lt
  /-- The transitions of a stream, in chronological order, each in the list of its phase. -/
  records : ∀ opk, ∃ l : List RouteTransition, l.Perm (transitions.filter (·.key.observerPrefixKey = opk)) ∧
    l.Pairwise (fun a b => a.to_.timestamp ≤ b.to_.timestamp) ∧
    (lifecycleOf cohort cooldownEnd pred transitions opk).transitions =
      (l.filter (·.phase ≠ .cooldown)).map (lifecycleTransition pred) ∧
    (lifecycleOf cohort cooldownEnd pred transitions opk).cooldownTransitions =
      (l.filter (·.phase = .cooldown)).map (lifecycleTransition pred)
  /-- A stream's lifecycle is a function of its own baseline and transitions. -/
  own : ∀ (transitions' : List RouteTransition) (cohort' : FrozenCohort) (opk : ObserverPrefixKey),
    transitions'.filter (·.key.observerPrefixKey = opk) =
      transitions.filter (·.key.observerPrefixKey = opk) →
    baselineFor cohort' opk = baselineFor cohort opk →
    lifecycleOf cohort' cooldownEnd pred transitions' opk =
      lifecycleOf cohort cooldownEnd pred transitions opk
  /-- However the streams come out of the map. -/
  anyOrder : ∀ streams : List ObserverPrefixKey, streams.Perm (lifecycleStreams transitions cohort) →
    sortBy lifecycleOrder (streams.map (lifecycleOf cohort cooldownEnd pred transitions)) =
      buildLifecycles transitions cohort cooldownEnd pred

/-- **One lifecycle a stream**: complete, in order, of its own transitions only, and the same for
every order of the map. -/
theorem buildLifecycles_onePerStream (h : cohort.observerPrefixes.Nodup) :
    OnePerStream transitions cohort cooldownEnd pred := by
  have hnodup := nodup_lifecycleStreams transitions cohort h
  have hmap : buildLifecycles transitions cohort cooldownEnd pred =
      (sortBy (fun a b => lifecycleOrder (lifecycleOf cohort cooldownEnd pred transitions a)
        (lifecycleOf cohort cooldownEnd pred transitions b))
        (lifecycleStreams transitions cohort)).map
          (lifecycleOf cohort cooldownEnd pred transitions) :=
    sortBy_map lifecycleOrder (lifecycleOf cohort cooldownEnd pred transitions) _
  have hperm := sortBy_perm (fun a b =>
    lifecycleOrder (lifecycleOf cohort cooldownEnd pred transitions a)
      (lifecycleOf cohort cooldownEnd pred transitions b)) (lifecycleStreams transitions cohort)
  have hstreams := hperm.nodup_iff.2 hnodup
  refine ⟨⟨_, hstreams, fun opk => ?_, hmap⟩, ?_, fun opk => ?_, ?_, fun streams hs => ?_⟩
  · rw [hperm.mem_iff, mem_lifecycleStreams]
  · have hsorted : (buildLifecycles transitions cohort cooldownEnd pred).Pairwise
        (CmpLE lifecycleOrder) := sortBy_pairwise _
    rw [hmap, List.pairwise_map] at hsorted ⊢
    refine (hsorted.and hstreams).imp ?_
    rintro a b ⟨hle, hne⟩
    cases hcmp : lifecycleOrder (lifecycleOf cohort cooldownEnd pred transitions a)
      (lifecycleOf cohort cooldownEnd pred transitions b) with
    | lt => rfl
    | eq => exact absurd (lifecycleOrder_eq_iff.1 hcmp) hne
    | gt => simp [CmpLE, hcmp] at hle
  · obtain ⟨hl, hc⟩ := Sim.run_records pred (baselineFor cohort opk) (streamTransitions opk transitions)
    exact ⟨streamTransitions opk transitions, sortBy_perm _ _,
      streamTransitions_sorted transitions opk, hl, hc⟩
  · intro transitions' cohort' opk htrans hbase
    rw [lifecycleOf, lifecycleOf, hbase, streamTransitions, streamTransitions, transitionsOf,
      transitionsOf, htrans]
  · refine sortBy_eq_of_perm (hs.map _) ?_
    intro a ha b hb heq
    obtain ⟨x, -, rfl⟩ := List.mem_map.1 ha
    obtain ⟨y, -, rfl⟩ := List.mem_map.1 hb
    rw [lifecycleOrder_eq_iff.1 heq]

end Streams

theorem nodup_observerPrefixes (targets : List UInt32) (pred : TransitPredicate)
    (rib : List RouteObservation) : (freezeCohort targets pred rib).observerPrefixes.Nodup :=
  ((sortBy_perm _ _).nodup_iff.2 (List.nodup_dedup _)).filter _

/-- Two instances of one stream. -/
theorem makeBeforeBreak_onePerStream :
    OnePerStream (transitionsAfter 10 20 30 makeBeforeBreak)
      (freezeCohort [2] (.containsAny [1]) makeBeforeBreak) 30 (.containsAny [1]) :=
  buildLifecycles_onePerStream _ _ _ _ (nodup_observerPrefixes _ _ _)

end Inim
