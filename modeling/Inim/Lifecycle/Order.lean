import Inim.Lifecycle.Active
/-!
# The re-sort of a stream's transitions (`lifecycle.rs:853-866`)

`build_lifecycles` sorts the transitions of a stream by timestamp and path id. MRT timestamps are
coarse, so one stream often has several transitions at one timestamp, and the order they were
emitted in, which the sort ignores, decides whether the stream was ever without an instance.

Where the sort moves nothing the lifecycle is the one of the emission order
(`lifecycle_of_emission_order`). Where it does, it can invent an absence: a make-before-break pair
at one timestamp is reported as a stream withdrawal iff the withdrawn path id sorts before the
announced one (`makeBeforeBreak_count`).
-/

namespace Inim

open Std Inim.Lib

/-- `path_id_order(a).cmp(path_id_order(b))`. -/
def comparePathId (a b : Option UInt32) : Ordering :=
  compareLex (compareOn Prod.fst) (compareOn Prod.snd) (pathIdOrder a) (pathIdOrder b)

theorem transitionOrder_eq (a b : RouteTransition) : transitionOrder a b =
    (compare a.to_.timestamp b.to_.timestamp).then (comparePathId a.key.pathId b.key.pathId) := rfl

theorem sortBy_transitionOrder_sorted (l : List RouteTransition) :
    (sortBy transitionOrder l).Pairwise fun a b => a.to_.timestamp ≤ b.to_.timestamp := by
  refine (sortBy_pairwise _).imp fun {a b} hab => ?_
  rw [CmpLE, transitionOrder_eq] at hab
  by_contra hlt
  rw [compare_gt_iff_gt.2 (Int.not_le.1 hlt)] at hab
  cases hab

theorem streamTransitions_sorted (transitions : List RouteTransition) (opk : ObserverPrefixKey) :
    (streamTransitions opk transitions).Pairwise fun a b => a.to_.timestamp ≤ b.to_.timestamp :=
  sortBy_transitionOrder_sorted _

/-- At no timestamp are two transitions of the stream emitted in decreasing path-id order. -/
def EmittedInPathIdOrder (opk : ObserverPrefixKey) (transitions : List RouteTransition) : Prop :=
  (transitionsOf opk transitions).Pairwise fun a b =>
    a.to_.timestamp = b.to_.timestamp → (comparePathId a.key.pathId b.key.pathId).isLE = true

theorem streamTransitions_eq_of_emitted {opk : ObserverPrefixKey} {transitions : List RouteTransition}
    (hts : transitions.Pairwise fun a b => a.to_.timestamp ≤ b.to_.timestamp)
    (h : EmittedInPathIdOrder opk transitions) :
    streamTransitions opk transitions = transitionsOf opk transitions := by
  refine sortBy_eq_self ?_
  refine ((hts.sublist List.filter_sublist).and h).imp ?_
  rintro a b ⟨hle, hpid⟩
  rw [CmpLE, transitionOrder_eq]
  rcases lt_or_eq_of_le hle with hlt | heq
  · simp [compare_lt_iff_lt.2 hlt]
  · rw [Std.compare_eq_iff_eq.2 heq]
    exact hpid heq

/-- **The lifecycle of a stream is that of its emission order**, for transitions at non-decreasing
timestamps, wherever the stream's transitions of one timestamp were emitted in path-id order. -/
theorem lifecycle_of_emission_order (transitions : List RouteTransition)
    (hts : transitions.Pairwise fun a b => a.to_.timestamp ≤ b.to_.timestamp)
    (cohort : FrozenCohort) (cooldownEnd : DateTime) (pred : TransitPredicate)
    (opk : ObserverPrefixKey) (h : EmittedInPathIdOrder opk transitions) :
    buildOneLifecycle opk (baselineFor cohort opk) (streamTransitions opk transitions) cooldownEnd pred =
      buildOneLifecycle opk (baselineFor cohort opk) (transitionsOf opk transitions) cooldownEnd pred := by
  rw [streamTransitions_eq_of_emitted hts h]

/-! ## Make before break -/

section Pair
variable {pred : TransitPredicate} {baseline : InstanceMap} {before : List RouteTransition}
  {a w : RouteTransition}

/-- **A make-before-break pair** at one timestamp, on a stream visible only through the instance
that is then withdrawn: in emission order no absence is counted, after the re-sort one is counted
iff the withdrawn path id sorts before the announced one. -/
theorem makeBeforeBreak_count (hbefore : before.Pairwise (CmpLE transitionOrder))
    (hlt : ∀ t ∈ before, t.to_.timestamp < a.to_.timestamp) (hts : a.to_.timestamp = w.to_.timestamp)
    (hkey : a.key ≠ w.key) (ha : a.kind ≠ .withdrawal) (hsome : a.to_.state.isSome = true)
    (hw : w.kind = .withdrawal) (honly : ∀ k, k ∈ activeRun baseline before ↔ k = w.key) :
    (Sim.run pred baseline (before ++ [a, w])).streamWithdrawalCount =
      (Sim.run pred baseline before).streamWithdrawalCount ∧
    (Sim.run pred baseline (sortBy transitionOrder (before ++ [a, w]))).streamWithdrawalCount =
      (Sim.run pred baseline before).streamWithdrawalCount +
        if comparePathId a.key.pathId w.key.pathId = .gt then 1 else 0 := by
  have hannounced : ∀ m : InstanceMap, losesStream m a = false := by
    intro m
    simp [losesStream, ha]
  -- announced first: the withdrawal leaves the announced instance
  have hlater : losesStream (activeAfter (activeRun baseline before) a) w = false := by
    rw [losesStream, hw, beq_self_eq_true, Bool.true_and, Bool.eq_false_iff, Ne,
      ExtTreeMap.isEmpty_iff, ExtTreeMap.eq_empty_iff_forall_not_mem]
    intro hno
    refine hno a.key ?_
    rw [mem_activeAfter, if_neg hkey, mem_activeAfter, if_pos rfl]
    exact ⟨ha, Or.inl hsome⟩
  -- withdrawn first: nothing is left
  have hfirst : losesStream (activeRun baseline before) w = true := by
    rw [losesStream, hw, beq_self_eq_true, Bool.true_and, ExtTreeMap.isEmpty_iff,
      ExtTreeMap.eq_empty_iff_forall_not_mem]
    intro k
    rw [mem_activeAfter]
    split
    · simp [hw]
    · next hk => rwa [honly]
  have hrun (x y : RouteTransition) :
      (Sim.run pred baseline (before ++ [x, y])).streamWithdrawalCount =
        (Sim.run pred baseline before).streamWithdrawalCount +
          (if losesStream (activeRun baseline before) x then 1 else 0) +
          (if losesStream (activeAfter (activeRun baseline before) x) y then 1 else 0) := by
    have : before ++ [x, y] = (before ++ [x]) ++ [y] := by simp
    rw [this, Sim.run_concat, Sim.run_concat, Sim.step_count, Sim.step_count, Sim.step_active,
      Sim.run_active]
  have hsort : sortBy transitionOrder (before ++ [a, w]) =
      before ++ if comparePathId a.key.pathId w.key.pathId = .gt then [w, a] else [a, w] := by
    rw [sortBy_append hbefore]
    · have horder : transitionOrder a w = comparePathId a.key.pathId w.key.pathId := by
        rw [transitionOrder_eq, Std.compare_eq_iff_eq.2 hts, Ordering.eq_then]
      congr 1
      simp only [sortBy, List.insertionSort_cons, List.insertionSort_nil, List.orderedInsert_nil,
        List.orderedInsert, CmpLE, horder]
      cases comparePathId a.key.pathId w.key.pathId <;> rfl
    · intro t ht b hb
      have hb' : b.to_.timestamp = a.to_.timestamp := by
        rcases List.mem_cons.1 hb with rfl | hb
        · rfl
        · rw [List.mem_singleton.1 hb, hts]
      rw [CmpLE, transitionOrder_eq, compare_lt_iff_lt.2 (hb' ▸ hlt t ht)]
      rfl
  refine ⟨by rw [hrun, hannounced, hlater]; simp, ?_⟩
  rw [hsort]
  split
  · rw [hrun, hfirst, hannounced]
    simp
  · rw [hrun, hannounced, hlater]
    simp

end Pair

/-- Instance 2 from the RIB; at one timestamp instance 3 is announced, then instance 2 withdrawn. -/
def makeBeforeBreak : List RouteObservation :=
  [.plain "rrc00" 0 .ribEntry 0 (some 2) [1, 2], .plain "rrc00" 0 .announcement 15 (some 3) [1, 3, 2],
    .plain "rrc00" 1 .withdrawal 15 (some 2)]

/-- **Bug**: the re-sort puts the withdrawal of instance 2 before the announcement of instance 3. -/
theorem makeBeforeBreak_reported_withdrawn :
    (transitionsAfter 10 20 30 makeBeforeBreak).Pairwise (fun a b => a.to_.timestamp ≤ b.to_.timestamp) ∧
    (buildOneLifecycle sampleStream
      (baselineFor (freezeCohort [2] (.containsAny [1]) makeBeforeBreak) sampleStream)
      (streamTransitions sampleStream (transitionsAfter 10 20 30 makeBeforeBreak)) 30
      (.containsAny [1])).wasWithdrawn = true ∧
    (buildOneLifecycle sampleStream
      (baselineFor (freezeCohort [2] (.containsAny [1]) makeBeforeBreak) sampleStream)
      (transitionsOf sampleStream (transitionsAfter 10 20 30 makeBeforeBreak)) 30
      (.containsAny [1])).wasWithdrawn = false := by
  decide

/-- An announcement and a withdrawal at two timestamps: nothing moves. -/
theorem lifecycle_of_emission_order_sample :
    buildOneLifecycle sampleStream
      (baselineFor (freezeCohort [2] (.containsAny [1]) warmupSample) sampleStream)
      (streamTransitions sampleStream (transitionsAfter 0 20 30 warmupSample)) 30 (.containsAny [1]) =
    buildOneLifecycle sampleStream
      (baselineFor (freezeCohort [2] (.containsAny [1]) warmupSample) sampleStream)
      (transitionsOf sampleStream (transitionsAfter 0 20 30 warmupSample)) 30 (.containsAny [1]) :=
  lifecycle_of_emission_order (transitionsAfter 0 20 30 warmupSample) (by decide) _ 30 _ sampleStream
    (by unfold EmittedInPathIdOrder; decide)

end Inim
