import Inim.Lifecycle.Active
import Inim.Lib.Runs
/-!
# The stream category against the trace of active instances (`lifecycle.rs:1071-1232`)

`docs/DOMAIN.md` states the category of a stream by what was visible: losing the final instance is
`Withdrawn`, visible without a matching route is `DepartedTransitPath`, and "at least one active
matching route remaining means still ViaTransit". The trace is `activeRun`: the baseline, then the
active instances after each transition.

The loop also counts by instance, and differs from the trace in two places.

* **Bug**: a path replacement whose shape departs the transit marks the *stream* departed
  (`lifecycle.rs:1167`), whatever else is active.
* **Bug**: a withdrawal of an instance of a stream that is already absent counts as another
  loss of the stream (`lifecycle.rs:1087`): `now_visible` is tested, `was_visible` is not.

`categoryFollowsTrace_iff` is the exact condition.
-/

namespace Inim

open Std Inim.Lib

/-- `t` takes a visible stream's last instance away. -/
def empties (active : InstanceMap) (t : RouteTransition) : Bool :=
  !active.isEmpty && (activeAfter active t).isEmpty

/-- A withdrawal of a stream that has no instance. -/
def idleWithdrawal (active : InstanceMap) (t : RouteTransition) : Bool :=
  t.kind == .withdrawal && active.isEmpty

theorem run_activeAfter (active : InstanceMap) (l : List RouteTransition) :
    Lib.run activeAfter active l = activeRun active l := rfl

/-! ## One transition -/

/-- Only a withdrawal makes a stream absent. -/
theorem withdrawal_of_empties {active : InstanceMap} {t : RouteTransition}
    (h : empties active t = true) : t.kind = .withdrawal := by
  by_contra hk
  simp only [empties, Bool.and_eq_true, Bool.not_eq_true', activeAfter, hk, if_false] at h
  cases hs : t.to_.state with
  | none =>
    rw [hs] at h
    simp [h.1] at h
  | some st =>
    rw [hs] at h
    simp at h

theorem activeAfter_of_idle {active : InstanceMap} {t : RouteTransition}
    (h : idleWithdrawal active t = true) : (activeAfter active t).isEmpty = true := by
  simp only [idleWithdrawal, Bool.and_eq_true, beq_iff_eq] at h
  have hempty : active = ∅ := ExtTreeMap.isEmpty_iff.1 h.2
  simp [activeAfter, h.1, hempty]

/-- What the loop counts as a loss of the stream: a real one, or a withdrawal while absent. -/
theorem losesStream_count (active : InstanceMap) (t : RouteTransition) :
    (if losesStream active t then 1 else 0) =
      (if empties active t then 1 else 0) + if idleWithdrawal active t then 1 else 0 := by
  cases ha : active.isEmpty with
  | true =>
    have hno : empties active t = false := by simp [empties, ha]
    by_cases hk : t.kind = .withdrawal
    · have hidle : idleWithdrawal active t = true := by simp [idleWithdrawal, hk, ha]
      simp [losesStream, hk, hno, hidle, activeAfter_of_idle hidle]
    · simp [losesStream, idleWithdrawal, hk, hno]
  | false =>
    have hidle : idleWithdrawal active t = false := by simp [idleWithdrawal, ha]
    have hloses : losesStream active t = empties active t := by
      by_cases hk : t.kind = .withdrawal
      · simp [losesStream, empties, hk, ha]
      · have hno : empties active t = false := by
          rw [Bool.eq_false_iff]
          exact fun h => hk (withdrawal_of_empties h)
        simp [losesStream, hk, hno]
    rw [hloses, hidle]
    rfl

/-! ## A whole run -/

namespace Sim

variable (pred : TransitPredicate) (baseline : InstanceMap)

/-- The losses counted are the real ones and the withdrawals of an absent stream. -/
theorem run_count (l : List RouteTransition) : (run pred baseline l).streamWithdrawalCount =
    countAlong activeAfter empties baseline l + countAlong activeAfter idleWithdrawal baseline l := by
  induction l using List.reverseRecOn with
  | nil => rfl
  | append_singleton l t ih =>
    rw [run_concat, step_count, ih, run_active, losesStream_count, countAlong_concat,
      countAlong_concat, run_activeAfter]
    omega

/-- A stream is marked departed by a replacement of that shape, or by a point after a transition
at which it is visible without a match. -/
theorem departed_mem_run (l : List RouteTransition) :
    StreamCategory.departedTransitPath ∈ (run pred baseline l).seenCategories ↔
      (∃ t ∈ l, replacementCategory pred t = some .departedTransitPath) ∨
        ∃ pre t post, l = pre ++ t :: post ∧
          departed pred (activeAfter (activeRun baseline pre) t) = true := by
  induction l using List.reverseRecOn with
  | nil => simp [init]
  | append_singleton l t ih =>
    rw [run_concat, step_categories, ih, run_active, exists_split_concat]
    simp only [List.mem_append, List.mem_singleton, or_and_right, exists_or, exists_eq_left, true_and]
    exact or_or_or_comm

end Sim

section Trace
variable (pred : TransitPredicate) (baseline : InstanceMap) (l : List RouteTransition)

/-- Some transition makes the stream absent. -/
def EverEmptied : Prop :=
  ∃ pre t post, l = pre ++ t :: post ∧ empties (activeRun baseline pre) t = true

/-- At some point of the trace the stream is visible and no route matches. -/
def EverDeparted : Prop := ∃ pre post, l = pre ++ post ∧ departed pred (activeRun baseline pre) = true

/-- The stream-level reading of the category. -/
structure CategoryFollowsTrace (lc : StreamLifecycle) : Prop where
  count : lc.streamWithdrawalCount = countAlong activeAfter empties baseline l
  withdrawn : lc.category = .withdrawn ↔ EverEmptied baseline l
  departed : ¬ EverEmptied baseline l →
    (lc.category = .departedTransitPath ↔ EverDeparted pred baseline l)
  /-- a matching route was active at every visible point -/
  stays : ¬ EverDeparted pred baseline l → lc.category ≠ .departedTransitPath

/-- No withdrawal arrives while the stream is absent. -/
def NoIdleWithdrawal : Prop :=
  ∀ pre t post, l = pre ++ t :: post → idleWithdrawal (activeRun baseline pre) t = false

/-- Some point after a transition is visible without a match. -/
def DepartsLater : Prop :=
  ∃ pre t post, l = pre ++ t :: post ∧ departed pred (activeAfter (activeRun baseline pre) t) = true

/-- The path of one instance is replaced by one off the transit. -/
def InstanceDeparts : Prop := ∃ t ∈ l, replacementCategory pred t = some .departedTransitPath

/-- The trace starts at the baseline. -/
theorem everDeparted_iff :
    EverDeparted pred baseline l ↔ departed pred baseline = true ∨ DepartsLater pred baseline l := by
  constructor
  · rintro ⟨pre, post, hl, h⟩
    rcases List.eq_nil_or_concat pre with rfl | ⟨pre', t, rfl⟩
    · exact Or.inl h
    · rw [List.concat_eq_append] at hl h
      rw [activeRun_concat] at h
      exact Or.inr ⟨pre', t, post, by simpa using hl, h⟩
  · rintro (h | ⟨pre, t, post, hl, h⟩)
    · exact ⟨[], l, rfl, h⟩
    · exact ⟨pre ++ [t], post, by simpa using hl, by rwa [activeRun_concat]⟩

theorem Sim.category_withdrawn_iff (s : Sim) :
    s.category = .withdrawn ↔ 0 < s.streamWithdrawalCount := by
  unfold Sim.category
  split_ifs <;> simp_all

theorem Sim.category_departed_iff (s : Sim) : s.category = .departedTransitPath ↔
    s.streamWithdrawalCount = 0 ∧ .departedTransitPath ∈ s.seenCategories := by
  unfold Sim.category
  by_cases hc : 0 < s.streamWithdrawalCount
  · simp [hc, hc.ne']
  · have hz : s.streamWithdrawalCount = 0 := by omega
    simp only [hz, Nat.lt_irrefl, if_false, true_and]
    split_ifs <;> simp_all

theorem noIdleWithdrawal_iff :
    NoIdleWithdrawal baseline l ↔ countAlong activeAfter idleWithdrawal baseline l = 0 := by
  rw [← Nat.le_zero, ← Nat.not_lt, countAlong_pos_iff]
  simp [NoIdleWithdrawal, run_activeAfter]

theorem everEmptied_iff : EverEmptied baseline l ↔ 0 < countAlong activeAfter empties baseline l :=
  (countAlong_pos_iff _ _ _).symm

/-- **The category is the trace's iff** no withdrawal arrives while the stream is absent, and the
stream was emptied, or departed at a later point, or an instance left the transit exactly where
the baseline is off it already. -/
theorem categoryFollowsTrace_iff (opk : ObserverPrefixKey) (cooldownEnd : DateTime) :
    CategoryFollowsTrace pred baseline l (buildOneLifecycle opk baseline l cooldownEnd pred) ↔
      NoIdleWithdrawal baseline l ∧
        (EverEmptied baseline l ∨ DepartsLater pred baseline l ∨
          (InstanceDeparts pred l ↔ departed pred baseline = true)) := by
  have hlc : (buildOneLifecycle opk baseline l cooldownEnd pred).streamWithdrawalCount =
      (Sim.run pred baseline l).streamWithdrawalCount := rfl
  have hcat : (buildOneLifecycle opk baseline l cooldownEnd pred).category =
      (Sim.run pred baseline l).category := rfl
  have hcount := Sim.run_count pred baseline l
  have hseen : .departedTransitPath ∈ (Sim.run pred baseline l).seenCategories ↔
      InstanceDeparts pred l ∨ DepartsLater pred baseline l := Sim.departed_mem_run pred baseline l
  rw [noIdleWithdrawal_iff]
  constructor
  · intro h
    have hidle : countAlong activeAfter idleWithdrawal baseline l = 0 := by
      have := h.count
      omega
    refine ⟨hidle, ?_⟩
    by_cases hem : EverEmptied baseline l
    · exact Or.inl hem
    · have hzero : (Sim.run pred baseline l).streamWithdrawalCount = 0 := by
        rw [everEmptied_iff] at hem
        omega
      have hdep := h.departed hem
      rw [hcat, Sim.category_departed_iff, hseen, everDeparted_iff] at hdep
      simp only [hzero, true_and] at hdep
      by_cases hlater : DepartsLater pred baseline l
      · exact Or.inr (Or.inl hlater)
      · simp only [hlater, or_false] at hdep
        exact Or.inr (Or.inr hdep)
  · rintro ⟨hidle, h⟩
    have hreal : (Sim.run pred baseline l).streamWithdrawalCount = countAlong activeAfter empties baseline l := by
      omega
    have hdep (hem : ¬ EverEmptied baseline l) :
        (buildOneLifecycle opk baseline l cooldownEnd pred).category = .departedTransitPath ↔
          EverDeparted pred baseline l := by
      have hzero : (Sim.run pred baseline l).streamWithdrawalCount = 0 := by
        rw [everEmptied_iff] at hem
        omega
      rw [hcat, Sim.category_departed_iff, hseen, everDeparted_iff]
      simp only [hzero, true_and]
      rcases h with h | h | h
      · exact absurd h hem
      · simp [h]
      · rw [h]
    have hwd : (buildOneLifecycle opk baseline l cooldownEnd pred).category = .withdrawn ↔
        EverEmptied baseline l := by
      rw [hcat, Sim.category_withdrawn_iff, hreal, everEmptied_iff]
    refine ⟨hlc.trans hreal, hwd, hdep, fun hstay => ?_⟩
    by_cases hem : EverEmptied baseline l
    · rw [hwd.2 hem]
      decide
    · rw [Ne, hdep hem]
      exact hstay

end Trace

/-- Two instances through AS 1; the first moves off it. -/
def oneDepartsSample : List RouteObservation :=
  [.plain "rrc00" 0 .ribEntry 0 (some 1) [1, 2], .plain "rrc00" 1 .ribEntry 0 (some 2) [1, 2],
    .plain "rrc00" 0 .announcement 15 (some 1) [3, 2]]

def oneDepartsBaseline : InstanceMap :=
  baselineFor (freezeCohort [2] (.containsAny [1]) oneDepartsSample) sampleStream

/-- **Bug**: instance 2 still goes through AS 1 and the stream is reported departed. -/
theorem one_departing_instance_departs_stream :
    (buildOneLifecycle sampleStream oneDepartsBaseline
      (streamTransitions sampleStream (transitionsAfter 10 20 30 oneDepartsSample)) 30
      (.containsAny [1])).category = .departedTransitPath ∧
    ¬ CategoryFollowsTrace (.containsAny [1]) oneDepartsBaseline
      (streamTransitions sampleStream (transitionsAfter 10 20 30 oneDepartsSample))
      (buildOneLifecycle sampleStream oneDepartsBaseline
        (streamTransitions sampleStream (transitionsAfter 10 20 30 oneDepartsSample)) 30
        (.containsAny [1])) := by
  have hcat : (buildOneLifecycle sampleStream oneDepartsBaseline
      (streamTransitions sampleStream (transitionsAfter 10 20 30 oneDepartsSample)) 30
      (.containsAny [1])).category = .departedTransitPath := by decide
  refine ⟨hcat, fun h => ?_⟩
  refine h.stays ?_ hcat
  have hpoints : ∀ n ≤ 1, departed (.containsAny [1]) (activeRun oneDepartsBaseline
      ((streamTransitions sampleStream (transitionsAfter 10 20 30 oneDepartsSample)).take n)) =
        false := by decide
  have hlen : (streamTransitions sampleStream (transitionsAfter 10 20 30 oneDepartsSample)).length =
    1 := by decide
  rintro ⟨pre, post, hl, hd⟩
  have hpre : (streamTransitions sampleStream (transitionsAfter 10 20 30 oneDepartsSample)).take
      pre.length = pre := by rw [hl, List.take_left]
  rw [hl, List.length_append] at hlen
  have hno := hpoints pre.length (by omega)
  rw [hpre, hd] at hno
  cases hno

end Inim
