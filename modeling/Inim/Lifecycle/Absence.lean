import Inim.Lifecycle.Restoration
/-!
# Final state and absences (`lifecycle.rs:1073-1141`, `:1212-1241`, `:288-326`)

`final_state` is the "final state of the stream's principal instance at end of window", and the
absence bounds are "None if never withdrawn".

* **Bug**: a withdrawal of any instance clears `final_state`, also where the stream stays visible.
* **Bug**: an absence of less than a second is dropped, so that a stream that was withdrawn can
  have no bounds, or bounds above its shortest absence.

| here | there |
| --- | --- |
| `AbsenceLog`, `absences` | the absence intervals as the field docs describe them |
| `lastApplies`            | the last transition that changed an instance announced a route |
-/

namespace Inim

open Std Inim.Lib

/-! ## Absences -/

/-- The absences of a stream so far, and the start of the one it is in. -/
structure AbsenceLog where
  active : InstanceMap
  since : Option DateTime
  closed : List (DateTime × DateTime)

/-- An absence starts at a withdrawal that leaves no instance, and ends where there is one again. -/
def AbsenceLog.step (a : AbsenceLog) (t : RouteTransition) : AbsenceLog :=
  let active := activeAfter a.active t
  if active.isEmpty then
    { a with
      active := active
      since := a.since <|> if t.kind = .withdrawal then some t.to_.timestamp else none }
  else
    { active := active
      since := none
      closed := a.closed ++ (a.since.map fun start => (start, t.to_.timestamp)).toList }

def absenceLog (baseline : InstanceMap) (l : List RouteTransition) : AbsenceLog :=
  l.foldl AbsenceLog.step ⟨baseline, none, []⟩

/-- Every absence, the one still open reaching to the end of the cooldown. -/
def absences (baseline : InstanceMap) (l : List RouteTransition) (cooldownEnd : DateTime) :
    List (DateTime × DateTime) :=
  (absenceLog baseline l).closed ++
    ((absenceLog baseline l).since.map fun start => (start, cooldownEnd)).toList

/-- Its length in whole seconds. -/
def absenceSecs (a : DateTime × DateTime) : Int := numSeconds (a.2 - a.1)

/-- The lengths `build_one_lifecycle` keeps. -/
def keptSecs (l : List (DateTime × DateTime)) : List Int := (l.map absenceSecs).filter (0 < ·)

section Log
variable (baseline : InstanceMap) (l : List RouteTransition) (t : RouteTransition)

theorem absenceLog_concat :
    absenceLog baseline (l ++ [t]) = (absenceLog baseline l).step t := by simp [absenceLog]

theorem absenceLog_active : (absenceLog baseline l).active = activeRun baseline l := by
  induction l using List.reverseRecOn with
  | nil => rfl
  | append_singleton l t ih =>
    rw [absenceLog_concat, activeRun_concat, ← ih, AbsenceLog.step]
    split <;> rfl

theorem since_of_visible (h : (activeRun baseline l).isEmpty = false) :
    (absenceLog baseline l).since = none := by
  rcases List.eq_nil_or_concat l with rfl | ⟨l, t, rfl⟩
  · rfl
  · rw [List.concat_eq_append] at h ⊢
    rw [absenceLog_concat, AbsenceLog.step, absenceLog_active, ← activeRun_concat, h]
    rfl

/-- A stream has an absence iff it was lost. -/
theorem isLost_iff_absent : IsLost baseline l ↔
    (absenceLog baseline l).closed ≠ [] ∨ (absenceLog baseline l).since.isSome = true := by
  induction l using List.reverseRecOn with
  | nil => simp [IsLost, absenceLog]
  | append_singleton l t ih =>
    have hsplit : IsLost baseline (l ++ [t]) ↔
        IsLost baseline l ∨ losesStream (activeRun baseline l) t = true := by
      simp only [IsLost, timeline_concat, List.mem_append, List.mem_singleton, or_and_right,
        exists_or, exists_eq_left]
      rfl
    rw [hsplit, ih, absenceLog_concat, AbsenceLog.step, absenceLog_active]
    cases hempty : (activeAfter (activeRun baseline l) t).isEmpty with
    | true =>
      by_cases hk : t.kind = .withdrawal
      · simp [losesStream, hk, hempty]
      · simp [losesStream, hk]
    | false =>
      have hno : losesStream (activeRun baseline l) t = false := by simp [losesStream, hempty]
      cases hsince : (absenceLog baseline l).since <;> simp [hno]

end Log

namespace Sim
variable (pred : TransitPredicate) (baseline : InstanceMap) (s : Sim) (t : RouteTransition)

theorem applyInstance_currentAbsenceStart : (s.applyInstance pred t).currentAbsenceStart =
    if losesStream s.active t then s.currentAbsenceStart <|> some t.to_.timestamp
    else s.currentAbsenceStart := by
  unfold applyInstance losesStream activeAfter
  by_cases hk : t.kind = .withdrawal
  · simp only [hk, if_true, beq_self_eq_true, Bool.true_and]
    split <;> rfl
  · have hb : (t.kind == .withdrawal) = false := by simpa using hk
    simp only [hk, if_false, hb, Bool.false_and, Bool.false_eq_true]
    split <;> rfl

theorem not_loses_of_restores (h : restores s.active t = true) : losesStream s.active t = false := by
  simp only [restores, Bool.and_eq_true, Bool.not_eq_true'] at h
  simp [losesStream, h.2]

theorem step_currentAbsenceStart : (s.step pred baseline t).currentAbsenceStart =
    if restores s.active t then none
    else if losesStream s.active t then s.currentAbsenceStart <|> some t.to_.timestamp
    else s.currentAbsenceStart := by
  rw [step]
  dsimp only [noteDeparture]
  rw [classifyReplacement_frame _ _ _ (·.currentAbsenceStart) fun _ _ _ _ _ _ => rfl,
    noteRestoration_step]
  split
  · rfl
  · exact applyInstance_currentAbsenceStart ..

theorem step_absenceIntervals : (s.step pred baseline t).absenceIntervals =
    s.absenceIntervals ++ if restores s.active t then
      keptSecs ((s.currentAbsenceStart.map fun start => (start, t.to_.timestamp)).toList) else [] := by
  have happ : (((s.noteGshut t).record pred t).applyInstance pred t).absenceIntervals =
      s.absenceIntervals :=
    applyInstance_frame _ _ _ (·.absenceIntervals) fun _ _ _ _ _ _ _ _ _ _ _ _ _ _ _ _ => rfl
  rw [step]
  dsimp only [noteDeparture]
  rw [classifyReplacement_frame _ _ _ (·.absenceIntervals) fun _ _ _ _ _ _ => rfl,
    noteRestoration_step]
  split
  · next h =>
    have hstart : (((s.noteGshut t).record pred t).applyInstance pred t).currentAbsenceStart =
        s.currentAbsenceStart := by
      refine (applyInstance_currentAbsenceStart ..).trans (if_neg ?_)
      exact Bool.not_eq_true _ ▸ not_loses_of_restores s t h
    dsimp only
    rw [hstart, happ]
    cases s.currentAbsenceStart with
    | none => simp [keptSecs]
    | some start =>
      by_cases hpos : 0 < numSeconds (t.to_.timestamp - start)
      · simp [keptSecs, absenceSecs, hpos]
      · simp [keptSecs, absenceSecs, hpos]
  · simpa using happ

/-- The simulation keeps the log, without the short absences. -/
theorem run_absences (l : List RouteTransition) :
    (run pred baseline l).currentAbsenceStart = (absenceLog baseline l).since ∧
      (run pred baseline l).absenceIntervals = keptSecs (absenceLog baseline l).closed := by
  induction l using List.reverseRecOn with
  | nil => exact ⟨rfl, rfl⟩
  | append_singleton l t ih =>
    obtain ⟨hsince, hclosed⟩ := ih
    rw [run_concat, step_currentAbsenceStart, step_absenceIntervals, run_active, hsince, hclosed,
      absenceLog_concat, AbsenceLog.step, absenceLog_active]
    cases hempty : (activeAfter (activeRun baseline l) t).isEmpty with
    | true =>
      have hres : restores (activeRun baseline l) t = false := by simp [restores, hempty]
      by_cases hk : t.kind = .withdrawal
      · simp [hres, losesStream, hk, hempty]
      · simp [hres, losesStream, hk]
    | false =>
      have hloss : losesStream (activeRun baseline l) t = false := by simp [losesStream, hempty]
      cases hbefore : (activeRun baseline l).isEmpty with
      | true =>
        have hres : restores (activeRun baseline l) t = true := by simp [restores, hempty, hbefore]
        simp [hres, keptSecs]
      | false =>
        have hres : restores (activeRun baseline l) t = false := by simp [restores, hbefore]
        simp [hres, hloss, since_of_visible baseline l hbefore, keptSecs]

end Sim

/-! ## What the lifecycle says of them -/

/-- The intervals `finish` takes the bounds of: an absence still open ends with the cooldown. -/
def Sim.intervalsAt (s : Sim) (cooldownEnd : DateTime) : List Int :=
  match s.currentAbsenceStart with
  | some start =>
    if 0 < numSeconds (cooldownEnd - start) then
      s.absenceIntervals ++ [numSeconds (cooldownEnd - start)]
    else s.absenceIntervals
  | none => s.absenceIntervals

section Bounds
variable (opk : ObserverPrefixKey) (cooldownEnd : DateTime) (pred : TransitPredicate)
  (baseline : InstanceMap) (l : List RouteTransition)

theorem absenceSecs_kept :
    (buildOneLifecycle opk baseline l cooldownEnd pred).minAbsenceSecs =
        (keptSecs (absences baseline l cooldownEnd)).min? ∧
      (buildOneLifecycle opk baseline l cooldownEnd pred).maxAbsenceSecs =
        (keptSecs (absences baseline l cooldownEnd)).max? := by
  obtain ⟨hsince, hclosed⟩ := Sim.run_absences pred baseline l
  have hkept : (Sim.run pred baseline l).intervalsAt cooldownEnd =
      keptSecs (absences baseline l cooldownEnd) := by
    rw [Sim.intervalsAt, hsince, hclosed, absences]
    cases (absenceLog baseline l).since with
    | none => simp
    | some start =>
      by_cases hpos : 0 < numSeconds (cooldownEnd - start)
      · simp [keptSecs, absenceSecs, hpos]
      · simp [keptSecs, absenceSecs, hpos]
  exact ⟨congrArg List.min? hkept, congrArg List.max? hkept⟩

/-- The bounds of the absences: present iff the stream was withdrawn, and bounding every absence. -/
structure AbsenceBounds (lc : StreamLifecycle) : Prop where
  min : lc.minAbsenceSecs.isSome = lc.wasWithdrawn
  max : lc.maxAbsenceSecs.isSome = lc.wasWithdrawn
  bounds : ∀ a ∈ absences baseline l cooldownEnd, ∃ lo hi, lc.minAbsenceSecs = some lo ∧
    lc.maxAbsenceSecs = some hi ∧ lo ≤ absenceSecs a ∧ absenceSecs a ≤ hi

/-- The final state: present iff the stream ends visible and had a transition, and then that of an
active instance. -/
structure FinalStateFollows (lc : StreamLifecycle) : Prop where
  some_iff : lc.finalState.isSome = true ↔ (activeRun baseline l).isEmpty = false ∧ l ≠ []
  active : ∀ s, lc.finalState = some s → ∃ k : RouteKey, (activeRun baseline l)[k]? = some s

/-- The last transition that changed an instance put a route on it. -/
def lastApplies (l : List RouteTransition) : Bool :=
  (l.filter fun t => t.kind == .withdrawal || t.to_.state.isSome).getLast?.any
    fun t => t.kind != .withdrawal

variable {baseline l cooldownEnd}

theorem mem_keptSecs {d : Int} {as : List (DateTime × DateTime)} :
    d ∈ keptSecs as ↔ ∃ a ∈ as, absenceSecs a = d ∧ 0 < d := by
  simp only [keptSecs, List.mem_filter, List.mem_map, decide_eq_true_eq]
  constructor
  · rintro ⟨⟨a, ha, rfl⟩, hpos⟩
    exact ⟨a, ha, rfl, hpos⟩
  · rintro ⟨a, ha, rfl, hpos⟩
    exact ⟨⟨a, ha, rfl⟩, hpos⟩

theorem wasWithdrawn_iff_absences :
    (buildOneLifecycle opk baseline l cooldownEnd pred).wasWithdrawn = true ↔
      absences baseline l cooldownEnd ≠ [] := by
  have hww : (buildOneLifecycle opk baseline l cooldownEnd pred).wasWithdrawn =
      decide (0 < (Sim.run pred baseline l).streamWithdrawalCount) := rfl
  rw [hww, decide_eq_true_eq, ← isLost_iff, isLost_iff_absent, absences]
  simp only [ne_eq, List.append_eq_nil_iff, not_and_or]
  refine or_congr Iff.rfl ?_
  cases (absenceLog baseline l).since <;> simp

theorem absenceBounds_iff :
    AbsenceBounds cooldownEnd baseline l (buildOneLifecycle opk baseline l cooldownEnd pred) ↔
      ∀ a ∈ absences baseline l cooldownEnd, 0 < absenceSecs a := by
  obtain ⟨hmin, hmax⟩ := absenceSecs_kept opk cooldownEnd pred baseline l
  constructor
  · intro h a ha
    obtain ⟨lo, hi, hlo, -, hle, -⟩ := h.bounds a ha
    rw [hmin] at hlo
    obtain ⟨b, -, -, hpos⟩ := mem_keptSecs.1 (List.min?_mem hlo)
    omega
  · intro h
    have hkept : keptSecs (absences baseline l cooldownEnd) =
        (absences baseline l cooldownEnd).map absenceSecs := by
      refine List.filter_eq_self.2 fun d hd => ?_
      obtain ⟨a, ha, rfl⟩ := List.mem_map.1 hd
      exact decide_eq_true (h a ha)
    have hsome : ∀ o : Option Int, (o.isSome = true ↔ absences baseline l cooldownEnd ≠ []) →
        o.isSome = (buildOneLifecycle opk baseline l cooldownEnd pred).wasWithdrawn := by
      intro o ho
      rw [Bool.eq_iff_iff, ho, wasWithdrawn_iff_absences]
    rw [hkept] at hmin hmax
    refine ⟨hsome _ ?_, hsome _ ?_, fun a ha => ?_⟩
    · rw [hmin, List.isSome_min?_iff]
      simp
    · rw [hmax, List.isSome_max?_iff]
      simp
    · have hmem : absenceSecs a ∈ (absences baseline l cooldownEnd).map absenceSecs :=
        List.mem_map_of_mem ha
      obtain ⟨lo, hlo⟩ := Option.isSome_iff_exists.1
        (List.isSome_min?_of_mem hmem)
      obtain ⟨hi, hhi⟩ := Option.isSome_iff_exists.1
        (List.isSome_max?_of_mem hmem)
      exact ⟨lo, hi, hmin.trans hlo, hmax.trans hhi, (List.min?_eq_some_iff.1 hlo).2 _ hmem,
        (List.max?_eq_some_iff.1 hhi).2 _ hmem⟩

/-- The final state is that of the last transition that changed an instance. -/
theorem run_finalState (pred : TransitPredicate) (baseline : InstanceMap) (l : List RouteTransition) :
    ((Sim.run pred baseline l).finalState.isSome = lastApplies l) ∧
      ∀ s, (Sim.run pred baseline l).finalState = some s →
        ∃ k : RouteKey, (activeRun baseline l)[k]? = some s := by
  induction l using List.reverseRecOn with
  | nil => exact ⟨rfl, fun s h => by cases h⟩
  | append_singleton l t ih =>
    rw [Sim.run_concat, Sim.step_finalState, activeRun_concat, lastApplies, List.filter_append]
    by_cases hk : t.kind = .withdrawal
    · simp [hk]
    · cases hst : t.to_.state with
      | none =>
        have hactive : activeAfter (activeRun baseline l) t = activeRun baseline l := by
          simp [activeAfter, hk, hst]
        simpa [hk, hst, hactive, lastApplies] using ih
      | some st =>
        have hactive : (activeAfter (activeRun baseline l) t)[t.key]? = some st := by
          simp only [activeAfter, hk, if_false, hst]
          rw [InstanceMap.getElem?_insert, if_pos rfl]
        refine ⟨by simp [hk, hst], fun s hs => ⟨t.key, ?_⟩⟩
        rw [if_neg hk] at hs
        rw [hactive]
        exact hs

theorem finalStateFollows_iff :
    FinalStateFollows baseline l (buildOneLifecycle opk baseline l cooldownEnd pred) ↔
      (l ≠ [] → (activeRun baseline l).isEmpty = false → lastApplies l = true) := by
  obtain ⟨hsome, hactive⟩ := run_finalState pred baseline l
  have hfinal : (buildOneLifecycle opk baseline l cooldownEnd pred).finalState =
      (Sim.run pred baseline l).finalState := rfl
  constructor
  · intro h hne hvis
    rw [← hsome, ← hfinal]
    exact h.some_iff.2 ⟨hvis, hne⟩
  · intro h
    refine ⟨?_, fun s hs => hactive s hs⟩
    rw [hfinal]
    constructor
    · intro hs
      refine ⟨?_, ?_⟩
      · obtain ⟨s, hs⟩ := Option.isSome_iff_exists.1 hs
        obtain ⟨k, hk⟩ := hactive s hs
        by_contra hempty
        rw [Bool.not_eq_false, ExtTreeMap.isEmpty_iff] at hempty
        simp [hempty] at hk
      · rintro rfl
        cases hs
    · rintro ⟨hvis, hne⟩
      rw [hsome]
      exact h hne hvis

/-- **The final state and the absence bounds describe the stream iff** the last change of a stream
that ends visible is not a withdrawal, and every absence lasts at least a second. -/
theorem endOfWindow_iff (opk : ObserverPrefixKey) (cooldownEnd : DateTime) (pred : TransitPredicate)
    (baseline : InstanceMap) (l : List RouteTransition) :
    (FinalStateFollows baseline l (buildOneLifecycle opk baseline l cooldownEnd pred) ∧
      AbsenceBounds cooldownEnd baseline l (buildOneLifecycle opk baseline l cooldownEnd pred)) ↔
    (l ≠ [] → (activeRun baseline l).isEmpty = false → lastApplies l = true) ∧
      ∀ a ∈ absences baseline l cooldownEnd, 0 < absenceSecs a := by
  rw [finalStateFollows_iff, absenceBounds_iff]

end Bounds

/-! ### One of two instances, and an absence within a second -/

/-- Two instances from the RIB; instance 2 is withdrawn. -/
def oneOfTwoLost : List RouteObservation :=
  [.plain "rrc00" 0 .ribEntry 0 (some 1) [1, 2], .plain "rrc00" 1 .ribEntry 0 (some 2) [1, 2],
    .plain "rrc00" 0 .withdrawal 15 (some 2)]

/-- Withdrawn, and announced again within the same second. -/
def sameSecond : List RouteObservation :=
  [.plain "rrc00" 0 .ribEntry 0 none [1, 2], .plain "rrc00" 0 .withdrawal 15 none,
    .plain "rrc00" 1 .announcement 16 none [1, 2]]

def sampleBaseline (obs : List RouteObservation) : InstanceMap :=
  baselineFor (freezeCohort [2] (.containsAny [1]) obs) sampleStream

def sampleTransitions (obs : List RouteObservation) : List RouteTransition :=
  streamTransitions sampleStream (transitionsAfter 10 20 30 obs)

/-- Event window from 10 to 20, cooldown to 30. -/
def sampleLifecycle (obs : List RouteObservation) : StreamLifecycle :=
  buildOneLifecycle sampleStream (sampleBaseline obs) (sampleTransitions obs) 30 (.containsAny [1])

/-- **Bug**: a visible stream without a final state, and a withdrawn one without absence bounds. -/
theorem visible_without_final_state :
    (sampleLifecycle oneOfTwoLost).finalState = none ∧
    (sampleLifecycle oneOfTwoLost).wasWithdrawn = false ∧
    ¬ FinalStateFollows (sampleBaseline oneOfTwoLost) (sampleTransitions oneOfTwoLost)
      (sampleLifecycle oneOfTwoLost) ∧
    (sampleLifecycle sameSecond).wasWithdrawn = true ∧
    (sampleLifecycle sameSecond).minAbsenceSecs = none ∧
    ¬ AbsenceBounds 30 (sampleBaseline sameSecond) (sampleTransitions sameSecond)
      (sampleLifecycle sameSecond) := by
  refine ⟨by decide, by decide, fun h => ?_, by decide, by decide, fun h => ?_⟩
  · exact absurd (h.some_iff.2 (by decide)) (by decide)
  · exact absurd h.min (by decide)

end Inim
