import Inim.Lifecycle.Step
import Inim.Lib.Runs
/-!
# The timeline of a stream

The fields of `Sim` that a lifecycle reports about absences, restorations, instances and the
GRACEFUL_SHUTDOWN tag, each read off the transitions and the instances active before them. The
trace of a stream pairs every transition with these instances; the phases of `Sim.step` a field is
not written in are passed over by the frame lemmas.

| here | there |
| --- | --- |
| `restores`     | `!was_visible && !active.is_empty()` after the step (`lifecycle.rs:1119`) |
| `returnsVia`   | `PathReturnedToRequiredTransit` (`lifecycle.rs:1170`) |
| `absenceStart` | `current_absence_start` |
-/

namespace Inim

open Std Inim.Lib

/-- Absent before `t`, visible after it. -/
def restores (active : InstanceMap) (t : RouteTransition) : Bool :=
  active.isEmpty && !(activeAfter active t).isEmpty

/-- A path replacement that comes back to the required transit. -/
def returnsVia (pred : TransitPredicate) (t : RouteTransition) : Bool :=
  pathShapeFromTransition t pred == some .pathReturnedToRequiredTransit

/-- The transitions of a stream with the instances active before each. -/
def timeline (baseline : InstanceMap) (l : List RouteTransition) :
    List (InstanceMap × RouteTransition) :=
  trace activeAfter baseline l

@[simp] theorem timeline_nil (baseline : InstanceMap) : timeline baseline [] = [] := rfl

theorem timeline_concat (baseline : InstanceMap) (l : List RouteTransition) (t : RouteTransition) :
    timeline baseline (l ++ [t]) = timeline baseline l ++ [(activeRun baseline l, t)] :=
  trace_concat baseline l t

namespace Sim

variable {β : Type*} (pred : TransitPredicate) (baseline : InstanceMap) (s : Sim)
  (t : RouteTransition)

/-! ## Frames -/

theorem applyInstance_frame (f : Sim → β)
    (h : ∀ s a b c d e g i j k l m n o p q, f { s with
      gshutBeforeWithdrawal := a, firstConsequenceAt := b, withdrawnInstances := c,
      withdrawnHistory := d, active := e, finalState := g, streamWithdrawalCount := i,
      currentAbsenceStart := j, streamWithdrawalTime := k, activeBeforeAbsence := l,
      transitAtWithdrawal := m, seenInstances := n, maxConcurrent := o,
      replacementAppeared := p, replacementRetainedTransit := q } = f s) :
    f (s.applyInstance pred t) = f s := by
  unfold applyInstance
  split
  · dsimp only
    split
    · exact h s _ _ _ _ _ _ _ _ _ _ _ s.seenInstances s.maxConcurrent
        s.replacementAppeared s.replacementRetainedTransit
    · exact h s _ _ _ _ _ _ s.streamWithdrawalCount s.currentAbsenceStart s.streamWithdrawalTime
        s.activeBeforeAbsence s.transitAtWithdrawal s.seenInstances s.maxConcurrent
        s.replacementAppeared s.replacementRetainedTransit
  · split
    · rfl
    · exact h s s.gshutBeforeWithdrawal s.firstConsequenceAt s.withdrawnInstances
        s.withdrawnHistory _ _ s.streamWithdrawalCount s.currentAbsenceStart
        s.streamWithdrawalTime s.activeBeforeAbsence s.transitAtWithdrawal _ _ _ _

theorem noteRestoration_frame (v : Bool) (f : Sim → β)
    (h : ∀ s a b c d e g, f { s with
      absenceIntervals := a, currentAbsenceStart := b, restorationCount := c,
      restorationTime := d, restorations := e, withdrawnHistory := g } = f s) :
    f (s.noteRestoration baseline v t) = f s := by
  unfold noteRestoration
  split
  · exact h s _ _ _ _ _ _
  · rfl

theorem classifyReplacement_frame (f : Sim → β)
    (h : ∀ s a b c d e, f { s with
      gshutBeforePathChange := a, firstConsequenceAt := b, prependingChanged := c,
      seenCategories := d, restorationTime := e } = f s) :
    f (s.classifyReplacement pred t) = f s := by
  unfold classifyReplacement
  split
  · dsimp only
    split
    · exact h s _ _ _ _ s.restorationTime
    · exact h s _ _ _ _ s.restorationTime
    · exact h s _ _ s.prependingChanged _ s.restorationTime
    · exact h s _ _ s.prependingChanged _ s.restorationTime
    · exact h s _ _ s.prependingChanged s.seenCategories _
    · exact h s _ _ s.prependingChanged s.seenCategories s.restorationTime
    · exact h s _ _ s.prependingChanged s.seenCategories s.restorationTime
  · rfl

/-! ## Restorations -/

/-- The state in which the restoration is noted. -/
theorem noteRestoration_step : (((s.noteGshut t).record pred t).applyInstance pred t).noteRestoration
      baseline (!s.active.isEmpty) t =
    let applied := ((s.noteGshut t).record pred t).applyInstance pred t
    if restores s.active t then
      { applied with
        absenceIntervals := match applied.currentAbsenceStart with
          | some start =>
            if 0 < numSeconds (t.to_.timestamp - start) then
              applied.absenceIntervals ++ [numSeconds (t.to_.timestamp - start)]
            else applied.absenceIntervals
          | none => applied.absenceIntervals
        currentAbsenceStart := none
        restorationCount := applied.restorationCount + 1
        restorationTime := applied.restorationTime <|> some t.to_.timestamp
        restorations := applied.restorations ++
          [classifyRestoration t applied.withdrawnHistory baseline applied.active t.to_.timestamp]
        withdrawnHistory := [] }
    else applied := by
  have hact : (((s.noteGshut t).record pred t).applyInstance pred t).active =
      activeAfter s.active t := applyInstance_active ..
  dsimp only
  unfold noteRestoration
  refine if_congr ?_ rfl rfl
  rw [restores, ← hact, Bool.not_not]

@[simp] theorem step_restorationCount : (s.step pred baseline t).restorationCount =
    s.restorationCount + if restores s.active t then 1 else 0 := by
  have happ : (((s.noteGshut t).record pred t).applyInstance pred t).restorationCount =
      s.restorationCount := applyInstance_frame _ _ _ (·.restorationCount) fun _ _ _ _ _ _ _ _ _ _ _ _ _ _ _ _ => rfl
  rw [step]
  dsimp only [noteDeparture]
  rw [classifyReplacement_frame _ _ _ (·.restorationCount) fun _ _ _ _ _ _ => rfl]
  rw [noteRestoration_step]
  split <;> simp [happ]

@[simp] theorem step_restorationTime : (s.step pred baseline t).restorationTime =
    (s.restorationTime <|>
      if restores s.active t || returnsVia pred t then some t.to_.timestamp else none) := by
  have happ : (((s.noteGshut t).record pred t).applyInstance pred t).restorationTime =
      s.restorationTime := applyInstance_frame _ _ _ (·.restorationTime) fun _ _ _ _ _ _ _ _ _ _ _ _ _ _ _ _ => rfl
  have hclass : ∀ s : Sim, (s.classifyReplacement pred t).restorationTime =
      (s.restorationTime <|> if returnsVia pred t then some t.to_.timestamp else none) := by
    intro s
    unfold classifyReplacement returnsVia
    cases hr : isPathReplacement t.kind
    · simp [pathShape_eq_none pred t hr]
    · simp only [if_true]
      split <;> simp_all
  rw [step]
  dsimp only [noteDeparture]
  rw [hclass, noteRestoration_step]
  cases hres : restores s.active t <;> cases hret : returnsVia pred t <;>
    simp [happ]

/-! ## Withdrawals -/

/-- A field that only `apply_instance` and what comes before it write. -/
theorem step_of_applyInstance (f : Sim → β)
    (hdeparture : ∀ s a b c, f { s with
      seenCategories := a, baselineRestored := b, lastHadGshut := c } = f s)
    (hclassify : ∀ s a b c d e, f { s with
      gshutBeforePathChange := a, firstConsequenceAt := b, prependingChanged := c,
      seenCategories := d, restorationTime := e } = f s)
    (hrestoration : ∀ s a b c d e g, f { s with
      absenceIntervals := a, currentAbsenceStart := b, restorationCount := c,
      restorationTime := d, restorations := e, withdrawnHistory := g } = f s) :
    f (s.step pred baseline t) = f (((s.noteGshut t).record pred t).applyInstance pred t) := by
  have hdep (s : Sim) : f (s.noteDeparture pred t) = f s := hdeparture s _ _ _
  rw [step, hdep, classifyReplacement_frame _ _ _ f hclassify,
    noteRestoration_frame _ _ _ _ f hrestoration]

theorem applyInstance_streamWithdrawalTime : (s.applyInstance pred t).streamWithdrawalTime =
    if losesStream s.active t then some t.to_.timestamp else s.streamWithdrawalTime := by
  unfold applyInstance losesStream activeAfter
  by_cases hk : t.kind = .withdrawal
  · simp only [hk, if_true, beq_self_eq_true, Bool.true_and]
    split <;> rfl
  · have hb : (t.kind == .withdrawal) = false := by simpa using hk
    simp only [hk, if_false, hb, Bool.false_and, Bool.false_eq_true]
    split <;> rfl

@[simp] theorem step_streamWithdrawalTime : (s.step pred baseline t).streamWithdrawalTime =
    if losesStream s.active t then some t.to_.timestamp else s.streamWithdrawalTime :=
  (step_of_applyInstance pred baseline s t (·.streamWithdrawalTime) (fun _ _ _ _ => rfl)
    (fun _ _ _ _ _ _ => rfl) fun _ _ _ _ _ _ _ => rfl).trans (applyInstance_streamWithdrawalTime ..)

theorem applyInstance_activeBeforeAbsence : (s.applyInstance pred t).activeBeforeAbsence =
    if losesStream s.active t then 1 else s.activeBeforeAbsence := by
  unfold applyInstance losesStream activeAfter
  by_cases hk : t.kind = .withdrawal
  · simp only [hk, if_true, beq_self_eq_true, Bool.true_and]
    split
    · next h =>
      -- `active.len() + 1`, and nothing is active
      rw [ExtTreeMap.isEmpty_iff] at h
      dsimp only
      rw [h]
      rfl
    · rfl
  · have hb : (t.kind == .withdrawal) = false := by simpa using hk
    simp only [hk, if_false, hb, Bool.false_and, Bool.false_eq_true]
    split <;> rfl

@[simp] theorem step_activeBeforeAbsence : (s.step pred baseline t).activeBeforeAbsence =
    if losesStream s.active t then 1 else s.activeBeforeAbsence :=
  (step_of_applyInstance pred baseline s t (·.activeBeforeAbsence) (fun _ _ _ _ => rfl)
    (fun _ _ _ _ _ _ => rfl) fun _ _ _ _ _ _ _ => rfl).trans (applyInstance_activeBeforeAbsence ..)

theorem applyInstance_withdrawnInstances : (s.applyInstance pred t).withdrawnInstances =
    s.withdrawnInstances ++ if t.kind = .withdrawal then [t.key] else [] := by
  unfold applyInstance
  by_cases hk : t.kind = .withdrawal
  · simp only [hk, if_true]
    split <;> rfl
  · simp only [hk, if_false, List.append_nil]
    split <;> rfl

@[simp] theorem step_withdrawnInstances : (s.step pred baseline t).withdrawnInstances =
    s.withdrawnInstances ++ if t.kind = .withdrawal then [t.key] else [] :=
  (step_of_applyInstance pred baseline s t (·.withdrawnInstances) (fun _ _ _ _ => rfl)
    (fun _ _ _ _ _ _ => rfl) fun _ _ _ _ _ _ _ => rfl).trans (applyInstance_withdrawnInstances ..)

theorem applyInstance_finalState : (s.applyInstance pred t).finalState =
    if t.kind = .withdrawal then none else t.to_.state <|> s.finalState := by
  unfold applyInstance
  by_cases hk : t.kind = .withdrawal
  · simp only [hk, if_true]
    split <;> rfl
  · simp only [hk, if_false]
    cases t.to_.state <;> rfl

@[simp] theorem step_finalState : (s.step pred baseline t).finalState =
    if t.kind = .withdrawal then none else t.to_.state <|> s.finalState :=
  (step_of_applyInstance pred baseline s t (·.finalState) (fun _ _ _ _ => rfl)
    (fun _ _ _ _ _ _ => rfl) fun _ _ _ _ _ _ _ => rfl).trans (applyInstance_finalState ..)

theorem applyInstance_gshutBeforeWithdrawal : (s.applyInstance pred t).gshutBeforeWithdrawal =
    (s.gshutBeforeWithdrawal || (t.kind == .withdrawal && s.lastHadGshut)) := by
  unfold applyInstance
  by_cases hk : t.kind = .withdrawal
  · simp only [hk, if_true, beq_self_eq_true, Bool.true_and]
    split <;> rfl
  · have hb : (t.kind == .withdrawal) = false := by simpa using hk
    simp only [hk, if_false, hb, Bool.false_and, Bool.or_false]
    split <;> rfl

@[simp] theorem step_gshutBeforeWithdrawal : (s.step pred baseline t).gshutBeforeWithdrawal =
    (s.gshutBeforeWithdrawal || (t.kind == .withdrawal && s.lastHadGshut)) :=
  (step_of_applyInstance pred baseline s t (·.gshutBeforeWithdrawal) (fun _ _ _ _ => rfl)
    (fun _ _ _ _ _ _ => rfl) fun _ _ _ _ _ _ _ => rfl).trans (applyInstance_gshutBeforeWithdrawal ..)

@[simp] theorem step_lastHadGshut : (s.step pred baseline t).lastHadGshut = t.toGshut := rfl

end Sim

/-! ## Runs -/

/-- A stream-level withdrawal. -/
def isLoss (x : InstanceMap × RouteTransition) : Bool := losesStream x.1 x.2

/-- The stream becomes visible again, or an instance of it returns to the required transit. -/
def isReturn (pred : TransitPredicate) (x : InstanceMap × RouteTransition) : Bool :=
  restores x.1 x.2 || returnsVia pred x.2

namespace Sim

variable (pred : TransitPredicate) (baseline : InstanceMap) (l : List RouteTransition)

theorem run_count_timeline : (run pred baseline l).streamWithdrawalCount =
    (timeline baseline l).countP isLoss := by
  induction l using List.reverseRecOn with
  | nil => rfl
  | append_singleton l t ih =>
    rw [run_concat, step_count, ih, run_active, timeline_concat, List.countP_append,
      List.countP_singleton]
    rfl

theorem run_restorationCount : (run pred baseline l).restorationCount =
    (timeline baseline l).countP fun x => restores x.1 x.2 := by
  induction l using List.reverseRecOn with
  | nil => rfl
  | append_singleton l t ih =>
    rw [run_concat, step_restorationCount, ih, run_active, timeline_concat, List.countP_append,
      List.countP_singleton]

theorem run_restorationTime : (run pred baseline l).restorationTime =
    ((timeline baseline l).find? (isReturn pred)).map (·.2.to_.timestamp) := by
  induction l using List.reverseRecOn with
  | nil => rfl
  | append_singleton l t ih =>
    rw [run_concat, step_restorationTime, ih, run_active, timeline_concat, List.find?_append]
    cases (timeline baseline l).find? (isReturn pred) with
    | some x => rfl
    | none =>
      simp only [List.find?_singleton, isReturn]
      split <;> simp_all

theorem run_streamWithdrawalTime : (run pred baseline l).streamWithdrawalTime =
    ((timeline baseline l).filter isLoss).getLast?.map (·.2.to_.timestamp) := by
  induction l using List.reverseRecOn with
  | nil => rfl
  | append_singleton l t ih =>
    rw [run_concat, step_streamWithdrawalTime, ih, run_active, timeline_concat, List.filter_append]
    by_cases h : losesStream (activeRun baseline l) t = true
    · simp [isLoss, h]
    · simp [isLoss, h]

theorem run_withdrawnInstances : (run pred baseline l).withdrawnInstances =
    (l.filter fun t => t.kind == .withdrawal).map (·.key) := by
  induction l using List.reverseRecOn with
  | nil => rfl
  | append_singleton l t ih =>
    rw [run_concat, step_withdrawnInstances, ih, List.filter_append, List.map_append]
    by_cases h : t.kind = .withdrawal
    · simp [h]
    · simp [h]

theorem run_activeBeforeAbsence : (run pred baseline l).activeBeforeAbsence =
    if 0 < (run pred baseline l).streamWithdrawalCount then 1 else 0 := by
  induction l using List.reverseRecOn with
  | nil => rfl
  | append_singleton l t ih =>
    rw [run_concat, step_activeBeforeAbsence, step_count, ih]
    split <;> simp

end Sim

/-- Once visible, a stream with no further stream-level withdrawal stays visible. -/
theorem visible_of_no_loss {active : InstanceMap} {l : List RouteTransition}
    (hvis : active.isEmpty = false) (h : ∀ x ∈ timeline active l, isLoss x = false) :
    (activeRun active l).isEmpty = false := by
  induction l generalizing active with
  | nil => exact hvis
  | cons t l ih =>
    have hloss : losesStream active t = false := h (active, t) (by simp [timeline, trace])
    refine ih ?_ fun x hx => h x (by simp [timeline, trace] at hx ⊢; exact .inr hx)
    by_contra hempty
    rw [Bool.not_eq_false] at hempty
    rw [losesStream, hempty, Bool.and_true] at hloss
    have hk : t.kind ≠ .withdrawal := by simpa using hloss
    rw [activeAfter, if_neg hk] at hempty
    split at hempty
    · rw [hvis] at hempty
      cases hempty
    · simp at hempty

end Inim
