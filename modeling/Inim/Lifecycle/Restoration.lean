import Inim.Lifecycle.Category
import Inim.Lifecycle.Timeline
/-!
# Restored, and not restored (`lifecycle.rs:1119-1198`, `:1243-1258`)

A stream that was withdrawn or departed ends the window either back on a matching route or not, and
`StreamFlags` says which: `restored` is "restored to its event baseline (or any present state after
withdrawal)", and "a stream that came back to any present matching state is" restored.

`not_restored` is the end-of-window test. `restored` also asks for a restoration count, which only
grows when the stream was absent: a stream that left the transit and came back, always visible,
has neither flag, and no restoration time unless a path replacement brought it back
(`restorationConsistent_iff`).
-/

namespace Inim

open Std Inim.Lib

/-- The stream ends visible with a matching route. -/
def endsVia (pred : TransitPredicate) (baseline : InstanceMap) (l : List RouteTransition) : Bool :=
  pred.anyMatch (activeRun baseline l)

/-- At some transition the stream becomes visible again. -/
def ComesBack (baseline : InstanceMap) (l : List RouteTransition) : Prop :=
  ∃ x ∈ timeline baseline l, restores x.1 x.2 = true

/-- At some transition the stream loses its last instance. -/
def IsLost (baseline : InstanceMap) (l : List RouteTransition) : Prop :=
  ∃ x ∈ timeline baseline l, isLoss x = true

instance (baseline : InstanceMap) (l : List RouteTransition) : Decidable (IsLost baseline l) :=
  inferInstanceAs (Decidable (∃ x ∈ timeline baseline l, _))

/-- An instance leaves the transit, or the stream is visible without a matching route. -/
def Departs (pred : TransitPredicate) (baseline : InstanceMap) (l : List RouteTransition) : Prop :=
  InstanceDeparts pred l ∨ DepartsLater pred baseline l

section Stream
variable (pred : TransitPredicate) (baseline : InstanceMap) (l : List RouteTransition)

theorem isLost_iff : IsLost baseline l ↔ 0 < (Sim.run pred baseline l).streamWithdrawalCount := by
  rw [Sim.run_count_timeline, List.countP_pos_iff]
  rfl

theorem comesBack_iff : ComesBack baseline l ↔ 0 < (Sim.run pred baseline l).restorationCount := by
  rw [Sim.run_restorationCount, List.countP_pos_iff]
  rfl

theorem departs_iff : Departs pred baseline l ↔
    .departedTransitPath ∈ (Sim.run pred baseline l).seenCategories :=
  (Sim.departed_mem_run pred baseline l).symm

variable {pred baseline l}

theorem isEmpty_of_endsVia (h : endsVia pred baseline l = true) :
    (activeRun baseline l).isEmpty = false := by
  by_contra hempty
  rw [Bool.not_eq_false, ExtTreeMap.isEmpty_iff] at hempty
  rw [endsVia, hempty] at h
  exact Bool.false_ne_true h

/-- From absent to visible there is a restoration. -/
theorem comesBack_of_empty {active : InstanceMap} (h0 : active.isEmpty = true)
    (h : (activeRun active l).isEmpty = false) : ComesBack active l := by
  induction l using List.reverseRecOn with
  | nil =>
    rw [show activeRun active [] = active from rfl, h0] at h
    cases h
  | append_singleton l t ih =>
    rw [activeRun_concat] at h
    by_cases hmid : (activeRun active l).isEmpty = true
    · exact ⟨(activeRun active l, t), by simp [timeline_concat], by simp [restores, hmid, h]⟩
    · obtain ⟨x, hx, hr⟩ := ih (by simpa using hmid)
      exact ⟨x, by simp [timeline_concat, hx], hr⟩

theorem activeRun_append (active : InstanceMap) (l l' : List RouteTransition) :
    activeRun active (l ++ l') = activeRun (activeRun active l) l' := List.foldl_append

theorem timeline_append (active : InstanceMap) (l l' : List RouteTransition) :
    timeline active (l ++ l') = timeline active l ++ timeline (activeRun active l) l' :=
  trace_append active l l'

/-- A stream that was lost and ends visible came back. -/
theorem comesBack_of_lost (hlost : IsLost baseline l) (h : (activeRun baseline l).isEmpty = false) :
    ComesBack baseline l := by
  obtain ⟨pre, t, post, rfl, ht⟩ :=
    (exists_mem_trace_iff (P := fun a t => losesStream a t = true)).1 hlost
  have hgone : (activeRun baseline (pre ++ [t])).isEmpty = true := by
    rw [activeRun_concat]
    exact (Bool.and_eq_true_iff.1 ht).2
  rw [List.append_cons, activeRun_append] at h
  obtain ⟨x, hx, hr⟩ := comesBack_of_empty hgone h
  exact ⟨x, by rw [List.append_cons, timeline_append]; exact List.mem_append_right _ hx, hr⟩

/-- A replacement with a shape puts a route on its instance. -/
theorem applies_of_pathShape {t : RouteTransition} {shape : PathShapeChange}
    (h : pathShapeFromTransition t pred = some shape) :
    t.kind ≠ .withdrawal ∧ ∃ st, t.to_.state = some st := by
  unfold pathShapeFromTransition at h
  split at h
  · next f to_ hk hf ht => exact ⟨by simp [hk], to_, ht⟩
  · cases h

theorem applies_of_replacementCategory {t : RouteTransition} {c : StreamCategory}
    (h : replacementCategory pred t = some c) :
    t.kind ≠ .withdrawal ∧ ∃ st, t.to_.state = some st := by
  cases hshape : pathShapeFromTransition t pred with
  | none => simp [replacementCategory, hshape] at h
  | some shape => exact applies_of_pathShape hshape

/-- A stream visible at some point and never lost ends visible. -/
theorem visible_of_visible_after {pre post : List RouteTransition} {t : RouteTransition}
    (h : (activeAfter (activeRun baseline pre) t).isEmpty = false)
    (hlost : ¬ IsLost baseline (pre ++ t :: post)) :
    (activeRun baseline (pre ++ t :: post)).isEmpty = false := by
  rw [List.append_cons, activeRun_append]
  refine visible_of_no_loss (by rwa [activeRun_concat]) fun x hx => ?_
  rw [Bool.eq_false_iff]
  intro hloss
  exact hlost ⟨x, by rw [List.append_cons, timeline_append]; exact List.mem_append_right _ hx, hloss⟩

/-- A stream that departs without ever being lost ends visible. -/
theorem visible_of_departs (hdep : Departs pred baseline l) (hlost : ¬ IsLost baseline l) :
    (activeRun baseline l).isEmpty = false := by
  obtain ⟨pre, t, post, rfl, ht⟩ : ∃ pre t post, l = pre ++ t :: post ∧
      (activeAfter (activeRun baseline pre) t).isEmpty = false := by
    rcases hdep with ⟨t, ht, hshape⟩ | ⟨pre, t, post, rfl, h⟩
    · obtain ⟨pre, post, rfl⟩ := List.append_of_mem ht
      refine ⟨pre, t, post, rfl, ?_⟩
      obtain ⟨hk, st, hst⟩ := applies_of_replacementCategory hshape
      simp [activeAfter, hk, hst]
    · refine ⟨pre, t, post, rfl, ?_⟩
      simpa using (Bool.and_eq_true_iff.1 h).1
  exact visible_of_visible_after ht hlost

/-- A stream that comes back without ever being lost ends visible. -/
theorem visible_of_comesBack (hback : ComesBack baseline l) (hlost : ¬ IsLost baseline l) :
    (activeRun baseline l).isEmpty = false := by
  obtain ⟨pre, t, post, rfl, ht⟩ :=
    (exists_mem_trace_iff (P := fun a t => restores a t = true)).1 hback
  exact visible_of_visible_after (Bool.not_eq_true' _ ▸ (Bool.and_eq_true_iff.1 ht).2) hlost

/-- Visible without a match at the end, after a transition: it departed. -/
theorem departs_of_ends_off (hl : l ≠ [])
    (hvis : (activeRun baseline l).isEmpty = false)
    (hoff : pred.anyMatch (activeRun baseline l) = false) : Departs pred baseline l := by
  obtain ⟨pre, t, rfl⟩ := (List.eq_nil_or_concat l).resolve_left hl
  rw [List.concat_eq_append, activeRun_concat] at hvis hoff
  exact .inr ⟨pre, t, [], by simp, by simp [departed, hvis, hoff]⟩

end Stream

/-! ## The flags -/

/-- The flags and the restoration time of a stream that was withdrawn or departed. -/
structure RestorationConsistent (pred : TransitPredicate) (baseline : InstanceMap)
    (l : List RouteTransition) (lc : StreamLifecycle) : Prop where
  exclusive : lc.flags.restored = !lc.flags.notRestored
  notRestored : lc.flags.notRestored = true ↔
    (activeRun baseline l).isEmpty = true ∨ pred.anyMatch (activeRun baseline l) = false
  /-- The affected duration stops at the restoration. -/
  time : lc.flags.restored = true → ∃ r, lc.restorationTime = some r ∧
    lc.affectedDurationSecs = lc.firstChange.map fun first => max 0 (numSeconds (r - first))

section Ends
variable (pred : TransitPredicate) (baseline : InstanceMap) (l : List RouteTransition)

/-- `not_restored`: absent after a loss, or visible off the transit after a departure. -/
theorem notRestored_iff_ends (opk : ObserverPrefixKey) (cooldownEnd : DateTime) :
    (buildOneLifecycle opk baseline l cooldownEnd pred).flags.notRestored = true ↔
      IsLost baseline l ∧ (activeRun baseline l).isEmpty = true ∨
        Departs pred baseline l ∧ (activeRun baseline l).isEmpty = false ∧
          endsVia pred baseline l = false := by
  have hflag : (buildOneLifecycle opk baseline l cooldownEnd pred).flags.notRestored =
      (((Sim.run pred baseline l).active.isEmpty &&
          decide (0 < (Sim.run pred baseline l).streamWithdrawalCount)) ||
        (!(Sim.run pred baseline l).active.isEmpty && !pred.anyMatch (Sim.run pred baseline l).active &&
          decide (.departedTransitPath ∈ (Sim.run pred baseline l).seenCategories))) := rfl
  rw [hflag, Sim.run_active, isLost_iff pred, departs_iff, endsVia]
  simp only [Bool.or_eq_true, Bool.and_eq_true, Bool.not_eq_true', decide_eq_true_eq]
  tauto

/-- `restored`: the stream came back, and ends on a matching route. -/
theorem restored_iff_ends (opk : ObserverPrefixKey) (cooldownEnd : DateTime) :
    (buildOneLifecycle opk baseline l cooldownEnd pred).flags.restored = true ↔
      ComesBack baseline l ∧ endsVia pred baseline l = true := by
  have hflag : (buildOneLifecycle opk baseline l cooldownEnd pred).flags.restored =
      (decide (0 < (Sim.run pred baseline l).restorationCount) &&
        !(buildOneLifecycle opk baseline l cooldownEnd pred).flags.notRestored) := rfl
  rw [hflag, Bool.and_eq_true, decide_eq_true_eq, ← comesBack_iff, Bool.not_eq_true',
    ← Bool.not_eq_true, notRestored_iff_ends]
  refine and_congr_right fun hback => ?_
  constructor
  · intro hnot
    by_contra hoff
    rw [Bool.not_eq_true] at hoff
    refine hnot ?_
    cases hempty : (activeRun baseline l).isEmpty with
    | true =>
      refine .inl ⟨?_, rfl⟩
      by_contra hlost
      rw [visible_of_comesBack hback hlost] at hempty
      cases hempty
    | false =>
      refine .inr ⟨departs_of_ends_off ?_ hempty hoff, rfl, hoff⟩
      rintro rfl
      obtain ⟨x, hx, -⟩ := hback
      simp at hx
  · rintro hvia (⟨-, hempty⟩ | ⟨-, -, hoff⟩)
    · rw [isEmpty_of_endsVia hvia] at hempty
      cases hempty
    · rw [hvia] at hoff
      cases hoff

end Ends

section Flags
variable {opk : ObserverPrefixKey} {cooldownEnd : DateTime} {pred : TransitPredicate}
  {baseline : InstanceMap} {l : List RouteTransition}

/-- Of a stream that was affected, it is the end of the window alone. -/
theorem notRestored_iff (h : IsLost baseline l ∨ Departs pred baseline l) :
    (buildOneLifecycle opk baseline l cooldownEnd pred).flags.notRestored = true ↔
      (activeRun baseline l).isEmpty = true ∨ pred.anyMatch (activeRun baseline l) = false := by
  rw [notRestored_iff_ends, endsVia]
  cases hempty : (activeRun baseline l).isEmpty with
  | true =>
    have hlost : IsLost baseline l := by
      by_contra hlost
      rw [visible_of_departs (h.resolve_left hlost) hlost] at hempty
      cases hempty
    simp [hlost]
  | false =>
    cases hmatch : pred.anyMatch (activeRun baseline l) with
    | true => simp
    | false =>
      have hne : l ≠ [] := by
        rintro rfl
        rcases h with ⟨x, hx, -⟩ | ⟨t, ht, -⟩ | ⟨pre, t, post, hl, -⟩
        · simp at hx
        · simp at ht
        · simp at hl
      simp [departs_of_ends_off hne hempty hmatch]

theorem affected_iff :
    (buildOneLifecycle opk baseline l cooldownEnd pred).category = .withdrawn ∨
      (buildOneLifecycle opk baseline l cooldownEnd pred).category = .departedTransitPath ↔
    IsLost baseline l ∨ Departs pred baseline l := by
  have hcat : (buildOneLifecycle opk baseline l cooldownEnd pred).category =
      (Sim.run pred baseline l).category := rfl
  rw [hcat, Sim.category_withdrawn_iff, Sim.category_departed_iff, ← departs_iff, isLost_iff pred]
  constructor
  · rintro (h | ⟨-, h⟩)
    · exact Or.inl h
    · exact Or.inr h
  · rintro (h | h)
    · exact Or.inl h
    · exact (Nat.eq_zero_or_pos _).elim (fun hz => Or.inr ⟨hz, h⟩) Or.inl

/-- The time of a stream that comes back, and where its affected duration ends. -/
theorem restorationTime_of_comesBack (hback : ComesBack baseline l) :
    ∃ r, (buildOneLifecycle opk baseline l cooldownEnd pred).restorationTime = some r ∧
      (buildOneLifecycle opk baseline l cooldownEnd pred).affectedDurationSecs =
        (buildOneLifecycle opk baseline l cooldownEnd pred).firstChange.map fun first =>
          max 0 (numSeconds (r - first)) := by
  obtain ⟨x, hx, hback⟩ := hback
  have htime : (buildOneLifecycle opk baseline l cooldownEnd pred).restorationTime =
      (Sim.run pred baseline l).restorationTime := rfl
  have hdur : (buildOneLifecycle opk baseline l cooldownEnd pred).affectedDurationSecs =
      (buildOneLifecycle opk baseline l cooldownEnd pred).firstChange.map fun first =>
        max 0 (numSeconds (((Sim.run pred baseline l).restorationTime).getD cooldownEnd - first)) := rfl
  have hsome : ((timeline baseline l).find? (isReturn pred)).isSome = true :=
    List.find?_isSome.2 ⟨x, hx, by simp [isReturn, hback]⟩
  obtain ⟨y, hy⟩ := Option.isSome_iff_exists.1 hsome
  have hr : (Sim.run pred baseline l).restorationTime = some y.2.to_.timestamp := by
    rw [Sim.run_restorationTime, hy]
    rfl
  refine ⟨y.2.to_.timestamp, htime.trans hr, ?_⟩
  rw [hdur, hr]
  rfl

/-- **The flags and the time agree iff** no stream departs and ends on a matching route without
having been absent. -/
theorem restorationConsistent_iff (opk : ObserverPrefixKey) (cooldownEnd : DateTime)
    (pred : TransitPredicate) (baseline : InstanceMap) (l : List RouteTransition) :
    ((buildOneLifecycle opk baseline l cooldownEnd pred).category = .withdrawn ∨
        (buildOneLifecycle opk baseline l cooldownEnd pred).category = .departedTransitPath →
      RestorationConsistent pred baseline l (buildOneLifecycle opk baseline l cooldownEnd pred)) ↔
    (Departs pred baseline l → endsVia pred baseline l = true → ComesBack baseline l) := by
  have hvia : endsVia pred baseline l = true ↔
      ¬ ((activeRun baseline l).isEmpty = true ∨ pred.anyMatch (activeRun baseline l) = false) := by
    rw [not_or, Bool.not_eq_true, Bool.not_eq_false]
    exact ⟨fun h => ⟨isEmpty_of_endsVia h, h⟩, And.right⟩
  rw [affected_iff]
  constructor
  · intro h hdep hend
    obtain ⟨hexcl, hnot, -⟩ := h (.inr hdep)
    rw [hvia, ← hnot, Bool.not_eq_true] at hend
    rw [hend] at hexcl
    exact ((restored_iff_ends pred baseline l opk cooldownEnd).1 hexcl).1
  · intro h haff
    have hnot := @notRestored_iff opk cooldownEnd pred baseline l haff
    refine ⟨?_, hnot, fun hres =>
      restorationTime_of_comesBack ((restored_iff_ends pred baseline l opk cooldownEnd).1 hres).1⟩
    rw [Bool.eq_iff_iff, restored_iff_ends, Bool.not_eq_true', ← Bool.not_eq_true, hnot, ← hvia]
    refine ⟨And.right, fun hend => ⟨?_, hend⟩⟩
    rcases haff with hlost | hdep
    · exact comesBack_of_lost hlost (isEmpty_of_endsVia hend)
    · exact h hdep hend

end Flags

/-! ### Off the transit and back -/

/-- From the RIB through AS 1; at 15 s off it; at 16 s as before. -/
def thereAndBack : List RouteObservation :=
  [.plain "rrc00" 0 .ribEntry 0 none [1, 2],
    .plain "rrc00" 0 .announcement 15000000000 none [3, 2],
    .plain "rrc00" 1 .announcement 16000000000 none [1, 2]]

def thereAndBackBaseline : InstanceMap :=
  baselineFor (freezeCohort [2] (.containsAny [1]) thereAndBack) sampleStream

def thereAndBackTransitions : List RouteTransition :=
  streamTransitions sampleStream
    (transitionsAfter 10000000000 20000000000 30000000000 thereAndBack)

def thereAndBackLifecycle : StreamLifecycle :=
  buildOneLifecycle sampleStream thereAndBackBaseline thereAndBackTransitions 30000000000
    (.containsAny [1])

/-- **Bug**: the stream is back at its baseline; it is neither restored nor not restored, and its
affected duration runs to the end of the cooldown. -/
theorem there_and_back_has_no_flag :
    thereAndBackLifecycle.category = .departedTransitPath ∧
    thereAndBackLifecycle.baselineRestored = true ∧
    thereAndBackLifecycle.flags.restored = false ∧
    thereAndBackLifecycle.flags.notRestored = false ∧
    thereAndBackLifecycle.restorationTime = none ∧
    thereAndBackLifecycle.affectedDurationSecs = some 15 ∧
    ¬ RestorationConsistent (.containsAny [1]) thereAndBackBaseline thereAndBackTransitions
      thereAndBackLifecycle := by
  refine ⟨by decide, by decide, by decide, by decide, by decide, by decide, fun h => ?_⟩
  exact absurd h.exclusive (by decide)

end Inim
