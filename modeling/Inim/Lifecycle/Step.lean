import Inim.Lifecycle.Build
import Inim.Lib.Splits
/-!
# What one transition does to the simulation

The parts of `Sim` that decide a stream's category and its absences: the active instances, the
count of stream withdrawals, the categories seen. Nothing after this module unfolds `Sim.step`.
-/

namespace Inim

open Std Inim.Lib

/-- The active instances after `t`. -/
def activeAfter (active : InstanceMap) (t : RouteTransition) : InstanceMap :=
  if t.kind = .withdrawal then active.erase t.key
  else match t.to_.state with
    | none => active
    | some state => active.insert t.key state

/-- The category a path replacement adds. -/
def replacementCategory (pred : TransitPredicate) (t : RouteTransition) : Option StreamCategory :=
  match pathShapeFromTransition t pred with
  | some .prependReduced | some .prependIncreased => some .prependOnly
  | some .pathChangedStillViaRequiredTransit => some .pathChangedStillViaTransit
  | some .pathDepartedRequiredTransit => some .departedTransitPath
  | _ => none

theorem replacementCategory_cases (pred : TransitPredicate) (t : RouteTransition) :
    replacementCategory pred t = none ∨ replacementCategory pred t = some .prependOnly ∨
      replacementCategory pred t = some .pathChangedStillViaTransit ∨
      replacementCategory pred t = some .departedTransitPath := by
  unfold replacementCategory
  split <;> simp

/-- Visible, and no route matches. -/
def departed (pred : TransitPredicate) (active : InstanceMap) : Bool :=
  !active.isEmpty && !pred.anyMatch active

/-- `t` takes the stream's last instance away. -/
def losesStream (active : InstanceMap) (t : RouteTransition) : Bool :=
  t.kind == .withdrawal && (activeAfter active t).isEmpty

namespace Sim

variable (pred : TransitPredicate) (baseline : InstanceMap) (s : Sim) (t : RouteTransition)

theorem applyInstance_active : (s.applyInstance pred t).active = activeAfter s.active t := by
  unfold applyInstance activeAfter
  by_cases hk : t.kind = .withdrawal
  · simp only [hk, if_true]
    split <;> rfl
  · simp only [hk, if_false]
    cases t.to_.state <;> rfl

theorem applyInstance_count : (s.applyInstance pred t).streamWithdrawalCount =
    s.streamWithdrawalCount + if losesStream s.active t then 1 else 0 := by
  unfold applyInstance losesStream activeAfter
  by_cases hk : t.kind = .withdrawal
  · simp only [hk, if_true, beq_self_eq_true, Bool.true_and]
    split <;> rfl
  · have hb : (t.kind == .withdrawal) = false := by simpa using hk
    simp only [hk, if_false, hb, Bool.false_and, Bool.false_eq_true, if_false, Nat.add_zero]
    cases t.to_.state <;> rfl

theorem applyInstance_categories :
    (s.applyInstance pred t).seenCategories = s.seenCategories := by
  unfold applyInstance
  split
  · dsimp only
    split <;> rfl
  · split <;> rfl

theorem noteRestoration_active (v : Bool) :
    (s.noteRestoration baseline v t).active = s.active := by
  unfold noteRestoration
  split <;> rfl

theorem noteRestoration_count (v : Bool) :
    (s.noteRestoration baseline v t).streamWithdrawalCount = s.streamWithdrawalCount := by
  unfold noteRestoration
  split <;> rfl

theorem noteRestoration_categories (v : Bool) :
    (s.noteRestoration baseline v t).seenCategories = s.seenCategories := by
  unfold noteRestoration
  split <;> rfl

theorem pathShape_eq_none (h : isPathReplacement t.kind = false) :
    pathShapeFromTransition t pred = none := by
  unfold pathShapeFromTransition
  cases hk : t.kind <;> simp_all [isPathReplacement]

theorem classifyReplacement_active : (s.classifyReplacement pred t).active = s.active := by
  unfold classifyReplacement
  split
  · dsimp only
    split <;> rfl
  · rfl

theorem classifyReplacement_count :
    (s.classifyReplacement pred t).streamWithdrawalCount = s.streamWithdrawalCount := by
  unfold classifyReplacement
  split
  · dsimp only
    split <;> rfl
  · rfl

theorem classifyReplacement_categories : (s.classifyReplacement pred t).seenCategories =
    (replacementCategory pred t).toFinset ∪ s.seenCategories := by
  unfold classifyReplacement replacementCategory
  cases hr : isPathReplacement t.kind
  · simp [pathShape_eq_none pred t hr]
  · simp only [if_true]
    split <;> simp_all

@[simp] theorem step_active : (s.step pred baseline t).active = activeAfter s.active t := by
  simp only [step, noteDeparture, classifyReplacement_active, noteRestoration_active,
    applyInstance_active]
  rfl

@[simp] theorem step_count : (s.step pred baseline t).streamWithdrawalCount =
    s.streamWithdrawalCount + if losesStream s.active t then 1 else 0 := by
  simp only [step, noteDeparture, classifyReplacement_count, noteRestoration_count,
    applyInstance_count]
  rfl

@[simp] theorem step_categories (c : StreamCategory) :
    c ∈ (s.step pred baseline t).seenCategories ↔
      c ∈ s.seenCategories ∨ replacementCategory pred t = some c ∨
        (c = .departedTransitPath ∧ departed pred (activeAfter s.active t) = true) := by
  have hcat : ((s.noteGshut t).record pred t).seenCategories = s.seenCategories := rfl
  have hact : ((s.noteGshut t).record pred t).active = s.active := rfl
  simp only [step, noteDeparture, classifyReplacement_categories, classifyReplacement_active,
    noteRestoration_categories, noteRestoration_active, applyInstance_categories,
    applyInstance_active, hcat, hact]
  unfold departed
  split
  · next h =>
    simp only [h, Finset.mem_insert, Finset.mem_union, Option.mem_toFinset, Option.mem_def, and_true]
    tauto
  · next h =>
    simp only [h, Finset.mem_union, Option.mem_toFinset, Option.mem_def, Bool.false_eq_true,
      and_false, or_false]
    tauto

theorem applyInstance_baselineRestored :
    (s.applyInstance pred t).baselineRestored = s.baselineRestored := by
  unfold applyInstance
  split
  · dsimp only
    split <;> rfl
  · split <;> rfl

theorem noteRestoration_baselineRestored (v : Bool) :
    (s.noteRestoration baseline v t).baselineRestored = s.baselineRestored := by
  unfold noteRestoration
  split <;> rfl

theorem classifyReplacement_baselineRestored :
    (s.classifyReplacement pred t).baselineRestored = s.baselineRestored := by
  unfold classifyReplacement
  split
  · dsimp only
    split <;> rfl
  · rfl

@[simp] theorem step_baselineRestored : (s.step pred baseline t).baselineRestored =
    (s.baselineRestored || t.kind == .returnToBaseline) := by
  simp only [step, noteDeparture, classifyReplacement_baselineRestored,
    noteRestoration_baselineRestored, applyInstance_baselineRestored]
  rfl

theorem run_concat (l : List RouteTransition) :
    run pred baseline (l ++ [t]) = (run pred baseline l).step pred baseline t := by
  simp [run]

@[simp] theorem run_nil : run pred baseline [] = init baseline := rfl

end Sim

/-- The active instances after a list of transitions. -/
def activeRun (active : InstanceMap) (l : List RouteTransition) : InstanceMap := l.foldl activeAfter active

@[simp] theorem activeRun_concat (active : InstanceMap) (l : List RouteTransition)
    (t : RouteTransition) : activeRun active (l ++ [t]) = activeAfter (activeRun active l) t := by
  simp [activeRun]

theorem Sim.run_active (pred : TransitPredicate) (baseline : InstanceMap)
    (l : List RouteTransition) : (Sim.run pred baseline l).active = activeRun baseline l := by
  induction l using List.reverseRecOn with
  | nil => rfl
  | append_singleton l t ih => rw [run_concat, step_active, ih, activeRun_concat]

/-- The baseline counts as restored iff some transition is a return to it. -/
theorem Sim.run_baselineRestored (pred : TransitPredicate) (baseline : InstanceMap)
    (l : List RouteTransition) :
    (Sim.run pred baseline l).baselineRestored = l.any (·.kind == .returnToBaseline) := by
  induction l using List.reverseRecOn with
  | nil => rfl
  | append_singleton l t ih => simp [run_concat, ih]

/-- The stream counts as withdrawn iff some transition takes its last instance away. -/
theorem Sim.run_count_pos (pred : TransitPredicate) (baseline : InstanceMap)
    (l : List RouteTransition) :
    0 < (Sim.run pred baseline l).streamWithdrawalCount ↔
      ∃ pre t post, l = pre ++ t :: post ∧ losesStream (activeRun baseline pre) t = true := by
  induction l using List.reverseRecOn with
  | nil => simp [init]
  | append_singleton l t ih =>
    rw [run_concat, step_count, run_active, exists_split_concat, ← ih]
    split
    · next h => simp [h]
    · next h => simp [h]

end Inim
