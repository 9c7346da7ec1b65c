import Inim.Routes.Store
import Inim.Lib.Cells
import Inim.Lib.Splits
/-!
# Whole runs of `reconstruct_routes`

What the loop has done after a prefix of its input, derived from the step equations of
`Routes.Store` by induction on the prefix:

* `mem_changes_run`: the emitted changes are exactly the in-window observations that really
  change the state their prefix leaves;
* `eventBaseline_run`, `mem_changes_eventBaseline`: one baseline per run, the states in front of
  the first update of the event period, and every change carries it;
* `attributes_run`: the attributes held are a last-writer-wins table over the observations
  (`routeCells`), so they can be read off the input.
-/

namespace Inim

open Inim.Lib

/-- The route table an observation writes to, as attributes: the reference the store is held
against. Duplicates rewrite the attributes they repeat, so here they need no case. -/
def routeCells (eventStart cooldownEnd : DateTime) : Cells RouteObservation RouteKey RouteAttributes where
  key := observationKey
  write o :=
    if o.dropped eventStart cooldownEnd then none
    else match o.kind with
      | .ribEntry | .announcement => some (some (observationAttributes o))
      | .withdrawal => some none
      | .sessionBoundary => none

/-- The attributes `k` holds after `l`: those of the last observation of `k` that counts. -/
def routeAfter (eventStart cooldownEnd : DateTime) (l : List RouteObservation) (k : RouteKey) :
    Option RouteAttributes :=
  (routeCells eventStart cooldownEnd).after (fun _ => none) l k

/-- Whether `o` is a change where the attributes `cur` are held. -/
def changesRoute (cur : Option RouteAttributes) (o : RouteObservation) : Bool :=
  match o.kind with
  | .announcement => decide (cur ≠ some (observationAttributes o))
  | .withdrawal => cur.isSome
  | _ => false

theorem isChange_eq (cur : Option RouteState) (o : RouteObservation) :
    isChange cur o = changesRoute (cur.map (·.attributes)) o := by
  cases h : o.kind <;> simp [isChange, changesRoute, h]

theorem nextState_attributes (cur : Option RouteState) (o : RouteObservation) :
    (nextState cur o).map (·.attributes) =
      match o.kind with
      | .ribEntry | .announcement => some (observationAttributes o)
      | .withdrawal => none
      | .sessionBoundary => cur.map (·.attributes) := by
  have hattr : (observationToState o).attributes = observationAttributes o := rfl
  cases h : o.kind with
  | ribEntry => simp [nextState, h, hattr]
  | withdrawal => simp [nextState, h]
  | sessionBoundary => simp [nextState, h]
  | announcement =>
    simp only [nextState, h]
    split
    · assumption
    · simp [hattr]

/-- A change really changes the attributes (or the presence). -/
theorem nextState_ne_of_isChange {cur : Option RouteState} {o : RouteObservation}
    (h : isChange cur o = true) :
    cur.map (·.attributes) ≠ (nextState cur o).map (·.attributes) := by
  rw [nextState_attributes]
  cases hk : o.kind with
  | announcement => simpa [isChange, hk] using h
  | withdrawal => cases cur <;> simp_all [isChange]
  | ribEntry => simp [isChange, hk] at h
  | sessionBoundary => simp [isChange, hk] at h

/-- An update that is no change leaves its key as it is. -/
theorem nextState_eq_of_not_isChange {cur : Option RouteState} {o : RouteObservation}
    (hk : o.kind ≠ .ribEntry) (h : isChange cur o = false) : nextState cur o = cur := by
  cases hk' : o.kind with
  | ribEntry => exact absurd hk' hk
  | sessionBoundary => simp [nextState, hk']
  | withdrawal =>
    have hnone : cur = none := by simpa [isChange, hk'] using h
    simp [nextState, hk', hnone]
  | announcement =>
    have hsame : cur.map (·.attributes) = some (observationAttributes o) := by
      simpa [isChange, hk'] using h
    simp [nextState, hk', hsame]

namespace Recon

section Prefixes
variable (eventStart eventEnd cooldownEnd : DateTime)

@[simp] theorem run_nil : run eventStart eventEnd cooldownEnd [] = .init := rfl

theorem run_concat (l : List RouteObservation) (o : RouteObservation) :
    run eventStart eventEnd cooldownEnd (l ++ [o]) =
      (run eventStart eventEnd cooldownEnd l).step eventStart eventEnd cooldownEnd o := by
  simp [run]

/-- The store's attributes are the last-writer-wins table. -/
theorem attributes_run (l : List RouteObservation) (k : RouteKey) :
    ((run eventStart eventEnd cooldownEnd l).store.states k).map (·.attributes) =
      routeAfter eventStart cooldownEnd l k := by
  induction l using List.reverseRecOn with
  | nil => rfl
  | append_singleton l o ih =>
    rw [run_concat, step_states]
    unfold routeAfter at ih ⊢
    rw [Cells.after_append, Cells.after_cons, Cells.after_nil]
    by_cases hk : observationKey o = k
    · subst hk
      have hkey : (routeCells eventStart cooldownEnd).key o = observationKey o := rfl
      rw [Cells.step_of_eq _ _ hkey, ← ih]
      cases hd : o.dropped eventStart cooldownEnd
      · simp only [Bool.false_eq_true, if_false, Function.update_self, nextState_attributes,
          routeCells, hd]
        cases o.kind <;> rfl
      · simp [routeCells, hd]
    · rw [Cells.step_of_ne (routeCells eventStart cooldownEnd) _ hk, ← ih]
      split
      · rfl
      · rw [Function.update_of_ne (Ne.symm hk)]

theorem frozen_run (l : List RouteObservation) :
    (run eventStart eventEnd cooldownEnd l).baselineFrozen = l.any (·.opens eventStart) := by
  induction l using List.reverseRecOn with
  | nil => rfl
  | append_singleton l o ih => simp [run_concat, step_frozen, ih]

/-- One freeze per run: the states in front of the first update of the event period. -/
theorem eventBaseline_run (l : List RouteObservation) :
    (run eventStart eventEnd cooldownEnd l).store.eventBaseline =
      if l.any (·.opens eventStart) then
        freeze (run eventStart eventEnd cooldownEnd
          (l.takeWhile fun o => !o.opens eventStart)).store.states
      else fun _ => none := by
  induction l using List.reverseRecOn with
  | nil => rfl
  | append_singleton l o ih =>
    rw [run_concat, step_baseline, frozen_run, List.takeWhile_append]
    cases hl : l.any (·.opens eventStart)
    · -- nothing has opened the event yet, so `takeWhile` passes over all of `l`
      have hall : ∀ x ∈ l, (!x.opens eventStart) = true := by
        intro x hx
        simpa using List.any_eq_false.1 hl x hx
      have htake : (l.takeWhile fun o => !o.opens eventStart) = l :=
        List.takeWhile_eq_self_iff.2 hall
      rw [ih]
      cases ho : o.opens eventStart
      · simp [hl, ho]
      · simp [hl, ho, htake]
    · have hlen : (l.takeWhile fun o => !o.opens eventStart).length ≠ l.length := by
        intro hlen
        obtain ⟨x, hx, hox⟩ := List.any_eq_true.1 hl
        have := List.takeWhile_eq_self_iff.1
          ((List.takeWhile_prefix _).eq_of_length hlen) x hx
        simp [hox] at this
      rw [ih]
      simp [hl, hlen]

/-- The emitted changes, each with the prefix in front of its observation. -/
theorem mem_changes_run (l : List RouteObservation) (ch : StateChange) :
    ch ∈ (run eventStart eventEnd cooldownEnd l).changes ↔
      ∃ pre o post, l = pre ++ o :: post ∧ o.inWindow eventStart cooldownEnd = true ∧
        isChange ((run eventStart eventEnd cooldownEnd pre).store.states (observationKey o)) o = true ∧
        ch = changeFor ((run eventStart eventEnd cooldownEnd pre).store.states (observationKey o))
          ((run eventStart eventEnd cooldownEnd (pre ++ [o])).store.eventBaseline (observationKey o))
          ((run eventStart eventEnd cooldownEnd pre).store.continuityOf o.collector)
          (phaseOf eventEnd o) o := by
  induction l using List.reverseRecOn with
  | nil => simp [init]
  | append_singleton l o ih =>
    rw [run_concat, step_changes, List.mem_append, ih, exists_split_concat, run_concat]
    refine or_congr_right ?_
    split
    · next hc => simp [hc]
    · next hc =>
      simp only [List.not_mem_nil, false_iff]
      exact fun h => hc ⟨h.1, h.2.1⟩

/-- Every change of a run carries the run's one baseline. -/
theorem mem_changes_eventBaseline (l : List RouteObservation) (ch : StateChange)
    (h : ch ∈ (run eventStart eventEnd cooldownEnd l).changes) :
    ch.eventBaseline = (run eventStart eventEnd cooldownEnd l).store.eventBaseline ch.key := by
  induction l using List.reverseRecOn with
  | nil => cases h
  | append_singleton l o ih =>
    rw [run_concat, step_changes, List.mem_append] at h
    rw [run_concat]
    rcases h with h | h
    · -- an earlier change shows that the freeze is behind us
      have hfrozen : (run eventStart eventEnd cooldownEnd l).baselineFrozen = true := by
        obtain ⟨pre, o', post, rfl, hwin, -⟩ := (mem_changes_run _ _ _ l ch).1 h
        rw [frozen_run, List.any_append, List.any_cons]
        simp [(Bool.and_eq_true_iff.1 hwin).1]
      rw [ih h, step_baseline, hfrozen]
      rfl
    · split at h
      · obtain rfl := List.mem_singleton.1 h
        rfl
      · cases h

end Prefixes

end Recon

end Inim
