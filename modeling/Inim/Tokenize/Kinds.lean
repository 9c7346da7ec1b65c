import Inim.Lifecycle.Active
/-!
# Withdrawals and returns over whole runs (`tokenize.rs:27-179` against `routes.rs:57-106`)

`tokenize` names the kind of every change the route store emits.

* An empty AS path is a withdrawal to `diff_states` by a guard of its own (`tokenize.rs:48`), and a
  present route to the store. `withdrawal_kind` says what is a withdrawal, and that outside a
  re-announcement with an empty path the kinds tell which keys the store holds.
* **Bug**: `TransitionKind::Restoration`, "a previously withdrawn route is restored with its
  original path" (`route.rs:176`), is never assigned. The key's history is not looked at, so a
  route that was withdrawn and comes back is an `Announcement`, and the lifecycle does not report
  `baseline_restored`. `returnsReported_iff`: a return is seen iff it replaces a live route of
  another path.
-/

namespace Inim

open Std Inim.Lib

/-! ## Withdrawals -/

/-- A held route is announced again with an empty AS path. -/
def StateChange.EmptiesPath (sc : StateChange) : Prop :=
  (sc.before.bind (·.state)).isSome = true ∧
    sc.after.state.map (·.attributes.asPath) = some []

section Runs
variable (eventStart eventEnd cooldownEnd : DateTime)

/-- What the last observation of a run emits, if anything. -/
theorem transitionsAfter_eq_concat {l : List RouteObservation} {o : RouteObservation}
    {t : RouteTransition} (h : transitionsAfter eventStart eventEnd cooldownEnd (l ++ [o]) =
      transitionsAfter eventStart eventEnd cooldownEnd l ++ [t]) :
    emits eventStart cooldownEnd l o = true ∧
      t = transitionFor eventStart eventEnd cooldownEnd (Recon.run eventStart eventEnd cooldownEnd l) o := by
  rw [transitionsAfter_concat, List.append_cancel_left_eq] at h
  split at h
  · next he => exact ⟨he, (List.singleton_inj.1 h).symm⟩
  · cases h

/-- The store holds the key of an emitted transition iff its state says so. -/
theorem states_after_emitted {l : List RouteObservation} {o : RouteObservation}
    (he : emits eventStart cooldownEnd l o = true) :
    (Recon.run eventStart eventEnd cooldownEnd (l ++ [o])).store.states (observationKey o) =
      (transitionFor eventStart eventEnd cooldownEnd
        (Recon.run eventStart eventEnd cooldownEnd l) o).to_.state := by
  rw [emits_eq eventStart eventEnd, Bool.and_eq_true] at he
  have hd : o.dropped eventStart cooldownEnd = false := by
    have hle : o.timestamp ≤ cooldownEnd := of_decide_eq_true (Bool.and_eq_true_iff.1 he.1).2
    simp [RouteObservation.dropped, hle]
  rw [Recon.run_concat, Recon.step_states, hd]
  simp [transitionFor, transitionOf, changeFor]

/-- **What counts as a withdrawal.** Under known continuity: the route is gone, or a held one is
announced with an empty AS path. In any run, an emitted transition other than the latter is a
withdrawal iff the store no longer holds its key. -/
theorem withdrawal_kind :
    (∀ sc : StateChange, sc.continuity = .known →
      ((transitionOf sc).kind = .withdrawal ↔ sc.after.state = none ∨ sc.EmptiesPath)) ∧
    ∀ (l : List RouteObservation) (o : RouteObservation) (sc : StateChange),
      (reconstructRoutes eventStart eventEnd cooldownEnd (l ++ [o])).2 =
        (reconstructRoutes eventStart eventEnd cooldownEnd l).2 ++ [sc] → ¬ sc.EmptiesPath →
      (((reconstructRoutes eventStart eventEnd cooldownEnd (l ++ [o])).1.states sc.key).isSome = true ↔
        (transitionOf sc).kind ≠ .withdrawal) := by
  constructor
  · intro sc hc
    rw [transitionOf_withdrawal_iff, StateChange.EmptiesPath]
    simp only [hc, true_and]
  · intro l o sc hsc hpath
    have hemit : transitionsAfter eventStart eventEnd cooldownEnd (l ++ [o]) =
        transitionsAfter eventStart eventEnd cooldownEnd l ++ [transitionOf sc] := by
      simp [transitionsAfter, tokenize, hsc]
    obtain ⟨he, ht⟩ := transitionsAfter_eq_concat eventStart eventEnd cooldownEnd hemit
    have hkey : sc.key = observationKey o := congrArg RouteTransition.key ht
    have hstate : sc.after.state = (transitionFor eventStart eventEnd cooldownEnd
        (Recon.run eventStart eventEnd cooldownEnd l) o).to_.state :=
      congrArg (fun t : RouteTransition => t.to_.state) ht
    have hstore : (reconstructRoutes eventStart eventEnd cooldownEnd (l ++ [o])).1.states sc.key =
        sc.after.state := by
      rw [hkey, hstate, ← states_after_emitted eventStart eventEnd cooldownEnd he]
      rfl
    rw [hstore, Ne, transitionOf_withdrawal_iff]
    constructor
    · rintro hsome (hnone | ⟨-, hbefore, hempty⟩)
      · simp [hnone] at hsome
      · exact hpath ⟨hbefore, hempty⟩
    · intro hno
      rw [Option.isSome_iff_ne_none]
      exact fun hnone => hno (Or.inl hnone)

end Runs

/-- A route of the table, announced again without an AS path. -/
def emptiedSample : List RouteObservation :=
  [.plain "rrc00" 0 .ribEntry 0 none [1, 2], .plain "rrc00" 1 .announcement 15 none []]

/-- The announcement is classified as a withdrawal, though its after-state is there and the store
holds the key. -/
theorem empty_path_is_a_withdrawal :
    ¬ (∀ sc ∈ (reconstructRoutes 10 20 30 emptiedSample).2, sc.continuity = .known →
      ((transitionOf sc).kind = .withdrawal ↔ sc.after.state = none)) ∧
    ¬ (∀ sc ∈ (reconstructRoutes 10 20 30 emptiedSample).2,
      (((reconstructRoutes 10 20 30 emptiedSample).1.states sc.key).isSome = true ↔
        (transitionOf sc).kind ≠ .withdrawal)) := by
  constructor <;> decide

/-! ## Returns -/

/-- A kind that says the route came back. -/
def TransitionKind.isReturn (k : TransitionKind) : Prop := k = .restoration ∨ k = .returnToBaseline

instance (k : TransitionKind) : Decidable k.isReturn := inferInstanceAs (Decidable (_ ∨ _))

theorem diffStates_isReturn_iff (baseline : Option RouteState) (f t : RouteState) (c : Continuity) :
    (diffStates baseline (some f) t c).1.isReturn ↔ c = .known ∧ t.attributes.asPath ≠ [] ∧
      f.attributes.asPath ≠ t.attributes.asPath ∧
      baseline.map (·.attributes.asPath) = some t.attributes.asPath := by
  unfold diffStates TransitionKind.isReturn
  cases c with
  | unknown => simp
  | known =>
    by_cases ht : t.attributes.asPath = []
    · simp [ht]
    · by_cases hattr : f.attributes = t.attributes
      · simp [ht, hattr]
      · by_cases hpath : f.attributes.asPath = t.attributes.asPath
        · simp [ht, hattr, hpath]
        · simp only [ht, hattr, hpath, reduceCtorEq, if_false, ne_eq, not_false_eq_true, if_true,
            true_and]
          split
          · next h => simp [h]
          · next h => simp [h]

/-- A change is a return iff, under known continuity, it leaves a live route of another path for
the baseline's path. -/
theorem transitionOf_isReturn_iff (sc : StateChange) :
    (transitionOf sc).kind.isReturn ↔ ∃ f t, sc.before.bind (·.state) = some f ∧
      sc.after.state = some t ∧ sc.continuity = .known ∧ t.attributes.asPath ≠ [] ∧
      f.attributes.asPath ≠ t.attributes.asPath ∧
      (sc.eventBaseline.bind (·.state)).map (·.attributes.asPath) = some t.attributes.asPath := by
  cases hto : sc.after.state with
  | none => simp [transitionOf, hto, TransitionKind.isReturn]
  | some t =>
    cases hfrom : sc.before.bind (·.state) with
    | none => simp [transitionOf, hto, hfrom, TransitionKind.isReturn]
    | some f =>
      have hkind : (transitionOf sc).kind =
          (diffStates (sc.eventBaseline.bind (·.state)) (some f) t sc.continuity).1 := by
        simp [transitionOf, hto, hfrom]
      rw [hkind, diffStates_isReturn_iff]
      simp

/-- No branch of `tokenize` gives `Restoration`. -/
theorem transitionOf_ne_restoration (sc : StateChange) : (transitionOf sc).kind ≠ .restoration := by
  intro h
  obtain ⟨f, t, hf, ht, hc, hpath, hdiff, hbase⟩ := (transitionOf_isReturn_iff sc).1 (Or.inl h)
  have hattr : f.attributes ≠ t.attributes := fun heq => hdiff (by rw [heq])
  simp [transitionOf, hf, ht, hc, diffStates, hpath, hattr, hdiff, hbase] at h

section Returns
variable (eventStart eventEnd cooldownEnd : DateTime)

/-- After `pre`, `o` announces a key that was withdrawn in the window, with the AS path of the
key's event baseline, and the announcement is a change. -/
structure ComesHome (pre : List RouteObservation) (o : RouteObservation) : Prop where
  announces : o.kind = .announcement
  emits : emits eventStart cooldownEnd pre o = true
  withdrawn : ∃ ch ∈ (reconstructRoutes eventStart eventEnd cooldownEnd pre).2,
    ch.key = observationKey o ∧ ch.after.state = none
  baselinePath : (((reconstructRoutes eventStart eventEnd cooldownEnd (pre ++ [o])).1.eventBaseline
    (observationKey o)).bind (·.state)).map (·.attributes.asPath) =
      some (observationAttributes o).asPath

/-- Every such return is classified as one, and its stream's lifecycle reports it. -/
def ReturnsReported (l : List RouteObservation) : Prop :=
  ∀ pre o post, l = pre ++ o :: post → ComesHome eventStart eventEnd cooldownEnd pre o →
    (transitionFor eventStart eventEnd cooldownEnd
      (Recon.run eventStart eventEnd cooldownEnd pre) o).kind.isReturn ∧
    ∀ (baseline : InstanceMap) (pred : TransitPredicate),
      (buildOneLifecycle o.stream baseline
        (streamTransitions o.stream (transitionsAfter eventStart eventEnd cooldownEnd l))
        cooldownEnd pred).baselineRestored = true

/-- After `pre`, the announcement `o` replaces a live route of another path by a non-empty one,
and no session boundary of its collector has been seen. -/
def LeavesAlternate (pre : List RouteObservation) (o : RouteObservation) : Prop :=
  (∃ a, routeAfter eventStart cooldownEnd pre (observationKey o) = some a ∧
    a.asPath ≠ (observationAttributes o).asPath) ∧
  (observationAttributes o).asPath ≠ [] ∧
  ∀ b ∈ pre, b.kind = .sessionBoundary → b.collector ≠ o.collector

/-- One return: classified as such iff it leaves a live alternate. -/
theorem ComesHome.isReturn_iff {pre : List RouteObservation} {o : RouteObservation}
    (h : ComesHome eventStart eventEnd cooldownEnd pre o) :
    (transitionFor eventStart eventEnd cooldownEnd
      (Recon.run eventStart eventEnd cooldownEnd pre) o).kind.isReturn ↔
      LeavesAlternate eventStart cooldownEnd pre o := by
  have hemit := h.emits
  rw [emits_eq eventStart eventEnd, Bool.and_eq_true] at hemit
  have hne : ((Recon.run eventStart eventEnd cooldownEnd pre).store.states (observationKey o)).map
      (·.attributes) ≠ some (observationAttributes o) := by
    simpa [isChange, h.announces] using hemit.2
  have hnext : nextState ((Recon.run eventStart eventEnd cooldownEnd pre).store.states
      (observationKey o)) o = some (observationToState o) := by
    simp [nextState, h.announces, hne]
  have hattr : (observationToState o).attributes = observationAttributes o := rfl
  have hbase := h.baselinePath
  simp only [reconstructRoutes, Recon.run_concat] at hbase
  rw [transitionFor, transitionOf_isReturn_iff, changeFor_before_state]
  simp only [changeFor, hnext, hbase, Option.some.injEq]
  rw [continuity_run, LeavesAlternate, ← Recon.attributes_run eventStart eventEnd cooldownEnd]
  constructor
  · rintro ⟨f, t, hf, rfl, hcont, hpath, hdiff, -⟩
    rw [hattr] at hpath hdiff
    exact ⟨⟨f.attributes, by rw [hf]; rfl, hdiff⟩, hpath, hcont⟩
  · rintro ⟨⟨a, ha, hdiff⟩, hpath, hcont⟩
    obtain ⟨f, hf, rfl⟩ := Option.map_eq_some_iff.1 ha
    exact ⟨f, _, hf, rfl, hcont, hpath, hdiff, rfl⟩

/-- A return shows in the lifecycle of its stream. -/
theorem restored_of_isReturn {l pre post : List RouteObservation} {o : RouteObservation}
    (hl : l = pre ++ o :: post) (he : emits eventStart cooldownEnd pre o = true)
    (hret : (transitionFor eventStart eventEnd cooldownEnd
      (Recon.run eventStart eventEnd cooldownEnd pre) o).kind.isReturn)
    (baseline : InstanceMap) (pred : TransitPredicate) :
    (buildOneLifecycle o.stream baseline
      (streamTransitions o.stream (transitionsAfter eventStart eventEnd cooldownEnd l))
      cooldownEnd pred).baselineRestored = true := by
  have hmem : transitionFor eventStart eventEnd cooldownEnd
      (Recon.run eventStart eventEnd cooldownEnd pre) o ∈
      streamTransitions o.stream (transitionsAfter eventStart eventEnd cooldownEnd l) := by
    have hlast : transitionFor eventStart eventEnd cooldownEnd
        (Recon.run eventStart eventEnd cooldownEnd pre) o ∈
        transitionsOf o.stream (transitionsAfter eventStart eventEnd cooldownEnd (pre ++ [o])) := by
      rw [transitionsOf_concat, if_pos ⟨he, rfl⟩]
      simp
    have hpre : pre ++ [o] <+: l := ⟨post, by simp [hl]⟩
    exact (sortBy_perm _ _).symm.subset
      ((transitionsAfter_initial eventStart eventEnd cooldownEnd o.stream hpre).subset hlast)
  have hkind : (transitionFor eventStart eventEnd cooldownEnd
      (Recon.run eventStart eventEnd cooldownEnd pre) o).kind = .returnToBaseline := by
    rcases hret with hr | hr
    · exact absurd hr (transitionOf_ne_restoration _)
    · exact hr
  change (Sim.run pred baseline _).baselineRestored = true
  rw [Sim.run_baselineRestored, List.any_eq_true]
  exact ⟨_, hmem, by simp [hkind]⟩

/-- **A return to baseline after a withdrawal is reported iff it leaves a live alternate**, in
every run. -/
theorem returnsReported_iff (l : List RouteObservation) :
    ReturnsReported eventStart eventEnd cooldownEnd l ↔
      ∀ pre o post, l = pre ++ o :: post → ComesHome eventStart eventEnd cooldownEnd pre o →
        LeavesAlternate eventStart cooldownEnd pre o := by
  constructor
  · intro h pre o post hl hhome
    exact (hhome.isReturn_iff eventStart eventEnd cooldownEnd).1 (h pre o post hl hhome).1
  · intro h pre o post hl hhome
    have hret := (hhome.isReturn_iff eventStart eventEnd cooldownEnd).2 (h pre o post hl hhome)
    exact ⟨hret, restored_of_isReturn eventStart eventEnd cooldownEnd hl hhome.emits hret⟩

end Returns

/-- Withdrawn and announced again with the baseline's path. -/
def returnSample : List RouteObservation :=
  [.plain "rrc00" 0 .ribEntry 0 none [1, 2], .plain "rrc00" 1 .withdrawal 15,
    .plain "rrc00" 2 .announcement 18 none [1, 2]]

/-- **Bug**: the route comes back as it was, the transition is an `Announcement`, and the
lifecycle does not report the baseline restored. -/
theorem return_is_an_announcement :
    ¬ ReturnsReported 10 20 30 returnSample ∧
    (transitionsAfter 10 20 30 returnSample).map (·.kind) = [.withdrawal, .announcement] ∧
    ∀ (baseline : InstanceMap) (pred : TransitPredicate),
      (buildOneLifecycle sampleStream baseline
        (streamTransitions sampleStream (transitionsAfter 10 20 30 returnSample)) 30
        pred).baselineRestored = false := by
  refine ⟨fun h => ?_, by decide, fun baseline pred => ?_⟩
  · have hhome : ComesHome 10 20 30 (returnSample.take 2)
        (.plain "rrc00" 2 .announcement 18 none [1, 2]) :=
      ⟨rfl, by decide, by decide, by decide⟩
    have hret := (h (returnSample.take 2) _ [] rfl hhome).1
    revert hret
    decide
  · change (Sim.run pred baseline _).baselineRestored = false
    rw [Sim.run_baselineRestored]
    decide

end Inim
