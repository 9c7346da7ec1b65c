import Inim.Lifecycle.Step
import Inim.Routes.Chain
/-!
# The simulated instances and the store (`lifecycle.rs:1071-1117` against `routes.rs:143-194`)

`build_one_lifecycle` starts from the stream's RIB entries and replays the emitted transitions;
the store started from the same entries but also applied the silent warm-up updates. The two hold
the same instances after every transition of the stream iff

* every instance but the first one to change is live at that moment exactly when it has a RIB
  entry (warm-up neither added nor removed one), and
* no in-window announcement puts an empty AS path on a live instance: `diff_states` calls that a
  withdrawal, so the simulation drops an instance that the store keeps.

`activeTracksStore_iff` is the equivalence, with the stream's `was_withdrawn` in it.
-/

namespace Inim

open Std Inim.Lib

/-- All RIB entries first, the remaining observations with strictly increasing timestamps. -/
def SeedThenStrict (obs : List RouteObservation) : Prop :=
  ∃ ribs ups, obs = ribs ++ ups ∧ (∀ o ∈ ribs, o.kind = .ribEntry) ∧
    (∀ o ∈ ups, o.kind ≠ .ribEntry) ∧ ups.Pairwise fun a b => a.timestamp < b.timestamp

theorem SeedThenStrict.pairwise {obs : List RouteObservation} (h : SeedThenStrict obs) :
    obs.Pairwise fun a b => a.kind ≠ .ribEntry → b.kind ≠ .ribEntry ∧ a.timestamp < b.timestamp := by
  obtain ⟨ribs, ups, rfl, hribs, hups, hsorted⟩ := h
  refine List.pairwise_append.2 ⟨?_, ?_, ?_⟩
  · refine (List.pairwise_of_forall_mem_list (r := fun _ _ => True) (by simp)).imp_of_mem ?_
    intro a b ha _ _ hne
    exact absurd (hribs a ha) hne
  · exact hsorted.imp_of_mem fun _ hb hlt _ => ⟨hups _ hb, hlt⟩
  · intro a ha b _ hne
    exact absurd (hribs a ha) hne

section Transitions
variable (eventStart eventEnd cooldownEnd : DateTime)

/-- The transitions of a run. -/
def transitionsAfter (l : List RouteObservation) : List RouteTransition :=
  tokenize (reconstructRoutes eventStart eventEnd cooldownEnd l).2

/-- The transition emitted for `o` where the loop stands at `r`. -/
def transitionFor (r : Recon) (o : RouteObservation) : RouteTransition :=
  transitionOf (changeFor (r.store.states (observationKey o))
    ((r.step eventStart eventEnd cooldownEnd o).store.eventBaseline (observationKey o))
    (r.store.continuityOf o.collector) (phaseOf eventEnd o) o)

/-- After `l`, `o` emits a transition. -/
def emits (l : List RouteObservation) (o : RouteObservation) : Bool :=
  o.inWindow eventStart cooldownEnd &&
    changesRoute (routeAfter eventStart cooldownEnd l (observationKey o)) o

theorem emits_eq (l : List RouteObservation) (o : RouteObservation) :
    emits eventStart cooldownEnd l o = (o.inWindow eventStart cooldownEnd &&
      isChange ((Recon.run eventStart eventEnd cooldownEnd l).store.states (observationKey o)) o) := by
  rw [emits, isChange_eq, Recon.attributes_run]

theorem transitionsAfter_concat (l : List RouteObservation) (o : RouteObservation) :
    transitionsAfter eventStart eventEnd cooldownEnd (l ++ [o]) =
      transitionsAfter eventStart eventEnd cooldownEnd l ++
        if emits eventStart cooldownEnd l o then
          [transitionFor eventStart eventEnd cooldownEnd (Recon.run eventStart eventEnd cooldownEnd l) o]
        else [] := by
  rw [emits_eq eventStart eventEnd]
  simp only [transitionsAfter, reconstructRoutes, Recon.run_concat, Recon.step_changes, tokenize,
    List.map_append, Bool.and_eq_true]
  congr 1
  split <;> rfl

@[simp] theorem transitionFor_key (r : Recon) (o : RouteObservation) :
    (transitionFor eventStart eventEnd cooldownEnd r o).key = observationKey o := rfl

theorem transitionsOf_concat (opk : ObserverPrefixKey) (l : List RouteObservation)
    (o : RouteObservation) :
    transitionsOf opk (transitionsAfter eventStart eventEnd cooldownEnd (l ++ [o])) =
      transitionsOf opk (transitionsAfter eventStart eventEnd cooldownEnd l) ++
        if emits eventStart cooldownEnd l o ∧ o.stream = opk then
          [transitionFor eventStart eventEnd cooldownEnd (Recon.run eventStart eventEnd cooldownEnd l) o]
        else [] := by
  rw [transitionsAfter_concat, transitionsOf, List.filter_append, ← transitionsOf]
  congr 1
  by_cases he : emits eventStart cooldownEnd l o = true
  · by_cases hs : o.stream = opk
    · have hs' : (observationKey o).observerPrefixKey = opk := hs
      simp [he, hs, hs']
    · have hs' : (observationKey o).observerPrefixKey ≠ opk := hs
      simp [he, hs, hs']
  · simp [he]

theorem transitionsAfter_initial (opk : ObserverPrefixKey) {l l' : List RouteObservation}
    (h : l <+: l') : transitionsOf opk (transitionsAfter eventStart eventEnd cooldownEnd l) <+:
      transitionsOf opk (transitionsAfter eventStart eventEnd cooldownEnd l') := by
  obtain ⟨rest, rfl⟩ := h
  induction rest using List.reverseRecOn with
  | nil => simp
  | append_singleton rest o ih =>
    rw [← List.append_assoc, transitionsOf_concat]
    exact ih.trans (List.prefix_append _ _)

/-- A position among a stream's transitions is a position of the input that emits one. -/
theorem exists_split_transitions (opk : ObserverPrefixKey)
    {Q : List RouteTransition → RouteTransition → Prop} (l : List RouteObservation) :
    (∃ pre t post, transitionsOf opk (transitionsAfter eventStart eventEnd cooldownEnd l) =
      pre ++ t :: post ∧ Q pre t) ↔
    ∃ pre o post, l = pre ++ o :: post ∧ emits eventStart cooldownEnd pre o = true ∧ o.stream = opk ∧
      Q (transitionsOf opk (transitionsAfter eventStart eventEnd cooldownEnd pre))
        (transitionFor eventStart eventEnd cooldownEnd (Recon.run eventStart eventEnd cooldownEnd pre) o) := by
  induction l using List.reverseRecOn with
  | nil => simp [transitionsAfter, transitionsOf, tokenize, reconstructRoutes, Recon.init]
  | append_singleton l o ih =>
    rw [transitionsOf_concat, exists_split_concat, ← ih]
    split
    · next h => rw [exists_split_concat]; simp [h]
    · next h =>
      rw [List.append_nil]
      refine (or_iff_left ?_).symm
      exact fun h' => h ⟨h'.1, h'.2.1⟩

/-! ### In time order the re-sort of `build_lifecycles` moves nothing -/

theorem transitionFor_timestamp {r : Recon} {o : RouteObservation}
    (h : isChange (r.store.states (observationKey o)) o = true) :
    (transitionFor eventStart eventEnd cooldownEnd r o).to_.timestamp = o.timestamp := by
  change (EvidencedRouteState.mk (nextState _ o) (.fromObservation o)).timestamp = o.timestamp
  cases hk : o.kind with
  | ribEntry => simp [isChange, hk] at h
  | sessionBoundary => simp [isChange, hk] at h
  | withdrawal =>
    simp [nextState, hk, EvidencedRouteState.timestamp, EvidenceRef.fromObservation]
  | announcement =>
    have hne : (r.store.states (observationKey o)).map (·.attributes) ≠
        some (observationAttributes o) := by simpa [isChange, hk] using h
    simp [nextState, hk, hne, EvidencedRouteState.timestamp, observationToState]

/-- Each emitted transition has the timestamp of an update of the input. -/
theorem mem_transitionsAfter {l : List RouteObservation} {t : RouteTransition}
    (h : t ∈ transitionsAfter eventStart eventEnd cooldownEnd l) :
    ∃ o ∈ l, o.opens eventStart = true ∧ t.to_.timestamp = o.timestamp := by
  induction l using List.reverseRecOn with
  | nil => cases h
  | append_singleton l o ih =>
    rw [transitionsAfter_concat, List.mem_append] at h
    rcases h with h | h
    · obtain ⟨o', ho', hop, hts⟩ := ih h
      exact ⟨o', by simp [ho'], hop, hts⟩
    · by_cases he : emits eventStart cooldownEnd l o = true
      · rw [if_pos he, List.mem_singleton] at h
        subst h
        rw [emits_eq eventStart eventEnd, Bool.and_eq_true] at he
        exact ⟨o, by simp, (Bool.and_eq_true_iff.1 he.1).1,
          transitionFor_timestamp eventStart eventEnd cooldownEnd he.2⟩
      · rw [if_neg he] at h
        cases h

theorem transitionsAfter_pairwise {l : List RouteObservation} (R : DateTime → DateTime → Prop)
    (h : l.Pairwise fun a b => a.kind ≠ .ribEntry → b.kind ≠ .ribEntry ∧ R a.timestamp b.timestamp) :
    (transitionsAfter eventStart eventEnd cooldownEnd l).Pairwise fun a b =>
      R a.to_.timestamp b.to_.timestamp := by
  induction l using List.reverseRecOn with
  | nil => exact List.Pairwise.nil
  | append_singleton l o ih =>
    obtain ⟨hl, -, hcross⟩ := List.pairwise_append.1 h
    rw [transitionsAfter_concat]
    split
    · next he =>
      refine List.pairwise_append.2 ⟨ih hl, by simp, ?_⟩
      intro a ha b hb
      obtain rfl := List.mem_singleton.1 hb
      rw [emits_eq eventStart eventEnd, Bool.and_eq_true] at he
      obtain ⟨o', ho', hop, hts⟩ := mem_transitionsAfter eventStart eventEnd cooldownEnd ha
      have hne : o'.kind ≠ .ribEntry := by
        intro hk
        simp [RouteObservation.opens, RouteObservation.isUpdate, hk] at hop
      rw [hts, transitionFor_timestamp eventStart eventEnd cooldownEnd he.2]
      exact (hcross o' ho' o (by simp) hne).2
    · simpa using ih hl

theorem streamTransitions_eq_of_strict (opk : ObserverPrefixKey) {l : List RouteTransition}
    (h : l.Pairwise fun a b => a.to_.timestamp < b.to_.timestamp) :
    streamTransitions opk l = transitionsOf opk l := by
  refine sortBy_eq_self ((h.sublist List.filter_sublist).imp fun hlt => ?_)
  simp [CmpLE, transitionOrder, compareLex, compareOn, compare_lt_iff_lt.2 hlt]

/-! ### Continuity -/

theorem continuity_run (l : List RouteObservation) (c : CollectorId) :
    (Recon.run eventStart eventEnd cooldownEnd l).store.continuityOf c = .known ↔
      ∀ o ∈ l, o.kind = .sessionBoundary → o.collector ≠ c := by
  induction l using List.reverseRecOn with
  | nil => simp [Recon.init, RouteStateStore.new, RouteStateStore.continuityOf]
  | append_singleton l o ih =>
    rw [RouteStateStore.continuityOf, Recon.run_concat, Recon.step_continuity]
    rw [RouteStateStore.continuityOf] at ih
    split
    · next hk =>
      by_cases hc : c = o.collector
      · subst hc
        simp [hk]
      · rw [Function.update_of_ne hc, ih]
        simp [Ne.symm hc, or_imp, forall_and]
    · next hk =>
      rw [ih]
      simp [hk, or_imp, forall_and]

/-! ### One transition in the simulation and in the store -/

/-- The simulation's instances are the keys the store holds for the stream. -/
def SameInstances (opk : ObserverPrefixKey) (active : InstanceMap)
    (states : RouteKey → Option RouteState) : Prop :=
  ∀ k, k ∈ active ↔ k.observerPrefixKey = opk ∧ (states k).isSome = true

/-- After `l`, `o` announces an empty AS path on a live instance, continuity being known: the
store keeps the instance, `diff_states` calls it a withdrawal. -/
def Empties (l : List RouteObservation) (o : RouteObservation) : Prop :=
  o.kind = .announcement ∧ (observationAttributes o).asPath = [] ∧
    (routeAfter eventStart cooldownEnd l (observationKey o)).isSome = true ∧
    ∀ o' ∈ l, o'.kind = .sessionBoundary → o'.collector ≠ o.collector

theorem mem_activeAfter (m : InstanceMap) (t : RouteTransition) (k : RouteKey) :
    k ∈ activeAfter m t ↔
      if k = t.key then t.kind ≠ .withdrawal ∧ (t.to_.state.isSome = true ∨ k ∈ m) else k ∈ m := by
  unfold activeAfter
  by_cases hw : t.kind = .withdrawal
  · rw [if_pos hw, ExtTreeMap.mem_erase, Ne, LawfulEqCmp.compare_eq_iff_eq]
    by_cases hk : k = t.key
    · simp [hk, hw]
    · simp [hk, Ne.symm hk]
  · rw [if_neg hw]
    cases hs : t.to_.state with
    | none =>
      by_cases hk : k = t.key <;> simp [hk, hw]
    | some st =>
      rw [ExtTreeMap.mem_insert, LawfulEqCmp.compare_eq_iff_eq]
      by_cases hk : k = t.key
      · simp [hk, hw]
      · simp [hk, Ne.symm hk]

theorem transitionFor_withdrawal_iff {l : List RouteObservation} {o : RouteObservation}
    (he : emits eventStart cooldownEnd l o = true) :
    (transitionFor eventStart eventEnd cooldownEnd (Recon.run eventStart eventEnd cooldownEnd l) o).kind =
      .withdrawal ↔ o.kind = .withdrawal ∨ Empties eventStart cooldownEnd l o := by
  rw [emits_eq eventStart eventEnd, Bool.and_eq_true] at he
  have hch := he.2
  rw [transitionFor, transitionOf_withdrawal_iff, changeFor_before_state]
  simp only [changeFor]
  rw [continuity_run, Empties, ← Recon.attributes_run eventStart eventEnd cooldownEnd,
    Option.isSome_map]
  cases hk : o.kind with
  | ribEntry => simp [isChange, hk] at hch
  | sessionBoundary => simp [isChange, hk] at hch
  | withdrawal => simp [nextState, hk]
  | announcement =>
    have hne : ((Recon.run eventStart eventEnd cooldownEnd l).store.states (observationKey o)).map
        (·.attributes) ≠ some (observationAttributes o) := by simpa [isChange, hk] using hch
    have hattr : (observationToState o).attributes = observationAttributes o := rfl
    simp only [nextState, hk, hne, if_false, reduceCtorEq, false_or, Option.map_some, hattr,
      Option.some.injEq, true_and]
    tauto

/-- **One transition of the stream keeps simulation and store together** iff it is no empty-path
announcement and they agree on every other instance. -/
theorem sameInstances_step_iff {opk : ObserverPrefixKey} {l : List RouteObservation}
    {o : RouteObservation} (he : emits eventStart cooldownEnd l o = true) (hs : o.stream = opk)
    (active : InstanceMap) :
    SameInstances opk (activeAfter active (transitionFor eventStart eventEnd cooldownEnd
        (Recon.run eventStart eventEnd cooldownEnd l) o))
      (Recon.run eventStart eventEnd cooldownEnd (l ++ [o])).store.states ↔
    ¬ Empties eventStart cooldownEnd l o ∧ ∀ k, k ≠ observationKey o →
      (k ∈ active ↔ k.observerPrefixKey = opk ∧
        (routeAfter eventStart cooldownEnd l k).isSome = true) := by
  have hch := he
  rw [emits_eq eventStart eventEnd, Bool.and_eq_true] at hch
  obtain ⟨hwin, hch⟩ := hch
  have hd : o.dropped eventStart cooldownEnd = false := by
    simp only [RouteObservation.inWindow, Bool.and_eq_true, decide_eq_true_eq] at hwin
    simp [RouteObservation.dropped, hwin.2]
  have hkey : (observationKey o).observerPrefixKey = opk := hs
  -- at the key itself the store holds the announced state, or nothing after a withdrawal
  have hat : (nextState ((Recon.run eventStart eventEnd cooldownEnd l).store.states
      (observationKey o)) o).isSome = true ↔ o.kind ≠ .withdrawal := by
    cases hk : o.kind with
    | ribEntry => simp [isChange, hk] at hch
    | sessionBoundary => simp [isChange, hk] at hch
    | withdrawal => simp [nextState, hk]
    | announcement =>
      have hne : ((Recon.run eventStart eventEnd cooldownEnd l).store.states (observationKey o)).map
          (·.attributes) ≠ some (observationAttributes o) := by simpa [isChange, hk] using hch
      simp [nextState, hk, hne]
  have hto : (transitionFor eventStart eventEnd cooldownEnd
      (Recon.run eventStart eventEnd cooldownEnd l) o).to_.state =
      nextState ((Recon.run eventStart eventEnd cooldownEnd l).store.states (observationKey o)) o := rfl
  have hself : (observationKey o ∈ activeAfter active (transitionFor eventStart eventEnd cooldownEnd
        (Recon.run eventStart eventEnd cooldownEnd l) o) ↔
      (observationKey o).observerPrefixKey = opk ∧ ((Recon.run eventStart eventEnd cooldownEnd
        (l ++ [o])).store.states (observationKey o)).isSome = true) ↔
      ¬ Empties eventStart cooldownEnd l o := by
    rw [mem_activeAfter, transitionFor_key, if_pos rfl, Ne,
      transitionFor_withdrawal_iff _ _ _ he, hto, hat, Recon.run_concat, Recon.step_states, hd]
    simp only [Bool.false_eq_true, if_false, Function.update_self, hat, hkey, true_and, not_or]
    by_cases hw : o.kind = .withdrawal
    · simp [hw, Empties]
    · simp [hw]
  have hother : ∀ k, k ≠ observationKey o →
      ((k ∈ activeAfter active (transitionFor eventStart eventEnd cooldownEnd
          (Recon.run eventStart eventEnd cooldownEnd l) o) ↔
        k.observerPrefixKey = opk ∧ ((Recon.run eventStart eventEnd cooldownEnd
          (l ++ [o])).store.states k).isSome = true) ↔
      (k ∈ active ↔ k.observerPrefixKey = opk ∧
        (routeAfter eventStart cooldownEnd l k).isSome = true)) := by
    intro k hk
    rw [mem_activeAfter, transitionFor_key, if_neg hk, Recon.run_concat, Recon.step_states, hd,
      ← Recon.attributes_run eventStart eventEnd cooldownEnd, Option.isSome_map]
    simp only [Bool.false_eq_true, if_false, Function.update_of_ne hk]
  constructor
  · intro h
    exact ⟨hself.1 (h _), fun k hk => (hother k hk).1 (h k)⟩
  · rintro ⟨h1, h2⟩ k
    by_cases hk : k = observationKey o
    · rw [hk]; exact hself.2 h1
    · exact (hother k hk).2 (h2 k hk)

/-! ### Whole runs -/

section Runs
variable (opk : ObserverPrefixKey) (pred : TransitPredicate) (baseline : InstanceMap)
  (obs : List RouteObservation)

/-- After each transition of the stream the simulation holds the store's instances. The
transitions emitted so far are the first ones the lifecycle replays. -/
def ActiveTracksStore : Prop :=
  ∀ pre o post, obs = pre ++ o :: post → emits eventStart cooldownEnd pre o = true → o.stream = opk →
    streamTransitions opk (transitionsAfter eventStart eventEnd cooldownEnd (pre ++ [o])) <+:
      streamTransitions opk (transitionsAfter eventStart eventEnd cooldownEnd obs) ∧
    SameInstances opk (Sim.run pred baseline (streamTransitions opk
        (transitionsAfter eventStart eventEnd cooldownEnd (pre ++ [o])))).active
      (reconstructRoutes eventStart eventEnd cooldownEnd (pre ++ [o])).1.states

/-- Some observation of the event or cooldown window takes the stream's last instance out of the
store. -/
def StoreLosesStream : Prop :=
  ∃ pre o post, obs = pre ++ o :: post ∧ o.inWindow eventStart cooldownEnd = true ∧
    (∃ k : RouteKey, k.observerPrefixKey = opk ∧
      ((reconstructRoutes eventStart eventEnd cooldownEnd pre).1.states k).isSome = true) ∧
    ∀ k : RouteKey, k.observerPrefixKey = opk →
      (reconstructRoutes eventStart eventEnd cooldownEnd (pre ++ [o])).1.states k = none

/-- At the stream's first transition every other instance is live iff it has a RIB entry. -/
def WarmupKeepsInstances : Prop :=
  ∀ pre o post, obs = pre ++ o :: post → emits eventStart cooldownEnd pre o = true → o.stream = opk →
    (∀ pre' o' post', pre = pre' ++ o' :: post' → o'.stream = opk →
      emits eventStart cooldownEnd pre' o' = false) →
    ∀ k : RouteKey, k.observerPrefixKey = opk → k ≠ observationKey o →
      ((∃ r ∈ obs, r.kind = .ribEntry ∧ observationKey r = k) ↔
        (routeAfter eventStart cooldownEnd pre k).isSome = true)

def NoEmptyPath : Prop :=
  ∀ pre o post, obs = pre ++ o :: post → emits eventStart cooldownEnd pre o = true → o.stream = opk →
    ¬ Empties eventStart cooldownEnd pre o

end Runs

variable {opk : ObserverPrefixKey} {pred : TransitPredicate} {baseline : InstanceMap}
  {obs : List RouteObservation}

theorem transitionsOf_eq_nil_iff (l : List RouteObservation) :
    transitionsOf opk (transitionsAfter eventStart eventEnd cooldownEnd l) = [] ↔
      ∀ pre o post, l = pre ++ o :: post → o.stream = opk →
        emits eventStart cooldownEnd pre o = false := by
  have h := exists_split_transitions eventStart eventEnd cooldownEnd opk
    (Q := fun _ _ => True) l
  constructor
  · intro hnil pre o post hl hs
    by_contra he
    rw [Bool.not_eq_false] at he
    obtain ⟨pre', t, post', hsplit, -⟩ := h.2 ⟨pre, o, post, hl, he, hs, trivial⟩
    simp [hnil] at hsplit
  · intro hno
    cases hS : transitionsOf opk (transitionsAfter eventStart eventEnd cooldownEnd l) with
    | nil => rfl
    | cons t rest =>
      obtain ⟨pre, o, post, hl, he, hs, -⟩ := h.1 ⟨[], t, rest, hS, trivial⟩
      rw [hno pre o post hl hs] at he
      cases he

/-- Over a prefix of the input the re-sort of the stream's transitions is the identity. -/
theorem streamTransitions_eq (hobs : SeedThenStrict obs) {l : List RouteObservation}
    (hl : l <+: obs) :
    streamTransitions opk (transitionsAfter eventStart eventEnd cooldownEnd l) =
      transitionsOf opk (transitionsAfter eventStart eventEnd cooldownEnd l) :=
  streamTransitions_eq_of_strict opk (transitionsAfter_pairwise eventStart eventEnd cooldownEnd
    (· < ·) (hobs.pairwise.sublist hl.sublist))

/-- Once the stream has had a transition, only updates of the event period follow. -/
theorem later_of_transition (hobs : SeedThenStrict obs) {l : List RouteObservation}
    {o : RouteObservation} (hl : l ++ [o] <+: obs)
    (hne : transitionsOf opk (transitionsAfter eventStart eventEnd cooldownEnd l) ≠ []) :
    o.kind ≠ .ribEntry ∧ eventStart ≤ o.timestamp := by
  obtain ⟨t, ht⟩ := List.exists_mem_of_ne_nil _ hne
  obtain ⟨o', ho', hopen, -⟩ := mem_transitionsAfter eventStart eventEnd cooldownEnd
    (List.mem_of_mem_filter ht)
  obtain ⟨-, -, hcross⟩ := List.pairwise_append.1 (hobs.pairwise.sublist hl.sublist)
  simp only [RouteObservation.opens, Bool.and_eq_true, decide_eq_true_eq] at hopen
  have hk : o'.kind ≠ .ribEntry := by
    intro hk
    simp [RouteObservation.isUpdate, hk] at hopen
  obtain ⟨hok, hlt⟩ := hcross o' ho' o (by simp) hk
  exact ⟨hok, hopen.2.trans hlt.le⟩

/-- An observation of the event period that emits nothing for the stream leaves its keys alone. -/
theorem states_of_not_emits {l : List RouteObservation} {o : RouteObservation}
    (hk : o.kind ≠ .ribEntry) (ho : eventStart ≤ o.timestamp)
    (hno : ¬ (emits eventStart cooldownEnd l o = true ∧ o.stream = opk)) {k : RouteKey}
    (hkey : k.observerPrefixKey = opk) :
    (Recon.run eventStart eventEnd cooldownEnd (l ++ [o])).store.states k =
      (Recon.run eventStart eventEnd cooldownEnd l).store.states k := by
  rw [Recon.run_concat, Recon.step_states]
  split
  · rfl
  · next hd =>
    by_cases hko : k = observationKey o
    · subst hko
      rw [Function.update_self]
      refine nextState_eq_of_not_isChange hk ?_
      by_contra hch
      rw [Bool.not_eq_false] at hch
      refine hno ⟨?_, hkey⟩
      have hu : o.isUpdate = true := by
        cases hk' : o.kind <;> simp_all [isChange, RouteObservation.isUpdate]
      rw [emits_eq eventStart eventEnd, hch, Bool.and_true]
      simp_all [RouteObservation.inWindow, RouteObservation.dropped, RouteObservation.opens]
    · exact Function.update_of_ne hko _ _

/-- The invariant: from the stream's first transition on, simulation and store agree. -/
theorem sameInstances_run (hobs : SeedThenStrict obs)
    (hbase : ∀ k, k ∈ baseline ↔ k.observerPrefixKey = opk ∧
      ∃ r ∈ obs, r.kind = .ribEntry ∧ observationKey r = k)
    (hwarm : WarmupKeepsInstances eventStart cooldownEnd opk obs)
    (hempty : NoEmptyPath eventStart cooldownEnd opk obs) (l : List RouteObservation)
    (hl : l <+: obs)
    (hne : transitionsOf opk (transitionsAfter eventStart eventEnd cooldownEnd l) ≠ []) :
    SameInstances opk
      (activeRun baseline (transitionsOf opk (transitionsAfter eventStart eventEnd cooldownEnd l)))
      (Recon.run eventStart eventEnd cooldownEnd l).store.states := by
  induction l using List.reverseRecOn with
  | nil => exact absurd rfl hne
  | append_singleton l o ih =>
    have hl' : l <+: obs := (List.prefix_append l [o]).trans hl
    obtain ⟨post, hpost⟩ := hl
    have hsplit : obs = l ++ o :: post := by simpa using hpost.symm
    rw [transitionsOf_concat] at hne ⊢
    by_cases he : emits eventStart cooldownEnd l o = true ∧ o.stream = opk
    · rw [if_pos he, activeRun_concat]
      refine (sameInstances_step_iff _ _ _ he.1 he.2 _).2
        ⟨hempty l o post hsplit he.1 he.2, fun k hk => ?_⟩
      by_cases hnil : transitionsOf opk (transitionsAfter eventStart eventEnd cooldownEnd l) = []
      · -- the first transition: the simulation is still at its baseline
        rw [hnil]
        change k ∈ baseline ↔ _
        rw [hbase]
        refine and_congr_right fun hkey => ?_
        exact hwarm l o post hsplit he.1 he.2
          ((transitionsOf_eq_nil_iff _ eventEnd _ l).1 hnil) k hkey hk
      · rw [ih hl' hnil k, ← Recon.attributes_run eventStart eventEnd cooldownEnd, Option.isSome_map]
    · rw [if_neg he, List.append_nil] at hne ⊢
      obtain ⟨hk, ho⟩ := later_of_transition eventStart eventEnd cooldownEnd hobs
        ⟨post, hpost⟩ hne
      intro k
      rw [ih hl' hne k]
      refine and_congr_right fun hkey => ?_
      rw [states_of_not_emits eventStart eventEnd cooldownEnd hk ho he hkey]

/-- The baseline instances of a stream are its RIB entries, when the cohort has them all. -/
theorem mem_baselineFor {targets : List UInt32} (opk : ObserverPrefixKey)
    (hcov : ∀ r ∈ obs, r.kind = .ribEntry → ∃ m,
      (freezeCohort targets pred obs).baselineInstances r.stream = some m ∧ observationKey r ∈ m)
    (k : RouteKey) :
    k ∈ baselineFor (freezeCohort targets pred obs) opk ↔ k.observerPrefixKey = opk ∧
      ∃ r ∈ obs, r.kind = .ribEntry ∧ observationKey r = k := by
  constructor
  · intro h
    rw [baselineFor] at h
    split at h
    · next hadm =>
      rw [mem_observerPrefixes] at hadm
      rw [FrozenCohort.baselineOf, baselineInstances_freezeCohort, if_pos hadm, Option.getD_some,
        mem_instanceMap] at h
      obtain ⟨r, hr, rfl⟩ := h
      obtain ⟨hr, hs⟩ := List.mem_filter.1 hr
      obtain ⟨hr, ht⟩ := List.mem_filter.1 hr
      exact ⟨of_decide_eq_true hs, r, hr, (attributes_of_targetOrigin ht).1, rfl⟩
    · simp at h
  · rintro ⟨hs, r, hr, hk, rfl⟩
    obtain ⟨m, hm, hin⟩ := hcov r hr hk
    have hs' : r.stream = opk := hs
    rw [hs'] at hm
    have hadm : opk ∈ (freezeCohort targets pred obs).observerPrefixes := by
      rw [mem_observerPrefixes]
      by_contra hno
      simp [baselineInstances_freezeCohort, hno] at hm
    rw [baselineFor, if_pos hadm, FrozenCohort.baselineOf, hm]
    exact hin

/-- `was_withdrawn` is the store's own loss, where the two agree after every transition. -/
theorem wasWithdrawn_iff_of_tracks (hobs : SeedThenStrict obs)
    (htracks : ActiveTracksStore eventStart eventEnd cooldownEnd opk pred baseline obs)
    (hempty : NoEmptyPath eventStart cooldownEnd opk obs) :
    (buildOneLifecycle opk baseline (streamTransitions opk
        (transitionsAfter eventStart eventEnd cooldownEnd obs)) cooldownEnd pred).wasWithdrawn = true ↔
      StoreLosesStream eventStart eventEnd cooldownEnd opk obs := by
  have hww : (buildOneLifecycle opk baseline (streamTransitions opk
        (transitionsAfter eventStart eventEnd cooldownEnd obs)) cooldownEnd pred).wasWithdrawn =
      decide (0 < (Sim.run pred baseline (streamTransitions opk
        (transitionsAfter eventStart eventEnd cooldownEnd obs))).streamWithdrawalCount) := rfl
  rw [hww, decide_eq_true_iff, Sim.run_count_pos, streamTransitions_eq _ _ _ hobs List.prefix_rfl,
    exists_split_transitions]
  -- at an emitting position: the active map after it is the store's set of keys
  have hafter {pre o post} (hl : obs = pre ++ o :: post)
      (he : emits eventStart cooldownEnd pre o = true) (hs : o.stream = opk) :
      (activeAfter (activeRun baseline (transitionsOf opk
        (transitionsAfter eventStart eventEnd cooldownEnd pre))) (transitionFor eventStart eventEnd
          cooldownEnd (Recon.run eventStart eventEnd cooldownEnd pre) o)).isEmpty = true ↔
      ∀ k : RouteKey, k.observerPrefixKey = opk →
        (Recon.run eventStart eventEnd cooldownEnd (pre ++ [o])).store.states k = none := by
    have hpre : pre ++ [o] <+: obs := ⟨post, by simp [hl]⟩
    have h := (htracks pre o post hl he hs).2
    rw [streamTransitions_eq _ _ _ hobs hpre, transitionsOf_concat, if_pos ⟨he, hs⟩, Sim.run_active,
      activeRun_concat] at h
    rw [ExtTreeMap.isEmpty_iff, ExtTreeMap.eq_empty_iff_forall_not_mem]
    constructor
    · intro hno k hk
      by_contra hsome
      exact hno k ((h k).2 ⟨hk, Option.isSome_iff_ne_none.2 hsome⟩)
    · intro hno k hk
      obtain ⟨hkey, hsome⟩ := (h k).1 hk
      have hnone : (reconstructRoutes eventStart eventEnd cooldownEnd (pre ++ [o])).1.states k = none :=
        hno k hkey
      rw [hnone] at hsome
      cases hsome
  constructor
  · rintro ⟨pre, o, post, hl, he, hs, hlose⟩
    rw [losesStream, Bool.and_eq_true, beq_iff_eq, transitionFor_withdrawal_iff _ _ _ he] at hlose
    have hw : o.kind = .withdrawal := hlose.1.resolve_right (hempty pre o post hl he hs)
    have hch := he
    rw [emits_eq eventStart eventEnd, Bool.and_eq_true] at hch
    refine ⟨pre, o, post, hl, hch.1, ⟨observationKey o, hs, ?_⟩, (hafter hl he hs).1 hlose.2⟩
    simpa [isChange, hw, reconstructRoutes] using hch.2
  · rintro ⟨pre, o, post, hl, hwin, ⟨k, hk, hsome⟩, hnone⟩
    -- the store lost `k` to `o`, so `o` is an update of `k` that really changes it
    have hopen := (Bool.and_eq_true_iff.1 hwin).1
    simp only [RouteObservation.opens, Bool.and_eq_true, decide_eq_true_eq] at hopen
    have hkind : o.kind ≠ .ribEntry := by
      intro hk'
      simp [RouteObservation.isUpdate, hk'] at hopen
    have he : emits eventStart cooldownEnd pre o = true ∧ o.stream = opk := by
      by_contra hno
      have hsame := states_of_not_emits eventStart eventEnd cooldownEnd hkind hopen.2 hno hk
      have hgone : (Recon.run eventStart eventEnd cooldownEnd (pre ++ [o])).store.states k = none :=
        hnone k hk
      rw [hgone] at hsame
      simp [reconstructRoutes, ← hsame] at hsome
    refine ⟨pre, o, post, hl, he.1, he.2, ?_⟩
    have hgone := (hafter hl he.1 he.2).2 hnone
    rw [losesStream, hgone, Bool.and_true, beq_iff_eq, transitionFor_withdrawal_iff _ _ _ he.1]
    left
    have hkeynone := hnone (observationKey o) he.2
    have hch := he.1
    rw [emits_eq eventStart eventEnd, Bool.and_eq_true] at hch
    by_contra hw
    simp only [reconstructRoutes, Recon.run_concat, Recon.step_states] at hkeynone
    have hd : o.dropped eventStart cooldownEnd = false := by
      simp only [RouteObservation.inWindow, Bool.and_eq_true, decide_eq_true_eq] at hwin
      simp [RouteObservation.dropped, hwin.2]
    rw [hd] at hkeynone
    have hann : o.kind = .announcement := by
      cases hk' : o.kind <;> simp_all [RouteObservation.isUpdate]
    simp only [isChange, hann, decide_eq_true_eq] at hch
    simp [nextState, hann, hch.2] at hkeynone

/-- **When the simulated instances are the store's.** For RIB entries first and updates at
strictly increasing times, with every RIB entry in the frozen cohort: after each event or
cooldown transition of the stream the simulation holds exactly the store's instances, and the
stream is reported withdrawn iff the store lost its last instance, iff warm-up kept the stream's
other instances as the RIB has them and no live instance is announced with an empty AS path. -/
theorem activeTracksStore_iff {targets : List UInt32} (hobs : SeedThenStrict obs)
    (hcov : ∀ r ∈ obs, r.kind = .ribEntry → ∃ m,
      (freezeCohort targets pred obs).baselineInstances r.stream = some m ∧ observationKey r ∈ m)
    (opk : ObserverPrefixKey) :
    let baseline := baselineFor (freezeCohort targets pred obs) opk
    (ActiveTracksStore eventStart eventEnd cooldownEnd opk pred baseline obs ∧
      ((buildOneLifecycle opk baseline (streamTransitions opk
          (transitionsAfter eventStart eventEnd cooldownEnd obs)) cooldownEnd pred).wasWithdrawn = true ↔
        StoreLosesStream eventStart eventEnd cooldownEnd opk obs)) ↔
    (WarmupKeepsInstances eventStart cooldownEnd opk obs ∧
      NoEmptyPath eventStart cooldownEnd opk obs) := by
  intro baseline
  have hbase := mem_baselineFor opk hcov
  constructor
  · rintro ⟨htracks, -⟩
    have hstep {pre o post} (hl : obs = pre ++ o :: post)
        (he : emits eventStart cooldownEnd pre o = true) (hs : o.stream = opk) :=
      (htracks pre o post hl he hs).2
    refine ⟨?_, ?_⟩
    · intro pre o post hl he hs hfirst k hk hne
      have h := hstep hl he hs
      rw [streamTransitions_eq _ _ _ hobs ⟨post, by simp [hl]⟩, transitionsOf_concat,
        if_pos ⟨he, hs⟩, (transitionsOf_eq_nil_iff _ eventEnd _ pre).2 hfirst, Sim.run_active,
        activeRun_concat] at h
      have hk' := ((sameInstances_step_iff _ _ _ he hs _).1 h).2 k hne
      change k ∈ baseline ↔ _ at hk'
      rw [hbase] at hk'
      simpa [hk] using hk'
    · intro pre o post hl he hs
      have h := hstep hl he hs
      rw [streamTransitions_eq _ _ _ hobs ⟨post, by simp [hl]⟩, transitionsOf_concat,
        if_pos ⟨he, hs⟩, Sim.run_active, activeRun_concat] at h
      exact ((sameInstances_step_iff _ _ _ he hs _).1 h).1
  · rintro ⟨hwarm, hempty⟩
    have htracks : ActiveTracksStore eventStart eventEnd cooldownEnd opk pred baseline obs := by
      intro pre o post hl he hs
      have hpre : pre ++ [o] <+: obs := ⟨post, by simp [hl]⟩
      rw [streamTransitions_eq _ _ _ hobs hpre, streamTransitions_eq _ _ _ hobs List.prefix_rfl,
        Sim.run_active]
      refine ⟨?_, ?_⟩
      · exact transitionsAfter_initial eventStart eventEnd cooldownEnd opk hpre
      · refine sameInstances_run _ _ _ hobs hbase hwarm hempty _ hpre ?_
        rw [transitionsOf_concat, if_pos ⟨he, hs⟩]
        simp
    exact ⟨htracks, wasWithdrawn_iff_of_tracks _ _ _ hobs htracks hempty⟩

end Transitions

/-! ## An outage that did not happen -/

/-- Instance 1 from the RIB, instance 2 announced during warm-up, instance 1 withdrawn in the
event window. -/
def warmupSample : List RouteObservation :=
  [.plain "rrc00" 0 .ribEntry 0 (some 1) [1, 2], .plain "rrc00" 0 .announcement 5 (some 2) [1, 3, 2],
    .plain "rrc00" 1 .withdrawal 15 (some 1)]

def sampleStream : ObserverPrefixKey := ⟨"rrc00", .v4 1, "10.0.0.0/8"⟩

theorem warmupSample_seedThenStrict : SeedThenStrict warmupSample :=
  ⟨warmupSample.take 1, warmupSample.drop 1, rfl, by decide, by decide, by decide⟩

theorem warmupSample_covered : ∀ r ∈ warmupSample, r.kind = .ribEntry → ∃ m,
    (freezeCohort [2] (.containsAny [1]) warmupSample).baselineInstances r.stream = some m ∧
      observationKey r ∈ m := by
  intro r hr hk
  refine ⟨instanceMap (entriesOf r.stream (targetEntries [2] warmupSample)), ?_, ?_⟩
  · rw [baselineInstances_freezeCohort, if_pos]
    fin_cases hr
    · decide
    · cases hk
    · cases hk
  · rw [mem_instanceMap]
    fin_cases hr
    · exact ⟨_, by decide, rfl⟩
    · cases hk
    · cases hk

/-- **Bug**: after the withdrawal the simulation holds nothing and reports the stream withdrawn,
while the store still holds instance 2. -/
theorem warmup_announcement_invents_outage :
    ¬ ActiveTracksStore 10 20 30 sampleStream (.containsAny [1])
      (baselineFor (freezeCohort [2] (.containsAny [1]) warmupSample) sampleStream) warmupSample ∧
    (buildOneLifecycle sampleStream
      (baselineFor (freezeCohort [2] (.containsAny [1]) warmupSample) sampleStream)
      (streamTransitions sampleStream (transitionsAfter 10 20 30 warmupSample)) 30
      (.containsAny [1])).wasWithdrawn = true ∧
    ((reconstructRoutes 10 20 30 warmupSample).1.states
      ⟨"rrc00", .v4 1, "10.0.0.0/8", some 2⟩).isSome = true := by
  refine ⟨fun h => ?_, by decide, by decide⟩
  have hsame := (h (warmupSample.take 2) (.plain "rrc00" 1 .withdrawal 15 (some 1)) [] rfl
    (by decide) (by decide)).2 ⟨"rrc00", .v4 1, "10.0.0.0/8", some 2⟩
  revert hsame
  decide

theorem activeTracksStore_iff_warmupSample :
    (ActiveTracksStore 10 20 30 sampleStream (.containsAny [1])
        (baselineFor (freezeCohort [2] (.containsAny [1]) warmupSample) sampleStream) warmupSample ∧
      ((buildOneLifecycle sampleStream
          (baselineFor (freezeCohort [2] (.containsAny [1]) warmupSample) sampleStream)
          (streamTransitions sampleStream (transitionsAfter 10 20 30 warmupSample)) 30
          (.containsAny [1])).wasWithdrawn = true ↔ StoreLosesStream 10 20 30 sampleStream warmupSample)) ↔
    (WarmupKeepsInstances 10 30 sampleStream warmupSample ∧ NoEmptyPath 10 30 sampleStream warmupSample) :=
  activeTracksStore_iff 10 20 30 warmupSample_seedThenStrict warmupSample_covered sampleStream

end Inim
