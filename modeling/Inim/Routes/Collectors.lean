import Inim.Routes.Chain
import Inim.Routes.Order
/-!
# Collectors are not independent (`routes.rs:143-194` under `derived_cache.rs:297`)

`run_inner_impl` sorts the observations of all collectors into one list, collector by collector,
and reconstructs them in one pass. State, continuity and emitted changes of a collector depend on
its own observations only (`run_filter_collector`). The event baseline does not: it is frozen
once, at the first update of the event period of *any* collector, and in a collector-major order
every collector that sorts later has not been read by then. Its changes carry no baseline, so
`tokenize` never sees its returns to baseline.

`collector_independent_iff` says for which inputs the joint run agrees with the collector's own.
-/

namespace Inim

open Inim.Lib

/-- A change without its event baseline. -/
structure ChangeCore where
  key : RouteKey
  before : Option EvidencedRouteState
  after : EvidencedRouteState
  phase : AnalysisPhase
deriving DecidableEq

def StateChange.core (ch : StateChange) : ChangeCore := ⟨ch.key, ch.before, ch.after, ch.phase⟩

/-- The projection two runs are compared by. -/
def StateChange.seen (ch : StateChange) : ChangeCore × Option EvidencedRouteState :=
  (ch.core, ch.eventBaseline)

def ofCollector (c : CollectorId) (obs : List RouteObservation) : List RouteObservation :=
  obs.filter (·.collector = c)

def changesOf (c : CollectorId) (chs : List StateChange) : List StateChange :=
  chs.filter (·.key.collector = c)

namespace Recon

variable (eventStart eventEnd cooldownEnd : DateTime)

/-- Everything but the baseline is the collector's own. -/
theorem run_filter_collector (c : CollectorId) (l : List RouteObservation) :
    (∀ k : RouteKey, k.collector = c → (run eventStart eventEnd cooldownEnd l).store.states k =
      (run eventStart eventEnd cooldownEnd (ofCollector c l)).store.states k) ∧
    (changesOf c (run eventStart eventEnd cooldownEnd l).changes).map (·.core) =
      (run eventStart eventEnd cooldownEnd (ofCollector c l)).changes.map (·.core) := by
  induction l using List.reverseRecOn with
  | nil => exact ⟨fun _ _ => rfl, rfl⟩
  | append_singleton l o ih =>
    obtain ⟨hst, hch⟩ := ih
    rw [run_concat]
    by_cases hc : o.collector = c
    · have hof : ofCollector c (l ++ [o]) = ofCollector c l ++ [o] := by simp [ofCollector, hc]
      have hkc : (observationKey o).collector = c := hc
      rw [hof, run_concat]
      refine ⟨fun k hk => ?_, ?_⟩
      · simp only [step_states, hst _ hkc]
        split
        · exact hst k hk
        · by_cases hko : k = observationKey o
          · simp [hko]
          · rw [Function.update_of_ne hko, Function.update_of_ne hko, hst k hk]
      · simp only [step_changes, hst _ hkc, changesOf, List.filter_append, List.map_append] at hch ⊢
        rw [hch]
        congr 1
        split
        · simp [changeFor, hkc, StateChange.core]
        · rfl
    · -- another collector's observation: its key is not ours, its change is filtered out
      have hof : ofCollector c (l ++ [o]) = ofCollector c l := by simp [ofCollector, hc]
      have hkc : (observationKey o).collector ≠ c := hc
      rw [hof]
      refine ⟨fun k hk => ?_, ?_⟩
      · rw [← hst k hk, step_states]
        split
        · rfl
        · refine Function.update_of_ne ?_ _ _
          rintro rfl
          exact hkc hk
      · simp only [step_changes, changesOf, List.filter_append, List.map_append] at hch ⊢
        rw [hch]
        split
        · simp [changeFor, hkc]
        · simp

/-- A change is its core and the run's baseline at its key. -/
theorem map_seen_run (p : StateChange → Bool) (l : List RouteObservation) :
    ((run eventStart eventEnd cooldownEnd l).changes.filter p).map (·.seen) =
      (((run eventStart eventEnd cooldownEnd l).changes.filter p).map (·.core)).map
        fun x => (x, (run eventStart eventEnd cooldownEnd l).store.eventBaseline x.key) := by
  rw [List.map_map]
  refine List.map_congr_left fun ch hch => ?_
  have := mem_changes_eventBaseline _ _ _ l ch (List.mem_of_mem_filter hch)
  simp [StateChange.seen, this, StateChange.core]

/-- Two runs' changes of `c` agree iff their baselines do at the keys that change. -/
theorem seen_eq_iff (c : CollectorId) (l : List RouteObservation) :
    (changesOf c (run eventStart eventEnd cooldownEnd l).changes).map (·.seen) =
      (run eventStart eventEnd cooldownEnd (ofCollector c l)).changes.map (·.seen) ↔
    ∀ ch ∈ (run eventStart eventEnd cooldownEnd (ofCollector c l)).changes,
      (run eventStart eventEnd cooldownEnd l).store.eventBaseline ch.key =
        (run eventStart eventEnd cooldownEnd (ofCollector c l)).store.eventBaseline ch.key := by
  have hown := map_seen_run eventStart eventEnd cooldownEnd (fun _ => true) (ofCollector c l)
  rw [List.filter_true] at hown
  rw [changesOf, map_seen_run, hown, ← changesOf, (run_filter_collector _ _ _ c l).2,
    List.map_inj_left]
  simp [StateChange.core]

/-- The collector of an own change. -/
theorem mem_changes_collector {c : CollectorId} {l : List RouteObservation} {ch : StateChange}
    (h : ch ∈ (run eventStart eventEnd cooldownEnd (ofCollector c l)).changes) :
    ch.key.collector = c := by
  obtain ⟨pre, o, post, hl, -, -, rfl⟩ := (mem_changes_run _ _ _ _ ch).1 h
  have ho : o ∈ ofCollector c l := by simp [hl]
  exact of_decide_eq_true (List.mem_filter.1 ho).2

end Recon

/-! ## Where the one freeze falls in a collector-major order -/

section Opening
variable {eventStart : DateTime} {c : CollectorId} {l : List RouteObservation}

/-- If no collector before `c` opens the event period, the joint run reads exactly `c`'s own
warm-up of `c` before it freezes. -/
theorem takeWhile_ofCollector (hsorted : l.Pairwise fun a b => a.collector ≤ b.collector)
    (hquiet : ∀ o ∈ l, o.collector < c → o.opens eventStart = false) :
    ofCollector c (l.takeWhile fun o => !o.opens eventStart) =
      (ofCollector c l).takeWhile fun o => !o.opens eventStart := by
  induction l with
  | nil => rfl
  | cons a l ih =>
    obtain ⟨ha, hl⟩ := List.pairwise_cons.1 hsorted
    have ih := ih hl fun o ho => hquiet o (List.mem_cons_of_mem _ ho)
    simp only [ofCollector] at ih ⊢
    cases hopen : a.opens eventStart
    · by_cases hc : a.collector = c
      · simp [hopen, hc, ih]
      · simp [hopen, hc, ih]
    · by_cases hc : a.collector = c
      · simp [hopen, hc]
      · -- `a` opens and is not before `c`, so nothing of `c` follows it
        have hlt : c < a.collector := by
          refine lt_of_le_of_ne (le_of_not_gt fun h => ?_) (Ne.symm hc)
          simp [hquiet a List.mem_cons_self h] at hopen
        have hnone : l.filter (·.collector = c) = [] := by
          simp only [List.filter_eq_nil_iff, decide_eq_true_eq]
          intro o ho hoc
          exact absurd (ha o ho) (not_le.2 (hoc ▸ hlt))
        simp [hopen, hc, hnone]

/-- If a collector before `c` opens it, the freeze happens before anything of `c` is read. -/
theorem takeWhile_ofCollector_of_earlier
    (hsorted : l.Pairwise fun a b => a.collector ≤ b.collector)
    (hearly : ∃ o ∈ l, o.collector < c ∧ o.opens eventStart = true) :
    ofCollector c (l.takeWhile fun o => !o.opens eventStart) = [] := by
  obtain ⟨o, ho, hlt, hopen⟩ := hearly
  induction l with
  | nil => cases ho
  | cons a l ih =>
    obtain ⟨ha, hl⟩ := List.pairwise_cons.1 hsorted
    cases hoa : a.opens eventStart
    · have hol : o ∈ l := by
        rcases List.mem_cons.1 ho with rfl | h
        · rw [hopen] at hoa; cases hoa
        · exact h
      have hac : a.collector ≠ c := (lt_of_le_of_lt (ha o hol) hlt).ne
      have := ih hl hol
      simp only [ofCollector] at this ⊢
      simpa [hoa, hac] using this
    · simp [ofCollector, hoa]

end Opening

section Independence
variable (eventStart eventEnd cooldownEnd : DateTime)

/-- A route held when the list's event period opens is really changed inside the window. -/
def ChangesBaselineRoute (l : List RouteObservation) : Prop :=
  ∃ pre o post, l = pre ++ o :: post ∧ o.inWindow eventStart cooldownEnd = true ∧
    changesRoute (routeAfter eventStart cooldownEnd pre (observationKey o)) o = true ∧
    (routeAfter eventStart cooldownEnd (l.takeWhile fun o => !o.opens eventStart)
      (observationKey o)).isSome = true

/-- The own run's changes have a baseline somewhere iff such a route changes. -/
theorem changesBaselineRoute_iff (l : List RouteObservation) :
    ChangesBaselineRoute eventStart cooldownEnd l ↔
      ∃ ch ∈ (Recon.run eventStart eventEnd cooldownEnd l).changes,
        (Recon.run eventStart eventEnd cooldownEnd l).store.eventBaseline ch.key ≠ none := by
  have hbase {pre o post} (hl : l = pre ++ o :: post)
      (hwin : o.inWindow eventStart cooldownEnd = true) (k : RouteKey) :
      (Recon.run eventStart eventEnd cooldownEnd l).store.eventBaseline k ≠ none ↔
      (routeAfter eventStart cooldownEnd (l.takeWhile fun o => !o.opens eventStart) k).isSome := by
    have hany : l.any (·.opens eventStart) = true := by
      rw [hl, List.any_append, List.any_cons, (Bool.and_eq_true_iff.1 hwin).1]
      simp
    rw [Recon.eventBaseline_run, if_pos hany, ← Recon.attributes_run eventStart eventEnd cooldownEnd]
    simp [Recon.freeze, Option.isSome_iff_ne_none]
  constructor
  · rintro ⟨pre, o, post, hl, hwin, hch, hsome⟩
    rw [← Recon.attributes_run eventStart eventEnd cooldownEnd, ← isChange_eq] at hch
    exact ⟨_, (Recon.mem_changes_run _ _ _ l _).2 ⟨pre, o, post, hl, hwin, hch, rfl⟩,
      (hbase hl hwin _).2 hsome⟩
  · rintro ⟨ch, hmem, hne⟩
    obtain ⟨pre, o, post, hl, hwin, hch, rfl⟩ := (Recon.mem_changes_run _ _ _ l _).1 hmem
    refine ⟨pre, o, post, hl, hwin, ?_, (hbase hl hwin _).1 hne⟩
    rwa [← Recon.attributes_run eventStart eventEnd cooldownEnd, ← isChange_eq]

theorem eventBaseline_of_earlier {c : CollectorId} {l : List RouteObservation}
    (hsorted : l.Pairwise fun a b => a.collector ≤ b.collector)
    (hearly : ∃ o ∈ l, o.collector < c ∧ o.opens eventStart = true) {k : RouteKey}
    (hk : k.collector = c) :
    (Recon.run eventStart eventEnd cooldownEnd l).store.eventBaseline k = none := by
  rw [Recon.eventBaseline_run]
  split
  · rw [Recon.freeze, (Recon.run_filter_collector _ _ _ c _).1 k hk,
      takeWhile_ofCollector_of_earlier hsorted hearly]
    rfl
  · rfl

theorem eventBaseline_of_quiet {c : CollectorId} {l : List RouteObservation}
    (hsorted : l.Pairwise fun a b => a.collector ≤ b.collector)
    (hquiet : ¬ ∃ o ∈ l, o.collector < c ∧ o.opens eventStart = true)
    (hopen : (ofCollector c l).any (·.opens eventStart) = true) {k : RouteKey}
    (hk : k.collector = c) :
    (Recon.run eventStart eventEnd cooldownEnd l).store.eventBaseline k =
      (Recon.run eventStart eventEnd cooldownEnd (ofCollector c l)).store.eventBaseline k := by
  have hany : l.any (·.opens eventStart) = true := by
    obtain ⟨o, ho, hoo⟩ := List.any_eq_true.1 hopen
    exact List.any_eq_true.2 ⟨o, List.mem_of_mem_filter ho, hoo⟩
  have hquiet' : ∀ o ∈ l, o.collector < c → o.opens eventStart = false := by
    intro o ho hlt
    by_contra hoo
    exact hquiet ⟨o, ho, hlt, by simpa using hoo⟩
  rw [Recon.eventBaseline_run, Recon.eventBaseline_run, if_pos hany, if_pos hopen, Recon.freeze,
    Recon.freeze, (Recon.run_filter_collector _ _ _ c _).1 k hk,
    takeWhile_ofCollector hsorted hquiet']

/-- The own run's change at `k` shows an update of the own event period. -/
theorem any_opens_of_mem_changes {l : List RouteObservation} {ch : StateChange}
    (h : ch ∈ (Recon.run eventStart eventEnd cooldownEnd l).changes) :
    l.any (·.opens eventStart) = true := by
  obtain ⟨pre, o, post, rfl, hwin, -⟩ := (Recon.mem_changes_run _ _ _ l ch).1 h
  simp [(Bool.and_eq_true_iff.1 hwin).1]

/-- **When a collector's changes are its own.** The changes of `c` in the joint run are those of
its own run, each with `c`'s own state after warm-up as its event baseline, iff no collector that
sorts before `c` has an update of the event period, or no route that `c` holds at the opening of
its own event period is changed inside the window. -/
theorem collector_independent_iff (c : CollectorId) (obs : List RouteObservation) :
    let own := sortDeterministic (ofCollector c obs)
    let joint := changesOf c (reconstructRoutes eventStart eventEnd cooldownEnd
      (sortDeterministic obs)).2
    (joint.map (·.seen) = (reconstructRoutes eventStart eventEnd cooldownEnd own).2.map (·.seen) ∧
      ∀ ch ∈ joint, ch.eventBaseline = Recon.freeze (reconstructRoutes eventStart eventEnd cooldownEnd
        (own.takeWhile fun o => !o.opens eventStart)).1.states ch.key) ↔
    ((¬ ∃ o ∈ obs, o.collector < c ∧ o.opens eventStart = true) ∨
      ¬ ChangesBaselineRoute eventStart cooldownEnd own) := by
  have hown : sortDeterministic (ofCollector c obs) = ofCollector c (sortDeterministic obs) :=
    (sortBy_filter _ obs).symm
  have hsorted := sortDeterministic_collectors obs
  have hmem : (∃ o ∈ obs, o.collector < c ∧ o.opens eventStart = true) ↔
      ∃ o ∈ sortDeterministic obs, o.collector < c ∧ o.opens eventStart = true := by
    simp [sortDeterministic]
  rw [hown, hmem]
  simp only [reconstructRoutes]
  rw [changesBaselineRoute_iff eventStart eventEnd cooldownEnd,
    Recon.seen_eq_iff eventStart eventEnd cooldownEnd c (sortDeterministic obs)]
  generalize sortDeterministic obs = l at hsorted ⊢
  constructor
  · rintro ⟨heq, -⟩
    refine or_iff_not_imp_left.2 fun hearly => ?_
    rw [not_not] at hearly
    rintro ⟨ch, hch, hne⟩
    refine hne ?_
    rw [← heq ch hch]
    exact eventBaseline_of_earlier _ _ _ hsorted hearly (Recon.mem_changes_collector _ _ _ hch)
  · intro hcond
    have heq : ∀ ch ∈ (Recon.run eventStart eventEnd cooldownEnd (ofCollector c l)).changes,
        (Recon.run eventStart eventEnd cooldownEnd l).store.eventBaseline ch.key =
          (Recon.run eventStart eventEnd cooldownEnd (ofCollector c l)).store.eventBaseline ch.key := by
      intro ch hch
      have hk := Recon.mem_changes_collector _ _ _ hch
      by_cases hearly : ∃ o ∈ l, o.collector < c ∧ o.opens eventStart = true
      · have hnone := hcond.resolve_left (not_not.2 hearly)
        rw [eventBaseline_of_earlier _ _ _ hsorted hearly hk]
        by_contra hne
        exact hnone ⟨ch, hch, fun h => hne h.symm⟩
      · exact eventBaseline_of_quiet _ _ _ hsorted hearly
          (any_opens_of_mem_changes _ _ _ hch) hk
    refine ⟨heq, fun ch hch => ?_⟩
    -- the joint change has an own twin, and the own run's baseline is the own warm-up state
    have hseen := (Recon.seen_eq_iff _ _ _ c l).2 heq
    have hmem' : ch.seen ∈ (Recon.run eventStart eventEnd cooldownEnd (ofCollector c l)).changes.map
        (·.seen) := hseen ▸ List.mem_map_of_mem hch
    obtain ⟨ch', hch', hsame⟩ := List.mem_map.1 hmem'
    have hb : ch'.eventBaseline = ch.eventBaseline := congrArg Prod.snd hsame
    have hk : ch'.key = ch.key := congrArg (·.1.key) hsame
    rw [← hb, ← hk, Recon.mem_changes_eventBaseline _ _ _ _ _ hch', Recon.eventBaseline_run,
      if_pos (any_opens_of_mem_changes _ _ _ hch')]

/-- Two collectors with the same table and the same withdrawal: seed at 0, withdrawal at 15. -/
def twoCollectors : List RouteObservation :=
  [.plain "route-views2" 0 .ribEntry 0 none [1, 2], .plain "rrc00" 0 .ribEntry 0 none [1, 2],
    .plain "route-views2" 1 .withdrawal 15, .plain "rrc00" 1 .withdrawal 15]

/-- **Bug**: `rrc00` sorts after `route-views2`, so its change loses its baseline. -/
theorem later_collector_loses_baseline :
    (changesOf "rrc00" (reconstructRoutes 10 20 30 (sortDeterministic twoCollectors)).2).map (·.seen) ≠
      (reconstructRoutes 10 20 30 (sortDeterministic (ofCollector "rrc00" twoCollectors))).2.map (·.seen) := by
  decide

end Independence

end Inim
