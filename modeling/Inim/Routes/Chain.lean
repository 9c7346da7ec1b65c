import Inim.Routes.Run
/-!
# The emitted changes form a chain (`routes.rs:143-194`)

For an input with all RIB entries first and the rest in time order, the changes of every key lead
without a gap from the baseline to the final state: the first starts at the baseline, each later
one starts where the one before it ended, and replaying them over the baseline gives the final
store (`reconstructRoutes_chain`).

The baseline is the state after every RIB entry and every observation before `event_start`. Two
things about it are easy to expect otherwise, and are deliberate:

* the store copies it lazily, at the first update of the event period; a run that sees no such
  update keeps an empty `event_baseline` map (and emits nothing);
* a RIB entry seeds the state whatever its timestamp, so one dated inside the event window is
  part of the baseline.
-/

namespace Inim

open Inim.Lib

/-- A change as a recorded update of its key: what was held, what is held now. -/
def StateChange.recorded (ch : StateChange) : RouteKey × Option RouteState × Option RouteState :=
  (ch.key, ch.before.bind (·.state), ch.after.state)

/-- Replaying changes over a map. -/
def replayChanges (states : RouteKey → Option RouteState) (chs : List StateChange) :
    RouteKey → Option RouteState :=
  chs.foldl (fun t ch => Function.update t ch.key ch.after.state) states

/-- All RIB entries first, the remaining observations sorted by timestamp. -/
def SeedThenUpdates (obs : List RouteObservation) : Prop :=
  ∃ ribs ups, obs = ribs ++ ups ∧ (∀ o ∈ ribs, o.kind = .ribEntry) ∧
    (∀ o ∈ ups, o.kind ≠ .ribEntry) ∧ ups.Pairwise fun a b => a.timestamp ≤ b.timestamp

/-- The observations the baseline is made of. -/
def warmupPart (eventStart : DateTime) (obs : List RouteObservation) : List RouteObservation :=
  obs.filter fun o => o.kind == .ribEntry || decide (o.timestamp < eventStart)

theorem filter_split_of_pairwise (eventStart : DateTime) {ups : List RouteObservation}
    (h : ups.Pairwise fun a b => a.timestamp ≤ b.timestamp) :
    ups = ups.filter (fun o => decide (o.timestamp < eventStart)) ++
      ups.filter (fun o => !decide (o.timestamp < eventStart)) := by
  refine filter_append_filter_not (h.imp fun hab hb => ?_)
  rw [decide_eq_true_eq] at hb ⊢
  exact lt_of_le_of_lt hab hb

namespace Recon

variable (eventStart eventEnd cooldownEnd : DateTime)

theorem changes_of_no_opens {l : List RouteObservation} (h : ∀ o ∈ l, o.opens eventStart = false) :
    (run eventStart eventEnd cooldownEnd l).changes = [] := by
  rw [List.eq_nil_iff_forall_not_mem]
  intro ch hch
  obtain ⟨pre, o, post, rfl, hwin, -⟩ := (mem_changes_run _ _ _ l ch).1 hch
  have := h o (by simp)
  simp [RouteObservation.inWindow, this] at hwin

/-- A pass over a non-RIB observation of the event period either records exactly the update it
makes, or makes none. -/
theorem step_recorded (r : Recon) {o : RouteObservation} (hk : o.kind ≠ .ribEntry)
    (ho : eventStart ≤ o.timestamp) :
    (∃ ch : StateChange, (r.step eventStart eventEnd cooldownEnd o).changes = r.changes ++ [ch] ∧
      ch.recorded = (ch.key, r.store.states ch.key, ch.after.state) ∧
      (r.step eventStart eventEnd cooldownEnd o).store.states =
        Function.update r.store.states ch.key ch.after.state) ∨
    ((r.step eventStart eventEnd cooldownEnd o).changes = r.changes ∧
      (r.step eventStart eventEnd cooldownEnd o).store.states = r.store.states) := by
  rw [step_changes, step_states]
  by_cases hc : o.inWindow eventStart cooldownEnd ∧ isChange (r.store.states (observationKey o)) o
  · have hd : o.dropped eventStart cooldownEnd = false := by
      have := hc.1
      simp only [RouteObservation.inWindow, Bool.and_eq_true, decide_eq_true_eq] at this
      simp [RouteObservation.dropped, this.2]
    refine Or.inl ⟨_, by rw [if_pos hc], ?_, by simp [hd, changeFor]⟩
    rw [StateChange.recorded, changeFor_before_state]
    rfl
  · refine Or.inr ⟨by rw [if_neg hc, List.append_nil], ?_⟩
    split
    · rfl
    · next hd =>
      -- not dropped and not recorded: a session boundary, or an update without effect
      have hno : isChange (r.store.states (observationKey o)) o = false := by
        by_contra hch
        rw [Bool.not_eq_false] at hch
        have hu : o.isUpdate = true := by
          cases hk' : o.kind <;> simp_all [isChange, RouteObservation.isUpdate]
        exact hc ⟨by simp_all [RouteObservation.inWindow, RouteObservation.dropped,
          RouteObservation.opens], hch⟩
      rw [nextState_eq_of_not_isChange hk hno, Function.update_eq_self]

/-- From a prefix that emitted nothing, the changes lead to the states of every longer run. -/
theorem links_run {pre : List RouteObservation}
    (hpre : (run eventStart eventEnd cooldownEnd pre).changes = []) (rest : List RouteObservation)
    (hrest : ∀ o ∈ rest, o.kind ≠ .ribEntry ∧ eventStart ≤ o.timestamp) :
    (∀ k, Links ((run eventStart eventEnd cooldownEnd pre).store.states k)
      (stepsOf k ((run eventStart eventEnd cooldownEnd (pre ++ rest)).changes.map (·.recorded)))
      ((run eventStart eventEnd cooldownEnd (pre ++ rest)).store.states k)) ∧
    replayChanges (run eventStart eventEnd cooldownEnd pre).store.states
      (run eventStart eventEnd cooldownEnd (pre ++ rest)).changes =
      (run eventStart eventEnd cooldownEnd (pre ++ rest)).store.states := by
  induction rest using List.reverseRecOn with
  | nil => simp [hpre, stepsOf, Links, replayChanges]
  | append_singleton rest o ih =>
    obtain ⟨hlinks, hreplay⟩ := ih fun o' ho' => hrest o' (by simp [ho'])
    obtain ⟨hk, ho⟩ := hrest o (by simp)
    rw [← List.append_assoc, run_concat]
    rcases step_recorded eventStart eventEnd cooldownEnd
      (run eventStart eventEnd cooldownEnd (pre ++ rest)) hk ho with ⟨ch, hch, hrec, hst⟩ | ⟨hch, hst⟩
    · constructor
      · intro k
        rw [hch, hst, List.map_append, List.map_singleton, hrec]
        exact links_snoc_update hlinks ch.key ch.after.state k
      · rw [hch, hst, ← hreplay]
        simp [replayChanges]
    · rw [hch, hst]
      exact ⟨hlinks, hreplay⟩

end Recon

section Chain
variable (eventStart eventEnd cooldownEnd : DateTime)

/-- What the property below says of one run with final store `store` and emitted changes `chs`,
given the baseline. -/
structure ChainFrom (baseline : RouteKey → Option RouteState) (obs : List RouteObservation)
    (store : RouteStateStore) (chs : List StateChange) : Prop where
  /-- per key, gap-free from the baseline to the final state -/
  links : ∀ k, Links (baseline k) (stepsOf k (chs.map (·.recorded))) (store.states k)
  replay : replayChanges baseline chs = store.states
  differ : ∀ ch ∈ chs, (ch.before.bind (·.state)).map (·.attributes) ≠
    ch.after.state.map (·.attributes)
  window : ∀ ch ∈ chs, ∃ o ∈ obs, ch.key = observationKey o ∧
    ch.triggering = EvidenceRef.fromObservation o ∧
    eventStart ≤ o.timestamp ∧ o.timestamp ≤ cooldownEnd ∧
    (ch.phase = .event ↔ o.timestamp ≤ eventEnd) ∧ (ch.phase = .cooldown ↔ eventEnd < o.timestamp)
  eventBaseline : ∀ ch ∈ chs, ch.eventBaseline = Recon.freeze baseline ch.key

/-- Such an input is its warm-up part, which opens nothing, and then updates and session
boundaries of the event period or later. -/
theorem SeedThenUpdates.split {obs : List RouteObservation} (h : SeedThenUpdates obs) :
    ∃ rest, obs = warmupPart eventStart obs ++ rest ∧
      (∀ o ∈ warmupPart eventStart obs, o.opens eventStart = false) ∧
      ∀ o ∈ rest, o.kind ≠ .ribEntry ∧ eventStart ≤ o.timestamp := by
  obtain ⟨ribs, ups, rfl, hribs, hups, hsorted⟩ := h
  have hwarm : warmupPart eventStart (ribs ++ ups) =
      ribs ++ ups.filter (fun o => decide (o.timestamp < eventStart)) := by
    have h1 : ribs.filter (fun o => o.kind == .ribEntry || decide (o.timestamp < eventStart)) = ribs := by
      rw [List.filter_eq_self]
      intro o ho
      simp [hribs o ho]
    have h2 : ups.filter (fun o => o.kind == .ribEntry || decide (o.timestamp < eventStart)) =
        ups.filter (fun o => decide (o.timestamp < eventStart)) := by
      apply List.filter_congr
      intro o ho
      simp [hups o ho]
    simp only [warmupPart, List.filter_append, h1, h2]
  refine ⟨ups.filter (fun o => !decide (o.timestamp < eventStart)), ?_, ?_, ?_⟩
  · rw [hwarm, List.append_assoc, ← filter_split_of_pairwise eventStart hsorted]
  · intro o ho
    have := (List.mem_filter.1 ho).2
    simp only [Bool.or_eq_true, beq_iff_eq, decide_eq_true_eq] at this
    rcases this with hk | hlt
    · simp [RouteObservation.opens, RouteObservation.isUpdate, hk]
    · simp [RouteObservation.opens, hlt]
  · intro o ho
    obtain ⟨hmem, hge⟩ := List.mem_filter.1 ho
    exact ⟨hups o hmem, by simpa using hge⟩

/-- Nothing between the warm-up part and the first update of the event period writes a state. -/
theorem states_before_opening {obs : List RouteObservation} (h : SeedThenUpdates obs) :
    (Recon.run eventStart eventEnd cooldownEnd
      (obs.takeWhile fun o => !o.opens eventStart)).store.states =
    (Recon.run eventStart eventEnd cooldownEnd (warmupPart eventStart obs)).store.states := by
  obtain ⟨rest, hsplit, hpre, hrest⟩ := h.split eventStart
  have htake : (obs.takeWhile fun o => !o.opens eventStart) =
      warmupPart eventStart obs ++ rest.takeWhile fun o => !o.opens eventStart := by
    conv_lhs => rw [hsplit]
    apply List.takeWhile_append_of_pos
    intro o ho
    simp [hpre o ho]
  have hquiet : ∀ o ∈ obs.takeWhile fun o => !o.opens eventStart, o.opens eventStart = false := by
    intro o ho
    simpa using List.mem_takeWhile_imp ho
  obtain ⟨-, hreplay⟩ := Recon.links_run eventStart eventEnd cooldownEnd
    (Recon.changes_of_no_opens eventStart eventEnd cooldownEnd hpre)
    (rest.takeWhile fun o => !o.opens eventStart)
    fun o ho => hrest o ((List.takeWhile_sublist _).subset ho)
  rw [← htake, Recon.changes_of_no_opens eventStart eventEnd cooldownEnd hquiet] at hreplay
  exact hreplay.symm

/-- **The emitted changes chain from the baseline to the final store.** -/
theorem reconstructRoutes_chain {obs : List RouteObservation} (h : SeedThenUpdates obs) :
    let baseline := (reconstructRoutes eventStart eventEnd cooldownEnd
      (warmupPart eventStart obs)).1.states
    let (store, chs) := reconstructRoutes eventStart eventEnd cooldownEnd obs
    ChainFrom eventStart eventEnd cooldownEnd baseline obs store chs ∧
      store.eventBaseline =
        if obs.any (·.opens eventStart) then Recon.freeze baseline else fun _ => none := by
  obtain ⟨rest, hsplit, hpre, hrest⟩ := h.split eventStart
  obtain ⟨hlinks, hreplay⟩ := Recon.links_run eventStart eventEnd cooldownEnd
    (Recon.changes_of_no_opens eventStart eventEnd cooldownEnd hpre) rest hrest
  rw [← hsplit] at hlinks hreplay
  have hbase := Recon.eventBaseline_run eventStart eventEnd cooldownEnd obs
  rw [states_before_opening _ _ _ h] at hbase
  refine ⟨⟨hlinks, hreplay, ?_, ?_, ?_⟩, hbase⟩
  · intro ch hch
    obtain ⟨pre, o, post, -, -, hchange, rfl⟩ := (Recon.mem_changes_run _ _ _ obs ch).1 hch
    rw [changeFor_before_state]
    exact nextState_ne_of_isChange hchange
  · intro ch hch
    obtain ⟨pre, o, post, rfl, hwin, -, rfl⟩ := (Recon.mem_changes_run _ _ _ obs ch).1 hch
    simp only [RouteObservation.inWindow, RouteObservation.opens, Bool.and_eq_true,
      decide_eq_true_eq] at hwin
    refine ⟨o, by simp, rfl, rfl, hwin.1.2, hwin.2, ?_, ?_⟩
    · by_cases hle : o.timestamp ≤ eventEnd <;> simp [changeFor, phaseOf, hle]
    · by_cases hle : o.timestamp ≤ eventEnd
      · simp [changeFor, phaseOf, hle]
      · simp [changeFor, phaseOf, hle, not_le.1 hle]
  · intro ch hch
    rw [Recon.mem_changes_eventBaseline _ _ _ obs ch hch, hbase, if_pos]
    · rfl
    · obtain ⟨pre, o, post, rfl, hwin, -⟩ := (Recon.mem_changes_run _ _ _ obs ch).1 hch
      simp [(Bool.and_eq_true_iff.1 hwin).1]

end Chain

/-! ## The chain on a short run, and the two readings of "baseline" that fail -/

/-- Seed, a warm-up withdrawal of another instance, then an announcement and a withdrawal. -/
def chainSample : List RouteObservation :=
  [.plain "rrc00" 0 .ribEntry 0 none [1, 2], .plain "rrc00" 0 .withdrawal 5 (some 1),
    .plain "rrc00" 1 .announcement 10 none [1, 3], .plain "rrc00" 2 .withdrawal 30]

theorem chainSample_seedThenUpdates : SeedThenUpdates chainSample :=
  ⟨chainSample.take 1, chainSample.drop 1, rfl, by decide, by decide, by decide⟩

theorem reconstructRoutes_chain_sample :
    (reconstructRoutes 10 20 30 chainSample).2.length = 2 ∧
    ChainFrom 10 20 30 (reconstructRoutes 10 20 30 (warmupPart 10 chainSample)).1.states chainSample
      (reconstructRoutes 10 20 30 chainSample).1 (reconstructRoutes 10 20 30 chainSample).2 :=
  ⟨by decide, (reconstructRoutes_chain 10 20 30 chainSample_seedThenUpdates).1⟩

/-- A RIB entry alone: no update of the event period, so the frozen map stays empty. -/
def quietSample : List RouteObservation := [.plain "rrc00" 0 .ribEntry 0 none [1, 2]]

/-- A RIB entry dated inside the event window, then a withdrawal. -/
def lateRibSample : List RouteObservation :=
  [.plain "rrc00" 0 .ribEntry 12 none [1, 2], .plain "rrc00" 1 .withdrawal 15]

/-- Read literally, "the frozen event baseline" is empty when nothing opens the event period
while the store is not, and a change's baseline is not the state after the observations before
`event_start`. -/
theorem frozen_map_lazy_and_late_rib_in_baseline :
    (SeedThenUpdates quietSample ∧
      replayChanges (fun k => ((reconstructRoutes 10 20 30 quietSample).1.eventBaseline k).bind (·.state))
        (reconstructRoutes 10 20 30 quietSample).2 ≠ (reconstructRoutes 10 20 30 quietSample).1.states) ∧
    (SeedThenUpdates lateRibSample ∧
      ¬ ∀ ch ∈ (reconstructRoutes 10 20 30 lateRibSample).2, ch.eventBaseline = Recon.freeze
        (reconstructRoutes 10 20 30 (lateRibSample.filter (·.timestamp < 10))).1.states ch.key) := by
  refine ⟨⟨⟨quietSample, [], rfl, by decide, by decide, by decide⟩, ?_⟩,
    ⟨lateRibSample.take 1, lateRibSample.drop 1, rfl, by decide, by decide, by decide⟩, by decide⟩
  intro h
  have := congrFun h (observationKey (.plain "rrc00" 0 .ribEntry 0 none [1, 2]))
  revert this
  decide

end Inim
