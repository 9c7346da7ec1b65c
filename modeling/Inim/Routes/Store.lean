import Inim.Domain.Route
/-!
# Route state reconstruction (`routes.rs`)

| here | there |
| --- | --- |
| `RouteStateStore`, `applyUpdate` | `RouteStateStore`, `apply_update` (`routes.rs:17`, `:38-108`) |
| `freezeEventBaseline`            | `freeze_event_baseline` (`routes.rs:110-121`) |
| `Recon.step`, `reconstructRoutes` | the loop of `reconstruct_routes` (`routes.rs:143-194`) |
| `observationKey`, `observationToState` | `routes.rs:196`, `:200` |

The three `HashMap`s are only looked up, inserted into, removed from and mapped over, never
iterated in an order that shows, so they are functions to `Option`.

What one pass of the loop does is said once, by `step_states`, `step_frozen`, `step_baseline`,
`step_changes` and `step_continuity`; nothing after this module unfolds `Recon.step`.
-/

namespace Inim

structure RouteStateStore where
  states : RouteKey → Option RouteState
  eventBaseline : RouteKey → Option EvidencedRouteState
  continuity : String → Option Continuity

def RouteStateStore.new : RouteStateStore := ⟨fun _ => none, fun _ => none, fun _ => none⟩

def observationKey (obs : RouteObservation) : RouteKey :=
  ⟨obs.collector, obs.peerIp, obs.pfx, obs.pathId⟩

/-- The attributes part of `observation_to_state`; `None` counts as an empty path. -/
def observationAttributes (obs : RouteObservation) : RouteAttributes :=
  match obs.attributes with
  | some a => ⟨a.asPath, a.originAsns, a.nextHop, a.origin, a.med, a.localPref, a.atomicAggregate,
      a.communities⟩
  | none => .fromAsPath []

def observationToState (obs : RouteObservation) : RouteState where
  pfx := obs.pfx
  attributes := observationAttributes obs
  timestamp := obs.timestamp
  observer := obs.collector ++ ":" ++ obs.peerIp.display
  pathId := obs.pathId

namespace RouteStateStore

def seedFromRib (s : RouteStateStore) (obs : RouteObservation) : RouteStateStore :=
  { s with states := Function.update s.states (observationKey obs) (some (observationToState obs)) }

/-- `self.continuity.get(&obs.collector.0).copied().unwrap_or(Known)`. -/
def continuityOf (s : RouteStateStore) (collector : String) : Continuity :=
  (s.continuity collector).getD .known

def applyUpdate (s : RouteStateStore) (obs : RouteObservation) (phase : AnalysisPhase) :
    RouteStateStore × Option StateChange :=
  let key := observationKey obs
  let evidence := EvidenceRef.fromObservation obs
  match obs.kind with
  | .ribEntry => (s.seedFromRib obs, none)
  | .sessionBoundary =>
    ({ s with continuity := Function.update s.continuity obs.collector (some .unknown) }, none)
  | .announcement =>
    let newState := observationToState obs
    let oldState := s.states key
    -- an announcement with the attributes already held is a duplicate: nothing is written
    if oldState.map (·.attributes) = some newState.attributes then (s, none)
    else
      ({ s with states := Function.update s.states key (some newState) },
        some {
          key := key
          eventBaseline := s.eventBaseline key
          before := oldState.map fun st => .present st evidence
          after := .present newState evidence
          triggering := evidence
          continuity := s.continuityOf obs.collector
          phase := phase })
  | .withdrawal =>
    ({ s with states := Function.update s.states key none },
      (s.states key).map fun from_ => {
        key := key
        eventBaseline := s.eventBaseline key
        before := some (.present from_ evidence)
        after := .absent evidence
        triggering := evidence
        continuity := s.continuityOf obs.collector
        phase := phase })

/-- The evidence `freeze_event_baseline` attaches to every frozen state. -/
def freezeEvidence : EvidenceRef := .synthetic 0 "baseline-freeze" "0000"

def freezeEventBaseline (s : RouteStateStore) : RouteStateStore :=
  { s with eventBaseline := fun k => (s.states k).map fun st => .present st freezeEvidence }

end RouteStateStore

/-- The locals of the `reconstruct_routes` loop. -/
structure Recon where
  store : RouteStateStore
  changes : List StateChange
  baselineFrozen : Bool

def Recon.init : Recon := ⟨.new, [], false⟩

section Loop
variable (eventStart eventEnd cooldownEnd : DateTime)

def Recon.step (r : Recon) (obs : RouteObservation) : Recon :=
  match obs.kind with
  | .ribEntry => { r with store := r.store.seedFromRib obs }
  | .sessionBoundary => { r with store := (r.store.applyUpdate obs .event).1 }
  | _ =>
    if obs.timestamp < eventStart then { r with store := (r.store.applyUpdate obs .warmup).1 }
    else
      -- the baseline is frozen once, at the first update of the event period, whoever sent it
      let store := if r.baselineFrozen then r.store else r.store.freezeEventBaseline
      if cooldownEnd < obs.timestamp then { r with store := store, baselineFrozen := true }
      else
        let phase := if obs.timestamp ≤ eventEnd then .event else .cooldown
        let (store, change) := store.applyUpdate obs phase
        ⟨store, r.changes ++ change.toList, true⟩

def Recon.run (observations : List RouteObservation) : Recon :=
  observations.foldl (Recon.step eventStart eventEnd cooldownEnd) .init

def reconstructRoutes (observations : List RouteObservation) :
    RouteStateStore × List StateChange :=
  let r := Recon.run eventStart eventEnd cooldownEnd observations
  (r.store, r.changes)

end Loop

/-! ## What one observation does -/

def RouteObservation.isUpdate (o : RouteObservation) : Bool :=
  o.kind == .announcement || o.kind == .withdrawal

/-- `o` triggers the baseline freeze if none happened yet: an update of the event period or later. -/
def RouteObservation.opens (eventStart : DateTime) (o : RouteObservation) : Bool :=
  o.isUpdate && decide (eventStart ≤ o.timestamp)

/-- `o` may emit a change. -/
def RouteObservation.inWindow (eventStart cooldownEnd : DateTime) (o : RouteObservation) : Bool :=
  o.opens eventStart && decide (o.timestamp ≤ cooldownEnd)

/-- `o` is ignored: an update after the cooldown. -/
def RouteObservation.dropped (eventStart cooldownEnd : DateTime) (o : RouteObservation) : Bool :=
  o.opens eventStart && decide (cooldownEnd < o.timestamp)

/-- What `o` leaves at its own key, where `cur` was. -/
def nextState (cur : Option RouteState) (o : RouteObservation) : Option RouteState :=
  match o.kind with
  | .ribEntry => some (observationToState o)
  | .announcement =>
    if cur.map (·.attributes) = some (observationAttributes o) then cur
    else some (observationToState o)
  | .withdrawal => none
  | .sessionBoundary => cur

/-- Whether the update `o` is a change where `cur` is held: an announcement of other attributes,
a withdrawal of something held. -/
def isChange (cur : Option RouteState) (o : RouteObservation) : Bool :=
  match o.kind with
  | .announcement => decide (cur.map (·.attributes) ≠ some (observationAttributes o))
  | .withdrawal => cur.isSome
  | _ => false

def phaseOf (eventEnd : DateTime) (o : RouteObservation) : AnalysisPhase :=
  if o.timestamp ≤ eventEnd then .event else .cooldown

/-- The change emitted for `o`. -/
def changeFor (cur : Option RouteState) (baseline : Option EvidencedRouteState)
    (continuity : Continuity) (phase : AnalysisPhase) (o : RouteObservation) : StateChange where
  key := observationKey o
  eventBaseline := baseline
  before := cur.map fun st => .present st (.fromObservation o)
  after := ⟨nextState cur o, .fromObservation o⟩
  triggering := .fromObservation o
  continuity := continuity
  phase := phase

@[simp] theorem changeFor_before_state (cur : Option RouteState)
    (baseline : Option EvidencedRouteState) (continuity : Continuity) (phase : AnalysisPhase)
    (o : RouteObservation) :
    (changeFor cur baseline continuity phase o).before.bind (·.state) = cur := by
  cases cur <;> rfl

namespace RouteStateStore

variable (s : RouteStateStore) (o : RouteObservation) (phase : AnalysisPhase)

theorem applyUpdate_states : (s.applyUpdate o phase).1.states =
    Function.update s.states (observationKey o) (nextState (s.states (observationKey o)) o) := by
  cases h : o.kind with
  | ribEntry => simp [applyUpdate, nextState, h, seedFromRib]
  | withdrawal => simp [applyUpdate, nextState, h]
  | sessionBoundary => simp [applyUpdate, nextState, h]
  | announcement =>
    have hattr : (observationToState o).attributes = observationAttributes o := rfl
    simp only [applyUpdate, nextState, h, hattr]
    split <;> simp

@[simp] theorem applyUpdate_eventBaseline :
    (s.applyUpdate o phase).1.eventBaseline = s.eventBaseline := by
  cases h : o.kind <;> simp only [applyUpdate, h, seedFromRib]
  split <;> rfl

theorem applyUpdate_continuity : (s.applyUpdate o phase).1.continuity =
    if o.kind = .sessionBoundary then Function.update s.continuity o.collector (some .unknown)
    else s.continuity := by
  cases h : o.kind <;> simp only [applyUpdate, h, seedFromRib, reduceCtorEq, if_true, if_false]
  split <;> rfl

theorem applyUpdate_change : (s.applyUpdate o phase).2 =
    if isChange (s.states (observationKey o)) o then
      some (changeFor (s.states (observationKey o)) (s.eventBaseline (observationKey o))
        (s.continuityOf o.collector) phase o)
    else none := by
  cases h : o.kind with
  | ribEntry => simp [applyUpdate, isChange, h]
  | sessionBoundary => simp [applyUpdate, isChange, h]
  | withdrawal =>
    cases hs : s.states (observationKey o) <;>
      simp [applyUpdate, isChange, changeFor, nextState, h, hs, EvidencedRouteState.absent]
  | announcement =>
    have hattr : (observationToState o).attributes = observationAttributes o := rfl
    simp only [applyUpdate, isChange, changeFor, nextState, h, hattr]
    split <;> simp_all [EvidencedRouteState.present]

end RouteStateStore

namespace Recon

variable (eventStart eventEnd cooldownEnd : DateTime) (r : Recon) (o : RouteObservation)

/-- The frozen map: every held state, under the freeze's own evidence. -/
def freeze (states : RouteKey → Option RouteState) (k : RouteKey) : Option EvidencedRouteState :=
  (states k).map fun st => .present st RouteStateStore.freezeEvidence

/-- The store an update of the event period is applied to. -/
def frozenStore : RouteStateStore :=
  if r.baselineFrozen then r.store else r.store.freezeEventBaseline

@[simp] theorem frozenStore_states : r.frozenStore.states = r.store.states := by
  unfold frozenStore; split <;> rfl

@[simp] theorem frozenStore_continuity : r.frozenStore.continuity = r.store.continuity := by
  unfold frozenStore; split <;> rfl

theorem frozenStore_eventBaseline : r.frozenStore.eventBaseline =
    if r.baselineFrozen then r.store.eventBaseline else freeze r.store.states := by
  unfold frozenStore; split <;> rfl

/-- The three things a pass of the loop can do. -/
theorem step_cases :
    (o.opens eventStart = false ∧ ∃ phase, r.step eventStart eventEnd cooldownEnd o =
      { r with store := (r.store.applyUpdate o phase).1 }) ∨
    (o.opens eventStart = true ∧ cooldownEnd < o.timestamp ∧
      r.step eventStart eventEnd cooldownEnd o =
        { r with store := r.frozenStore, baselineFrozen := true }) ∨
    (o.opens eventStart = true ∧ o.timestamp ≤ cooldownEnd ∧
      r.step eventStart eventEnd cooldownEnd o =
        ⟨(r.frozenStore.applyUpdate o (phaseOf eventEnd o)).1,
          r.changes ++ (r.frozenStore.applyUpdate o (phaseOf eventEnd o)).2.toList, true⟩) := by
  cases hu : o.isUpdate
  · refine Or.inl ⟨by simp [RouteObservation.opens, hu], .event, ?_⟩
    cases hk : o.kind <;>
      simp_all [RouteObservation.isUpdate, step, RouteStateStore.applyUpdate]
  · have hstep : r.step eventStart eventEnd cooldownEnd o =
        if o.timestamp < eventStart then { r with store := (r.store.applyUpdate o .warmup).1 }
        else if cooldownEnd < o.timestamp then
          { r with store := r.frozenStore, baselineFrozen := true }
        else ⟨(r.frozenStore.applyUpdate o (phaseOf eventEnd o)).1,
          r.changes ++ (r.frozenStore.applyUpdate o (phaseOf eventEnd o)).2.toList, true⟩ := by
      cases hk : o.kind <;>
        simp_all [RouteObservation.isUpdate, step, phaseOf, frozenStore]
    by_cases hw : o.timestamp < eventStart
    · exact Or.inl ⟨by simp [RouteObservation.opens, hw], .warmup, by rw [hstep, if_pos hw]⟩
    · have ho : o.opens eventStart = true := by
        simpa [RouteObservation.opens, hu] using hw
      by_cases hl : cooldownEnd < o.timestamp
      · exact Or.inr (Or.inl ⟨ho, hl, by rw [hstep, if_neg hw, if_pos hl]⟩)
      · exact Or.inr (Or.inr ⟨ho, not_lt.1 hl, by rw [hstep, if_neg hw, if_neg hl]⟩)

theorem step_states : (r.step eventStart eventEnd cooldownEnd o).store.states =
    if o.dropped eventStart cooldownEnd then r.store.states
    else Function.update r.store.states (observationKey o)
      (nextState (r.store.states (observationKey o)) o) := by
  unfold RouteObservation.dropped
  obtain ⟨ho, phase, h⟩ | ⟨ho, hc, h⟩ | ⟨ho, hc, h⟩ := step_cases eventStart eventEnd cooldownEnd r o
  · simp [h, ho, RouteStateStore.applyUpdate_states]
  · simp [h, ho, hc]
  · simp [h, ho, hc, RouteStateStore.applyUpdate_states]

theorem step_frozen : (r.step eventStart eventEnd cooldownEnd o).baselineFrozen =
    (r.baselineFrozen || o.opens eventStart) := by
  obtain ⟨ho, phase, h⟩ | ⟨ho, hc, h⟩ | ⟨ho, hc, h⟩ := step_cases eventStart eventEnd cooldownEnd r o
    <;> simp [h, ho]

theorem step_baseline : (r.step eventStart eventEnd cooldownEnd o).store.eventBaseline =
    if !r.baselineFrozen && o.opens eventStart then freeze r.store.states
    else r.store.eventBaseline := by
  obtain ⟨ho, phase, h⟩ | ⟨ho, hc, h⟩ | ⟨ho, hc, h⟩ := step_cases eventStart eventEnd cooldownEnd r o
  · simp [h, ho]
  · cases hf : r.baselineFrozen <;> simp [h, ho, hf, frozenStore_eventBaseline]
  · cases hf : r.baselineFrozen <;> simp [h, ho, hf, frozenStore_eventBaseline]

theorem step_continuity : (r.step eventStart eventEnd cooldownEnd o).store.continuity =
    if o.kind = .sessionBoundary then
      Function.update r.store.continuity o.collector (some .unknown)
    else r.store.continuity := by
  have hkind (ho : o.opens eventStart = true) : o.kind ≠ .sessionBoundary := by
    intro hk
    simp [RouteObservation.opens, RouteObservation.isUpdate, hk] at ho
  obtain ⟨ho, phase, h⟩ | ⟨ho, hc, h⟩ | ⟨ho, hc, h⟩ := step_cases eventStart eventEnd cooldownEnd r o
  · simp [h, RouteStateStore.applyUpdate_continuity]
  · simp [h, hkind ho]
  · simp [h, hkind ho, RouteStateStore.applyUpdate_continuity]

/-- A change carries the baseline as it stands after the step: the freeze comes first. -/
theorem step_changes : (r.step eventStart eventEnd cooldownEnd o).changes = r.changes ++
    if o.inWindow eventStart cooldownEnd ∧ isChange (r.store.states (observationKey o)) o then
      [changeFor (r.store.states (observationKey o))
        ((r.step eventStart eventEnd cooldownEnd o).store.eventBaseline (observationKey o))
        (r.store.continuityOf o.collector) (phaseOf eventEnd o) o]
    else [] := by
  unfold RouteObservation.inWindow
  obtain ⟨ho, phase, h⟩ | ⟨ho, hc, h⟩ | ⟨ho, hc, h⟩ := step_cases eventStart eventEnd cooldownEnd r o
  · simp [h, ho]
  · simp [h, ho, not_le.2 hc]
  · have hcont : r.frozenStore.continuityOf o.collector = r.store.continuityOf o.collector := by
      simp [RouteStateStore.continuityOf]
    simp only [h, ho, hc, RouteStateStore.applyUpdate_change, frozenStore_states, hcont,
      RouteStateStore.applyUpdate_eventBaseline, decide_true, Bool.and_self, true_and]
    split <;> rfl

end Recon

end Inim
