import Inim.Routes.Run
import Inim.Tokenize
/-!
# The evidence of the states a change carries (`routes.rs:57-121`)

An `EvidencedRouteState` is "the state itself plus the source observation that established it"
(`route.rs:338`). The store keeps states without their evidence, so at a change `apply_update`
has none for the state before, and gives it that of the observation that replaces it; the frozen
baseline gets a synthetic reference.

`established` is what the store would have to keep: for each key, the observation whose
attributes it holds. `states_established` ties it to the store. `evidenceEstablished_iff` says
when the evidence is right: only where the two references coincide, so with observations told
apart by their references, in no run that changes or withdraws a route
(`evidenceEstablished_iff_first_announcements`).
-/

namespace Inim

/-- The observation that established what a key holds, after `o`, where `cur` did before. -/
def nextEstablished (cur : Option RouteObservation) (o : RouteObservation) : Option RouteObservation :=
  match o.kind with
  | .ribEntry => some o
  | .announcement =>
    -- a duplicate is not written: the earlier observation still is the one that counts
    if cur.map observationAttributes = some (observationAttributes o) then cur else some o
  | .withdrawal => none
  | .sessionBoundary => cur

section Established
variable (eventStart eventEnd cooldownEnd : DateTime)

/-- For each key, the observation that established the route held after `l`. -/
def established (l : List RouteObservation) : RouteKey → Option RouteObservation :=
  l.foldl (fun t o =>
    if o.dropped eventStart cooldownEnd then t
    else Function.update t (observationKey o) (nextEstablished (t (observationKey o)) o)) fun _ => none

theorem established_concat (l : List RouteObservation) (o : RouteObservation) :
    established eventStart cooldownEnd (l ++ [o]) =
      if o.dropped eventStart cooldownEnd then established eventStart cooldownEnd l
      else Function.update (established eventStart cooldownEnd l) (observationKey o)
        (nextEstablished (established eventStart cooldownEnd l (observationKey o)) o) := by
  simp [established]

theorem nextState_map (cur : Option RouteObservation) (o : RouteObservation) :
    nextState (cur.map observationToState) o = (nextEstablished cur o).map observationToState := by
  have hattr : (cur.map observationToState).map (·.attributes) = cur.map observationAttributes := by
    cases cur <;> rfl
  cases hk : o.kind with
  | ribEntry => simp [nextState, nextEstablished, hk]
  | withdrawal => simp [nextState, nextEstablished, hk]
  | sessionBoundary => simp [nextState, nextEstablished, hk]
  | announcement =>
    simp only [nextState, nextEstablished, hk, hattr]
    split <;> rfl

/-- The store holds the states of the establishing observations, without the observations. -/
theorem states_established (l : List RouteObservation) (k : RouteKey) :
    (Recon.run eventStart eventEnd cooldownEnd l).store.states k =
      (established eventStart cooldownEnd l k).map observationToState := by
  induction l using List.reverseRecOn generalizing k with
  | nil => rfl
  | append_singleton l o ih =>
    rw [Recon.run_concat, Recon.step_states, established_concat, ih]
    split
    · exact ih k
    · by_cases hk : k = observationKey o
      · subst hk
        simp [nextState_map]
      · rw [Function.update_of_ne hk, Function.update_of_ne hk, ih]

/-- The establishing observation is one of those seen. -/
theorem mem_of_established {l : List RouteObservation} {k : RouteKey} {b : RouteObservation}
    (h : established eventStart cooldownEnd l k = some b) : b ∈ l := by
  induction l using List.reverseRecOn generalizing k with
  | nil => cases h
  | append_singleton l o ih =>
    rw [List.mem_append, List.mem_singleton]
    rw [established_concat] at h
    split at h
    · exact Or.inl (ih h)
    · by_cases hk : k = observationKey o
      · rw [hk, Function.update_self] at h
        unfold nextEstablished at h
        split at h
        · exact Or.inr (Option.some.inj h).symm
        · split at h
          · exact Or.inl (ih h)
          · exact Or.inr (Option.some.inj h).symm
        · cases h
        · exact Or.inl (ih h)
      · rw [Function.update_of_ne hk] at h
        exact Or.inl (ih h)

/-! ## What a change carries -/

/-- `e` is carried with the reference of the observation `b` that established it. -/
def CarriesEvidenceOf (e : Option EvidencedRouteState) (b : Option RouteObservation) : Prop :=
  ∀ s, e = some s → ∃ o, b = some o ∧ s.evidence = .fromObservation o

/-- The part of a run in front of its baseline freeze. -/
def beforeFreeze (l : List RouteObservation) : List RouteObservation :=
  l.takeWhile fun o => !o.opens eventStart

/-- Every emitted change and its transition carry, with the state before and with the baseline,
the evidence of the observation that established it. -/
def EvidenceEstablished (l : List RouteObservation) : Prop :=
  ∀ pre o post, l = pre ++ o :: post → ∀ ch,
    (reconstructRoutes eventStart eventEnd cooldownEnd (pre ++ [o])).2 =
      (reconstructRoutes eventStart eventEnd cooldownEnd pre).2 ++ [ch] →
    CarriesEvidenceOf ch.before (established eventStart cooldownEnd pre ch.key) ∧
    CarriesEvidenceOf (transitionOf ch).from_ (established eventStart cooldownEnd pre ch.key) ∧
    CarriesEvidenceOf ch.eventBaseline
      (established eventStart cooldownEnd (beforeFreeze eventStart l) ch.key) ∧
    CarriesEvidenceOf (transitionOf ch).eventBaseline
      (established eventStart cooldownEnd (beforeFreeze eventStart l) ch.key)

/-- After `pre`, `o` emits a change. -/
def EmitsChange (pre : List RouteObservation) (o : RouteObservation) : Prop :=
  o.inWindow eventStart cooldownEnd = true ∧
    isChange ((established eventStart cooldownEnd pre (observationKey o)).map observationToState) o = true

/-- The reference of what established a route coincides with what the change carries instead:
the trigger's for the state before, the synthetic one for the baseline. -/
def ReferencesCoincide (l : List RouteObservation) : Prop :=
  ∀ pre o post, l = pre ++ o :: post → EmitsChange eventStart cooldownEnd pre o →
    (∀ b, established eventStart cooldownEnd pre (observationKey o) = some b →
      EvidenceRef.fromObservation o = EvidenceRef.fromObservation b) ∧
    ∀ b, established eventStart cooldownEnd (beforeFreeze eventStart l) (observationKey o) = some b →
      RouteStateStore.freezeEvidence = EvidenceRef.fromObservation b

theorem carriesEvidenceOf_map {b : Option RouteObservation} {ev : EvidenceRef} :
    CarriesEvidenceOf ((b.map observationToState).map fun st => .present st ev) b ↔
      ∀ o, b = some o → ev = .fromObservation o := by
  cases b <;> simp [CarriesEvidenceOf, EvidencedRouteState.present]

/-- The changes of a run, one input position at a time. -/
theorem changes_concat_iff (pre : List RouteObservation) (o : RouteObservation) (ch : StateChange) :
    (reconstructRoutes eventStart eventEnd cooldownEnd (pre ++ [o])).2 =
      (reconstructRoutes eventStart eventEnd cooldownEnd pre).2 ++ [ch] ↔
    EmitsChange eventStart cooldownEnd pre o ∧
      ch = changeFor ((established eventStart cooldownEnd pre (observationKey o)).map observationToState)
        ((Recon.run eventStart eventEnd cooldownEnd (pre ++ [o])).store.eventBaseline (observationKey o))
        ((Recon.run eventStart eventEnd cooldownEnd pre).store.continuityOf o.collector)
        (phaseOf eventEnd o) o := by
  simp only [reconstructRoutes]
  rw [Recon.run_concat, Recon.step_changes, ← Recon.run_concat, states_established,
    List.append_cancel_left_eq, EmitsChange]
  split
  · next h => simp [h, eq_comm]
  · next h => simp [h]

/-- A change of a run carries the states frozen in front of its first update. -/
theorem eventBaseline_of_change {l pre post : List RouteObservation} {o : RouteObservation}
    (hl : l = pre ++ o :: post) (he : EmitsChange eventStart cooldownEnd pre o) :
    (Recon.run eventStart eventEnd cooldownEnd (pre ++ [o])).store.eventBaseline (observationKey o) =
      ((established eventStart cooldownEnd (beforeFreeze eventStart l) (observationKey o)).map
        observationToState).map fun st => .present st RouteStateStore.freezeEvidence := by
  have hopens : o.opens eventStart = true := (Bool.and_eq_true_iff.1 he.1).1
  have hstop : beforeFreeze eventStart l = beforeFreeze eventStart (pre ++ [o]) := by
    simp only [beforeFreeze, hl, List.takeWhile_append, List.takeWhile_cons, hopens]
    simp
  rw [Recon.eventBaseline_run, if_pos (by simp [hopens]), hstop, Recon.freeze, states_established]
  rfl

/-- **The evidence is right iff the references coincide**, in every run. -/
theorem evidenceEstablished_iff (l : List RouteObservation) :
    EvidenceEstablished eventStart eventEnd cooldownEnd l ↔
      ReferencesCoincide eventStart cooldownEnd l := by
  have hbefore (cur : Option RouteState) (bl : Option EvidencedRouteState) (c : Continuity)
      (p : AnalysisPhase) (o : RouteObservation) : (changeFor cur bl c p o).before =
        cur.map fun st => .present st (.fromObservation o) := rfl
  constructor
  · intro h pre o post hl he
    have hch := (changes_concat_iff eventStart eventEnd cooldownEnd pre o _).2 ⟨he, rfl⟩
    obtain ⟨hb, -, hbl, -⟩ := h pre o post hl _ hch
    refine ⟨carriesEvidenceOf_map.1 hb, ?_⟩
    change CarriesEvidenceOf ((Recon.run eventStart eventEnd cooldownEnd
      (pre ++ [o])).store.eventBaseline (observationKey o)) _ at hbl
    rw [eventBaseline_of_change eventStart eventEnd cooldownEnd hl he] at hbl
    exact carriesEvidenceOf_map.1 hbl
  · intro h pre o post hl ch hch
    obtain ⟨he, rfl⟩ := (changes_concat_iff eventStart eventEnd cooldownEnd pre o ch).1 hch
    obtain ⟨hb, hbl⟩ := h pre o post hl he
    have hfrom := carriesEvidenceOf_map.2 hb
    have hbase := carriesEvidenceOf_map.2 hbl
    rw [← eventBaseline_of_change eventStart eventEnd cooldownEnd hl he] at hbase
    exact ⟨hfrom, hfrom, hbase, hbase⟩

/-- Where the observations are told apart by their references, the evidence is right iff every
change is the first thing its key holds. -/
theorem evidenceEstablished_iff_first_announcements {l : List RouteObservation}
    (hrefs : l.Pairwise fun a b => EvidenceRef.fromObservation a ≠ .fromObservation b)
    (hreal : ∀ o ∈ l, RouteStateStore.freezeEvidence ≠ .fromObservation o) :
    EvidenceEstablished eventStart eventEnd cooldownEnd l ↔
      ∀ ch ∈ (reconstructRoutes eventStart eventEnd cooldownEnd l).2,
        ch.before = none ∧ ch.eventBaseline = none := by
  rw [evidenceEstablished_iff]
  constructor
  · intro h ch hch
    obtain ⟨pre, o, post, hl, hwin, hchange, rfl⟩ := (Recon.mem_changes_run _ _ _ l ch).1 hch
    rw [states_established] at hchange
    have he : EmitsChange eventStart cooldownEnd pre o := ⟨hwin, hchange⟩
    obtain ⟨hb, hbl⟩ := h pre o post hl he
    constructor
    · rw [states_established]
      cases hest : established eventStart cooldownEnd pre (observationKey o) with
      | none => rfl
      | some b =>
        rw [hl] at hrefs
        have hne := (List.pairwise_append.1 hrefs).2.2 b
          (mem_of_established eventStart cooldownEnd hest) o (by simp)
        exact absurd (hb b hest).symm hne
    · change (Recon.run eventStart eventEnd cooldownEnd (pre ++ [o])).store.eventBaseline _ = none
      rw [eventBaseline_of_change eventStart eventEnd cooldownEnd hl he]
      cases hest : established eventStart cooldownEnd (beforeFreeze eventStart l) (observationKey o) with
      | none => rfl
      | some b =>
        have hmem := (List.takeWhile_sublist _).subset (mem_of_established eventStart cooldownEnd hest)
        exact absurd (hbl b hest) (hreal b hmem)
  · intro h pre o post hl he
    have hch := (Recon.mem_changes_run eventStart eventEnd cooldownEnd l _).2
      ⟨pre, o, post, hl, he.1, by rw [states_established]; exact he.2, rfl⟩
    obtain ⟨hb, hbl⟩ := h _ hch
    constructor
    · intro b hest
      rw [states_established, hest] at hb
      cases hb
    · intro b hest
      change (Recon.run eventStart eventEnd cooldownEnd (pre ++ [o])).store.eventBaseline _ = none at hbl
      rw [eventBaseline_of_change eventStart eventEnd cooldownEnd hl he, hest] at hbl
      cases hbl

end Established

/-- A route of the table and an announcement of another path. -/
def replacedSample : List RouteObservation :=
  [.plain "rrc00" 0 .ribEntry 0 none [1, 2], .plain "rrc00" 1 .announcement 15 none [1, 3]]

/-- **Bug**: the state before, held since the RIB, is carried with the announcement's evidence. -/
theorem before_carries_trigger_evidence :
    ¬ EvidenceEstablished 10 20 30 replacedSample ∧
    (reconstructRoutes 10 20 30 replacedSample).2.map (fun ch => ch.before.map (·.evidence)) =
      [some (.fromObservation (.plain "rrc00" 1 .announcement 15 none [1, 3]))] := by
  refine ⟨fun h => ?_, by decide⟩
  have href := ((evidenceEstablished_iff 10 20 30 replacedSample).1 h (replacedSample.take 1)
    (.plain "rrc00" 1 .announcement 15 none [1, 3]) [] rfl ⟨by decide, by decide⟩).1
    (.plain "rrc00" 0 .ribEntry 0 none [1, 2]) (by decide)
  revert href
  decide

end Inim
