import Inim.Lifecycle.Audit
import Inim.Lifecycle.Cooldown
import Inim.Workbench.Artifact
import Inim.Workbench.Episodes
/-!
# Where an episode ends (`catalog/workbench.rs:1043-1148`, `:1299-1340`)

"Changed streams returned to their baseline path by window end", "withdrawn streams returned to
visibility by window end", "withdrawn streams were still absent at the analysis-window end" are what
the end states say; a `RestoredAt` says that an episode that was still changed was restored in the
cooldown.

A changed stream counts as restored when its lifecycle has a restoration time. That is the first
time, in the event window or in the cooldown, at which the stream came back from an absence or a
path of it returned to the transit; what follows is not looked at. The cooldown is searched for the
latest event of the strongest kind, by the texts of the times; what follows is not looked at either.

| here | there |
| --- | --- |
| `LifecycleRun`           | an analysis, its lifecycles and the rows they are imported as |
| `inCooldown`, `deriveCooldownOutcome` | `derive_cooldown_outcome` (`:1086-1148`) |
| `EndStateTruthful`, `RestorationLasts` | what the end state and a `RestoredAt` promise |

`episodesTruthful_iff` is the exact condition.
-/

namespace Inim

open Std Inim.Lib

/-! ## The cooldown -/

/-- The transitions of the episode's prefixes after the window, by their texts. -/
def inCooldown (observerSession : String) (prefixes : List String)
    (transitions : List RunTransitionRecord) (windowEnd analysisEnd : String) :
    List RunTransitionRecord :=
  transitions.filter fun t => t.collector = (sessionKeyOf observerSession).collector ∧
    t.peerIp = (sessionKeyOf observerSession).peerIp ∧ t.pfx ∈ prefixes ∧
    windowEnd < t.occurredUtc ∧ t.occurredUtc ≤ analysisEnd

/-- `.filter(kind).map(occurred_utc).max()`. -/
def latestOf (kind : String) (l : List RunTransitionRecord) : Option String :=
  ((l.filter (·.kind = kind)).map (·.occurredUtc)).max?

def deriveCooldownOutcome (ep : ObserverEpisode) (transitions : List RunTransitionRecord)
    (windowEnd analysisEnd : String) : CooldownOutcome :=
  if ep.endState = .baselineRestored ∨ ep.endState = .visibilityRestored then .none
  else if ep.effectKind = .noRouteStateChange then .none
  else
    let l := inCooldown ep.observerSession (ep.streams.map (·.pfx)) transitions windowEnd analysisEnd
    if l.isEmpty then .noRestorationBeforeAnalysisEnd analysisEnd
    else match latestOf "ReturnToBaseline" l with
      | some t => .restoredAt t
      | none => match latestOf "Announcement" l with
        | some t => .restoredAt t
        | none => .stillChangingBeforeAnalysisEnd ((l.map (·.occurredUtc)).max?.getD analysisEnd)

theorem deriveCooldownOutcome_restoredAt {ep : ObserverEpisode}
    {transitions : List RunTransitionRecord} {windowEnd analysisEnd t : String} :
    deriveCooldownOutcome ep transitions windowEnd analysisEnd = .restoredAt t ↔
      ¬ (ep.endState = .baselineRestored ∨ ep.endState = .visibilityRestored) ∧
      ep.effectKind ≠ .noRouteStateChange ∧
      (latestOf "ReturnToBaseline" (inCooldown ep.observerSession (ep.streams.map (·.pfx)) transitions
          windowEnd analysisEnd) <|>
        latestOf "Announcement" (inCooldown ep.observerSession (ep.streams.map (·.pfx)) transitions
          windowEnd analysisEnd)) = some t := by
  unfold deriveCooldownOutcome
  by_cases hend : ep.endState = .baselineRestored ∨ ep.endState = .visibilityRestored
  · simp [hend]
  by_cases hkind : ep.effectKind = .noRouteStateChange
  · simp [hkind]
  simp only [hend, hkind, if_false, not_false_eq_true, ne_eq, true_and]
  generalize inCooldown ep.observerSession (ep.streams.map (·.pfx)) transitions windowEnd
    analysisEnd = l
  by_cases hl : l.isEmpty = true
  · simp [List.isEmpty_iff.1 hl, latestOf]
  · simp only [hl, Bool.false_eq_true, if_false]
    cases latestOf "ReturnToBaseline" l with
    | some t' => simp
    | none => cases latestOf "Announcement" l <;> simp

/-- The transitions that are taken for restorations: the returns to the baseline, if there are any,
and else the announcements. -/
def restoringTransitions (l : List RunTransitionRecord) : List RunTransitionRecord :=
  if l.any (·.kind = "ReturnToBaseline") then l.filter (·.kind = "ReturnToBaseline")
  else l.filter (·.kind = "Announcement")

theorem latestOf_eq_none {kind : String} {l : List RunTransitionRecord} :
    latestOf kind l = none ↔ l.any (·.kind = kind) = false := by
  rw [latestOf, List.max?_eq_none_iff, List.map_eq_nil_iff, List.filter_eq_nil_iff, List.any_eq_false]

/-- The latest of them. -/
theorem latest_restoring {l : List RunTransitionRecord} {t : String} :
    (latestOf "ReturnToBaseline" l <|> latestOf "Announcement" l) = some t ↔
      (∃ b ∈ restoringTransitions l, b.occurredUtc = t) ∧
        ∀ b ∈ restoringTransitions l, b.occurredUtc ≤ t := by
  have hmax (ks : List RunTransitionRecord) : (ks.map (·.occurredUtc)).max? = some t ↔
      (∃ b ∈ ks, b.occurredUtc = t) ∧ ∀ b ∈ ks, b.occurredUtc ≤ t := by
    rw [List.max?_eq_some_iff, List.mem_map]
    simp
  by_cases hany : l.any (·.kind = "ReturnToBaseline") = true
  · obtain ⟨m, hm⟩ : ∃ m, latestOf "ReturnToBaseline" l = some m := by
      rw [← Option.ne_none_iff_exists', ne_eq, latestOf_eq_none, Bool.not_eq_false]
      exact hany
    have hor : (latestOf "ReturnToBaseline" l <|> latestOf "Announcement" l) =
        latestOf "ReturnToBaseline" l := by
      rw [hm]
      rfl
    rw [hor, restoringTransitions, if_pos hany]
    exact hmax _
  · have hor : (latestOf "ReturnToBaseline" l <|> latestOf "Announcement" l) =
        latestOf "Announcement" l := by
      rw [latestOf_eq_none.2 (by simpa using hany)]
      rfl
    rw [hor, restoringTransitions, if_neg hany]
    exact hmax _

/-! ## The lifecycles of a run -/

/-- The path of an instance. -/
def pathAt (active : InstanceMap) (key : RouteKey) : Option (List UInt32) :=
  active[key]?.map fun st : RouteState => st.attributes.asPath

structure LifecycleRun where
  runId : Nat
  cohort : FrozenCohort
  transitions : List RouteTransition
  cooldownEnd : DateTime
  pred : TransitPredicate
  serdeTime : DateTime → String

namespace LifecycleRun
variable (run : LifecycleRun) (opk : ObserverPrefixKey)

def summaries : List StreamLifecycleSummary :=
  (buildLifecycles run.transitions run.cohort run.cooldownEnd run.pred).map
    (lifecycleSummary run.serdeTime run.runId)

def streams : List ObserverPrefixKey := lifecycleStreams run.transitions run.cohort

def baseline : InstanceMap := baselineFor run.cohort opk

def lifecycle : StreamLifecycle :=
  lifecycleOf run.cohort run.cooldownEnd run.pred run.transitions opk

def summary : StreamLifecycleSummary := lifecycleSummary run.serdeTime run.runId (run.lifecycle opk)

/-- The instances of the stream at the end of the event window. -/
def atWindowEnd : InstanceMap :=
  activeRun (run.baseline opk) (streamTransitions opk (eventPart run.transitions))

def VisibleAtEnd : Prop := (run.atWindowEnd opk).isEmpty = false

/-- Its instances are those of the baseline, each on its baseline path. -/
def OnBaseline : Prop := ∀ key, pathAt (run.atWindowEnd opk) key = pathAt (run.baseline opk) key

/-- At some time, in the window or in the cooldown, the stream came back from an absence, or a path of
it to the transit. -/
def Returns : Prop :=
  ∃ x ∈ timeline (run.baseline opk) (streamTransitions opk run.transitions), isReturn run.pred x = true

/-- The stream is a member of the episode of `k`. -/
def Member (k : EpisodeKey) : Prop := opk ∈ run.streams ∧ (run.summary opk).episodeKey = k

/-- A member that counts as changed. -/
def ChangedMember (k : EpisodeKey) : Prop := run.Member opk k ∧ (run.summary opk).changed = true

/-- The run's streams among the other sources of the episodes. -/
def sources (src : EpisodeSources) : EpisodeSources := { src with streams := run.summaries }

variable {run opk}

theorem mem_summaries {s : StreamLifecycleSummary} :
    s ∈ run.summaries ↔ ∃ opk ∈ run.streams, s = run.summary opk := by
  rw [summaries, List.mem_map]
  constructor
  · rintro ⟨lc, hlc, rfl⟩
    obtain ⟨opk, hopk, rfl⟩ := List.mem_map.1 (mem_sortBy.1 hlc)
    exact ⟨opk, hopk, rfl⟩
  · rintro ⟨opk, hopk, rfl⟩
    exact ⟨run.lifecycle opk, mem_sortBy.2 (List.mem_map.2 ⟨opk, hopk, rfl⟩), rfl⟩

theorem mem_members {src : EpisodeSources} {k : EpisodeKey} {s : StreamLifecycleSummary} :
    s ∈ (run.sources src).members k ↔ ∃ opk, run.Member opk k ∧ s = run.summary opk := by
  rw [EpisodeSources.members, List.mem_filter, decide_eq_true_eq]
  constructor
  · rintro ⟨hs, hk⟩
    obtain ⟨opk, hopk, rfl⟩ := mem_summaries.1 hs
    exact ⟨opk, ⟨hopk, hk⟩, rfl⟩
  · rintro ⟨opk, ⟨hopk, hk⟩, rfl⟩
    exact ⟨mem_summaries.2 ⟨opk, hopk, rfl⟩, hk⟩

theorem isSome_restorationTimeUtc :
    (run.summary opk).restorationTimeUtc.isSome = true ↔ run.Returns opk := by
  have htime : (run.lifecycle opk).restorationTime =
      (Sim.run run.pred (run.baseline opk) (streamTransitions opk run.transitions)).restorationTime :=
    rfl
  rw [summary, lifecycleSummary_restorationTimeUtc, Option.isSome_map, htime,
    Sim.run_restorationTime, Option.isSome_map, List.find?_isSome]
  rfl

/-- A stream with the flag came back. -/
theorem returns_of_restored (h : (run.summary opk).restored = true) : run.Returns opk := by
  rw [summary, lifecycleSummary_restored] at h
  obtain ⟨⟨x, hx, hback⟩, -⟩ := (restored_iff_ends run.pred (run.baseline opk)
    (streamTransitions opk run.transitions) opk run.cooldownEnd).1 h
  exact ⟨x, hx, by rw [isReturn, hback, Bool.true_or]⟩

end LifecycleRun

/-! ## The end state -/

/-- What an end state says of the episode of `k`. -/
structure EndStateTruthful (run : LifecycleRun) (k : EpisodeKey) (state : EndState) : Prop where
  restored : state = .visibilityRestored ∨ state = .baselineRestored →
    ∀ opk, run.Member opk k → (run.summary opk).gone = false
  visible : state = .visibilityRestored → ∀ opk, run.ChangedMember opk k → run.VisibleAtEnd opk
  baseline : state = .baselineRestored → ∀ opk, run.ChangedMember opk k → run.OnBaseline opk
  absent : state = .absentAtWindowEnd → ∀ opk, run.ChangedMember opk k → ¬ run.VisibleAtEnd opk

/-- What came back once is there at the end of the window. -/
structure ReturnsLast (run : LifecycleRun) (k : EpisodeKey) : Prop where
  /-- Of streams that are gone for good some never came back; none at all did only if they were all
  gone by the end of the window. -/
  withdrawal : k.kind = .routeWithdrawal → (∃ opk, run.Member opk k ∧ ¬ run.Returns opk) ∧
    ((∀ opk, run.Member opk k → ¬ run.Returns opk) →
      ∀ opk, run.Member opk k → ¬ run.VisibleAtEnd opk)
  /-- No stream came back in the cooldown only. -/
  absence : k.kind = .temporaryStreamAbsence → ∀ opk, run.Member opk k → run.VisibleAtEnd opk
  /-- Where all that changed came back to the transit, it was to the baseline. -/
  change : k.kind.isRouteChange = true → (∀ opk, run.ChangedMember opk k → run.Returns opk) →
    ∀ opk, run.ChangedMember opk k → run.OnBaseline opk

/-- Some member's path ids are ambiguous. -/
def AmbiguousMember (run : LifecycleRun) (k : EpisodeKey) : Prop :=
  ∃ opk, run.Member opk k ∧ (run.summary opk).addPathAmbiguous = true

/-- The episode of `k` counts as restored: something changed, it all came back once, and no path id
is ambiguous. -/
def CountsRestored (run : LifecycleRun) (k : EpisodeKey) : Prop :=
  k.kind ≠ .noRouteStateChange ∧ ¬ AmbiguousMember run k ∧ (∃ opk, run.ChangedMember opk k) ∧
    ∀ opk, run.ChangedMember opk k → run.Returns opk

section EndState
variable {run : LifecycleRun} {src : EpisodeSources} {k : EpisodeKey}

/-- The end state of the episode of `k`. -/
def endStateOf (run : LifecycleRun) (src : EpisodeSources) (k : EpisodeKey) : EndState :=
  ((run.sources src).episode k ((run.sources src).members k)).endState

theorem any_ambiguous :
    ((run.sources src).members k).any (·.addPathAmbiguous) = true ↔ AmbiguousMember run k := by
  rw [List.any_eq_true]
  constructor
  · rintro ⟨s, hs, ha⟩
    obtain ⟨opk, hopk, rfl⟩ := LifecycleRun.mem_members.1 hs
    exact ⟨opk, hopk, ha⟩
  · rintro ⟨opk, hopk, ha⟩
    exact ⟨run.summary opk, LifecycleRun.mem_members.2 ⟨opk, hopk, rfl⟩, ha⟩

theorem mem_changed {s : StreamLifecycleSummary} :
    s ∈ ((run.sources src).members k).filter (·.changed) ↔
      ∃ opk, run.ChangedMember opk k ∧ s = run.summary opk := by
  rw [List.mem_filter]
  constructor
  · rintro ⟨hs, hc⟩
    obtain ⟨opk, hopk, rfl⟩ := LifecycleRun.mem_members.1 hs
    exact ⟨opk, ⟨hopk, hc⟩, rfl⟩
  · rintro ⟨opk, ⟨hopk, hc⟩, rfl⟩
    exact ⟨LifecycleRun.mem_members.2 ⟨opk, hopk, rfl⟩, hc⟩

/-- As many restored as changed: every changed member came back. -/
theorem restoredCount_eq_iff :
    (((run.sources src).members k).filter (·.changed)).countP (·.restorationTimeUtc.isSome) =
      (((run.sources src).members k).filter (·.changed)).length ↔
    ∀ opk, run.ChangedMember opk k → run.Returns opk := by
  rw [List.countP_eq_length]
  constructor
  · intro h opk hopk
    exact LifecycleRun.isSome_restorationTimeUtc.1 (h _ (mem_changed.2 ⟨opk, hopk, rfl⟩))
  · intro h s hs
    obtain ⟨opk, hopk, rfl⟩ := mem_changed.1 hs
    exact LifecycleRun.isSome_restorationTimeUtc.2 (h opk hopk)

theorem restoredCount_eq_zero_iff :
    (((run.sources src).members k).filter (·.changed)).countP (·.restorationTimeUtc.isSome) = 0 ↔
    ∀ opk, run.ChangedMember opk k → ¬ run.Returns opk := by
  rw [List.countP_eq_zero]
  constructor
  · intro h opk hopk hret
    exact h _ (mem_changed.2 ⟨opk, hopk, rfl⟩) (LifecycleRun.isSome_restorationTimeUtc.2 hret)
  · intro h s hs hsome
    obtain ⟨opk, hopk, rfl⟩ := mem_changed.1 hs
    exact h opk hopk (LifecycleRun.isSome_restorationTimeUtc.1 hsome)

theorem changedCount_eq_zero_iff :
    (((run.sources src).members k).filter (·.changed)).length = 0 ↔
      ¬ ∃ opk, run.ChangedMember opk k := by
  rw [List.length_eq_zero_iff, List.eq_nil_iff_forall_not_mem]
  constructor
  · rintro h ⟨opk, hopk⟩
    exact h _ (mem_changed.2 ⟨opk, hopk, rfl⟩)
  · intro h s hs
    obtain ⟨opk, hopk, -⟩ := mem_changed.1 hs
    exact h ⟨opk, hopk⟩

theorem endStateOf_eq : endStateOf run src k = deriveEndState k.kind
    (((run.sources src).members k).filter (·.changed)).length
    ((((run.sources src).members k).filter (·.changed)).countP (·.restorationTimeUtc.isSome))
    ((run.sources src).members k) := rfl

/-- A withdrawn stream counts as changed. -/
theorem changed_of_withdrawn {s : StreamLifecycleSummary} (h : s.withdrawn = true) :
    s.changed = true := by
  simp [StreamLifecycleSummary.changed, h]

/-- The members of an episode have its kind. -/
theorem kind_of_member {opk : ObserverPrefixKey} (h : run.Member opk k) :
    streamEffectKind (run.summary opk) = k.kind := by
  rw [← h.2]
  rfl

theorem gone_of_member {opk : ObserverPrefixKey} (h : run.Member opk k) :
    (run.summary opk).gone = true ↔ k.kind = .routeWithdrawal := by
  rw [← kind_of_member h]
  rcases streamEffectKind_cases (run.summary opk) with ⟨hg, hk⟩ | ⟨hg, -, -, hk⟩ | ⟨hg, -, hk, -⟩
  · simp [hg, hk]
  · simp [hg, hk]
  · simp [hg, hk]

/-- All members of an absence changed. -/
theorem changedMember_iff (h : k.kind = .temporaryStreamAbsence ∨ k.kind = .routeWithdrawal)
    {opk : ObserverPrefixKey} : run.ChangedMember opk k ↔ run.Member opk k := by
  refine ⟨And.left, fun hm => ⟨hm, changed_of_withdrawn ?_⟩⟩
  rw [← kind_of_member hm] at h
  exact withdrawn_of_streamEffectKind h

/-- Members that were absent for a time came back. -/
theorem returns_of_absence (h : k.kind = .temporaryStreamAbsence) {opk : ObserverPrefixKey}
    (hm : run.Member opk k) : run.Returns opk := by
  rw [← kind_of_member hm] at h
  rcases streamEffectKind_cases (run.summary opk) with ⟨-, hk⟩ | ⟨-, -, hr, -⟩ | ⟨-, -, -, hk⟩
  · rw [hk] at h
    cases h
  · exact LifecycleRun.returns_of_restored hr
  · exact (hk h).elim

/-- Of streams that changed without ambiguity, the end state goes by the kind. -/
theorem endStateOf_absence (hkind : k.kind = .temporaryStreamAbsence ∨ k.kind = .routeWithdrawal)
    (hne : ∃ opk, run.Member opk k) (hclear : ¬ AmbiguousMember run k) :
    (endStateOf run src k = .visibilityRestored ↔ ∀ opk, run.Member opk k → run.Returns opk) ∧
    (endStateOf run src k = .absentAtWindowEnd ↔ k.kind = .routeWithdrawal ∧
      ∀ opk, run.Member opk k → ¬ run.Returns opk) ∧
    endStateOf run src k ≠ .baselineRestored := by
  obtain ⟨opk₀, hopk₀⟩ := hne
  have hc : (((run.sources src).members k).filter (·.changed)).length ≠ 0 := by
    rw [ne_eq, changedCount_eq_zero_iff, not_not]
    exact ⟨opk₀, (changedMember_iff hkind).2 hopk₀⟩
  have hall := @restoredCount_eq_iff run src k
  have hnone := @restoredCount_eq_zero_iff run src k
  simp only [changedMember_iff hkind] at hall hnone
  have hgone : ((run.sources src).members k).any (·.gone) = true ↔ k.kind = .routeWithdrawal := by
    rw [List.any_eq_true]
    constructor
    · rintro ⟨s, hs, hg⟩
      obtain ⟨opk, hopk, rfl⟩ := LifecycleRun.mem_members.1 hs
      exact (gone_of_member hopk).1 hg
    · intro hk
      exact ⟨run.summary opk₀, LifecycleRun.mem_members.2 ⟨opk₀, hopk₀, rfl⟩,
        (gone_of_member hopk₀).2 hk⟩
  rw [endStateOf_eq, deriveEndState_absence hkind hc (by rwa [any_ambiguous])]
  by_cases hret : ∀ opk, run.Member opk k → run.Returns opk
  · have hnot : ¬ ∀ opk, run.Member opk k → ¬ run.Returns opk :=
      fun h => h opk₀ hopk₀ (hret opk₀ hopk₀)
    rw [if_pos (hall.2 hret)]
    exact ⟨iff_of_true rfl hret, iff_of_false nofun fun h => hnot h.2, nofun⟩
  · rw [if_neg fun h => hret (hall.1 h)]
    by_cases habs : k.kind = .routeWithdrawal ∧ ∀ opk, run.Member opk k → ¬ run.Returns opk
    · rw [if_pos ⟨hgone.2 habs.1, hnone.2 habs.2⟩]
      exact ⟨iff_of_false nofun hret, iff_of_true rfl habs, nofun⟩
    · rw [if_neg fun h => habs ⟨hgone.1 h.1, hnone.1 h.2⟩]
      exact ⟨iff_of_false nofun hret, iff_of_false nofun habs, nofun⟩

theorem endStateOf_change (hkind : k.kind.isRouteChange = true)
    (hne : ∃ opk, run.ChangedMember opk k) (hclear : ¬ AmbiguousMember run k) :
    (endStateOf run src k = .baselineRestored ↔
      ∀ opk, run.ChangedMember opk k → run.Returns opk) ∧
    endStateOf run src k ≠ .visibilityRestored ∧ endStateOf run src k ≠ .absentAtWindowEnd := by
  have hc : (((run.sources src).members k).filter (·.changed)).length ≠ 0 := by
    rw [ne_eq, changedCount_eq_zero_iff, not_not]
    exact hne
  have hall := @restoredCount_eq_iff run src k
  rw [endStateOf_eq, deriveEndState_change hkind hc (by rwa [any_ambiguous])]
  by_cases hret : ∀ opk, run.ChangedMember opk k → run.Returns opk
  · rw [if_pos (hall.2 hret)]
    exact ⟨iff_of_true rfl hret, nofun, nofun⟩
  · rw [if_neg fun h => hret (hall.1 h)]
    exact ⟨iff_of_false nofun hret, nofun, nofun⟩

/-- Where nothing changed, or not for sure, no state says anything about the streams. -/
theorem endStateOf_silent (h : k.kind = .noRouteStateChange ∨ (¬ ∃ opk, run.ChangedMember opk k) ∨
      AmbiguousMember run k) :
    endStateOf run src k = .noRouteStateChange ∨ endStateOf run src k = .unresolved := by
  rw [endStateOf_eq]
  refine deriveEndState_silent ?_
  rwa [changedCount_eq_zero_iff, any_ambiguous]

theorem truthful_of_silent {state : EndState} (h : state = .noRouteStateChange ∨ state = .unresolved) :
    EndStateTruthful run k state := by
  rcases h with rfl | rfl
  · exact ⟨nofun, nofun, nofun, nofun⟩
  · exact ⟨nofun, nofun, nofun, nofun⟩

theorem kind_trichotomy (kind : EffectKind) : (kind = .temporaryStreamAbsence ∨
    kind = .routeWithdrawal) ∨ kind = .noRouteStateChange ∨ kind.isRouteChange = true := by
  cases kind with
  | temporaryStreamAbsence => exact .inl (.inl rfl)
  | routeWithdrawal => exact .inl (.inr rfl)
  | noRouteStateChange => exact .inr (.inl rfl)
  | pathReplacement | namedPlaneDeparture | namedPlaneReturn | prependChange | mixedRouteChange =>
    exact .inr (.inr rfl)

/-- **The end state is truthful iff** a path id of the episode is ambiguous, or what came back once
is there at the end of the window. -/
theorem endStateTruthful_iff (hne : ∃ opk, run.Member opk k) :
    EndStateTruthful run k (endStateOf run src k) ↔ AmbiguousMember run k ∨ ReturnsLast run k := by
  by_cases hamb : AmbiguousMember run k
  · exact iff_of_true (truthful_of_silent (endStateOf_silent (.inr (.inr hamb)))) (.inl hamb)
  refine Iff.trans ?_ (or_iff_right hamb).symm
  rcases kind_trichotomy k.kind with hkind | hkind | hkind
  · -- an absence: every member changed
    obtain ⟨hvis, habs, hbase⟩ := @endStateOf_absence run src k hkind hne hamb
    have hchange : k.kind.isRouteChange ≠ true := by
      rcases hkind with h | h <;> simp [h, EffectKind.isRouteChange]
    constructor
    · intro h
      refine ⟨fun hw => ⟨?_, fun hnone opk hopk => ?_⟩, fun ha opk hopk => ?_,
        fun hc => (hchange hc).elim⟩
      · by_contra hall
        rw [not_exists] at hall
        have hret : ∀ opk, run.Member opk k → run.Returns opk :=
          fun opk hopk => by_contra fun hr => hall opk ⟨hopk, hr⟩
        obtain ⟨opk, hopk⟩ := hne
        have hgone := h.restored (.inl (hvis.2 hret)) opk hopk
        rw [(gone_of_member hopk).2 hw] at hgone
        cases hgone
      · exact h.absent (habs.2 ⟨hw, hnone⟩) opk ((changedMember_iff hkind).2 hopk)
      · refine h.visible (hvis.2 fun opk' hopk' => ?_) opk ((changedMember_iff hkind).2 hopk)
        exact returns_of_absence ha hopk'
    · intro h
      refine ⟨fun hstate opk hopk => ?_, fun hstate opk hopk => ?_, fun hstate => ?_,
        fun hstate opk hopk => ?_⟩
      · have hret := hvis.1 (hstate.resolve_right hbase)
        rw [Bool.eq_false_iff, ne_eq, gone_of_member hopk]
        intro hw
        obtain ⟨opk', hopk', hnot⟩ := (h.withdrawal hw).1
        exact hnot (hret opk' hopk')
      · have hret := hvis.1 hstate
        refine h.absence (hkind.resolve_right fun hw => ?_) opk hopk.1
        obtain ⟨opk', hopk', hnot⟩ := (h.withdrawal hw).1
        exact hnot (hret opk' hopk')
      · exact (hbase hstate).elim
      · obtain ⟨hw, hnone⟩ := habs.1 hstate
        exact (h.withdrawal hw).2 hnone opk hopk.1
  · refine iff_of_true (truthful_of_silent (endStateOf_silent (.inl hkind))) ?_
    refine ⟨fun h => ?_, fun h => ?_, fun h => ?_⟩
    all_goals
      rw [hkind] at h
      cases h
  · have habsence : k.kind ≠ .temporaryStreamAbsence ∧ k.kind ≠ .routeWithdrawal := by
      constructor
      all_goals
        intro h
        rw [h] at hkind
        cases hkind
    by_cases hsome : ∃ opk, run.ChangedMember opk k
    · obtain ⟨hbase, hvis, habs⟩ := @endStateOf_change run src k hkind hsome hamb
      constructor
      · exact fun h => ⟨fun hw => (habsence.2 hw).elim, fun ha => (habsence.1 ha).elim,
          fun _ hret => h.baseline (hbase.2 hret)⟩
      · intro h
        refine ⟨fun _ opk hopk => ?_, fun hs => (hvis hs).elim,
          fun hs => h.change hkind (hbase.1 hs), fun hs => (habs hs).elim⟩
        rw [Bool.eq_false_iff, ne_eq, gone_of_member hopk]
        exact habsence.2
    · refine iff_of_true (truthful_of_silent (endStateOf_silent (.inr (.inl hsome)))) ?_
      exact ⟨fun hw => (habsence.2 hw).elim, fun ha => (habsence.1 ha).elim,
        fun _ _ opk hopk => (hsome ⟨opk, hopk⟩).elim⟩

/-- A restored state is that of a group that counts as restored. -/
theorem restored_iff_countsRestored (hne : ∃ opk, run.Member opk k) :
    (endStateOf run src k = .baselineRestored ∨ endStateOf run src k = .visibilityRestored) ↔
      CountsRestored run k := by
  by_cases hsilent : k.kind = .noRouteStateChange ∨ (¬ ∃ opk, run.ChangedMember opk k) ∨
      AmbiguousMember run k
  · refine iff_of_false ?_ ?_
    · rcases @endStateOf_silent run src k hsilent with h | h <;> simp [h]
    · rintro ⟨hkind, hamb, hsome, -⟩
      rcases hsilent with h | h | h
      · exact hkind h
      · exact h hsome
      · exact hamb h
  · rw [not_or, not_or, not_not] at hsilent
    obtain ⟨hno, hsome, hamb⟩ := hsilent
    have hcounts : CountsRestored run k ↔ ∀ opk, run.ChangedMember opk k → run.Returns opk :=
      ⟨fun h => h.2.2.2, fun h => ⟨hno, hamb, hsome, h⟩⟩
    rw [hcounts]
    rcases kind_trichotomy k.kind with hkind | hkind | hkind
    · obtain ⟨hvis, -, hbase⟩ := @endStateOf_absence run src k hkind hne hamb
      rw [or_iff_right hbase, hvis]
      simp only [changedMember_iff hkind]
    · exact (hno hkind).elim
    · obtain ⟨hbase, hvis, -⟩ := @endStateOf_change run src k hkind hsome hamb
      rw [or_iff_left hvis, hbase]

end EndState

/-! ## The outcome of the cooldown -/

section Outcome
variable (run : LifecycleRun) (src : EpisodeSources) (k : EpisodeKey) (analysisEnd : String)
  (instant : String → Option DateTime)

/-- After the window and not after the end of the analysis, by the instants. -/
def CooldownInstant (r : RunTransitionRecord) : Prop :=
  ∃ w i a, instant src.windowEnd = some w ∧ instant r.occurredUtc = some i ∧
    instant analysisEnd = some a ∧ w < i ∧ i ≤ a

/-- In the cooldown, no prefix of the episode is taken away from the state that was restored at `t`:
none is withdrawn later, and where `t` is a return to the baseline none changes its path. -/
def RestorationLasts (t : String) : Prop :=
  ∀ r ∈ src.memberTransitions k, CooldownInstant src analysisEnd instant r →
    (∃ i j, instant t = some i ∧ instant r.occurredUtc = some j ∧ i < j) →
    r.kind ≠ "Withdrawal" ∧ (r.kind = "PathReplacement" →
      ∀ b ∈ src.memberTransitions k, b.kind = "ReturnToBaseline" → b.occurredUtc ≠ t)

/-- The transitions the outcome of the episode of `k` is derived from. -/
def cooldownOf : List RunTransitionRecord :=
  inCooldown (src.sessionText k) ((src.members k).map (·.pfx)) src.transitions src.windowEnd analysisEnd

/-- The restoration with the greatest text lasts. -/
def LatestLasts : Prop :=
  ∀ b ∈ restoringTransitions (cooldownOf src k analysisEnd),
    (∀ b' ∈ restoringTransitions (cooldownOf src k analysisEnd), b'.occurredUtc ≤ b.occurredUtc) →
      RestorationLasts src k analysisEnd instant b.occurredUtc

theorem cooldownOf_episode : inCooldown (src.episode k (src.members k)).observerSession
    ((src.episode k (src.members k)).streams.map (·.pfx)) src.transitions src.windowEnd analysisEnd =
    cooldownOf src k analysisEnd := by
  have hpfx : (src.episode k (src.members k)).streams.map (·.pfx) = (src.members k).map (·.pfx) := by
    show ((src.members k).map (·.episodeStream)).map (·.pfx) = _
    rw [List.map_map]
    rfl
  rw [hpfx]
  rfl

variable {run src k analysisEnd instant}

/-- **A `RestoredAt` is truthful iff** there is nothing to restore, or the latest restoration, by its
text, lasts. -/
theorem cooldownTruthful_iff (hne : ∃ opk, run.Member opk k) :
    (∀ t, deriveCooldownOutcome ((run.sources src).episode k ((run.sources src).members k))
        src.transitions src.windowEnd analysisEnd = .restoredAt t →
      RestorationLasts (run.sources src) k analysisEnd instant t) ↔
    CountsRestored run k ∨ k.kind = .noRouteStateChange ∨
      LatestLasts (run.sources src) k analysisEnd instant := by
  have houtcome (t : String) : deriveCooldownOutcome
        ((run.sources src).episode k ((run.sources src).members k)) src.transitions src.windowEnd
        analysisEnd = .restoredAt t ↔ ¬ CountsRestored run k ∧ k.kind ≠ .noRouteStateChange ∧
      (∃ b ∈ restoringTransitions (cooldownOf (run.sources src) k analysisEnd), b.occurredUtc = t) ∧
        ∀ b ∈ restoringTransitions (cooldownOf (run.sources src) k analysisEnd), b.occurredUtc ≤ t := by
    rw [deriveCooldownOutcome_restoredAt, ← latest_restoring, ← cooldownOf_episode,
      ← restored_iff_countsRestored hne]
    rfl
  simp only [houtcome]
  constructor
  · intro h
    by_cases hcounts : CountsRestored run k
    · exact .inl hcounts
    by_cases hkind : k.kind = .noRouteStateChange
    · exact .inr (.inl hkind)
    exact .inr (.inr fun b hb hmax => h _ ⟨hcounts, hkind, ⟨b, hb, rfl⟩, hmax⟩)
  · rintro h t ⟨hcounts, hkind, ⟨b, hb, rfl⟩, hmax⟩
    exact ((h.resolve_left hcounts).resolve_left hkind) b hb hmax

end Outcome

/-! ## The episodes of a run -/

/-- Every episode of the run ends where its end state says, and a restoration its outcome names
lasts. -/
def EpisodesTruthful (run : LifecycleRun) (src : EpisodeSources) (analysisEnd : String)
    (instant : String → Option DateTime) : Prop :=
  ∀ k ep, (run.sources src).IsEpisode k ep →
    EndStateTruthful run k ep.endState ∧
    ∀ t, deriveCooldownOutcome ep src.transitions src.windowEnd analysisEnd = .restoredAt t →
      RestorationLasts (run.sources src) k analysisEnd instant t

/-- **The episodes are truthful iff** in each with members what came back once is there at the end of
the window, unless a path id is ambiguous, and the latest restoration in the cooldown lasts, unless
there is nothing to restore. -/
theorem episodesTruthful_iff (run : LifecycleRun) (src : EpisodeSources) (analysisEnd : String)
    (instant : String → Option DateTime) :
    EpisodesTruthful run src analysisEnd instant ↔ ∀ k, (∃ opk, run.Member opk k) →
      (AmbiguousMember run k ∨ ReturnsLast run k) ∧ (CountsRestored run k ∨
        k.kind = .noRouteStateChange ∨ LatestLasts (run.sources src) k analysisEnd instant) := by
  have hkey (k : EpisodeKey) :
      (∃ s ∈ (run.sources src).streams, s.episodeKey = k) ↔ ∃ opk, run.Member opk k := by
    constructor
    · rintro ⟨s, hs, hk⟩
      obtain ⟨opk, hopk, rfl⟩ := LifecycleRun.mem_summaries.1 hs
      exact ⟨opk, hopk, hk⟩
    · rintro ⟨opk, hopk, hk⟩
      exact ⟨run.summary opk, LifecycleRun.mem_summaries.2 ⟨opk, hopk, rfl⟩, hk⟩
  constructor
  · intro h k hne
    obtain ⟨hstate, hcool⟩ := h k _ ⟨(hkey k).2 hne, rfl⟩
    exact ⟨(@endStateTruthful_iff run src k hne).1 hstate, (cooldownTruthful_iff hne).1 hcool⟩
  · rintro h k ep ⟨hk, rfl⟩
    have hne := (hkey k).1 hk
    exact ⟨(endStateTruthful_iff hne).2 (h k hne).1, (cooldownTruthful_iff hne).2 (h k hne).2⟩

/-! ### Back, and gone again -/

/-- The run of a stream that is withdrawn, announced and withdrawn in the event window. -/
def lostAgainRun : LifecycleRun where
  runId := 1
  cohort := lostAgainCohort
  transitions := lostAgainTransitions
  cooldownEnd := 30000000000
  pred := .containsAny [1]
  serdeTime := fun t => toString t

def lostAgainSources : EpisodeSources where
  runId := 1
  family := "ris"
  streams := []
  transitions := []
  registry := []
  sessionPeers := fun _ => none
  namedPathPlane := "plane-a"
  metadata := []
  windowEnd := "1970-01-01T00:00:20Z"

/-- **Bug.** The visibility of a stream that is gone at the end of the window counts as restored. -/
theorem gone_counts_as_restored :
    ¬ EpisodesTruthful lostAgainRun lostAgainSources "1970-01-01T00:00:30Z" fun _ => none := by
  intro h
  have hmember : lostAgainRun.Member sampleStream (lostAgainRun.summary sampleStream).episodeKey :=
    ⟨by decide, rfl⟩
  obtain ⟨hstate, -⟩ := h (lostAgainRun.summary sampleStream).episodeKey _
    ⟨⟨_, LifecycleRun.mem_summaries.2 ⟨sampleStream, hmember.1, rfl⟩, rfl⟩, rfl⟩
  have hgone : (lostAgainRun.summary sampleStream).gone = true := by decide
  have hrestored := hstate.restored (.inl (by decide)) sampleStream hmember
  rw [hgone] at hrestored
  cases hrestored

end Inim
