import Inim.Lifecycle.Streams
import Inim.Workbench.EndStates
import Inim.Workbench.PathEvidence
/-!
# The restoration times of a stream (`catalog/workbench.rs:714-834`)

The fields of `StreamPathEvidence` say what each restoration time is: visible "again after an
absence", a route "on a path that is not the exact baseline path", the plane "again, after having
departed it (or after an absence)", "the earlier baseline path". `load` takes the first from the
lifecycle's restoration time, which is also that of a return to the transit, and before it from the
announcements that follow a visible state, which its own comment says are no restoration; the second
without a look at the path of that time; the third without the absences; and the fourth from the kind
`ReturnToBaseline`, which no announcement after a withdrawal has.

`restoreTimes_iff` says on which streams each of them is what it is said to be. `scan_spec` is the
loop by itself.
-/

namespace Inim

open Std Inim.Lib

/-- The path after a transition; empty after a withdrawal. -/
def RouteTransition.announced (t : RouteTransition) : List UInt32 :=
  (t.to_.state.map (·.attributes.asPath)).getD []

def onPlane (plane path : List UInt32) : Bool := plane.any (path.contains ·)

/-! ## The transitions with the path before them -/

/-- The transitions, each with the path after the one before it. -/
def pathSteps (start : List UInt32) (l : List RouteTransition) :
    List (List UInt32 × RouteTransition) :=
  trace (fun _ t => t.announced) start l

/-- The last path there was. -/
def lastVisible (path : List UInt32) (t : RouteTransition) : List UInt32 :=
  if t.announced = [] then path else t.announced

/-- The transitions, each with the last path there was. -/
def visibleSteps (start : List UInt32) (l : List RouteTransition) :
    List (List UInt32 × RouteTransition) :=
  trace lastVisible start l

/-- An announcement where there is a path already. -/
def reannounces (x : List UInt32 × RouteTransition) : Bool :=
  x.2.kind = .announcement && !x.1.isEmpty && !x.2.announced.isEmpty

def gainsPlane (plane : List UInt32) (x : List UInt32 × RouteTransition) : Bool :=
  !onPlane plane x.1 && onPlane plane x.2.announced

/-- The baseline path, after another path or none. -/
def regains (baseline : List UInt32) (x : List UInt32 × RouteTransition) : Bool :=
  x.2.announced = baseline && x.1 ≠ baseline && !baseline.isEmpty

/-- A transition of the kind that counts as a return to the baseline path. -/
def returnKind (t : RouteTransition) : Bool := t.kind = .returnToBaseline && !t.announced.isEmpty

/-! ## Reading a record -/

theorem asU64_asn (asn : UInt32) : (Json.int asn.toNat).asU64 = some asn.toNat := by
  have hlt : (asn.toNat : Int) < 2 ^ 64 := by
    have h32 : (asn.toNat : Int) < 2 ^ 32 := by exact_mod_cast asn.toNat_lt
    exact h32.trans (by norm_num)
  rw [Json.asU64, if_pos ⟨Int.natCast_nonneg _, hlt⟩, Int.toNat_natCast]

theorem path?_pathRecord {j : Json} {key : String} {path : List UInt32}
    (h : j.get key = some (pathRecord path)) : j.path? key = some path := by
  have hnums : (path.map fun asn => Json.int asn.toNat).filterMap Json.asU64 = path.map (·.toNat) := by
    rw [List.filterMap_map, ← List.filterMap_eq_map]
    refine List.filterMap_congr fun asn _ => ?_
    rw [Function.comp_apply, asU64_asn, Function.comp_apply]
  have hback : (path.map (·.toNat)).map UInt32.ofNat = path := by
    rw [List.map_map]
    exact (List.map_congr_left fun asn _ => UInt32.ofNat_toNat).trans (List.map_id path)
  rw [Json.path?, h, Option.bind_some, pathRecord, Json.asArray, Option.map_some, hnums, hback]

section Record
variable (serdeTime : DateTime → String) (pred : TransitPredicate) (t : RouteTransition)

/-- The record of a transition. -/
def recordOf : Json := lifecycleTransitionRecord serdeTime (lifecycleTransition pred t)

theorem recordOf_after : (recordOf serdeTime pred t).path? "after_path" = some t.announced :=
  path?_pathRecord rfl

theorem recordOf_before : (recordOf serdeTime pred t).path? "before_path" =
    some ((t.fromState.map (·.attributes.asPath)).getD []) :=
  path?_pathRecord rfl

end Record

/-! ## The loop -/

theorem kindStr_eq_announcement {k : TransitionKind} :
    transitionKindStr k = "Announcement" ↔ k = .announcement := by
  cases k <;> simp [transitionKindStr]

theorem kindStr_eq_return {k : TransitionKind} :
    transitionKindStr k = "ReturnToBaseline" ↔ k = .returnToBaseline := by
  cases k <;> simp [transitionKindStr]

/-- The locals of the loop over the transitions `l`. -/
structure ScanOf (plane base : List UInt32) (serdeTime : DateTime → String) (l : List RouteTransition)
    (s : RestoreScan) : Prop where
  planePresent : s.planePresent = onPlane plane (run lastVisible base l)
  prevAfter : s.prevAfter.getD [] = run (fun _ t => t.announced) [] l
  visibility : s.visibility = none ↔ ∀ x ∈ pathSteps [] l, reannounces x = false
  planeAt : s.plane = ((visibleSteps base l).find? (gainsPlane plane)).map (serdeTime ·.2.to_.timestamp)
  exact : s.exact = (l.filter returnKind).getLast?.map (serdeTime ·.to_.timestamp)

theorem step_recordOf (plane : List UInt32) (serdeTime : DateTime → String) (pred : TransitPredicate)
    (s : RestoreScan) (t : RouteTransition) :
    RestoreScan.step (onPlane plane) s (recordOf serdeTime pred t) =
      { (if t.announced.isEmpty then s
          else s.observe (onPlane plane) (serdeTime t.to_.timestamp) (transitionKindStr t.kind)
            t.announced) with
        prevAfter := some t.announced } := by
  rw [RestoreScan.step, recordOf_after]
  rfl

/-- One transition more. -/
theorem ScanOf.step {plane base : List UInt32} {serdeTime : DateTime → String}
    {l : List RouteTransition} {s : RestoreScan} (h : ScanOf plane base serdeTime l s)
    (t : RouteTransition) : ScanOf plane base serdeTime (l ++ [t])
      { (if t.announced.isEmpty then s
          else s.observe (onPlane plane) (serdeTime t.to_.timestamp) (transitionKindStr t.kind)
            t.announced) with
        prevAfter := some t.announced } := by
  have hprev : s.prevAfter.any (!·.isEmpty) = !(run (fun _ t => t.announced) [] l).isEmpty := by
    rw [← h.prevAfter]
    cases s.prevAfter <;> rfl
  have hsteps : pathSteps [] (l ++ [t]) =
      pathSteps [] l ++ [(run (fun _ t => t.announced) [] l, t)] := trace_concat ..
  have hvisible : visibleSteps base (l ++ [t]) =
      visibleSteps base l ++ [(run lastVisible base l, t)] := trace_concat ..
  by_cases hempty : t.announced = []
  · have hgain : gainsPlane plane (run lastVisible base l, t) = false := by
      simp [gainsPlane, hempty, onPlane]
    simp only [hempty, List.isEmpty_nil, if_true]
    refine ⟨?_, ?_, ?_, ?_, ?_⟩
    · simp [h.planePresent, lastVisible, hempty]
    · simp [hempty]
    · simp [h.visibility, hsteps, reannounces, hempty, or_imp, forall_and]
    · simp [h.planeAt, hvisible, List.find?_append, hgain]
    · simp [h.exact, returnKind, hempty]
  · have hne : t.announced.isEmpty = false := by simpa using hempty
    simp only [hne, Bool.false_eq_true, if_false, RestoreScan.observe]
    refine ⟨?_, ?_, ?_, ?_, ?_⟩
    · simp [lastVisible, hempty]
    · simp
    · have hcond : transitionKindStr t.kind = "Announcement" ∧ s.prevAfter.any (!·.isEmpty) = true ↔
          reannounces (run (fun _ t => t.announced) [] l, t) = true := by
        rw [kindStr_eq_announcement, hprev]
        simp [reannounces, hempty]
      simp only [hsteps, List.mem_append, List.mem_singleton, or_imp, forall_and, forall_eq,
        ← h.visibility]
      cases hre : reannounces (run (fun _ t => t.announced) [] l, t) with
      | true => simp [if_pos (hcond.2 hre)]
      | false => simp [if_neg (mt hcond.1 (by simp [hre]))]
    · rw [hvisible, List.find?_append, h.planePresent, h.planeAt]
      cases hfind : (visibleSteps base l).find? (gainsPlane plane) with
      | some x => simp
      | none =>
        by_cases hgain : gainsPlane plane (run lastVisible base l, t) = true
        · simp_all [gainsPlane]
        · simp_all [gainsPlane]
    · rw [List.filter_append, h.exact]
      by_cases hk : t.kind = .returnToBaseline
      · simp [hk, transitionKindStr, returnKind, hne]
      · have hk' : transitionKindStr t.kind ≠ "ReturnToBaseline" := mt kindStr_eq_return.1 hk
        simp [hk, hk', returnKind]

theorem scan_spec (plane base : List UInt32) (serdeTime : DateTime → String) (pred : TransitPredicate)
    (l : List RouteTransition) : ScanOf plane base serdeTime l
      (RestoreScan.scan (onPlane plane) base (l.map (recordOf serdeTime pred))) := by
  induction l using List.reverseRecOn with
  | nil => exact ⟨rfl, rfl, by simp [RestoreScan.scan, RestoreScan.init, pathSteps], rfl, rfl⟩
  | append_singleton l t ih =>
    rw [RestoreScan.scan, List.map_append, List.foldl_append, List.map_singleton, List.foldl_cons,
      List.foldl_nil, step_recordOf]
    exact ih.step t

/-! ## The evidence of a lifecycle -/

namespace LifecycleRun
variable (run : LifecycleRun) (opk : ObserverPrefixKey) (plane : List UInt32)

def replayed : List RouteTransition := streamTransitions opk run.transitions

/-- The transitions its record lists. -/
def listed : List RouteTransition := (run.replayed opk).filter (·.phase ≠ .cooldown)

def timeOf (t : RouteTransition) : String := run.serdeTime t.to_.timestamp

/-- The path before the first of them, or that of the first baseline instance. -/
def pathBaseline : List UInt32 :=
  let firstBefore := ((run.listed opk).head?.map fun t =>
    (t.fromState.map (·.attributes.asPath)).getD []).getD []
  if firstBefore.isEmpty then (run.lifecycle opk).baselinePath else firstBefore

/-- The first time that the stream comes back, or a path of it to the transit. -/
def firstReturn : Option (InstanceMap × RouteTransition) :=
  (timeline (run.baseline opk) (run.replayed opk)).find? (isReturn run.pred)

def evidence : StreamPathEvidence :=
  loadEvidence plane (lifecycleRecord run.serdeTime (run.lifecycle opk))

theorem items_transitions :
    (lifecycleRecord run.serdeTime (run.lifecycle opk)).items "transitions" =
      (run.listed opk).map (recordOf run.serdeTime run.pred) := by
  have hlisted : (run.lifecycle opk).transitions =
      (run.listed opk).map (lifecycleTransition run.pred) :=
    (Sim.run_records run.pred (run.baseline opk) (run.replayed opk)).1
  show (run.lifecycle opk).transitions.map (lifecycleTransitionRecord run.serdeTime) = _
  rw [hlisted, List.map_map]
  rfl

theorem restoration_time_record :
    ((lifecycleRecord run.serdeTime (run.lifecycle opk)).get "restoration_time").bind Json.asStr =
      (run.firstReturn opk).map (run.timeOf ·.2) := by
  have htime : (run.lifecycle opk).restorationTime =
      (run.firstReturn opk).map (·.2.to_.timestamp) :=
    Sim.run_restorationTime run.pred (run.baseline opk) (run.replayed opk)
  show (Json.ofOption (.str <| run.serdeTime ·) (run.lifecycle opk).restorationTime).asStr = _
  rw [htime]
  cases run.firstReturn opk <;> rfl

theorem evidenceBaseline_record :
    evidenceBaseline (lifecycleRecord run.serdeTime (run.lifecycle opk)) = run.pathBaseline opk := by
  have hbase : (lifecycleRecord run.serdeTime (run.lifecycle opk)).path "baseline_path" =
      (run.lifecycle opk).baselinePath := by
    rw [Json.path, path?_pathRecord rfl, Option.getD_some]
  have hbefore (t : RouteTransition) : (recordOf run.serdeTime run.pred t).path "before_path" =
      (t.fromState.map (·.attributes.asPath)).getD [] := by
    rw [Json.path, recordOf_before, Option.getD_some]
  rw [evidenceBaseline, items_transitions, hbase, pathBaseline, List.head?_map, Option.map_map]
  simp only [Function.comp_def, hbefore]

/-- What the artifact gives a stream. -/
theorem evidence_spec : ∃ s, ScanOf plane (run.pathBaseline opk) run.serdeTime (run.listed opk) s ∧
    (run.evidence opk plane).baselinePath = run.pathBaseline opk ∧
    (run.evidence opk plane).visibilityRestoredAt =
      ((run.firstReturn opk).map (run.timeOf ·.2) <|> s.visibility) ∧
    (run.evidence opk plane).equivalentRouteRestoredAt =
      ((run.firstReturn opk).map (run.timeOf ·.2)).filter (fun rt => s.exact.all (rt < ·)) ∧
    (run.evidence opk plane).reviewedPlaneRestoredAt = s.plane ∧
    (run.evidence opk plane).exactBaselineRestoredAt = s.exact := by
  refine ⟨_, scan_spec plane (run.pathBaseline opk) run.serdeTime run.pred (run.listed opk), ?_⟩
  have hchanged : (observedPaths ((run.listed opk).map (recordOf run.serdeTime run.pred))).find?
      (· ≠ run.pathBaseline opk) ≠ some (run.pathBaseline opk) := by
    intro h
    simpa using List.find?_some h
  simp only [evidence, loadEvidence, restoration_time_record, items_transitions,
    evidenceBaseline_record, true_and]
  refine ⟨rfl, congrArg (Option.filter · _) (funext fun rt => ?_), rfl, rfl⟩
  -- the changed path is never the baseline, so that test does nothing
  simp only [hchanged, ne_eq, not_false_eq_true, true_and, Bool.decide_eq_true]
  rfl

/-! ## The promise and the condition -/

/-- The restoration times are what the fields say they are. -/
structure TimesDocumented (ev : StreamPathEvidence) : Prop where
  visible : ev.visibilityRestoredAt.isSome = true ↔ ComesBack (run.baseline opk) (run.replayed opk)
  visibleAt : ∀ t, ev.visibilityRestoredAt = some t →
    ∃ x ∈ timeline (run.baseline opk) (run.replayed opk),
      restores x.1 x.2 = true ∧ run.timeOf x.2 = t
  equivalent : ∀ t, ev.equivalentRouteRestoredAt = some t →
    ∃ x ∈ run.replayed opk, run.timeOf x = t ∧ x.announced ≠ [] ∧ x.announced ≠ ev.baselinePath
  exact : (∃ x ∈ pathSteps ev.baselinePath (run.listed opk), regains ev.baselinePath x = true) →
    ev.exactBaselineRestoredAt.isSome = true
  planeAt : ev.reviewedPlaneRestoredAt =
    ((pathSteps ev.baselinePath (run.listed opk)).find? (gainsPlane plane)).map (run.timeOf ·.2)

/-- What the transitions have to be like. -/
structure TimesDerivable : Prop where
  /-- At the time of the first return, the stream became visible again. -/
  back : ∀ x, run.firstReturn opk = some x →
    ∃ y ∈ timeline (run.baseline opk) (run.replayed opk),
      restores y.1 y.2 = true ∧ run.timeOf y.2 = run.timeOf x.2
  /-- Without a return, nothing is announced where there is a path. -/
  quiet : run.firstReturn opk = none → ∀ x ∈ pathSteps [] (run.listed opk), reannounces x = false
  /-- At the time of the first return, unless the last return to the baseline is no later, a path
  other than the baseline is announced. -/
  other : ∀ x, run.firstReturn opk = some x →
    (∀ z, ((run.listed opk).filter returnKind).getLast? = some z → run.timeOf x.2 < run.timeOf z) →
    ∃ y ∈ run.replayed opk, run.timeOf y = run.timeOf x.2 ∧ y.announced ≠ [] ∧
      y.announced ≠ run.pathBaseline opk
  /-- Where the baseline path comes back, some transition is of the kind that says so. -/
  exact : (∃ x ∈ pathSteps (run.pathBaseline opk) (run.listed opk),
    regains (run.pathBaseline opk) x = true) → ∃ t ∈ run.listed opk, returnKind t = true
  /-- The plane first comes back when it does with the absences left out. -/
  planeAt : ((visibleSteps (run.pathBaseline opk) (run.listed opk)).find? (gainsPlane plane)).map
      (run.timeOf ·.2) =
    ((pathSteps (run.pathBaseline opk) (run.listed opk)).find? (gainsPlane plane)).map (run.timeOf ·.2)

variable {run opk plane}

theorem comesBack_of_firstReturn_eq_none (h : run.firstReturn opk = none) :
    ¬ ComesBack (run.baseline opk) (run.replayed opk) := by
  rintro ⟨x, hx, hback⟩
  have hnot := List.find?_eq_none.1 h x hx
  simp [isReturn, hback] at hnot

/-- The two clauses about visibility. -/
theorem visible_iff {s : RestoreScan} {vis : Option String}
    (hscan : s.visibility = none ↔ ∀ x ∈ pathSteps [] (run.listed opk), reannounces x = false)
    (hvis : vis = ((run.firstReturn opk).map (run.timeOf ·.2) <|> s.visibility)) :
    ((vis.isSome = true ↔ ComesBack (run.baseline opk) (run.replayed opk)) ∧
      ∀ t, vis = some t → ∃ x ∈ timeline (run.baseline opk) (run.replayed opk),
        restores x.1 x.2 = true ∧ run.timeOf x.2 = t) ↔
    (∀ x, run.firstReturn opk = some x → ∃ y ∈ timeline (run.baseline opk) (run.replayed opk),
      restores y.1 y.2 = true ∧ run.timeOf y.2 = run.timeOf x.2) ∧
    (run.firstReturn opk = none → ∀ x ∈ pathSteps [] (run.listed opk), reannounces x = false) := by
  cases hfirst : run.firstReturn opk with
  | some x =>
    have hsome : vis = some (run.timeOf x.2) := by rw [hvis, hfirst]; rfl
    simp only [hsome, Option.isSome_some, true_iff, Option.some.injEq, forall_eq', reduceCtorEq,
      false_implies, and_true]
    constructor
    · exact fun h => h.2
    · rintro ⟨y, hy, hback, htime⟩
      exact ⟨⟨y, hy, hback⟩, y, hy, hback, htime⟩
  | none =>
    have hno := comesBack_of_firstReturn_eq_none hfirst
    have hscanned : vis = s.visibility := by rw [hvis, hfirst]; rfl
    simp only [hno, iff_false, reduceCtorEq, false_implies, implies_true, true_and, true_implies,
      Bool.not_eq_true, Option.isSome_eq_false_iff, Option.isNone_iff_eq_none, hscanned, ← hscan]
    constructor
    · exact fun h => h.1
    · intro hnone
      refine ⟨hnone, fun t ht => ?_⟩
      rw [hnone] at ht
      cases ht

/-- **The restoration times of a stream are what their fields say exactly on these transitions.** -/
theorem timesDocumented_iff :
    run.TimesDocumented opk plane (run.evidence opk plane) ↔ run.TimesDerivable opk plane := by
  obtain ⟨s, hs, hbase, hvis, hequiv, hplane, hexact⟩ := evidence_spec run opk plane
  have hvisible := visible_iff hs.visibility hvis
  have hother : (∀ t, (run.evidence opk plane).equivalentRouteRestoredAt = some t →
      ∃ x ∈ run.replayed opk, run.timeOf x = t ∧ x.announced ≠ [] ∧
        x.announced ≠ run.pathBaseline opk) ↔
      ∀ x, run.firstReturn opk = some x → (∀ z, ((run.listed opk).filter returnKind).getLast? =
        some z → run.timeOf x.2 < run.timeOf z) → ∃ y ∈ run.replayed opk,
          run.timeOf y = run.timeOf x.2 ∧ y.announced ≠ [] ∧ y.announced ≠ run.pathBaseline opk := by
    simp only [hequiv, hs.exact, Option.filter_eq_some_iff, Option.map_eq_some_iff,
      Option.all_eq_true, decide_eq_true_eq]
    constructor
    · intro h x hx hlater
      refine h _ ⟨⟨x, hx, rfl⟩, ?_⟩
      rintro _ ⟨z, hz, rfl⟩
      exact hlater z hz
    · rintro h t ⟨⟨x, hx, rfl⟩, hlater⟩
      exact h x hx fun z hz => hlater _ ⟨z, hz, rfl⟩
  have hreturn : (run.evidence opk plane).exactBaselineRestoredAt.isSome = true ↔
      ∃ t ∈ run.listed opk, returnKind t = true := by
    rw [hexact, hs.exact, Option.isSome_map, List.getLast?_isSome, ne_eq, List.filter_eq_nil_iff]
    push Not
    rfl
  constructor
  · rintro ⟨hv, hvAt, he, hb, hp⟩
    obtain ⟨hback, hquiet⟩ := hvisible.1 ⟨hv, hvAt⟩
    rw [hbase] at he hb hp
    refine ⟨hback, hquiet, hother.1 he, fun h => hreturn.1 (hb h), ?_⟩
    rw [← hp, hplane, hs.planeAt]
    rfl
  · rintro ⟨hback, hquiet, ho, hb, hp⟩
    obtain ⟨hv, hvAt⟩ := hvisible.2 ⟨hback, hquiet⟩
    refine ⟨hv, hvAt, ?_, ?_, ?_⟩ <;> rw [hbase]
    · exact hother.2 ho
    · exact fun h => hreturn.2 (hb h)
    · rw [← hp, hplane, hs.planeAt]
      rfl

/-! ## Through the index -/

/-- The artifact of the run. -/
def artifact (run : LifecycleRun) (eventId : String) : Json :=
  lifecycleArtifact run.serdeTime eventId
    (buildLifecycles run.transitions run.cohort run.cooldownEnd run.pred)

/-- How a stream is looked up. -/
def indexKey (opk : ObserverPrefixKey) : String × String × String :=
  (opk.collector, opk.peerIp.display, opk.pfx)

theorem indexKey_injective : Function.Injective indexKey := by
  rintro ⟨c, p, x⟩ ⟨c', p', x'⟩ h
  simp only [indexKey, Prod.mk.injEq, IpAddr.display_injective.eq_iff] at h
  simp [h]

theorem loadArtifact_artifact (planeAsns : String → List UInt32) (eventId : String) :
    loadArtifact planeAsns (run.artifact eventId) = some (eventId, fun key =>
      (((buildLifecycles run.transitions run.cohort run.cooldownEnd run.pred).map fun lc =>
        ((lc.collector, lc.peerIp, lc.pfx), loadEvidence (planeAsns eventId)
          (lifecycleRecord run.serdeTime lc))).reverse.find? (·.1 = key)).map Prod.snd) := by
  have hrows : ((buildLifecycles run.transitions run.cohort run.cooldownEnd run.pred).map
      (lifecycleRecord run.serdeTime)).filterMap (loadStream (planeAsns eventId)) =
      (buildLifecycles run.transitions run.cohort run.cooldownEnd run.pred).map fun lc =>
        ((lc.collector, lc.peerIp, lc.pfx), loadEvidence (planeAsns eventId)
          (lifecycleRecord run.serdeTime lc)) := by
    rw [List.filterMap_map, ← List.filterMap_eq_map]
    rfl
  rw [← hrows]
  rfl

/-- The last artifact of an event gives the index its streams. -/
theorem loadIndex_artifact (planeAsns : String → List UInt32) (others : List Json) (eventId : String)
    (hopk : opk ∈ run.streams) :
    loadIndex planeAsns (others ++ [run.artifact eventId]) eventId (indexKey opk) =
      some (run.evidence opk (planeAsns eventId)) := by
  simp only [loadIndex, List.filterMap_append, List.filterMap_cons, loadArtifact_artifact,
    List.filterMap_nil, List.reverse_append, List.reverse_singleton, List.singleton_append,
    List.find?_cons_of_pos, decide_true, Option.map_some, Option.getD_some]
  have hkey (opk' : ObserverPrefixKey) : ((run.lifecycle opk').collector,
      (run.lifecycle opk').peerIp, (run.lifecycle opk').pfx) = indexKey opk' := rfl
  have hmem (lc : StreamLifecycle) : lc ∈ buildLifecycles run.transitions run.cohort
      run.cooldownEnd run.pred ↔ ∃ opk' ∈ run.streams, run.lifecycle opk' = lc := by
    rw [buildLifecycles, mem_sortBy, List.mem_map]
    rfl
  cases hfind : ((buildLifecycles run.transitions run.cohort run.cooldownEnd run.pred).map fun lc =>
      ((lc.collector, lc.peerIp, lc.pfx), loadEvidence (planeAsns eventId)
        (lifecycleRecord run.serdeTime lc))).reverse.find? (·.1 = indexKey opk) with
  | none =>
    have hnot := List.find?_eq_none.1 hfind _ (List.mem_reverse.2
      (List.mem_map_of_mem ((hmem _).2 ⟨opk, hopk, rfl⟩)))
    exact absurd (decide_eq_true (hkey opk)) hnot
  | some row =>
    obtain ⟨lc, hlc, rfl⟩ := List.mem_map.1 (List.mem_reverse.1 (List.mem_of_find?_eq_some hfind))
    obtain ⟨opk', -, rfl⟩ := (hmem lc).1 hlc
    have hrow := List.find?_some hfind
    have hsame : indexKey opk' = indexKey opk := of_decide_eq_true hrow
    rw [indexKey_injective hsame]
    rfl

/-- **The restoration times of an artifact, stream by stream.** -/
theorem restoreTimes_iff (run : LifecycleRun) (planeAsns : String → List UInt32) (others : List Json)
    (eventId : String) :
    (∀ opk ∈ run.streams, ∃ ev,
      loadIndex planeAsns (others ++ [run.artifact eventId]) eventId (indexKey opk) = some ev ∧
        run.TimesDocumented opk (planeAsns eventId) ev) ↔
      ∀ opk ∈ run.streams, run.TimesDerivable opk (planeAsns eventId) := by
  refine forall₂_congr fun opk hopk => ?_
  rw [loadIndex_artifact planeAsns others eventId hopk]
  simp only [Option.some.injEq, exists_eq_left']
  exact timesDocumented_iff

end LifecycleRun

/-! ### Lost, back on the baseline path, lost again -/

/-- **Bug**: the stream comes back on its baseline path after a withdrawal. No return to the baseline
is noted, and the time counts as that of another path. -/
theorem return_after_withdrawal_is_not_exact :
    ¬ ∀ opk ∈ lostAgainRun.streams, ∃ ev,
      loadIndex (fun _ => [1]) [lostAgainRun.artifact "EV"] "EV" (LifecycleRun.indexKey opk) =
        some ev ∧ lostAgainRun.TimesDocumented opk [1] ev := by
  intro h
  obtain ⟨ev, hev, htimes⟩ := h sampleStream (by decide)
  obtain rfl := Option.some.inj (hev.symm.trans
    (LifecycleRun.loadIndex_artifact (fun _ => [1]) [] "EV" (by decide)))
  have hexact : (lostAgainRun.evidence sampleStream [1]).exactBaselineRestoredAt.isSome = true :=
    htimes.exact (by decide +kernel)
  revert hexact
  decide +kernel

end Inim
