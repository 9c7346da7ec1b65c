import Inim.Catalog.Comparison
import Inim.Catalog.Import
import Inim.Catalog.PlanHash

/-!
# Which runs cover a claim? (`case_study_compare.rs:154-181`, `:271-294`, `import.rs:468-532`)

"A narrow pilot run must never fabricate observations for windows it did not cover." The window of a
run is looked for under `analysis_window` of its plan's payload, and a run without one covers
everything. `build_plan_record` writes no such field, so every run of such a plan does
(`coveringRuns_fromPlans`) and the guard is without effect.

| here | there |
| --- | --- |
| `InstantWindow`  | a point, or a half-open span between two instants |
| `reviewedWindow` | `Manifest::event_window`: what the run analysed |
| `usedRuns`       | `covering`: what the finding of a claim is made from |
-/

namespace Inim

open Inim.Lib

/-! ## Windows as instants -/

inductive InstantWindow where
  | point (t : DateTime)
  | span (start stop : DateTime)
deriving DecidableEq, Repr

/-- The window from `s` up to `e` has an instant of `w`. -/
def InstantWindow.Meets (s e : DateTime) : InstantWindow → Prop
  | .point t => s ≤ t ∧ t < e
  | .span start stop => s < stop ∧ start < e

instance (s e : DateTime) : (w : InstantWindow) → Decidable (w.Meets s e)
  | .point _ => inferInstanceAs (Decidable (_ ∧ _))
  | .span _ _ => inferInstanceAs (Decidable (_ ∧ _))

/-- The instants a claim's anchor is about. -/
def claimInstants (env : ComparisonEnv) (phases : List CaseStudyPhase) (c : CaseStudyClaim) :
    Option InstantWindow :=
  match claimAnchor env c with
  | none => none
  | some (.point t) => (env.rfc3339 t).toOption.map .point
  | some (.phase n) => do
    let p ← phases[n]?
    let start ← (env.rfc3339 p.startUtc).toOption
    let stop ← (env.rfc3339 p.endUtc).toOption
    return .span start stop

theorem claimWindow_of_instants {env : ComparisonEnv} {phases : List CaseStudyPhase}
    {c : CaseStudyClaim} {w : InstantWindow} (h : claimInstants env phases c = some w) :
    ∃ ws we, claimWindow env phases c = some (ws, we) := by
  unfold claimInstants at h
  unfold claimWindow
  cases ha : claimAnchor env c with
  | none =>
    rw [ha] at h
    cases h
  | some anchor =>
    rw [ha] at h
    cases anchor with
    | point t => exact ⟨t, t, rfl⟩
    | phase n =>
      obtain ⟨p, hp, -⟩ := Option.bind_eq_some_iff.1 h
      exact ⟨p.startUtc, p.endUtc, by rw [Option.map_eq_some_iff]; exact ⟨p, hp, rfl⟩⟩

/-! ## What a finding is made from -/

/-- A claim about public BGP: no process finding and not classified as invisible. -/
def CaseStudyClaim.Compared (c : CaseStudyClaim) : Prop :=
  c.claimType ≠ processFinding ∧ c.observability ≠ notVisible

def usedRuns (env : ComparisonEnv) (cs : CaseStudy) (c : CaseStudyClaim) : List ComparedRun :=
  match claimWindow env cs.phases c with
  | some (ws, we) => coveringRuns env cs.runs ws we
  | none => cs.runs

/-- The other runs do not matter. -/
theorem claimFinding_usedRuns (env : ComparisonEnv) (cs : CaseStudy) (c : CaseStudyClaim) :
    claimFinding env { cs with runs := usedRuns env cs c } c = claimFinding env cs c := by
  unfold claimFinding usedRuns
  cases claimWindow env cs.phases c with
  | none => rfl
  | some w =>
    have hfilter : coveringRuns env (coveringRuns env cs.runs w.1 w.2) w.1 w.2 =
        coveringRuns env cs.runs w.1 w.2 := 
      List.filter_eq_self.2 fun r hr => (List.mem_filter.1 hr).2
    exact congrArg (fun runs => windowFinding w.1 w.2 (runs.map (summarizeRun cs.phases))) hfilter

/-! ## Plans of `build_plan_record` -/

/-- The members of a plan's payload. -/
def planMembers (m : Manifest) (originMappingReviewed : Bool) : List (String × String) :=
  let s := planStatus m originMappingReviewed
  [("block_reason", jsonOption jsonString s.2), ("event_id", jsonString m.eventId),
    ("manifest_revision", toString m.revision), ("manifest_schema", toString m.schemaVersion),
    ("origin_asns", jsonArray (m.target.originAsns.map toString)), ("status", jsonString s.1),
    ("transit_predicate_status", jsonString m.target.transitPredicate.status.debug)]

theorem planPayload_eq (m : Manifest) (originMappingReviewed : Bool) :
    planPayload m originMappingReviewed = jsonObject (planMembers m originMappingReviewed) := rfl

/-- The linked runs come from plans of their manifests. -/
def FromPlans (ienv : ImportEnv) (manifestOf : Int → Manifest) (runs : List ComparedRun) : Prop :=
  ∀ r ∈ runs, ∃ revision reviewed,
    r.planPayload = some (buildPlanRecord ienv revision (manifestOf r.runId) reviewed).payload

/-- serde_json reads the objects of these plans back as they were written. -/
def ReadsPlans (env : ComparisonEnv) (manifestOf : Int → Manifest) (runs : List ComparedRun) : Prop :=
  ∀ r ∈ runs, ∀ reviewed,
    env.members (jsonObject (planMembers (manifestOf r.runId) reviewed)) =
      some (planMembers (manifestOf r.runId) reviewed)

/-- What a run of the manifest analyses. -/
def reviewedWindow (env : ComparisonEnv) (m : Manifest) : Option (DateTime × DateTime) := do
  let start ← (m.eventStart env.rfc3339).toOption
  let stop ← (m.eventEnd env.rfc3339).toOption
  return (start, stop)

/-- The reviewed window of the run meets `w`. -/
def ReviewedMeets (env : ComparisonEnv) (manifestOf : Int → Manifest) (w : InstantWindow)
    (r : ComparedRun) : Prop :=
  ∃ s e, reviewedWindow env (manifestOf r.runId) = some (s, e) ∧ w.Meets s e

/-- Claims are only observed by runs whose reviewed window meets theirs; where there is none, there
is no conclusion. -/
def ObservesCovered (env : ComparisonEnv) (manifestOf : Int → Manifest) (cs : CaseStudy) : Prop :=
  ∀ c ∈ cs.claims, c.Compared → ∀ w, claimInstants env cs.phases c = some w →
    (∀ r ∈ usedRuns env cs c, ReviewedMeets env manifestOf w r) ∧
    ((∀ r ∈ cs.runs, ¬ ReviewedMeets env manifestOf w r) →
      (comparisonRow env cs c).interpretation = .indeterminate ∧
        (comparisonRow env cs c).contributingRunIds = [])

section
variable {env : ComparisonEnv} {ienv : ImportEnv} {manifestOf : Int → Manifest} {cs : CaseStudy}

theorem runWindow_fromPlans {runs : List ComparedRun} (hplans : FromPlans ienv manifestOf runs)
    (hread : ReadsPlans env manifestOf runs) {r : ComparedRun} (hr : r ∈ runs) :
    runWindow env r = none := by
  obtain ⟨revision, reviewed, hpayload⟩ := hplans r hr
  rw [runWindow, hpayload]
  change planWindow env (planPayload (manifestOf r.runId) reviewed) = none
  rw [planPayload_eq, planWindow, hread r hr reviewed]
  rfl

/-- The guard lets every run pass. -/
theorem coveringRuns_fromPlans (hplans : FromPlans ienv manifestOf cs.runs)
    (hread : ReadsPlans env manifestOf cs.runs) (ws we : String) :
    coveringRuns env cs.runs ws we = cs.runs := by
  refine List.filter_eq_self.2 fun r hr => ?_
  rw [runWindow_fromPlans hplans hread hr]
  rfl

/-- The claims are observed by the right runs exactly where every linked run is one. -/
theorem observesCovered_iff (hplans : FromPlans ienv manifestOf cs.runs)
    (hread : ReadsPlans env manifestOf cs.runs) :
    ObservesCovered env manifestOf cs ↔
      ∀ c ∈ cs.claims, c.Compared → ∀ w, claimInstants env cs.phases c = some w →
        ∀ r ∈ cs.runs, ReviewedMeets env manifestOf w r := by
  have hused {c : CaseStudyClaim} {w : InstantWindow}
      (hw : claimInstants env cs.phases c = some w) : usedRuns env cs c = cs.runs := by
    obtain ⟨ws, we, hwindow⟩ := claimWindow_of_instants hw
    rw [usedRuns, hwindow]
    exact coveringRuns_fromPlans hplans hread ws we
  constructor
  · intro h c hc hcompared w hw r hr
    exact (h c hc hcompared w hw).1 r (by rwa [hused hw])
  · intro h c hc hcompared w hw
    refine ⟨fun r hr => h c hc hcompared w hw r (by rwa [← hused hw]), fun hnone => ?_⟩
    have hruns : cs.runs = [] :=
      List.eq_nil_iff_forall_not_mem.2 fun r hr => hnone r hr (h c hc hcompared w hw r hr)
    rw [comparisonRow, if_neg hcompared.2, if_pos hruns]
    exact ⟨rfl, rfl⟩

end

/-! ## A pilot run -/

namespace PilotRun

/-- The run analyses 04:00 to 10:00. -/
def manifest : Manifest where
  eventId := "EVENT-1"
  revision := 1
  schemaVersion := 2
  eventWindowUtc := ⟨"2019-08-21T04:00:00Z", "2019-08-21T10:00:00Z"⟩
  isOpen := false
  analysisEndUtc := none
  warmupMinutes := 30
  cooldownMinutes := 15
  target := ⟨"t", [3333], none, none,
    ⟨.reviewed, some (.containsAny [11537]), some ⟨"s", "a", "d"⟩⟩⟩
  collectors := ["route-views2"]
  sourceFamily := "RouteViews"
  analystNotes := []

def ienv : ImportEnv where
  parse _ := .ok manifest
  sha256 := id
  ticketTitle _ := none
  excluded _ := false

/-- The times of the example, in seconds. -/
def times : List (String × Int) :=
  [("2019-08-21T04:00:00Z", 1566360000), ("2019-08-21T05:00:00Z", 1566363600),
    ("2019-08-21T10:00:00Z", 1566381600), ("2019-08-21T11:00:00Z", 1566385200),
    ("2019-08-21T14:00:00Z", 1566396000), ("2019-08-21T04:00:00+00:00", 1566360000)]

def env : ComparisonEnv where
  rfc3339 s :=
    match times.lookup s with
    | some t => .ok (t * 1000000000)
    | none => .error "input contains invalid characters"
  members s :=
    if s = jsonObject (planMembers manifest true) then some (planMembers manifest true)
    else if s = jsonObject (planMembers manifest false) then some (planMembers manifest false)
    else none
  asStr _ := none

def phases : List CaseStudyPhase :=
  [⟨"2019-08-21T04:00:00Z", "2019-08-21T10:00:00Z"⟩,
    ⟨"2019-08-21T10:00:00Z", "2019-08-21T14:00:00Z"⟩]

def claimOf (anchor : String) : CaseStudyClaim where
  id := 1
  claimType := "ReportedTimeline"
  claimText := "routes were withdrawn"
  qualification := none
  timeOrPhase := some anchor
  observability := "PotentiallyVisibleInPublicBgp"
  observabilityRationale := "exported routes"

/-- One run that saw nothing, and one claim. -/
def study (anchor : String) : CaseStudy where
  claims := [claimOf anchor]
  phases := phases
  runs := [⟨7, some (planPayload manifest true), []⟩]

def manifestOf (_ : Int) : Manifest := manifest

theorem fromPlans (anchor : String) : FromPlans ienv manifestOf (study anchor).runs := by
  intro r hr
  obtain rfl := List.mem_singleton.1 hr
  exact ⟨0, true, rfl⟩

theorem readsPlans (anchor : String) : ReadsPlans env manifestOf (study anchor).runs := by
  have hboth : ∀ reviewed, env.members (jsonObject (planMembers manifest reviewed)) =
      some (planMembers manifest reviewed) := by decide +kernel
  exact fun _ _ reviewed => hboth reviewed

end PilotRun

open PilotRun in
theorem observesCovered_pilotRun :
    ObservesCovered env manifestOf (study "phase:0") ↔
      ∀ c ∈ (study "phase:0").claims, c.Compared → ∀ w,
        claimInstants env (study "phase:0").phases c = some w →
          ∀ r ∈ (study "phase:0").runs, ReviewedMeets env manifestOf w r :=
  observesCovered_iff (fromPlans _) (readsPlans _)

open PilotRun in
/-- **Bug**: a run that ended at 10:00 is said to have observed nothing from then on. -/
theorem pilot_run_concludes_for_later_phase :
    ¬ ∀ (env : ComparisonEnv) (ienv : ImportEnv) (manifestOf : Int → Manifest) (cs : CaseStudy),
      FromPlans ienv manifestOf cs.runs → ReadsPlans env manifestOf cs.runs →
        ObservesCovered env manifestOf cs := by
  intro h
  have hlaw := h env ienv manifestOf (study "phase:1") (fromPlans _) (readsPlans _)
    (claimOf "phase:1") List.mem_cons_self
    ⟨by decide +kernel, by decide +kernel⟩
    (.span (1566381600 * 1000000000) (1566396000 * 1000000000)) (by decide +kernel)
  have hmisses : ∀ r ∈ (study "phase:1").runs, ¬ ReviewedMeets env manifestOf
      (.span (1566381600 * 1000000000) (1566396000 * 1000000000)) r := by
    rintro r hr ⟨s, e, hwindow, hmeets⟩
    have hreviewed : reviewedWindow env manifest =
        some (1566360000 * 1000000000, 1566381600 * 1000000000) := by decide +kernel
    obtain ⟨rfl, rfl⟩ := Prod.mk.inj (Option.some.inj (hreviewed.symm.trans hwindow))
    revert hmeets
    decide
  have hrow : (comparisonRow env (study "phase:1") (claimOf "phase:1")).interpretation =
      .noObservedCounterpart := by decide +kernel
  rw [hrow] at hlaw
  cases (hlaw.2 hmisses).1

end Inim
