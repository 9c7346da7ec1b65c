import Inim.Catalog.Import
import Inim.Catalog.PlanHash
import Inim.Lib.Guards
/-!
# Two planners (`plan.rs:88-208`, `catalog/import.rs:468-532`)

| here | there |
| --- | --- |
| `AnalysisBlockReason`, `AnalysisPlanStatus` | `plan.rs:88-103` |
| `planAnalysis`, `planFromManifest`          | `plan.rs:119`, `:158` |
| `planStatus`                                | `build_plan_record` (`import.rs:468`), in `Import` |
| `Manifest.eventStart`, `Manifest.eventEnd`  | `Manifest::event_window` (`manifest.rs:190`), in `PlanHash` |

`plan_from_manifest` decides for the command line, `build_plan_record` for the catalog. The first
parses the window and compares nothing, the second does not look at it: an inverted window is
`Ready` for both (`InvalidAnalysisWindow` is no function's result, `never_invalidAnalysisWindow`),
and one that does not parse is an error for one and `Ready` for the other. A declared end of an
open event is taken over its cutoff.
-/

namespace Inim

open Lib

inductive TicketLifecycle where
  | closed
  | open_
deriving DecidableEq, Repr

inductive AnalysisBlockReason where
  | missingReviewedEntityMapping
  | missingReviewedTransitPredicate
  | missingAnalysisEndForOpenTicket
  | invalidAnalysisWindow
  | unsupportedManifestRevision
deriving DecidableEq, Repr

inductive AnalysisPlanStatus where
  | ready
  | blocked (reason : AnalysisBlockReason)
deriving DecidableEq, Repr

structure EventWindow where
  start : DateTime
  stop : DateTime
deriving DecidableEq, Repr

/-- `ε` is the expectation, which a plan hands on. -/
structure AnalysisPlan (ε : Type) where
  eventId : String
  expectation : ε
  lifecycle : TicketLifecycle
  analysisWindow : EventWindow
  entityOriginAsns : List UInt32
  transitPredicate : TransitPredicateMapping
  status : AnalysisPlanStatus
deriving DecidableEq, Repr

section Plan
variable {ε : Type} (parse : String → Except String DateTime) (eventId : String) (expectation : ε)

def planAnalysis (lifecycle : TicketLifecycle) (analysisWindow : EventWindow)
    (entityOriginAsns : List UInt32) (transitPredicate : TransitPredicateMapping) : AnalysisPlan ε where
  eventId := eventId
  expectation := expectation
  lifecycle := lifecycle
  analysisWindow := analysisWindow
  entityOriginAsns := entityOriginAsns
  transitPredicate := transitPredicate
  status :=
    if entityOriginAsns.isEmpty then .blocked .missingReviewedEntityMapping
    else if !transitPredicate.isReady then .blocked .missingReviewedTransitPredicate
    else .ready

def planFromManifest (m : Manifest) : Except String (AnalysisPlan ε) :=
  let lifecycle : TicketLifecycle := if m.isOpen then .open_ else .closed
  if m.eventWindowUtc.stop.isEmpty then do
    let start ← m.eventStart parse
    match m.analysisEndUtc.filter fun s => !s.isEmpty with
    | some s =>
      -- the cutoff as it is written; `event_window` trims it
      let stop ← (parse s).mapError ("invalid analysis_end_utc: " ++ ·)
      return planAnalysis eventId expectation lifecycle ⟨start, stop⟩ m.target.originAsns
        m.target.transitPredicate
    | none =>
      return {
        eventId := eventId
        expectation := expectation
        lifecycle := lifecycle
        analysisWindow := ⟨start, start⟩
        entityOriginAsns := m.target.originAsns
        transitPredicate := m.target.transitPredicate
        status := .blocked .missingAnalysisEndForOpenTicket }
  else do
    let start ← m.eventStart parse
    let stop ← m.eventEnd parse
    return planAnalysis eventId expectation lifecycle ⟨start, stop⟩ m.target.originAsns
      m.target.transitPredicate

end Plan

/-! ## When a manifest is ready -/

section Ready
variable {parse : String → Except String DateTime} {m m' : Manifest}

/-- What a manifest that loads has. -/
theorem validate_ok (h : m.validate = .ok m') :
    m' = m ∧ m.target.originAsns ≠ [] ∧ (m.isOpen = true → m.hasCutoff = true) := by
  unfold Manifest.validate at h
  obtain ⟨-, h⟩ := guard_ok h
  obtain ⟨-, h⟩ := guard_ok h
  obtain ⟨-, h⟩ := guard_ok h
  obtain ⟨-, h⟩ := guard_ok h
  obtain ⟨-, h⟩ := guard_ok h
  obtain ⟨hcutoff, h⟩ := guard_ok h
  obtain ⟨-, h⟩ := guard_ok h
  obtain ⟨-, h⟩ := guard_ok h
  obtain ⟨horigins, h⟩ := guard_ok h
  obtain ⟨-, -, h⟩ := bind_ok h
  cases h
  refine ⟨rfl, by simpa using horigins, fun hopen => ?_⟩
  simpa [hopen] using hcutoff

/-- The end `plan_from_manifest` takes. -/
def Manifest.planEnd (parse : String → Except String DateTime) (m : Manifest) :
    Except String DateTime :=
  if m.eventWindowUtc.stop.isEmpty then
    match m.analysisEndUtc.filter fun s => !s.isEmpty with
    | some s => (parse s).mapError ("invalid analysis_end_utc: " ++ ·)
    | none => .error "MissingAnalysisEndForOpenTicket"
  else m.eventEnd parse

theorem planAnalysis_ready_iff {ε : Type} {eventId : String} {expectation : ε}
    {lifecycle : TicketLifecycle} {w : EventWindow} :
    (planAnalysis eventId expectation lifecycle w m.target.originAsns
        m.target.transitPredicate).status = .ready ↔
      m.target.originAsns ≠ [] ∧ m.target.transitPredicate.isReady = true := by
  simp only [planAnalysis]
  split_ifs <;> simp_all

/-- A plan from two times, the second of which comes from the window or the cutoff. -/
theorem ready_of_times_iff {ε : Type} {eventId : String} {expectation : ε}
    {plan : AnalysisPlan ε} {lifecycle : TicketLifecycle} {planEnd : Except String DateTime} :
    ((do
        let start ← m.eventStart parse
        let stop ← planEnd
        return planAnalysis eventId expectation lifecycle ⟨start, stop⟩ m.target.originAsns
          m.target.transitPredicate) = Except.ok plan ∧ plan.status = .ready) ↔
      ∃ start stop, m.eventStart parse = .ok start ∧ planEnd = .ok stop ∧
        m.target.originAsns ≠ [] ∧ m.target.transitPredicate.isReady = true ∧
        plan = planAnalysis eventId expectation lifecycle ⟨start, stop⟩
          m.target.originAsns m.target.transitPredicate := by
  constructor
  · rintro ⟨h, hstatus⟩
    obtain ⟨start, hstart, h⟩ := bind_ok h
    obtain ⟨stop, hstop, h⟩ := bind_ok h
    cases h
    obtain ⟨ho, hp⟩ := planAnalysis_ready_iff.1 hstatus
    exact ⟨start, stop, hstart, hstop, ho, hp, rfl⟩
  · rintro ⟨start, stop, hstart, hstop, ho, hp, rfl⟩
    refine ⟨?_, planAnalysis_ready_iff.2 ⟨ho, hp⟩⟩
    rw [hstart, hstop]
    rfl

/-- A plan is ready when there are origins, a predicate and two times that parse. -/
theorem planFromManifest_ready_iff {ε : Type} {eventId : String} {expectation : ε}
    {plan : AnalysisPlan ε} :
    planFromManifest parse eventId expectation m = .ok plan ∧ plan.status = .ready ↔
      ∃ start stop, m.eventStart parse = .ok start ∧ m.planEnd parse = .ok stop ∧
        m.target.originAsns ≠ [] ∧ m.target.transitPredicate.isReady = true ∧
        plan = planAnalysis eventId expectation (if m.isOpen then .open_ else .closed) ⟨start, stop⟩
          m.target.originAsns m.target.transitPredicate := by
  unfold planFromManifest Manifest.planEnd
  dsimp only
  by_cases hblank : m.eventWindowUtc.stop.isEmpty = true
  · simp only [hblank, if_true]
    cases hend : m.analysisEndUtc.filter fun s => !s.isEmpty with
    | some s => exact ready_of_times_iff
    | none =>
      constructor
      · rintro ⟨h, hstatus⟩
        obtain ⟨start, -, h⟩ := bind_ok h
        cases h
        cases hstatus
      · rintro ⟨start, stop, -, hstop, -⟩
        cases hstop
  · simp only [hblank, Bool.false_eq_true, if_false]
    exact ready_of_times_iff

/-- The catalog's planner asks for neither of the times. -/
theorem planStatus_ready_iff (h : m.validate = .ok m) (reviewed : Bool) :
    (planStatus m reviewed).1 = "Ready" ↔
      reviewed = true ∧ m.target.transitPredicate.isReady = true := by
  obtain ⟨-, horigins, hcutoff⟩ := validate_ok h
  have horigins : m.target.originAsns.isEmpty = false := by simpa using horigins
  have hopen : (m.isOpen && !m.hasCutoff) = false := by
    cases ho : m.isOpen with
    | false => rfl
    | true => simp [hcutoff ho]
  simp only [planStatus, horigins, hopen, Bool.not_false, Bool.and_true, Bool.or_false]
  cases reviewed <;> cases m.target.transitPredicate.isReady <;> simp

/-- No manifest is blocked for its window, nor for its revision. -/
theorem never_invalidAnalysisWindow {ε : Type} {eventId : String} {expectation : ε}
    {plan : AnalysisPlan ε} (h : planFromManifest parse eventId expectation m = .ok plan) :
    plan.status ≠ .blocked .invalidAnalysisWindow ∧
      plan.status ≠ .blocked .unsupportedManifestRevision := by
  have hanalysis (lifecycle : TicketLifecycle) (w : EventWindow) :
      (planAnalysis eventId expectation lifecycle w m.target.originAsns
        m.target.transitPredicate).status ≠ .blocked .invalidAnalysisWindow ∧
      (planAnalysis eventId expectation lifecycle w m.target.originAsns
        m.target.transitPredicate).status ≠ .blocked .unsupportedManifestRevision := by
    simp only [planAnalysis]
    split_ifs <;> simp
  unfold planFromManifest at h
  dsimp only at h
  split at h
  · obtain ⟨start, -, h⟩ := bind_ok h
    split at h
    · obtain ⟨stop, -, h⟩ := bind_ok h
      cases h
      exact hanalysis ..
    · cases h
      simp
  · obtain ⟨start, -, h⟩ := bind_ok h
    obtain ⟨stop, -, h⟩ := bind_ok h
    cases h
    exact hanalysis ..

end Ready

/-! ## The planners' windows -/

section Law
variable (parse : String → Except String DateTime)

/-- The reviewed cutoff. -/
def Manifest.cutoff (m : Manifest) : Option DateTime :=
  m.analysisEndUtc.bind fun c => (parse (trim c)).toOption

/-- From `start` to `stop` there is time to analyse, within the cutoff if the event is open. -/
def Manifest.Admits (m : Manifest) (start stop : DateTime) : Prop :=
  start < stop ∧ (m.isOpen = true → ∃ cutoff, m.cutoff parse = some cutoff ∧ stop ≤ cutoff)

variable {ε : Type} (eventId : String) (expectation : ε) (m : Manifest) (reviewed : Bool)

/-- What `Ready` promises; `reviewed` is what the caller of `build_plan_record` says of the
mapping. -/
structure ReadinessSound : Prop where
  /-- The window of a plan that is ready. -/
  plan : ∀ plan, planFromManifest parse eventId expectation m = .ok plan → plan.status = .ready →
    m.Admits parse plan.analysisWindow.start plan.analysisWindow.stop
  /-- The window of the manifest of a row that is ready. -/
  record : (planStatus m reviewed).1 = "Ready" → ∃ start stop, m.eventStart parse = .ok start ∧
    m.eventEnd parse = .ok stop ∧ m.Admits parse start stop
  agree : (∃ plan, planFromManifest parse eventId expectation m = .ok plan ∧ plan.status = .ready) ↔
    (planStatus m reviewed).1 = "Ready"

variable {parse eventId expectation m reviewed}

/-- **`Ready` is sound iff** there is no executable predicate; or the mapping is reviewed, the times
of the window parse, and the window is neither empty nor inverted nor, for an open event, longer
than its cutoff allows; or the mapping is not reviewed and the window does not parse. -/
theorem readinessSound_iff (h : m.validate = .ok m) :
    ReadinessSound parse eventId expectation m reviewed ↔
      (m.target.transitPredicate.isReady = true → if reviewed then
        ∃ start stop stop', m.eventStart parse = .ok start ∧ m.planEnd parse = .ok stop ∧
          m.eventEnd parse = .ok stop' ∧ m.Admits parse start stop ∧ m.Admits parse start stop'
      else ¬ ∃ start stop, m.eventStart parse = .ok start ∧ m.planEnd parse = .ok stop) := by
  have horigins := (validate_ok h).2.1
  have hplan : (∃ plan, planFromManifest parse eventId expectation m = .ok plan ∧
      plan.status = .ready) ↔ ∃ start stop, m.eventStart parse = .ok start ∧
        m.planEnd parse = .ok stop ∧ m.target.transitPredicate.isReady = true := by
    simp only [planFromManifest_ready_iff]
    constructor
    · rintro ⟨plan, start, stop, hstart, hstop, -, hp, -⟩
      exact ⟨start, stop, hstart, hstop, hp⟩
    · rintro ⟨start, stop, hstart, hstop, hp⟩
      exact ⟨_, start, stop, hstart, hstop, horigins, hp, rfl⟩
  constructor
  · rintro ⟨hwindow, hrecord, hagree⟩ hp
    rw [hplan, planStatus_ready_iff h] at hagree
    cases reviewed with
    | true =>
      obtain ⟨start, stop, hstart, hstop, -⟩ := hagree.2 ⟨rfl, hp⟩
      obtain ⟨start', stop', hstart', hstop', hadmits⟩ :=
        hrecord ((planStatus_ready_iff h true).2 ⟨rfl, hp⟩)
      rw [hstart] at hstart'
      cases hstart'
      obtain ⟨hok, hstatus⟩ := (planFromManifest_ready_iff (ε := ε)).2
        ⟨start, stop, hstart, hstop, horigins, hp, rfl⟩
      exact ⟨start, stop, stop', hstart, hstop, hstop', hwindow _ hok hstatus, hadmits⟩
    | false =>
      rintro ⟨start, stop, hstart, hstop⟩
      exact Bool.false_ne_true (hagree.1 ⟨start, stop, hstart, hstop, hp⟩).1
  · intro hcond
    refine ⟨fun plan hok hstatus => ?_, fun hready => ?_, ?_⟩
    · obtain ⟨start, stop, hstart, hstop, -, hp, rfl⟩ :=
        planFromManifest_ready_iff.1 ⟨hok, hstatus⟩
      have hcond := hcond hp
      cases reviewed with
      | true =>
        obtain ⟨s, e, e', hs, he, -, hadmits, -⟩ := hcond
        rw [hstart] at hs
        rw [hstop] at he
        cases hs
        cases he
        exact hadmits
      | false => exact absurd ⟨start, stop, hstart, hstop⟩ hcond
    · obtain ⟨rfl, hp⟩ := (planStatus_ready_iff h reviewed).1 hready
      obtain ⟨start, -, stop', hstart, -, hstop', -, hadmits⟩ := hcond hp
      exact ⟨start, stop', hstart, hstop', hadmits⟩
    · rw [hplan, planStatus_ready_iff h]
      constructor
      · rintro ⟨start, stop, hstart, hstop, hp⟩
        refine ⟨?_, hp⟩
        by_contra hno
        rw [Bool.not_eq_true] at hno
        have hcond := hcond hp
        rw [hno] at hcond
        exact hcond ⟨start, stop, hstart, hstop⟩
      · rintro ⟨rfl, hp⟩
        obtain ⟨start, stop, -, hstart, hstop, -⟩ := hcond hp
        exact ⟨start, stop, hstart, hstop, hp⟩

end Law

/-! ### Inverted, beyond the cutoff, and not a time -/

namespace Readiness

def manifest (window : Window) (cutoff : Option String) : Manifest where
  eventId := "E"
  revision := 1
  schemaVersion := 2
  eventWindowUtc := window
  isOpen := cutoff.isSome
  analysisEndUtc := cutoff
  warmupMinutes := 60
  cooldownMinutes := 60
  target := ⟨"t", [3333], none, none, ⟨.reviewed, some (.containsAny [11537]), some ⟨"s", "a", "d"⟩⟩⟩
  collectors := ["route-views2"]
  sourceFamily := "RouteViews"
  analystNotes := []

/-- Three times of one day. -/
def parse (s : String) : Except String DateTime :=
  if s = "2026-07-30T09:25:00Z" then .ok 1785403500000000000
  else if s = "2026-07-30T09:47:00Z" then .ok 1785404820000000000
  else if s = "2026-07-30T12:00:00Z" then .ok 1785412800000000000
  else .error "input contains invalid characters"

def inverted : Manifest := manifest ⟨"2026-07-30T09:47:00Z", "2026-07-30T09:25:00Z"⟩ none

def beyondCutoff : Manifest :=
  manifest ⟨"2026-07-30T09:25:00Z", "2026-07-30T12:00:00Z"⟩ (some "2026-07-30T09:47:00Z")

def notATime : Manifest := manifest ⟨"2026-07-30T09:25:00Z", "tomorrow"⟩ none

/-- **Bug**: an inverted window is ready, and so is an open event with two hours after its cutoff. -/
theorem inverted_window_ready :
    inverted.validate = .ok inverted ∧
    (∃ plan, planFromManifest parse "E" () inverted = .ok plan ∧ plan.status = .ready ∧
      plan.analysisWindow.stop < plan.analysisWindow.start) ∧
    (planStatus inverted true).1 = "Ready" ∧
    ¬ ReadinessSound parse "E" () inverted true ∧
    beyondCutoff.validate = .ok beyondCutoff ∧
    ¬ ReadinessSound parse "E" () beyondCutoff true := by
  have hinv : ∃ plan, planFromManifest parse "E" () inverted = .ok plan ∧ plan.status = .ready ∧
      plan.analysisWindow = ⟨1785404820000000000, 1785403500000000000⟩ :=
    ⟨_, by rfl, by decide, rfl⟩
  have hcut : ∃ plan, planFromManifest parse "E" () beyondCutoff = .ok plan ∧ plan.status = .ready ∧
      plan.analysisWindow = ⟨1785403500000000000, 1785412800000000000⟩ :=
    ⟨_, by rfl, by decide, rfl⟩
  obtain ⟨plan, hok, hstatus, hwindow⟩ := hinv
  obtain ⟨plan', hok', hstatus', hwindow'⟩ := hcut
  refine ⟨by decide +kernel, ⟨plan, hok, hstatus, by rw [hwindow]; decide⟩, by decide,
    fun h => ?_, by decide +kernel, fun h => ?_⟩
  · have hlt := (h.plan plan hok hstatus).1
    rw [hwindow] at hlt
    exact absurd hlt (by decide)
  · obtain ⟨cutoff, hcutoff, hle⟩ := (h.plan plan' hok' hstatus').2 rfl
    have hc : beyondCutoff.cutoff parse = some 1785404820000000000 := by decide +kernel
    rw [hc] at hcutoff
    cases hcutoff
    rw [hwindow'] at hle
    exact absurd hle (by decide)

/-- **Bug**: an error for one planner, ready for the other. -/
theorem planners_disagree : (planFromManifest parse "E" () notATime).toOption = none ∧
    (planStatus notATime true).1 = "Ready" := by
  decide +kernel

theorem readinessSound_inverted : ReadinessSound parse "E" () inverted true ↔
    (inverted.target.transitPredicate.isReady = true → if true then
      ∃ start stop stop', inverted.eventStart parse = .ok start ∧ inverted.planEnd parse = .ok stop ∧
        inverted.eventEnd parse = .ok stop' ∧ inverted.Admits parse start stop ∧
        inverted.Admits parse start stop'
    else ¬ ∃ start stop, inverted.eventStart parse = .ok start ∧ inverted.planEnd parse = .ok stop) :=
  readinessSound_iff (by decide +kernel)

end Readiness

end Inim
