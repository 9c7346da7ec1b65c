import Inim.Domain.Observation
import Inim.Lib.SortBy
import Inim.Lib.Tables
import Inim.Text

/-!
# The comparison of a case study (`catalog/case_study_compare.rs`, `catalog/phase_summary.rs`)

| here | there |
| --- | --- |
| `CaseStudyClaim`, `CaseStudyPhase`, `RunTransition` | what is read of `case_study_claims`, `case_study_phases` and `run_transitions` |
| `ComparedRun`                 | a linked run: its plan's payload and its transitions, by `seq` |
| `summarizeRun`                | `phase_summary.rs:140-235` |
| `planWindow`                  | `case_study_compare.rs:154-181` |
| `parseAnchor`, `claimWindow`  | `:99-112`, `:228-240` |
| `coveringRuns`                | `:276-286` |
| `pointFinding`, `phaseFinding`, `wholeFinding` | `:294-335`, `:336-408`, `:411-425` |
| `comparisonRow`, `buildComparison` | `:117-464` |

The lists come in the order of their queries. Times are texts and are compared as texts; chrono's and
serde_json's parsers are the parameters of `ComparisonEnv`. Of a phase summary the fields are kept that
the comparison reads. A run is linked once for each of its roles, so it can be listed twice.
-/

namespace Inim

open Std Inim.Lib

/-- `chrono::DateTime::parse_from_rfc3339`; the members of a JSON object, each with its text, and the
text of a JSON string. -/
structure ComparisonEnv where
  rfc3339 : String → Except String DateTime
  members : String → Option (List (String × String))
  asStr : String → Option String

structure CaseStudyPhase where
  startUtc : String
  endUtc : String
deriving DecidableEq, Repr

structure RunTransition where
  kind : String
  occurredUtc : String
  /-- Collector, peer and prefix. -/
  stream : String
deriving DecidableEq, Repr

structure ComparedRun where
  runId : Int
  planPayload : Option String
  transitions : List RunTransition
deriving DecidableEq, Repr

structure CaseStudyClaim where
  id : Int
  claimType : String
  claimText : String
  qualification : Option String
  timeOrPhase : Option String
  observability : String
  observabilityRationale : String
deriving DecidableEq, Repr

structure CaseStudy where
  claims : List CaseStudyClaim
  phases : List CaseStudyPhase
  runs : List ComparedRun
deriving DecidableEq, Repr

/-! ## The phases of a run -/

/-- Where a transition is counted: the first phase it lies in, as texts. -/
def phaseIndex (phases : List CaseStudyPhase) (t : RunTransition) : Option Nat :=
  phases.findIdx? fun p => p.startUtc ≤ t.occurredUtc ∧ t.occurredUtc < p.endUtc

/-- The transitions counted in the `i`th phase. -/
def phaseTransitions (phases : List CaseStudyPhase) (r : ComparedRun) (i : Nat) : List RunTransition :=
  r.transitions.filter fun t => phaseIndex phases t = some i

def streamCount (kinds : List String) (ts : List RunTransition) : Nat :=
  ((ts.filter fun t => t.kind ∈ kinds).map (·.stream)).dedup.length

/-- The update of `first_evidence_utc`. -/
def earlierText (first : Option String) (t : RunTransition) : Option String :=
  match first with
  | none => some t.occurredUtc
  | some f => if t.occurredUtc < f then some t.occurredUtc else some f

structure PhaseSummary where
  startUtc : String
  endUtc : String
  announcements : Nat
  withdrawals : Nat
  pathChanges : Nat
  restorations : Nat
  firstEvidenceUtc : Option String
deriving DecidableEq, Repr

structure RunPhaseSummaries where
  runId : Int
  phases : List PhaseSummary
deriving DecidableEq, Repr

def summarizePhase (p : CaseStudyPhase) (ts : List RunTransition) : PhaseSummary where
  startUtc := p.startUtc
  endUtc := p.endUtc
  announcements := streamCount ["Announcement"] ts
  withdrawals := streamCount ["Withdrawal"] ts
  pathChanges := streamCount ["PathReplacement"] ts
  restorations := streamCount ["Restoration", "ReturnToBaseline"] ts
  firstEvidenceUtc := ts.foldl earlierText none

def summarizeRun (phases : List CaseStudyPhase) (r : ComparedRun) : RunPhaseSummaries where
  runId := r.runId
  phases := phases.mapIdx fun i p => summarizePhase p (phaseTransitions phases r i)

/-! ## Windows -/

/-- The window a plan's payload gives its run. -/
def planWindow (env : ComparisonEnv) (payload : String) : Option (String × String) := do
  let v ← env.members payload
  let w ← v.lookup "analysis_window"
  let fields ← env.members w
  let start ← env.asStr (← fields.lookup "start")
  let stop ← env.asStr (← fields.lookup "end")
  return (start, stop)

def runWindow (env : ComparisonEnv) (r : ComparedRun) : Option (String × String) :=
  r.planPayload.bind (planWindow env)

inductive ClaimWindow where
  | point (t : String)
  | phase (n : Nat)
deriving DecidableEq, Repr

/-- `s.parse::<usize>()`. -/
def parseUsize (cs : List Char) : Option Nat := (parseU32 cs).filter (· < 2 ^ 64)

def parseAnchor (env : ComparisonEnv) (s : String) : Except String ClaimWindow :=
  if "phase:".toList.isPrefixOf s.toList then
    match parseUsize (s.toList.drop 6) with
    | some n => .ok (.phase n)
    | none => .error ("invalid phase anchor '" ++ s ++ "'")
  else
    match env.rfc3339 s with
    | .ok _ => .ok (.point s)
    | .error _ => .error ("invalid time_or_phase anchor '" ++ s ++ "'")

/-- The anchor of a claim, if it has one that is understood. -/
def claimAnchor (env : ComparisonEnv) (c : CaseStudyClaim) : Option ClaimWindow :=
  c.timeOrPhase.bind fun anchor => (parseAnchor env anchor).toOption

def claimWindow (env : ComparisonEnv) (phases : List CaseStudyPhase) (c : CaseStudyClaim) :
    Option (String × String) :=
  match claimAnchor env c with
  | none => none
  | some (.point t) => some (t, t)
  | some (.phase n) => phases[n]?.map fun p => (p.startUtc, p.endUtc)

/-- An unknown window covers everything. -/
def coversText (window : Option (String × String)) (ws we : String) : Bool :=
  match window with
  | some (s, e) => ws < e && s ≤ we
  | none => true

def coveringRuns (env : ComparisonEnv) (runs : List ComparedRun) (ws we : String) :
    List ComparedRun :=
  runs.filter fun r => coversText (runWindow env r) ws we

/-! ## Findings -/

inductive ComparisonRelation where
  | before
  | during
  | after
  | overlapping
  | noObservedCounterpart
  | notDirectlyObservable
  | indeterminate
deriving DecidableEq, Repr

/-- A relation, what is said about it, and the runs it comes from. -/
structure Finding where
  relation : ComparisonRelation
  bgpText : String
  contributing : List Int
deriving DecidableEq, Repr

def noTransitions (contributing : List Int) : Finding :=
  ⟨.noObservedCounterpart, "no route-state transitions observed in any linked run", contributing⟩

def notCovered : Finding :=
  ⟨.indeterminate, "no linked analysis run covers this window; no observation was attempted", []⟩

def PhaseSummary.inWindow (ws we : String) (p : PhaseSummary) : Bool :=
  ws < p.endUtc && p.startUtc ≤ we

/-- The runs with evidence in some of their phases. -/
def runsWithEvidence (p : PhaseSummary → Bool) (covering : List RunPhaseSummaries) : List Int :=
  keepFirst id ((covering.filter fun rs => (rs.phases.filter p).any (·.firstEvidenceUtc.isSome)).map
    (·.runId))

def pointFinding (ws : String) (covering : List RunPhaseSummaries) : Finding :=
  let firstEvidence := covering.flatMap fun rs => rs.phases.filterMap (·.firstEvidenceUtc)
  let runs := runsWithEvidence (fun _ => true) covering
  match sortBy compare firstEvidence with
  | [] => noTransitions runs
  | first :: _ =>
    if first < ws then
      ⟨.before, "first route-state transition at " ++ first ++ ", before the reported point", runs⟩
    else if first = ws then
      ⟨.overlapping, "route-state transition at the reported point (" ++ first ++ ")", runs⟩
    else
      ⟨.after, "first route-state transition at " ++ first ++ ", after the reported point", runs⟩

/-- The first evidence of each phase in the window. -/
def evidenceInWindow (ws we : String) (covering : List RunPhaseSummaries) : List String :=
  covering.flatMap fun rs =>
    (rs.phases.filter (·.inWindow ws we)).filterMap (·.firstEvidenceUtc)

/-- Whole-run activity: the first evidence of the first phase that has any. -/
def wholeRunFirsts (covering : List RunPhaseSummaries) : List String :=
  covering.filterMap fun rs => rs.phases.findSome? (·.firstEvidenceUtc)

def phaseFinding (ws we : String) (covering : List RunPhaseSummaries) : Finding :=
  let inWindow := evidenceInWindow ws we covering
  let runs := runsWithEvidence (·.inWindow ws we) covering
  let beforeWindow := (wholeRunFirsts covering).filter fun first => first < ws
  let afterWindow := (wholeRunFirsts covering).filter fun first => !(first < ws) && we < first
  match sortBy compare inWindow, sortBy compare beforeWindow, sortBy compare afterWindow with
  | first :: _, _, _ =>
    ⟨.overlapping, "route-state transitions observed in the window; first at " ++ first ++ " (" ++
      toString inWindow.length ++ " transition series)", runs⟩
  | [], first :: _, _ =>
    ⟨.before, "earliest route-state transitions precede the window (" ++ first ++ ")", runs⟩
  | [], [], first :: _ =>
    ⟨.after, "earliest route-state transitions follow the window (" ++ first ++ ")", runs⟩
  | [], [], [] => noTransitions runs

/-- What is said of a window, from the runs that cover it. -/
def windowFinding (ws we : String) (covering : List RunPhaseSummaries) : Finding :=
  if covering = [] then notCovered
  else if ws = we then pointFinding ws covering
  else phaseFinding ws we covering

structure AggregatedPhase where
  transitionCount : Nat
  firstEvidenceUtc : Option String
  contributingRuns : List Int
deriving DecidableEq, Repr

def PhaseSummary.total (p : PhaseSummary) : Nat :=
  p.announcements + p.withdrawals + p.pathChanges + p.restorations

def aggregatePhase (summaries : List RunPhaseSummaries) (i : Nat) : AggregatedPhase :=
  let here := summaries.filterMap fun rs => rs.phases[i]?.map fun p => (rs.runId, p)
  { transitionCount := (here.map fun r => r.2.total).sum
    firstEvidenceUtc := (sortBy compare (here.filterMap fun r => r.2.firstEvidenceUtc)).head?
    contributingRuns := keepFirst id ((here.filter fun r => 0 < r.2.total).map (·.1)) }

/-- What is said without a window. -/
def wholeFinding (aggregated : List AggregatedPhase) : Finding :=
  let total := (aggregated.map (·.transitionCount)).sum
  if 0 < total then
    ⟨.during, "route-state transitions observed across linked runs (" ++ toString total ++
      " stream-counts); first at " ++ (aggregated.findSome? (·.firstEvidenceUtc)).getD "",
      aggregated.flatMap (·.contributingRuns)⟩
  else noTransitions []

/-! ## Rows -/

structure ComparisonRow where
  claimId : Int
  claimType : String
  operatorReport : String
  operatorTime : Option String
  bgpObservation : String
  interpretation : ComparisonRelation
  temporalDetail : String
  limitation : String
  contributingRunIds : List Int
deriving DecidableEq, Repr

def operatorReport (c : CaseStudyClaim) : String :=
  match c.qualification with
  | some q => c.claimText ++ " (qualification: " ++ q ++ ")"
  | none => c.claimText

def ComparisonRelation.temporal : ComparisonRelation → Bool
  | .overlapping | .before | .after | .during => true
  | _ => false

def limitationOf (c : CaseStudyClaim) (rel : ComparisonRelation) : String :=
  if rel = .indeterminate then
    "the claim window is not covered by any linked run; no observation was attempted"
  else if c.observability = "IndirectlyVisible" then
    "indirect visibility only: the condition itself is not directly observable in public BGP; " ++
      "only exported route consequences may appear (" ++ c.observabilityRationale ++ ")"
  else if rel.temporal then "temporal consistency does not prove causation"
  else "no observed counterpart in the linked runs; BGP absence does not refute the reported " ++
    "condition (" ++ c.observabilityRationale ++ ")"

/-- A word that starts like an ISO time, by its bytes. -/
def looksLikeTime (w : String) : Bool :=
  let bytes := w.toUTF8.toList
  19 ≤ bytes.length && bytes[4]? == some 45 && bytes[7]? == some 45 && bytes[10]? == some 84

def temporalDetailFor (rel : ComparisonRelation) (bgpText : String)
    (window : Option (String × String)) : String :=
  if rel ≠ .before ∧ rel ≠ .after then ""
  else
    match window with
    | none => ""
    | some (ws, _) =>
      (if rel = .before then "the BGP activity precedes the reported action"
        else "the BGP activity follows the reported action") ++ " (" ++
        ((splitWhitespace bgpText).find? looksLikeTime).getD "unknown" ++ " vs reported " ++ ws ++
        "); order is explicit, no causal attribution"

/-- The finding of a claim that can be observed, when runs are linked. -/
def claimFinding (env : ComparisonEnv) (cs : CaseStudy) (c : CaseStudyClaim) : Finding :=
  match claimWindow env cs.phases c with
  | some (ws, we) =>
    windowFinding ws we ((coveringRuns env cs.runs ws we).map (summarizeRun cs.phases))
  | none =>
    wholeFinding ((List.range cs.phases.length).map
      (aggregatePhase (cs.runs.map (summarizeRun cs.phases))))

def notVisible : String := "NotDirectlyVisible"

def processFinding : String := "ProcessFinding"

def claimRow (c : CaseStudyClaim) (bgp : String) (rel : ComparisonRelation)
    (detail limitation : String) (runs : List Int) : ComparisonRow where
  claimId := c.id
  claimType := c.claimType
  operatorReport := operatorReport c
  operatorTime := c.timeOrPhase
  bgpObservation := bgp
  interpretation := rel
  temporalDetail := detail
  limitation := limitation
  contributingRunIds := runs

def comparisonRow (env : ComparisonEnv) (cs : CaseStudy) (c : CaseStudyClaim) : ComparisonRow :=
  if c.observability = notVisible then
    claimRow c "not observable in public BGP (reviewed classification)" .notDirectlyObservable ""
      c.observabilityRationale []
  else if cs.runs = [] then
    claimRow c "no linked analysis run; historical analysis not yet executed" .indeterminate ""
      ("no public-BGP conclusion until historical target mappings and the archive plan are " ++
        "reviewed") []
  else
    let f := claimFinding env cs c
    claimRow c f.bgpText f.relation
      (temporalDetailFor f.relation f.bgpText (claimWindow env cs.phases c))
      (limitationOf c f.relation) f.contributing

def buildComparison (env : ComparisonEnv) (cs : CaseStudy) : List ComparisonRow :=
  (cs.claims.filter fun c => c.claimType ≠ processFinding).map (comparisonRow env cs)

end Inim
