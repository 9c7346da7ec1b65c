import Inim.Catalog.Batch
import Inim.Lib.Tables
import Inim.Workbench.FindingText
/-!
# The route chronology of a finding (`catalog/workbench.rs:2982-3509`)

The steps of a finding are made in a fixed order, each with its time as a text, and then sorted "by
their first HH:MM:SS, then by step-class priority": the time of day is read from the text again, which
has no date.

| here | there |
| --- | --- |
| `AbsenceStory`, `withdrawalStory` | `:3345-3421` |
| `StepLabel`, `StepLabel.rank`     | the labels, and `class_rank` (`:3301-3316`) |
| `ChronologyStep`, `RouteChronology` | `:2986-3009` |
| `parseClockSeconds`, `sortSeconds` | `parse_clock_seconds` (`:3499`), `step_key` (`:3317-3329`) |
| `baselineSteps` to `endSteps`     | the steps in the order of the source (`:3019-3294`) |
| `shownSteps`, `routeChronology`   | the sort, the removal of repeats, and the whole |
| `windowEndState`                  | `human_window_end_state` (`:3426`) |
| `analysisEndState`                | `human_analysis_end_state` (`:3460`) |

Each step comes with what it is made from, which is only what the place of its push says.
-/

namespace Inim

open Std Inim.Lib

/-! ## The absence -/

structure AbsenceStory where
  /-- Earliest withdrawal across the prefixes. -/
  withdrawalAt : Option String
  /-- Earliest and latest return. -/
  returnedAtMin : Option String
  returnedAtMax : Option String
  /-- Most frequent paths right before the withdrawal and first after it. -/
  beforePath : List UInt32
  returnPath : List UInt32
deriving DecidableEq, Repr

/-- The first withdrawal, and the first transition to a path after it. -/
def FindingStream.withdrawal (s : FindingStream) : Option (PathTransition × Option PathTransition) :=
  (s.transitions.findIdx? (·.isWithdrawal)).bind fun i =>
    s.transitions[i]?.map fun w => (w, (s.transitions.drop (i + 1)).find? (!·.afterPath.isEmpty))

def withdrawalStory (f : RoutingFinding) : Option AbsenceStory :=
  let withdrawals := f.streams.filterMap (·.withdrawal)
  let returns := withdrawals.filterMap (·.2.map (·.timestamp))
  let pairs := withdrawals.filterMap fun (w, ret) =>
    (ret.filter fun _ => w.beforePath ≠ []).map fun r => (w.beforePath, r.afterPath)
  let counts := sortBy (compareLex (compareOn (·.1.1)) (compareOn (·.1.2))) (tally pairs)
  (maxBy (compareOn (·.2)) counts).map fun ((before, ret), _) => {
    withdrawalAt := (withdrawals.map (·.1.timestamp)).foldl keepMin none
    returnedAtMin := returns.foldl keepMin none
    returnedAtMax := returns.foldl keepMax none
    beforePath := before
    returnPath := ret }

/-! ## Steps -/

inductive StepLabel where
  | eventBaseline
  | preWithdrawalRoute
  | preFindingRoute
  | absent
  | firstChange
  | firstRouteAfterReturn
  | reviewedPlaneReturn
  | equivalentRouteReturn
  | exactBaselineReturn
  | preFindingRouteReturn
  | laterChange
  | eventWindowEnd
  | analysisEnd
deriving DecidableEq, Repr

def StepLabel.rank : StepLabel → Nat
  | eventBaseline => 0
  | preFindingRoute | preWithdrawalRoute => 1
  | absent => 2
  | firstChange => 3
  | firstRouteAfterReturn => 4
  | reviewedPlaneReturn => 5
  | equivalentRouteReturn => 6
  | exactBaselineReturn | preFindingRouteReturn => 7
  | laterChange => 8
  | eventWindowEnd => 9
  | analysisEnd => 10

/-- One ordered step of a finding's route chronology. -/
structure ChronologyStep where
  label : StepLabel
  /-- Exact time or range. -/
  time : String
  /-- None when the step has no observed path. -/
  path : Option String
  /-- Restoration class when this step is a restoration. -/
  restoration : Option String
deriving DecidableEq, Repr

/-- What a step is made from. -/
inductive StepSource where
  | eventBaseline
  | preFinding
  | absence
  | firstReturn
  | firstChange
  | planeReturn (t : String)
  | equivalentReturn (t : String)
  | exactReturn (t : String)
  /-- A later time of the transitions. -/
  | later (t : String)
  /-- The cooldown saw a change that was not restored. -/
  | changedAgain (t : String)
  | windowEnd
  | analysisEnd
deriving DecidableEq, Repr

/-! ### The key -/

/-- The digits a text begins with. -/
def clockDigits (s : List Char) : Option Int :=
  ((parseDigits (s.takeWhile Char.isDigit)).filter (· < 2 ^ 63)).map Int.ofNat

def parseClockSeconds (tok : String) : Option Int :=
  match tok.toList.splitOn ':' with
  | h :: m :: sec :: _ => do
    let h ← clockDigits h
    let m ← clockDigits m
    let sec ← clockDigits sec
    return wrapI64 (h * 3600 + m * 60 + sec)
  | _ => none

/-- The seconds a step is sorted by: a baseline without a time comes first, another step last. -/
def sortSeconds (label : StepLabel) (time : String) : Int :=
  ((splitWhitespace time).findSome? parseClockSeconds).getD
    (if label = .eventBaseline then -(2 ^ 63) else 2 ^ 63 - 1)

def ChronologyStep.seconds (s : ChronologyStep) : Int := sortSeconds s.label s.time

example : parseClockSeconds "16:45:25–16:45:27" = some 60325 := by decide +kernel

namespace RoutingFinding
variable (f : RoutingFinding)

/-! ### The parts -/

/-- `event_sig`. -/
def eventSig : String :=
  if f.eventBaselinePathSignature = "" ∨ f.eventBaselinePathSignature = "—" then
    f.baselinePathSignature
  else f.eventBaselinePathSignature

/-- `first_t`. -/
def firstTime : String := f.firstObserved.getD ""

def isAbsence : Bool := f.effect = .prefixesTemporarilyAbsent || f.effect = .prefixesWithdrawn

/-- "until …", where the first change has a time. -/
def untilText (otherwise : String) : String :=
  if f.firstTime = "" then otherwise else "until " ++ findingTime f.firstTime ++ " UTC"

def atText (t : String) : String := "at " ++ findingTime t ++ " UTC"

/-- The event baseline, and the route before the finding where it is another one. -/
def baselineSteps : List (StepSource × ChronologyStep) :=
  if f.eventSig ≠ "—" then
    (.eventBaseline, {
      label := .eventBaseline
      time :=
        if f.eventSig ≠ f.baselinePathSignature then "observed at the event start"
        else f.untilText "observed at the event start"
      path := some f.eventSig
      restoration := none }) ::
    if f.eventSig ≠ f.baselinePathSignature ∧ f.baselinePathSignature ≠ "—" then
      [(.preFinding, {
        label := if f.isAbsence then .preWithdrawalRoute else .preFindingRoute
        time := f.untilText "observed before the change"
        path := some f.baselinePathSignature
        restoration := none })]
    else []
  else if f.baselinePathSignature ≠ "—" then
    -- not reached: without an event baseline the signature is this one
    [(.eventBaseline, {
      label := .eventBaseline
      time := f.untilText "observed before the change"
      path := some f.baselinePathSignature
      restoration := none })]
  else []

/-- Where an absence begins and ends. -/
def absenceEnds : Option (String × Option String) :=
  match withdrawalStory f with
  | some st => some (st.withdrawalAt.getD f.firstTime, st.returnedAtMax)
  | none => if f.firstTime = "" then none else some (f.firstTime, f.visibilityRestoredAt)

def absentTime : String :=
  match f.absenceEnds with
  | some (first, last) =>
    let start := findingTime first
    let stop := findingTime (last.getD "the event-window end")
    if start = stop then "at " ++ start ++ " UTC" else start ++ "–" ++ stop ++ " UTC"
  | none => "the analysis window"

/-- Time and path of the first route after an absence. -/
def replacement : String × String :=
  match withdrawalStory f with
  | some st => (st.returnedAtMin.getD "", collapsePath st.returnPath)
  | none => (f.visibilityRestoredAt.getD "", f.changedPathSignature)

def changeSteps : List (StepSource × ChronologyStep) :=
  if f.isAbsence then
    (.absence, { label := .absent, time := f.absentTime, path := none, restoration := none }) ::
    if f.replacement.1 ≠ "" then
      [(.firstReturn, {
        label := .firstRouteAfterReturn
        time := "from " ++ findingTime f.replacement.1 ++ " UTC"
        path := some f.replacement.2
        restoration := some "Visibility returned" })]
    else []
  else if f.changedPathSignature ≠ "—" then
    [(.firstChange, {
      label := .firstChange
      time := if f.firstTime = "" then "the observed time" else atText f.firstTime
      path := some f.changedPathSignature
      restoration := none })]
  else []

def planeSteps : List (StepSource × ChronologyStep) :=
  match f.reviewedPlaneRestoredAt with
  | some t => [(.planeReturn t, {
      label := .reviewedPlaneReturn
      time := atText t
      path := none
      restoration := some "Reviewed plane" })]
  | none => []

def equivalentSteps : List (StepSource × ChronologyStep) :=
  match f.equivalentRouteRestoredAt with
  | some t =>
    if f.visibilityRestoredAt ≠ some t then [(.equivalentReturn t, {
      label := .equivalentRouteReturn
      time := atText t
      path := some f.changedPathSignature
      restoration := some "Equivalent route" })]
    else []
  | none => []

/-- The first and the last exact return of a stream, where their texts differ. -/
def exactRange (t : String) : Option (String × String) :=
  let lo := (f.exactTimes.foldl keepMin none).getD t
  let hi := (f.exactTimes.foldl keepMax none).getD t
  if findingTime lo ≠ findingTime hi then some (lo, hi) else none

def exactTime (t : String) : String :=
  match f.exactRange t with
  | some (lo, hi) => "between " ++ findingTime lo ++ " and " ++ findingTime hi ++ " UTC"
  | none => atText t

/-- Of an event with another baseline the return is not to the baseline. -/
def exactSteps : List (StepSource × ChronologyStep) :=
  match f.exactBaselineRestoredAt with
  | some t => [(.exactReturn t, {
      label := if f.eventSig = f.baselinePathSignature then .exactBaselineReturn
        else .preFindingRouteReturn
      time := f.exactTime t
      path := some f.baselinePathSignature
      restoration := some
        (if f.eventSig = f.baselinePathSignature then "Exact baseline" else "Pre-finding route") })]
  | none => []

/-- Neither a withdrawal, nor a return, nor at the time of day of the first route after the absence. -/
def isLater (t : PathTransition) : Bool :=
  !t.afterPath.isEmpty && t.kind ≠ "ReturnToBaseline" &&
    f.visibilityRestoredAt.map findingTime ≠ some (findingTime t.timestamp)

/-- The transitions after the first of each stream that make later changes. -/
def laterTransitions : List PathTransition :=
  f.streams.flatMap fun s => (s.transitions.drop 1).filter f.isLater

/-- The map of later changes: the first transition of each time. The counts in it are read by nothing
but the loop that keeps them. -/
def laterEntries : List PathTransition :=
  (sortBy (compareOn (·.timestamp)) (keepFirst (·.timestamp) f.laterTransitions)).filter
    (!·.afterPath.isEmpty)

def laterSteps : List (StepSource × ChronologyStep) :=
  (f.laterEntries.map fun t => (.later t.timestamp, {
    label := .laterChange
    time := atText t.timestamp
    path := some (collapsePath t.afterPath)
    restoration := none })) ++
  match f.stateAtAnalysisEnd with
  | .stillChangingBeforeAnalysisEnd t => [(.changedAgain t, {
      label := .laterChange
      time := atText t
      path := none
      restoration := none })]
  | _ => []

def finalPath? : Option String := if f.finalPathSignature ≠ "—" then some f.finalPathSignature else none

def endSteps (windowEnd : String) : List (StepSource × ChronologyStep) :=
  (if windowEnd ≠ "" then [(.windowEnd, {
      label := .eventWindowEnd
      time := atText windowEnd
      path := f.finalPath?
      restoration := none })]
    else []) ++
  [(.analysisEnd, {
    label := .analysisEnd
    time := atText f.analysisEnd
    path := f.finalPath?
    restoration := none })]

/-- The steps as they are made. -/
def madeSteps (windowEnd : String) : List (StepSource × ChronologyStep) :=
  f.baselineSteps ++ (f.changeSteps ++ (f.planeSteps ++ (f.equivalentSteps ++
    (f.exactSteps ++ (f.laterSteps ++ f.endSteps windowEnd)))))

def stepOrder : StepSource × ChronologyStep → StepSource × ChronologyStep → Ordering :=
  compareLex (compareOn (·.2.seconds)) (compareOn (·.2.label.rank))

/-- The steps as they are shown. -/
def shownSteps (windowEnd : String) : List (StepSource × ChronologyStep) :=
  dedupByKey (fun p => (p.2.label, p.2.time, p.2.path)) (sortBy stepOrder (f.madeSteps windowEnd))

/-! ## The end states -/

/-- There is no event baseline, or it is the baseline. -/
def baselineIsEvents : Bool :=
  f.eventBaselinePathSignature = "" || f.eventBaselinePathSignature = "—" ||
    f.eventBaselinePathSignature = f.baselinePathSignature

/-- `human_window_end_state`. -/
def windowEndState : String :=
  match f.stateAtWindowEnd with
  | .absentAtWindowEnd => "Absent"
  | .unresolved => "Restoration status not determined"
  | _ =>
    if f.finalPathSignature = "—" then "No route observed after restoration"
    else if f.finalPathSignature = f.baselinePathSignature then
      if f.baselineIsEvents then "Exact baseline path present"
      else "Matches the pre-finding route, not the event baseline"
    else if f.finalPathSignature = f.eventBaselinePathSignature then "Event baseline path present"
    else "Visible on a changed path"

/-- `human_analysis_end_state`. -/
def analysisEndState : String :=
  match f.stateAtAnalysisEnd with
  | .none =>
    if f.finalPathSignature = "—" then "No route observed after restoration"
    else if f.finalPathSignature = f.baselinePathSignature then
      if f.baselineIsEvents then "Exact baseline path present · no later change observed"
      else "Matches the pre-finding route, not the event baseline · no later change observed"
    else if f.finalPathSignature = f.eventBaselinePathSignature then
      "Event baseline path present · no later change observed"
    else "No later change observed"
  | .restoredAt t => "Restored at " ++ findingTime t ++ " UTC"
  | .stillChangingBeforeAnalysisEnd t => "Still changing at " ++ findingTime t ++ " UTC"
  | .noRestorationBeforeAnalysisEnd t =>
    "No restoration observed before analysis end (" ++ findingTime t ++ " UTC)"

end RoutingFinding

structure RouteChronology where
  steps : List ChronologyStep
  stateAtEventWindowEnd : String
  stateAtAnalysisEnd : String
deriving DecidableEq, Repr

def routeChronology (f : RoutingFinding) (windowEnd : String) : RouteChronology where
  steps := (f.shownSteps windowEnd).map Prod.snd
  stateAtEventWindowEnd := f.windowEndState
  stateAtAnalysisEnd := f.analysisEndState

end Inim
