import Inim.Tokenize
import Inim.Cohort
import Inim.Routes.Order
/-!
# Stream lifecycles (`lifecycle.rs:17-250`, `:840-1500`)

`build_one_lifecycle` replays the transitions of one observer-prefix stream over the stream's
baseline instances and classifies what it sees.

| here | there |
| --- | --- |
| `classifyPathChange`, `routeSemanticallyEquivalent` | `lifecycle.rs:66`, `:113` |
| `SemanticFingerprint`            | `semantic_fingerprint` (`lifecycle.rs:133`): its text quotes and separates these fields, so two texts are equal iff the fields are |
| `Sim`, `Sim.init`, `Sim.step`    | the locals and the loop of `build_one_lifecycle` (`lifecycle.rs:931-1232`) |
| `Sim.finish`                     | what follows the loop (`lifecycle.rs:1234-1318`) |
| `classifyRestoration`, `detectStreamAmbiguity` | `lifecycle.rs:1323`, `:1408` |
| `buildLifecycles`                | `lifecycle.rs:847-910` |

Durations are whole seconds there (`num_seconds() as f64`, exact in the range of `chrono`), and
integers here.
-/

namespace Inim

open Std Inim.Lib

/-! ## Path shape -/

inductive PathShapeChange where
  | prependReduced
  | prependIncreased
  | pathChangedStillViaRequiredTransit
  | pathDepartedRequiredTransit
  | pathReturnedToRequiredTransit
  | genericPathChange
deriving DecidableEq, Repr

def collapsedEquivalent (a b : List UInt32) : Bool := collapseAsPath a == collapseAsPath b

def classifyPathChange (from_ to_ : RouteState) (pred : TransitPredicate) : PathShapeChange :=
  let fromPath := from_.attributes.asPath
  let toPath := to_.attributes.asPath
  let fromHas := pred.evaluate fromPath
  let toHas := pred.evaluate toPath
  if collapsedEquivalent fromPath toPath then
    if toPath.length < fromPath.length then .prependReduced else .prependIncreased
  else if fromHas && toHas then .pathChangedStillViaRequiredTransit
  else if fromHas && !toHas then .pathDepartedRequiredTransit
  else if !fromHas && toHas then .pathReturnedToRequiredTransit
  else .genericPathChange

/-- Equal attributes, communities in any order. -/
def routeSemanticallyEquivalent (a b : RouteAttributes) : Bool :=
  a.asPath == b.asPath && a.originAsns == b.originAsns && a.origin == b.origin &&
    a.nextHop == b.nextHop && a.med == b.med && a.localPref == b.localPref &&
    a.atomicAggregate == b.atomicAggregate &&
    sortBy compare a.communities == sortBy compare b.communities

structure SemanticFingerprint where
  asPath : List UInt32
  originAsns : List Asn
  origin : Option String
  nextHop : Option String
  med : Option UInt32
  localPref : Option UInt32
  atomicAggregate : Bool
  communities : List String
deriving DecidableEq, Repr

def semanticFingerprint (a : RouteAttributes) : SemanticFingerprint :=
  ⟨a.asPath, a.originAsns, a.origin, a.nextHop.map (·.display), a.med, a.localPref,
    a.atomicAggregate, sortBy compare a.communities⟩

/-- `path_shape_from_transition` (`lifecycle.rs:1472`). -/
def pathShapeFromTransition (t : RouteTransition) (pred : TransitPredicate) :
    Option PathShapeChange :=
  match t.kind, t.fromState, t.to_.state with
  | .pathReplacement _ _, some f, some to_ =>
    if routeSemanticallyEquivalent f.attributes to_.attributes then none
    else some (classifyPathChange f to_ pred)
  | _, _, _ => none

/-! ## Records -/

inductive StreamCategory where
  | unchanged
  | prependOnly
  | pathChangedStillViaTransit
  | departedTransitPath
  | withdrawn
deriving DecidableEq, Repr

structure StreamRestoration where
  timestamp : DateTime
  oldPathIds : List (Option UInt32)
  newPathIds : List (Option UInt32)
  exactInstance : Bool
  equivalentRoute : Bool
  observerPrefix : Bool
  baselineSet : Bool
  evidence : EvidenceRef
deriving DecidableEq, Repr

structure AddPathAmbiguity where
  collector : String
  peerIp : String
  pfx : String
  firstKeyed : Option EvidenceRef
  firstUnkeyed : Option EvidenceRef
  archiveIdentities : List String
  affectedStart : Option DateTime
  affectedEnd : Option DateTime
deriving DecidableEq, Repr

structure LifecycleTransition where
  timestamp : DateTime
  phase : AnalysisPhase
  kind : String
  pathId : Option UInt32
  beforePath : List UInt32
  afterPath : List UInt32
  pathShape : Option PathShapeChange
  observationId : Nat
  archiveSha256 : Option String
  hasGshutAfter : Bool
deriving DecidableEq, Repr

structure StreamFlags where
  restored : Bool
  notRestored : Bool
  multipleCycles : Bool
  addPathAmbiguous : Bool
deriving DecidableEq, Repr

structure StreamLifecycle where
  collector : String
  peerIp : String
  pfx : String
  baselinePath : List UInt32
  baselineInstanceCount : Nat
  maxConcurrentInstances : Nat
  totalRouteInstances : Nat
  category : StreamCategory
  flags : StreamFlags
  firstChange : Option DateTime
  transitions : List LifecycleTransition
  minAbsenceSecs : Option Int
  maxAbsenceSecs : Option Int
  wasWithdrawn : Bool
  streamWithdrawalTime : Option DateTime
  activeBeforeAbsence : Nat
  transitAtWithdrawal : Option Bool
  withdrawnInstances : List RouteKey
  streamWithdrawalCount : Nat
  restorations : List StreamRestoration
  addPathAmbiguity : Option AddPathAmbiguity
  replacementAppeared : Bool
  replacementRetainedTransit : Option Bool
  prependingChanged : Bool
  cooldownTransitions : List LifecycleTransition
  finalState : Option RouteState
  baselineRestored : Bool
  restorationTime : Option DateTime
  affectedDurationSecs : Option Int
  gracefulShutdownSeen : Bool
  gshutPresentAtBaseline : Bool
  gshutNewlyAdded : Bool
  gshutRemoved : Bool
  firstGshutTimestamp : Option DateTime
  lastGshutTimestamp : Option DateTime
  gshutBeforeWithdrawal : Bool
  gshutBeforePathChange : Bool
  gshutToConsequenceSecs : Option Int
  gshutRemovedDuringRestoration : Bool
  communitiesBefore : List String
  communitiesAfter : List String

/-- `transition_kind_str` (`lifecycle.rs:1487`). -/
def transitionKindStr : TransitionKind → String
  | .announcement => "Announcement"
  | .withdrawal => "Withdrawal"
  | .duplicate => "Duplicate"
  | .pathReplacement _ _ => "PathReplacement"
  | .attributeChange => "AttributeChange"
  | .sessionReset => "SessionReset"
  | .restoration => "Restoration"
  | .returnToBaseline => "ReturnToBaseline"

/-- `classify_restoration` (`lifecycle.rs:1323`). -/
def classifyRestoration (t : RouteTransition) (withdrawnHistory : List (RouteKey × RouteState))
    (baseline active : InstanceMap) (timestamp : DateTime) : StreamRestoration :=
  let newAttributes := (t.to_.state.map (·.attributes)).getD .empty
  let samePath (k : RouteKey) : Bool := k.pathId == t.key.pathId
  -- the last withdrawn state of this path id first, else its baseline state
  let exactInstance :=
    match withdrawnHistory.find? (samePath ·.1), baseline.toList.find? (samePath ·.1) with
    | some (_, last), _ => routeSemanticallyEquivalent last.attributes newAttributes
    | none, some (_, base) => routeSemanticallyEquivalent base.attributes newAttributes
    | none, none => false
  { timestamp := timestamp
    oldPathIds := (sortBy (fun a b => compareLex (compareOn Prod.fst) (compareOn Prod.snd)
        (pathIdKey a) (pathIdKey b)) (withdrawnHistory.map (·.1.pathId))).destutter (· ≠ ·)
    newPathIds := [t.key.pathId]
    exactInstance := exactInstance
    equivalentRoute :=
      baseline.values.any fun b => routeSemanticallyEquivalent b.attributes newAttributes
    observerPrefix := true
    baselineSet := ((baseline.values.map (semanticFingerprint ·.attributes)).isPerm
      (active.values.map (semanticFingerprint ·.attributes)))
    evidence := t.triggering }

/-- The archive identities of `detect_stream_ambiguity`: URLs and checksums, first seen first. -/
def archiveIdentities (transitions : List RouteTransition) : List String :=
  transitions.foldl (fun acc t =>
    [t.triggering.sourceUrl, t.triggering.archiveSha256].foldl (fun acc id =>
      match id with
      | some x => if acc.contains x then acc else acc ++ [x]
      | none => acc) acc) []

/-- `detect_stream_ambiguity` (`lifecycle.rs:1408`): keyed and unkeyed records in one stream. -/
def detectStreamAmbiguity (opk : ObserverPrefixKey) (baseline : InstanceMap)
    (transitions : List RouteTransition) : Option AddPathAmbiguity :=
  let firstKeyed := transitions.find? fun t => t.key.pathId.isSome
  let firstUnkeyed := transitions.find? fun t => t.key.pathId.isNone
  let hasKeyed := baseline.keys.any (·.pathId.isSome) || firstKeyed.isSome
  let hasUnkeyed := baseline.keys.any (·.pathId.isNone) || firstUnkeyed.isSome
  if !(hasKeyed && hasUnkeyed) then none
  else some {
    collector := opk.collector
    peerIp := opk.peerIp.display
    pfx := opk.pfx
    firstKeyed := firstKeyed.map (·.triggering)
    firstUnkeyed := firstUnkeyed.map (·.triggering)
    archiveIdentities := archiveIdentities transitions
    affectedStart := transitions.head?.map (·.to_.timestamp)
    affectedEnd := transitions.getLast?.map (·.to_.timestamp) }

/-! ## The simulation -/

/-- The locals of `build_one_lifecycle`. The `HashSet`s are only inserted into, tested and counted. -/
structure Sim where
  active : InstanceMap
  maxConcurrent : Nat
  seenInstances : Finset RouteKey
  withdrawnInstances : List RouteKey := []
  absenceIntervals : List Int := []
  currentAbsenceStart : Option DateTime := none
  streamWithdrawalCount : Nat := 0
  streamWithdrawalTime : Option DateTime := none
  activeBeforeAbsence : Nat := 0
  transitAtWithdrawal : Option Bool := none
  restorations : List StreamRestoration := []
  withdrawnHistory : List (RouteKey × RouteState) := []
  firstChange : Option DateTime := none
  seenCategories : Finset StreamCategory := ∅
  prependingChanged : Bool := false
  replacementAppeared : Bool := false
  replacementRetainedTransit : Option Bool := none
  baselineRestored : Bool := false
  restorationTime : Option DateTime := none
  restorationCount : Nat := 0
  finalState : Option RouteState := none
  cooldownTransitions : List LifecycleTransition := []
  lifecycleTransitions : List LifecycleTransition := []
  gracefulShutdownSeen : Bool := false
  gshutNewlyAdded : Bool := false
  gshutRemoved : Bool := false
  firstGshutTimestamp : Option DateTime := none
  lastGshutTimestamp : Option DateTime := none
  gshutBeforeWithdrawal : Bool := false
  gshutBeforePathChange : Bool := false
  gshutRemovedDuringRestoration : Bool := false
  communitiesBefore : List String := []
  communitiesAfter : List String := []
  communitiesCaptured : Bool := false
  lastHadGshut : Bool
  firstGshutAddedAt : Option DateTime := none
  firstConsequenceAt : Option DateTime := none

/-- `baseline_instances.values().next()`: the principal baseline instance. -/
def principal (baseline : InstanceMap) : Option RouteState := baseline.values.head?

def gshutAtBaseline (baseline : InstanceMap) : Bool :=
  ((principal baseline).map (·.attributes.hasGshut)).getD false

def RouteTransition.toGshut (t : RouteTransition) : Bool :=
  (t.to_.state.map (·.attributes.hasGshut)).getD false

def RouteTransition.fromGshut (t : RouteTransition) : Bool :=
  (t.fromState.map (·.attributes.hasGshut)).getD false

def TransitPredicate.anyMatch (pred : TransitPredicate) (active : InstanceMap) : Bool :=
  active.values.any fun s => pred.evaluate s.attributes.asPath

namespace Sim

def init (baseline : InstanceMap) : Sim where
  active := baseline
  maxConcurrent := baseline.size
  seenInstances := baseline.keys.toFinset
  lastHadGshut := gshutAtBaseline baseline

section Step
variable (pred : TransitPredicate) (baseline : InstanceMap)

/-- The GSHUT timestamps, the additions and removals, and the communities captured
(`lifecycle.rs:983-1034`). -/
def noteGshut (s : Sim) (t : RouteTransition) : Sim :=
  let ts := t.to_.timestamp
  let toCommunities := (t.to_.state.map (·.attributes.communities)).getD []
  { s with
    gracefulShutdownSeen := s.gracefulShutdownSeen || t.toGshut
    firstGshutTimestamp := if t.toGshut then s.firstGshutTimestamp <|> some ts else s.firstGshutTimestamp
    lastGshutTimestamp := if t.toGshut then some ts else s.lastGshutTimestamp
    gshutNewlyAdded := s.gshutNewlyAdded || (!t.fromGshut && t.toGshut)
    firstGshutAddedAt :=
      if !t.fromGshut && t.toGshut then s.firstGshutAddedAt <|> some ts else s.firstGshutAddedAt
    gshutRemoved := s.gshutRemoved || (t.fromGshut && !t.toGshut)
    gshutRemovedDuringRestoration := s.gshutRemovedDuringRestoration ||
      (t.fromGshut && !t.toGshut && (t.kind == .restoration || t.kind == .returnToBaseline))
    communitiesBefore :=
      if s.communitiesCaptured then s.communitiesBefore
      else (t.fromState.map (·.attributes.communities)).getD toCommunities
    communitiesCaptured := true
    communitiesAfter := toCommunities }

/-- The lifecycle record of the transition, into the list of its phase
(`lifecycle.rs:1036-1069`). -/
def record (s : Sim) (t : RouteTransition) : Sim :=
  let lct : LifecycleTransition := {
    timestamp := t.to_.timestamp
    phase := t.phase
    kind := transitionKindStr t.kind
    pathId := t.key.pathId
    beforePath := (t.fromState.map (·.attributes.asPath)).getD []
    afterPath := (t.to_.state.map (·.attributes.asPath)).getD []
    pathShape := pathShapeFromTransition t pred
    observationId := t.triggering.observationId
    archiveSha256 := t.triggering.archiveSha256
    hasGshutAfter := t.toGshut }
  { s with
    cooldownTransitions :=
      if t.phase = .cooldown then s.cooldownTransitions ++ [lct] else s.cooldownTransitions
    lifecycleTransitions :=
      if t.phase = .cooldown then s.lifecycleTransitions else s.lifecycleTransitions ++ [lct]
    firstChange := if t.phase = .event then s.firstChange <|> some t.to_.timestamp else s.firstChange }

/-- The instance that is withdrawn, applied or re-established (`lifecycle.rs:1073-1117`). -/
def applyInstance (s : Sim) (t : RouteTransition) : Sim :=
  if t.kind = .withdrawal then
    let active := s.active.erase t.key
    let s := { s with
      gshutBeforeWithdrawal := s.gshutBeforeWithdrawal || s.lastHadGshut
      firstConsequenceAt :=
        if s.lastHadGshut then s.firstConsequenceAt <|> some t.to_.timestamp else s.firstConsequenceAt
      withdrawnInstances := s.withdrawnInstances ++ [t.key]
      withdrawnHistory := s.withdrawnHistory ++ (t.fromState.map fun f => (t.key, f)).toList
      active := active
      finalState := none }
    if active.isEmpty then
      -- the final instance is gone: the stream is absent
      { s with
        streamWithdrawalCount := s.streamWithdrawalCount + 1
        currentAbsenceStart := s.currentAbsenceStart <|> some t.to_.timestamp
        streamWithdrawalTime := some t.to_.timestamp
        activeBeforeAbsence := active.size + 1
        transitAtWithdrawal := t.fromState.map fun f => pred.evaluate f.attributes.asPath }
    else s
  else match t.to_.state with
    | none => s
    | some state =>
      let active := s.active.insert t.key state
      { s with
        active := active
        seenInstances := insert t.key s.seenInstances
        maxConcurrent := max s.maxConcurrent active.size
        finalState := some state
        replacementAppeared := true
        replacementRetainedTransit :=
          s.replacementRetainedTransit <|> some (pred.evaluate state.attributes.asPath) }

/-- Absent before, visible now (`lifecycle.rs:1119-1141`). -/
def noteRestoration (wasVisible : Bool) (s : Sim) (t : RouteTransition) : Sim :=
  let restoredAt := t.to_.timestamp
  if !wasVisible && !s.active.isEmpty then
    { s with
      absenceIntervals := match s.currentAbsenceStart with
        | some start =>
          if 0 < numSeconds (restoredAt - start) then
            s.absenceIntervals ++ [numSeconds (restoredAt - start)]
          else s.absenceIntervals
        | none => s.absenceIntervals
      currentAbsenceStart := none
      restorationCount := s.restorationCount + 1
      restorationTime := s.restorationTime <|> some restoredAt
      restorations := s.restorations ++
        [classifyRestoration t s.withdrawnHistory baseline s.active restoredAt]
      withdrawnHistory := [] }
  else s

def isPathReplacement : TransitionKind → Bool
  | .pathReplacement _ _ => true
  | _ => false

/-- Path replacements: prepend only, still via transit, departed or returned
(`lifecycle.rs:1143-1183`). -/
def classifyReplacement (s : Sim) (t : RouteTransition) : Sim :=
  if isPathReplacement t.kind then
    let s := { s with
      gshutBeforePathChange := s.gshutBeforePathChange || s.lastHadGshut
      firstConsequenceAt :=
        if s.lastHadGshut then s.firstConsequenceAt <|> some t.to_.timestamp else s.firstConsequenceAt }
    match pathShapeFromTransition t pred with
    | some .prependReduced | some .prependIncreased =>
      { s with prependingChanged := true, seenCategories := insert .prependOnly s.seenCategories }
    | some .pathChangedStillViaRequiredTransit =>
      { s with seenCategories := insert .pathChangedStillViaTransit s.seenCategories }
    | some .pathDepartedRequiredTransit =>
      { s with seenCategories := insert .departedTransitPath s.seenCategories }
    | some .pathReturnedToRequiredTransit =>
      { s with restorationTime := s.restorationTime <|> some t.to_.timestamp }
    | some .genericPathChange | none => s
  else s

/-- Visible with no matching route, then the return to baseline and the tag carried on
(`lifecycle.rs:1185-1206`). -/
def noteDeparture (s : Sim) (t : RouteTransition) : Sim :=
  { s with
    seenCategories :=
      if !s.active.isEmpty && !pred.anyMatch s.active then
        insert .departedTransitPath s.seenCategories
      else s.seenCategories
    baselineRestored := s.baselineRestored || t.kind == .returnToBaseline
    lastHadGshut := t.toGshut }

def step (s : Sim) (t : RouteTransition) : Sim :=
  let wasVisible := !s.active.isEmpty
  let s := (s.noteGshut t).record pred t
  let s := s.applyInstance pred t
  let s := s.noteRestoration baseline wasVisible t
  (s.classifyReplacement pred t).noteDeparture pred t

def run (transitions : List RouteTransition) : Sim :=
  transitions.foldl (step pred baseline) (init baseline)

end Step

/-- The category precedence (`lifecycle.rs:1252-1263`). -/
def category (s : Sim) : StreamCategory :=
  if 0 < s.streamWithdrawalCount then .withdrawn
  else if .departedTransitPath ∈ s.seenCategories then .departedTransitPath
  else if .pathChangedStillViaTransit ∈ s.seenCategories then .pathChangedStillViaTransit
  else if .prependOnly ∈ s.seenCategories then .prependOnly
  else .unchanged

def finish (opk : ObserverPrefixKey) (pred : TransitPredicate) (baseline : InstanceMap)
    (transitions : List RouteTransition) (cooldownEnd : DateTime) (s : Sim) : StreamLifecycle :=
  let absenceIntervals := match s.currentAbsenceStart with
    | some start =>
      if 0 < numSeconds (cooldownEnd - start) then
        s.absenceIntervals ++ [numSeconds (cooldownEnd - start)]
      else s.absenceIntervals
    | none => s.absenceIntervals
  let wasWithdrawn := decide (0 < s.streamWithdrawalCount)
  let endedAbsent := s.active.isEmpty && wasWithdrawn
  let endedDeparted := !s.active.isEmpty && !pred.anyMatch s.active &&
    decide (.departedTransitPath ∈ s.seenCategories)
  let notRestored := endedAbsent || endedDeparted
  let ambiguity := detectStreamAmbiguity opk baseline transitions
  { collector := opk.collector
    peerIp := opk.peerIp.display
    pfx := opk.pfx
    baselinePath := ((principal baseline).map (·.attributes.asPath)).getD []
    baselineInstanceCount := baseline.size
    maxConcurrentInstances := s.maxConcurrent
    totalRouteInstances := s.seenInstances.card
    category := s.category
    flags := {
      restored := decide (0 < s.restorationCount) && !notRestored
      notRestored := notRestored
      multipleCycles := decide (1 < s.streamWithdrawalCount) ||
        (decide (0 < s.streamWithdrawalCount) && decide (1 < s.restorationCount))
      addPathAmbiguous := ambiguity.isSome }
    firstChange := s.firstChange
    transitions := s.lifecycleTransitions
    minAbsenceSecs := absenceIntervals.min?
    maxAbsenceSecs := absenceIntervals.max?
    wasWithdrawn := wasWithdrawn
    streamWithdrawalTime := s.streamWithdrawalTime
    activeBeforeAbsence := s.activeBeforeAbsence
    transitAtWithdrawal := s.transitAtWithdrawal
    withdrawnInstances := s.withdrawnInstances
    streamWithdrawalCount := s.streamWithdrawalCount
    restorations := s.restorations
    addPathAmbiguity := ambiguity
    replacementAppeared := s.replacementAppeared
    replacementRetainedTransit := s.replacementRetainedTransit
    prependingChanged := s.prependingChanged
    cooldownTransitions := s.cooldownTransitions
    finalState := s.finalState
    baselineRestored := s.baselineRestored
    restorationTime := s.restorationTime
    affectedDurationSecs := s.firstChange.map fun fc =>
      max 0 (numSeconds (s.restorationTime.getD cooldownEnd - fc))
    gracefulShutdownSeen := s.gracefulShutdownSeen
    gshutPresentAtBaseline := gshutAtBaseline baseline
    gshutNewlyAdded := s.gshutNewlyAdded
    gshutRemoved := s.gshutRemoved
    firstGshutTimestamp := s.firstGshutTimestamp
    lastGshutTimestamp := s.lastGshutTimestamp
    gshutBeforeWithdrawal := s.gshutBeforeWithdrawal
    gshutBeforePathChange := s.gshutBeforePathChange
    gshutToConsequenceSecs := match s.firstGshutAddedAt, s.firstConsequenceAt with
      | some added, some c => if 0 ≤ numSeconds (c - added) then some (numSeconds (c - added)) else none
      | _, _ => none
    gshutRemovedDuringRestoration := s.gshutRemovedDuringRestoration
    communitiesBefore := s.communitiesBefore
    communitiesAfter := s.communitiesAfter }

end Sim

def buildOneLifecycle (opk : ObserverPrefixKey) (baseline : InstanceMap)
    (transitions : List RouteTransition) (cooldownEnd : DateTime) (pred : TransitPredicate) :
    StreamLifecycle :=
  (Sim.run pred baseline transitions).finish opk pred baseline transitions cooldownEnd

/-! ## All streams -/

/-- `path_id_order` (`lifecycle.rs:913`). -/
abbrev pathIdOrder : Option UInt32 → Nat × UInt32 := pathIdKey

/-- The order of one stream's transitions: timestamp, then path id. -/
def transitionOrder : RouteTransition → RouteTransition → Ordering :=
  compareLex (compareOn (·.to_.timestamp)) <|
  compareLex (compareOn fun t => (pathIdOrder t.key.pathId).1)
    (compareOn fun t => (pathIdOrder t.key.pathId).2)

instance : TransCmp transitionOrder := by
  unfold transitionOrder
  infer_instance

/-- The output order of the lifecycles: collector, peer text, prefix. -/
def lifecycleOrder : StreamLifecycle → StreamLifecycle → Ordering :=
  compareLex (compareOn (·.collector)) (compareLex (compareOn (·.peerIp)) (compareOn (·.pfx)))

instance : TransCmp lifecycleOrder := by
  unfold lifecycleOrder
  infer_instance

/-- One group of `stream_transitions`, before its sort. -/
def transitionsOf (opk : ObserverPrefixKey) (transitions : List RouteTransition) :
    List RouteTransition :=
  transitions.filter (·.key.observerPrefixKey = opk)

def streamTransitions (opk : ObserverPrefixKey) (transitions : List RouteTransition) :
    List RouteTransition :=
  sortBy transitionOrder (transitionsOf opk transitions)

def FrozenCohort.baselineOf (cohort : FrozenCohort) (opk : ObserverPrefixKey) : InstanceMap :=
  (cohort.baselineInstances opk).getD ∅

/-- The streams lifecycles are built for: the cohort's, and any other with transitions. The
second part comes out of a `HashMap` in no fixed order; the final sort fixes it. -/
def lifecycleStreams (transitions : List RouteTransition) (cohort : FrozenCohort) :
    List ObserverPrefixKey :=
  cohort.observerPrefixes ++
    (transitions.map (·.key.observerPrefixKey)).dedup.filter (· ∉ cohort.observerPrefixes)

theorem mem_lifecycleStreams {transitions : List RouteTransition} {cohort : FrozenCohort}
    {opk : ObserverPrefixKey} :
    opk ∈ lifecycleStreams transitions cohort ↔
      opk ∈ cohort.observerPrefixes ∨ ∃ t ∈ transitions, t.key.observerPrefixKey = opk := by
  simp only [lifecycleStreams, List.mem_append, List.mem_filter, List.mem_dedup, List.mem_map,
    decide_eq_true_eq]
  tauto

/-- The baseline a stream is replayed from: empty outside the cohort. -/
def baselineFor (cohort : FrozenCohort) (opk : ObserverPrefixKey) : InstanceMap :=
  if opk ∈ cohort.observerPrefixes then cohort.baselineOf opk else ∅

/-- The stream's lifecycle in the run over `transitions`. -/
def lifecycleOf (cohort : FrozenCohort) (cooldownEnd : DateTime) (pred : TransitPredicate)
    (transitions : List RouteTransition) (opk : ObserverPrefixKey) : StreamLifecycle :=
  buildOneLifecycle opk (baselineFor cohort opk) (streamTransitions opk transitions) cooldownEnd pred

def buildLifecycles (transitions : List RouteTransition) (cohort : FrozenCohort)
    (cooldownEnd : DateTime) (pred : TransitPredicate) : List StreamLifecycle :=
  sortBy lifecycleOrder ((lifecycleStreams transitions cohort).map fun opk =>
    buildOneLifecycle opk (baselineFor cohort opk) (streamTransitions opk transitions) cooldownEnd pred)

end Inim
