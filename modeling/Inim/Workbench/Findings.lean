import Inim.Lib.Guards
import Inim.Text
import Inim.Workbench.Episodes
import Inim.Workbench.PathEvidence
/-!
# Routing findings (`catalog/workbench.rs:885-984`, `:1571-2150`)

A changed episode becomes one finding or more: its streams are partitioned by their baseline and
changed paths, and a partition whose streams changed visibly before they were withdrawn is split at
the withdrawals.

| here | there |
| --- | --- |
| `FindingStream`, `EarlierChange`, `RoutingFinding` | `:885-984` |
| `FindingSources`     | the arguments of `build_findings` (`:1587-1597`) |
| `streamRecord`, `partitions` | the records and their partitions (`:1609-1741`) |
| `project`            | `project` (`:1742-1808`) |
| `emit`               | `emit` (`:1817-2003`), with the finding as its result |
| `preShape`, `splitFindings` | the split (`:2004-2128`) |
| `buildFindings`      | the whole; `none` is a panic |

Each emitted finding is tagged with the part of the transitions it is about, which is only what the
place of the call to `emit` says.
-/

namespace Inim

open Std Inim.Lib

/-! ## The vocabulary (`:325-384`) -/

inductive RoutingEffect where
  | prefixesTemporarilyAbsent
  | prefixesWithdrawn
  | asPathChanged
  | prependingChanged
  | namedPlaneDeparted
  | namedPlaneReturned
  | visibilityRestored
  | baselinePathRestored
  | mixedChange
deriving DecidableEq, Repr

namespace RoutingEffect

def fromKind : EffectKind → RoutingEffect
  | .temporaryStreamAbsence => prefixesTemporarilyAbsent
  | .routeWithdrawal => prefixesWithdrawn
  | .pathReplacement => asPathChanged
  | .prependChange => prependingChanged
  | .namedPlaneDeparture => namedPlaneDeparted
  | .namedPlaneReturn => namedPlaneReturned
  | .mixedRouteChange => mixedChange
  | .noRouteStateChange => mixedChange

def label : RoutingEffect → String
  | prefixesTemporarilyAbsent => "Temporarily absent"
  | prefixesWithdrawn => "Withdrawn"
  | asPathChanged => "AS path changed"
  | prependingChanged => "Prepending changed"
  | namedPlaneDeparted => "Left reviewed path plane"
  | namedPlaneReturned => "Returned to reviewed path plane"
  | visibilityRestored => "Visibility restored"
  | baselinePathRestored => "Baseline path restored"
  | mixedChange => "Mixed route-state change"

end RoutingEffect

structure AsnIdentity where
  asn : UInt32
  displayName : String
  role : String
  validFrom : Option String
  validTo : Option String
  reviewStatus : String
deriving DecidableEq, Repr

def AsnIdentity.validAt (i : AsnIdentity) (date : String) : Bool :=
  i.validFrom.all (· ≤ date) && i.validTo.all (date ≤ ·)

def AsnIdentity.hasDisplayName (i : AsnIdentity) : Bool :=
  i.reviewStatus = "HistoricallyReviewed" || i.reviewStatus = "CurrentIdentityOnly"

/-- `display_name` and `role` look an identity up the same way (`:456-477`). -/
def namedIdentity (identities : List AsnIdentity) (asn : UInt32) (date : String) :
    Option AsnIdentity :=
  (identities.find? fun i => i.asn = asn && i.validAt date).filter (·.hasDisplayName)

structure FindingStream where
  pfx : String
  baselinePath : List UInt32
  changedPath : Option (List UInt32)
  finalPath : Option (List UInt32)
  withdrawn : Bool
  firstChangeUtc : Option String
  transitions : List PathTransition
  visibilityRestoredAt : Option String
  equivalentRouteRestoredAt : Option String
  reviewedPlaneRestoredAt : Option String
  exactBaselineRestoredAt : Option String
  evidenceRefs : String
deriving DecidableEq, Repr

structure EarlierChange where
  stableId : String
  label : String
deriving DecidableEq, Repr

structure RoutingFinding where
  stableId : String
  targetLabel : String
  targetOriginAsns : List UInt32
  targetName : String
  eventBaselinePathSignature : String
  earlierChange : Option EarlierChange
  observerSite : String
  observerRegion : String
  sourceFamily : String
  collector : String
  peerIp : String
  peerAsn : Option UInt32
  peerName : String
  peerRole : String
  peerAsnAmbiguous : Bool
  relationship : RelationshipKind
  effect : RoutingEffect
  firstObserved : Option String
  lastObserved : Option String
  namedPathPlane : String
  visibilityRestoredAt : Option String
  equivalentRouteRestoredAt : Option String
  reviewedPlaneRestoredAt : Option String
  exactBaselineRestoredAt : Option String
  stateAtWindowEnd : EndState
  stateAtAnalysisEnd : CooldownOutcome
  analysisEnd : String
  observerStreamCount : Nat
  distinctPrefixes : Nat
  baselinePathSignature : String
  changedPathSignature : String
  finalPathSignature : String
  exactPrefixes : List String
  evidenceRefs : List String
  scopeLimit : String
  streams : List FindingStream
deriving DecidableEq, Repr

structure FindingSources where
  paths : LifecyclePathIndex
  identities : List AsnIdentity
  targetLabel : String
  targetOriginAsns : List UInt32
  scopeLimit : String
  runEventIds : Nat → Option String
  eventDate : String
  analysisEnd : String
  /-- `str::to_lowercase`. -/
  toLowercase : String → String

/-! ## The records of an episode -/

structure StreamRecord where
  stream : FindingStream
  baseline : List UInt32
  eventBaseline : List UInt32
  changed : Option (List UInt32)
  finalPath : Option (List UInt32)
  firstChange : Option String
  vis : Option String
  equiv : Option String
  plane : Option String
  base : Option String
deriving DecidableEq, Repr

namespace FindingSources
variable (src : FindingSources)

/-- The evidence of a member stream. -/
def evidenceOf (e : ObserverEpisode) (s : EpisodeStream) : Option StreamPathEvidence :=
  src.paths ((src.runEventIds e.analysisRun).getD "")
    ((sessionKeyOf e.observerSession).collector, (sessionKeyOf e.observerSession).peerIp, s.pfx)

/-- Its transitions. -/
def transitionsOf (e : ObserverEpisode) (s : EpisodeStream) : List PathTransition :=
  ((src.evidenceOf e s).map (·.transitions)).getD []

def streamRecord (e : ObserverEpisode) (s : EpisodeStream) : StreamRecord :=
  let path := src.evidenceOf e s
  let transitions := src.transitionsOf e s
  let baseline := (path.map (·.baselinePath)).getD []
  let changed := path.bind (·.changedPath)
  let finalPath := path.bind (·.finalPath)
  let equiv := path.bind (·.equivalentRouteRestoredAt)
  let plane := path.bind (·.reviewedPlaneRestoredAt)
  -- the restoration of the episode stands in for missing evidence
  let vis := path.bind (·.visibilityRestoredAt) <|>
    if s.withdrawn && s.restored then s.restorationTimeUtc else none
  let base := path.bind (·.exactBaselineRestoredAt) <|>
    if !s.withdrawn && s.restored then s.restorationTimeUtc else none
  { baseline := baseline
    eventBaseline := ((transitions.find? (!·.beforePath.isEmpty)).map (·.beforePath)).getD baseline
    changed := changed
    finalPath := finalPath
    firstChange := s.firstChangeUtc
    vis := vis
    equiv := equiv
    plane := plane
    base := base
    stream := {
      pfx := s.pfx
      baselinePath := baseline
      changedPath := changed
      finalPath := finalPath
      withdrawn := s.withdrawn
      firstChangeUtc := s.firstChangeUtc
      transitions := transitions
      visibilityRestoredAt := vis
      equivalentRouteRestoredAt := equiv
      reviewedPlaneRestoredAt := plane
      exactBaselineRestoredAt := base
      evidenceRefs := s.evidenceRefs } }

def records (e : ObserverEpisode) : List StreamRecord := e.streams.map (src.streamRecord e)

/-- The order of the partitions: first change of the first record, then the signature. -/
def partitionOrder : (List UInt32 × Option (List UInt32)) × List StreamRecord →
    (List UInt32 × Option (List UInt32)) × List StreamRecord → Ordering :=
  compareLex (compareOn fun p => p.2.head?.bind (·.firstChange)) <|
  compareLex (compareOn (·.1.1)) (compareOn (·.1.2))

/-- Records with one baseline and one changed path, together. -/
def partitions (e : ObserverEpisode) : List (List StreamRecord) :=
  (sortBy partitionOrder (groupOn (fun r => (r.baseline, r.changed)) (src.records e))).map Prod.snd

end FindingSources

/-! ## Projections -/

/-- A withdrawal by its kind, or by its paths. -/
def PathTransition.isWithdrawal (t : PathTransition) : Bool :=
  textContains t.kind "Withdraw" || (t.afterPath.isEmpty && !t.beforePath.isEmpty)

/-- The first path before, the first and the last path after, among those there are. -/
def pathBefore (ts : List PathTransition) : Option (List UInt32) :=
  (ts.find? (!·.beforePath.isEmpty)).map (·.beforePath)

def firstLater (ts : List PathTransition) : Option (List UInt32) :=
  (ts.find? (!·.afterPath.isEmpty)).map (·.afterPath)

def lastObserved (ts : List PathTransition) : Option (List UInt32) :=
  (ts.reverse.find? (!·.afterPath.isEmpty)).map (·.afterPath)

/-- The record of a part of the transitions. The paths of `stream` stay those of the whole. -/
def project (rec : StreamRecord) (selected : List PathTransition) : StreamRecord :=
  let baseline := (pathBefore selected).getD rec.baseline
  let changed := firstLater selected <|> rec.changed
  let finalPath := lastObserved selected <|> rec.finalPath
  let wd := selected.findIdx? (·.isWithdrawal)
  let vis := wd.bind fun i =>
    ((selected.drop (i + 1)).find? (!·.afterPath.isEmpty)).map (·.timestamp)
  let equiv := vis.filter fun _ => changed.any (· ≠ baseline)
  let base := (selected.find? (·.kind = "ReturnToBaseline")).map (·.timestamp)
  let firstChange := (selected.head?.map (·.timestamp)) <|> rec.firstChange
  { stream := { rec.stream with
      transitions := selected
      withdrawn := wd.isSome
      firstChangeUtc := firstChange
      visibilityRestoredAt := vis
      equivalentRouteRestoredAt := equiv
      reviewedPlaneRestoredAt := none
      exactBaselineRestoredAt := base }
    baseline := baseline
    eventBaseline := rec.eventBaseline
    changed := changed
    finalPath := finalPath
    firstChange := firstChange
    vis := vis
    equiv := equiv
    plane := none
    base := base }

/-! ## Emitting a finding -/

/-- The most frequent path, of several the longest, of these the greatest. -/
def mostFrequent (paths : List (List UInt32)) : String :=
  let counts := sortBy (compareOn Prod.fst) (tally paths)
  let best := maxBy (compareLex (compareOn fun x => x.2) (compareOn fun x => x.1.length)) counts
  (best.map (collapsePath ·.1)).getD "—"

/-- `target_name_from_label` (`:2139-2147`). -/
def targetNameFromLabel (label : String) : String :=
  let before (sep : String) (s : List Char) : List Char :=
    ((splitOnce sep.toList s).map Prod.fst).getD s
  trim (String.ofList (before " via " (before "(" label.toList)))

/-- `family_from_session` (`:3853-3858`). -/
def familyFromSession (session : String) : String :=
  String.ofList (((splitOnce "/".toList session.toList).map Prod.fst).getD [])

/-- `s.replace([…], "-")`. -/
def dashed (seps : List Char) (s : String) : String :=
  String.ofList (s.toList.map fun c => if c ∈ seps then '-' else c)

/-- The arguments of one call to `emit`. -/
structure EmitCall where
  records : List StreamRecord
  effectKind : EffectKind
  endState : EndState
  /-- The index of the partition, and whether there are several. -/
  pi : Nat
  split : Bool
  earlierChange : Option EarlierChange

namespace FindingSources
variable (src : FindingSources)

def emit (e : ObserverEpisode) (c : EmitCall) : RoutingFinding :=
  let session := sessionKeyOf e.observerSession
  let streams := c.records.map (·.stream)
  let exactPrefixes := sortDedup compare (streams.map (·.pfx))
  let starts := c.records.filterMap (·.firstChange)
  let returns := (c.records.filter (·.stream.withdrawn)).filterMap (·.vis)
  let firstObserved := starts.foldl keepMin none
  let lastTimes := c.records.flatMap fun r =>
    r.firstChange.toList ++ if r.stream.withdrawn then r.vis.toList else []
  let peerAsn := e.peerAsn <|>
    match e.observedPeerAsns with
    | [asn] => some asn
    | _ => none
  let peer := peerAsn.bind fun asn => namedIdentity src.identities asn src.eventDate
  let effect := RoutingEffect.fromKind c.effectKind
  let id := dashed ['/', ' '] (src.toLowercase session.collector) ++ "-" ++
    dashed [':', '.'] session.peerIp ++ "-" ++
    dashed [' '] (src.toLowercase effect.label) ++ "-" ++
    (firstObserved <|> e.firstChange).getD ""
  { stableId :=
      if c.split then id ++ "-" ++ toString exactPrefixes.length ++ "prefixes-" ++ toString c.pi
      else id
    targetLabel := src.targetLabel
    targetOriginAsns := src.targetOriginAsns
    targetName := targetNameFromLabel src.targetLabel
    eventBaselinePathSignature :=
      mostFrequent ((c.records.map (·.eventBaseline)).filter (· ≠ []))
    earlierChange := c.earlierChange
    observerSite := e.observerSite
    observerRegion := e.observerRegion
    sourceFamily := familyFromSession e.observerSession
    collector := session.collector
    peerIp := session.peerIp
    peerAsn := peerAsn
    peerName := (peer.map (·.displayName)).getD "name not reviewed"
    peerRole := (peer.map (·.role)).getD ""
    peerAsnAmbiguous := e.peerAsn.isNone && decide (1 < e.observedPeerAsns.length)
    relationship := e.relationship
    effect := effect
    firstObserved := firstObserved
    lastObserved := lastTimes.foldl keepMax none
    namedPathPlane := e.namedPathPlane
    visibilityRestoredAt := returns.foldl keepMax none
    equivalentRouteRestoredAt := (c.records.filterMap (·.equiv)).foldl keepMax none
    reviewedPlaneRestoredAt := (c.records.filterMap (·.plane)).foldl keepMax none
    exactBaselineRestoredAt := (c.records.filterMap (·.base)).foldl keepMax none
    stateAtWindowEnd := c.endState
    stateAtAnalysisEnd := e.cooldownOutcome
    analysisEnd := src.analysisEnd
    observerStreamCount := exactPrefixes.length
    distinctPrefixes := exactPrefixes.length
    baselinePathSignature := mostFrequent ((c.records.map (·.baseline)).filter (· ≠ []))
    changedPathSignature := mostFrequent (c.records.filterMap (·.changed))
    finalPathSignature := mostFrequent (c.records.filterMap (·.finalPath))
    exactPrefixes := exactPrefixes
    evidenceRefs := sortDedup compare ((streams.map (·.evidenceRefs)).filter (· ≠ ""))
    scopeLimit := src.scopeLimit
    streams := streams }

end FindingSources

/-! ## The split -/

/-- The fields of `diff_paths` (`:2516-2556`) that are read here. -/
structure PathDiff where
  inserted : List UInt32
  removed : List UInt32
  countDeltas : List (UInt32 × Int)
deriving DecidableEq, Repr

def diffPaths (before after : List UInt32) : PathDiff :=
  if after.isEmpty then ⟨[], [], []⟩
  else
    let delta (asn : UInt32) : Int := (after.count asn : Int) - before.count asn
    { inserted := dedupAdjacent (after.filter (· ∉ before))
      removed := dedupAdjacent (before.filter (· ∉ after))
      countDeltas := ((sortDedup compare (before ++ after)).filter fun asn =>
        delta asn ≠ 0 ∧ (1 < before.count asn ∨ 1 < after.count asn)).map fun asn => (asn, delta asn) }

/-- Kind and paths of a transition. -/
abbrev TransitionShape := String × List UInt32 × List UInt32

def PathTransition.shape (t : PathTransition) : TransitionShape := (t.kind, t.beforePath, t.afterPath)

/-- The position of the first withdrawal. -/
def StreamRecord.withdrawalAt (rec : StreamRecord) : Option Nat :=
  rec.stream.transitions.findIdx? (·.isWithdrawal)

/-- The shapes before the withdrawals, of the records that have one. -/
def shapesBefore (part : List StreamRecord) : List (List TransitionShape) :=
  part.filterMap fun rec => rec.withdrawalAt.map fun i => (rec.stream.transitions.take i).map (·.shape)

/-- The common shape, where all of it is changes from path to path. -/
def preShape (part : List StreamRecord) : Option (List TransitionShape) :=
  match shapesBefore part with
  | [] => none
  | shape :: rest =>
    if (shape :: rest).all (fun sh => sh.all fun s => !s.2.1.isEmpty && !s.2.2.isEmpty) &&
        (shape :: rest).all (· == shape) then
      some shape
    else none

/-- The kind of the finding before the withdrawals. -/
def kindBefore : List TransitionShape → EffectKind
  | [] => .pathReplacement
  | (_, before, after) :: _ =>
    let diff := diffPaths before after
    if diff.inserted.isEmpty && diff.removed.isEmpty && !diff.countDeltas.isEmpty then .prependChange
    else .pathReplacement

/-- The link from the finding of the absence to the one before it. -/
def earlierChangeOf (targetOriginAsns : List UInt32) (kind : EffectKind)
    (shape : List TransitionShape) (prependId : String) : Option EarlierChange :=
  if kind = .prependChange then
    match targetOriginAsns, shape with
    | o :: _, (_, before, after) :: _ =>
      let beforeN := before.count o
      let afterN := after.count o
      if beforeN ≠ afterN then
        some {
          stableId := prependId
          label := "origin prepending " ++ (if afterN < beforeN then "reduced" else "increased") ++
            " from AS" ++ toString o ++ "×" ++ toString beforeN ++ " to AS" ++ toString o ++ "×" ++
            toString afterN ++ " while the routes remained visible" }
      else none
    | _, _ => none
  else none

/-- The part of the transitions a finding is about. -/
inductive Segment where
  | whole
  | beforeWithdrawal
  | fromWithdrawal
deriving DecidableEq, Repr

/-- The records at their withdrawals; `none` is the `expect` that fails. -/
def splitRecords (cut : List PathTransition → Nat → List PathTransition) (part : List StreamRecord) :
    Option (List StreamRecord) :=
  part.mapM fun rec => rec.withdrawalAt.map fun i => project rec (cut rec.stream.transitions i)

namespace FindingSources
variable (src : FindingSources)

/-- The two findings of a partition that is split. -/
def splitFindings (e : ObserverEpisode) (split : Bool) (pi : Nat) (part : List StreamRecord)
    (shape : List TransitionShape) : Option (List (Segment × RoutingFinding)) := do
  let pre ← splitRecords (fun ts i => ts.take i) part
  let kind := kindBefore shape
  let before := src.emit e {
    records := pre
    effectKind := kind
    endState :=
      if pre.all fun r => r.finalPath == some r.baseline then .baselineRestored
      else .stillChangedAtWindowEnd
    pi := pi
    split := split
    earlierChange := none }
  let abs ← splitRecords (fun ts i => ts.drop i) part
  let after := src.emit e {
    records := abs
    effectKind := e.effectKind
    endState := e.endState
    pi := pi
    split := split
    earlierChange := earlierChangeOf src.targetOriginAsns kind shape before.stableId }
  return [(.beforeWithdrawal, before), (.fromWithdrawal, after)]

def partFindings (e : ObserverEpisode) (split : Bool) (part : List StreamRecord) (pi : Nat) :
    Option (List (Segment × RoutingFinding)) :=
  match preShape part with
  | some shape => src.splitFindings e split pi part shape
  | none => some [(.whole, src.emit e {
      records := part
      effectKind := e.effectKind
      endState := e.endState
      pi := pi
      split := split
      earlierChange := none })]

def episodeFindings (e : ObserverEpisode) : Option (List (Segment × RoutingFinding)) :=
  if e.effectKind = .noRouteStateChange then some []
  else
    let parts := src.partitions e
    (parts.zipIdx.mapM fun p => src.partFindings e (1 < parts.length) p.1 p.2).map List.flatten

end FindingSources

def findingOrder : RoutingFinding → RoutingFinding → Ordering :=
  compareLex (compareOn (·.firstObserved)) <| compareLex (compareOn (·.observerRegion)) <|
  compareLex (compareOn (·.observerSite)) <|
  compareLex (compareOn fun f => f.peerAsn.getD 0xFFFFFFFF) (compareOn (·.stableId))

def buildFindings (src : FindingSources) (episodes : List ObserverEpisode) :
    Option (List RoutingFinding) := do
  let found ← episodes.mapM src.episodeFindings
  return sortBy findingOrder (found.flatten.map Prod.snd)

end Inim
