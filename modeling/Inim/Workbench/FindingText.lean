import Inim.Workbench.Findings
/-!
# What is written of a finding (`catalog/workbench.rs:2166-2490`, `:2837-2978`)

The sentence of a finding and its audit record. The comment of the record says that "the prose
renderer reads the exact same fields"; the sentence takes its paths from the signatures, but its
prepending counts from the streams, as the record does.

| here | there |
| --- | --- |
| `findingTime`        | `finding_time` (`:2178-2187`) |
| `findingStatement`   | `finding_statement` (`:2189-2474`) |
| `statementWith`      | the same with its three path clauses as arguments |
| `originClause`       | `origin_clause` (`:2478-2486`) |
| `FindingAuditEntry`, `auditEntry` | `:2837-2872`, `FindingAudit::from_vm` (`:2890-2966`) |

The two state fields of an audit record hold the state itself, of which the source writes the
`Debug` text.
-/

namespace Inim

open Std Inim.Lib

/-! ## The sentence -/

/-- The time of day of an ISO timestamp, or the input. -/
def findingTime (iso : String) : String :=
  let trimmed := (iso.toList.reverse.dropWhile (· = 'Z')).reverse
  match splitOnce ['T'] trimmed with
  | some (_, rest) =>
    if 8 ≤ rest.length then String.ofList (rest.take 8) else String.ofList trimmed
  | none => String.ofList trimmed

def originClause (f : RoutingFinding) : Option String :=
  f.targetOriginAsns.head?.map fun origin =>
    "originated by " ++
      if f.targetName = "" then "AS" ++ toString origin
      else f.targetName ++ " (AS" ++ toString origin ++ ")"

/-- " from: …" or " to: …", where there is a path. -/
def pathClause (word signature : String) : String :=
  if signature ≠ "—" then word ++ signature else ""

/-- The direction of a change of prepending, from the counts of the origin. -/
def prependClause (origins : List UInt32) (beforeN afterN : UInt32 → Nat) : String :=
  (origins.head?.map fun o =>
    if afterN o ≠ beforeN o then
      " (AS" ++ toString o ++ "×" ++ toString (beforeN o) ++ " → AS" ++ toString o ++ "×" ++
        toString (afterN o) ++ ")"
    else "").getD ""

/-- `.max().unwrap_or(0)`. -/
def maxCount (counts : List Nat) : Nat := counts.foldl max 0

namespace RoutingFinding

/-- How many prefixes, and of which origin. -/
def unit (f : RoutingFinding) : String :=
  let n := f.distinctPrefixes
  (if n = 1 then "1 prefix" else toString n ++ " prefixes") ++
    ((originClause f).map (" " ++ ·)).getD ""

/-- When, where, and from which peer. -/
def head (f : RoutingFinding) : String :=
  let time := (f.firstObserved.map findingTime).getD "the observed time"
  let peer :=
    match f.peerAsn with
    | some asn =>
      let name :=
        if f.peerName = "name not reviewed" then "AS" ++ toString asn ++ " — name not reviewed"
        else f.peerName ++ " (AS" ++ toString asn ++ ")"
      if f.peerAsnAmbiguous then "receiving routes from peer " ++ f.peerIp ++ " (peer ASN ambiguous)"
      else "receiving routes from " ++ name ++ ", peer " ++ f.peerIp
    | none => "receiving routes from peer " ++ f.peerIp
  let rel :=
    match f.relationship with
    | .direct => "directly"
    | .indirect => "indirectly"
    | _ => ""
  "At " ++ time ++ " UTC, " ++ f.collector ++ " in " ++ f.observerSite ++ ", " ++
    (if rel = "" then peer else peer ++ ", " ++ rel) ++ ","

/-- The first sentence. -/
def opening (f : RoutingFinding) (before after direction : String) : String :=
  match f.effect with
  | .prefixesTemporarilyAbsent => f.head ++ " stopped seeing " ++ f.unit ++ "."
  | .prefixesWithdrawn => f.head ++ " saw " ++ f.unit ++ " become absent (withdrawn)."
  | .asPathChanged => f.head ++ " saw " ++ f.unit ++ " change AS path" ++ before ++ after ++ "."
  | .prependingChanged => f.head ++ " saw " ++ f.unit ++
      " change AS-path prepending while the routes remained visible" ++ direction ++ "."
  | .namedPlaneDeparted => f.head ++ " saw " ++ f.unit ++ " leave the reviewed path plane."
  | .namedPlaneReturned => f.head ++ " saw " ++ f.unit ++ " return to the reviewed path plane."
  | .visibilityRestored => f.head ++ " observed " ++ f.unit ++ " return to visibility."
  | .baselinePathRestored => f.head ++ " observed " ++ f.unit ++ " restore the baseline path."
  | .mixedChange => f.head ++ " observed mixed route-state changes across " ++ f.unit ++ "."

def exactTimes (f : RoutingFinding) : List String := f.streams.filterMap (·.exactBaselineRestoredAt)

/-- The return of the baseline path after a path change, over all streams. -/
def exactReturn (f : RoutingFinding) : String :=
  let lo := findingTime ((f.exactTimes.foldl keepMin none).getD "")
  let hi := findingTime ((f.exactTimes.foldl keepMax none).getD "")
  let restored := (f.streams.filter (·.exactBaselineRestoredAt.isSome)).length
  let total := f.streams.length
  let unrestored := total - restored
  let of := toString restored ++ " of " ++ toString total ++ " prefixes"
  let rest := toString unrestored ++ " prefix" ++ (if unrestored = 1 then "" else "s") ++
    " remained changed at the event-window end."
  match f.exactBaselineRestoredAt, f.stateAtWindowEnd with
  | some _, _ =>
    if f.exactTimes.isEmpty then ""
    else if restored = total then
      if lo ≠ hi then " The exact baseline AS paths returned between " ++ lo ++ " and " ++ hi ++ " UTC."
      else " The exact baseline AS path returned at " ++ lo ++ " UTC."
    -- the prefixes did not all come back
    else if lo ≠ hi then
      " The exact baseline AS paths returned for " ++ of ++ " between " ++ lo ++ " and " ++ hi ++
        " UTC; " ++ rest
    else " The exact baseline AS path returned for " ++ of ++ " at " ++ lo ++ " UTC; " ++ rest
  | none, .stillChangedAtWindowEnd => " The route remained changed at the event-window end."
  | none, _ => ""

def restorationOutcome (f : RoutingFinding) : String :=
  let exact := (f.exactBaselineRestoredAt.map fun b =>
    " The exact baseline AS path returned at " ++ findingTime b ++ " UTC.").getD ""
  match f.effect with
  | .prefixesTemporarilyAbsent =>
    match f.visibilityRestoredAt with
    | some v => " Visibility returned at " ++ findingTime v ++ " UTC on a different AS path." ++ exact
    | none =>
      if f.stateAtWindowEnd = .absentAtWindowEnd then
        " The prefixes remained absent at the event-window end."
      else ""
  | .asPathChanged | .prependingChanged => f.exactReturn
  | .namedPlaneDeparted =>
    (f.reviewedPlaneRestoredAt.map fun t =>
      " The route returned to the reviewed " ++
        (if f.namedPathPlane = "" then "reviewed" else f.namedPathPlane) ++ " path at " ++
        findingTime t ++ " UTC.").getD "" ++ exact ++
    if f.reviewedPlaneRestoredAt.isNone && f.exactBaselineRestoredAt.isNone &&
        f.stateAtWindowEnd = .stillChangedAtWindowEnd then
      " The route remained changed at the event-window end."
    else ""
  | _ => ""

def equivalentOutcome (f : RoutingFinding) : String :=
  match f.equivalentRouteRestoredAt with
  | some t =>
    if f.visibilityRestoredAt ≠ some t then
      " A semantically equivalent route returned at " ++ findingTime t ++ " UTC."
    else ""
  | none => ""

def analysisOutcome (f : RoutingFinding) : String :=
  match f.stateAtAnalysisEnd with
  | .stillChangingBeforeAnalysisEnd t =>
    " The routes changed again at " ++ findingTime t ++
      " UTC; no restoration was observed before the analysis ended at " ++ findingTime f.analysisEnd ++
      " UTC."
  | .noRestorationBeforeAnalysisEnd _ =>
    if f.visibilityRestoredAt.isSome || f.equivalentRouteRestoredAt.isSome ||
        f.reviewedPlaneRestoredAt.isSome || f.exactBaselineRestoredAt.isSome then ""
    else " No restoration was observed before the analysis ended at " ++ findingTime f.analysisEnd ++
      " UTC."
  | .restoredAt t =>
    " A restoration was observed during the follow-up window at " ++ findingTime t ++ " UTC."
  | .none => ""

end RoutingFinding

def statementWith (f : RoutingFinding) (before after direction : String) : String :=
  f.opening before after direction ++ f.restorationOutcome ++ f.equivalentOutcome ++ f.analysisOutcome

/-- The counts of an origin in the streams, where the sentence takes them. -/
def streamsBefore (f : RoutingFinding) (o : UInt32) : Nat :=
  maxCount (f.streams.map fun s => s.baselinePath.count o)

def streamsAfter (f : RoutingFinding) (o : UInt32) : Nat :=
  maxCount (f.streams.map fun s => (s.changedPath.map (·.count o)).getD 0)

def findingStatement (f : RoutingFinding) : String :=
  statementWith f (pathClause " from: " f.baselinePathSignature)
    (pathClause " to: " f.changedPathSignature)
    (prependClause f.targetOriginAsns (streamsBefore f) (streamsAfter f))

/-! ## The audit record -/

structure FindingAuditPrefix where
  pfx : String
  baselineAsPath : List UInt32
  firstChangedAsPath : Option (List UInt32)
  finalAsPath : Option (List UInt32)
  visibilityRestorationTime : Option String
  reviewedPlaneRestorationTime : Option String
  equivalentRouteRestorationTime : Option String
  exactBaselineRestorationTime : Option String
  evidenceIds : List String
deriving DecidableEq, Repr

structure FindingAuditEntry where
  findingId : String
  observerSession : String
  peerAsn : Option UInt32
  peerIp : String
  exactPrefixes : List String
  baselineAsPath : List UInt32
  firstChangedState : String
  firstChangedAsPath : List UInt32
  finalEventWindowState : EndState
  finalAnalysisWindowState : CooldownOutcome
  visibilityRestorationTime : Option String
  reviewedPlaneRestorationTime : Option String
  equivalentRouteRestorationTime : Option String
  exactBaselineRestorationTime : Option String
  analysisEnd : String
  evidenceIds : List String
  prefixes : List FindingAuditPrefix
deriving DecidableEq, Repr

def auditPrefix (s : FindingStream) : FindingAuditPrefix where
  pfx := s.pfx
  baselineAsPath := s.baselinePath
  firstChangedAsPath := s.changedPath
  finalAsPath := s.finalPath
  visibilityRestorationTime := s.visibilityRestoredAt
  reviewedPlaneRestorationTime := s.reviewedPlaneRestoredAt
  equivalentRouteRestorationTime := s.equivalentRouteRestoredAt
  exactBaselineRestorationTime := s.exactBaselineRestoredAt
  evidenceIds := if s.evidenceRefs = "" then [] else [s.evidenceRefs]

def auditEntry (f : RoutingFinding) : FindingAuditEntry where
  findingId := f.stableId
  observerSession := f.sourceFamily ++ "/" ++ f.collector ++ " peer " ++ f.peerIp
  peerAsn := f.peerAsn
  peerIp := f.peerIp
  exactPrefixes := f.exactPrefixes
  baselineAsPath := ((f.streams.find? (!·.baselinePath.isEmpty)).map (·.baselinePath)).getD []
  firstChangedState := f.effect.label
  firstChangedAsPath := (f.streams.findSome? (·.changedPath)).getD []
  finalEventWindowState := f.stateAtWindowEnd
  finalAnalysisWindowState := f.stateAtAnalysisEnd
  visibilityRestorationTime := f.visibilityRestoredAt
  reviewedPlaneRestorationTime := f.reviewedPlaneRestoredAt
  equivalentRouteRestorationTime := f.equivalentRouteRestoredAt
  exactBaselineRestorationTime := f.exactBaselineRestoredAt
  analysisEnd := f.analysisEnd
  evidenceIds := f.evidenceRefs
  prefixes := f.streams.map auditPrefix

end Inim
