import Inim.Catalog.Runs
/-!
# Exact path evidence (`catalog/workbench.rs:514-882`)

The workbench reads the paths of a stream, and the times at which it was restored, from the
lifecycle artifact of its run.

| here | there |
| --- | --- |
| `PathTransition`, `StreamPathEvidence` | `:516-548` |
| `LifecyclePathIndex`      | `:550-558`, `lookup` (`:836-853`) as a function |
| `RestoreScan`             | the locals of the loop over the transitions (`:746-799`) |
| `loadStream`, `loadArtifact` | one round of the inner and of the outer loop of `load` (`:594-833`) |
| `collapsePath`            | `collapse_as_path` (`:855-882`) |

Which files there are, and that they parse, comes from outside.
-/

namespace Inim

structure PathTransition where
  timestamp : String
  kind : String
  beforePath : List UInt32
  afterPath : List UInt32
deriving DecidableEq, Repr

structure StreamPathEvidence where
  transitions : List PathTransition
  baselinePath : List UInt32
  /-- First non-baseline observed path. -/
  changedPath : Option (List UInt32)
  /-- Last observed path. -/
  finalPath : Option (List UInt32)
  /-- Exact time the prefix became visible again after an absence. -/
  visibilityRestoredAt : Option String
  /-- Exact time a route for the prefix returned on a path that is not the exact baseline path. -/
  equivalentRouteRestoredAt : Option String
  /-- Exact time the observed path again contained the reviewed plane ASN after having departed it,
  or after an absence. -/
  reviewedPlaneRestoredAt : Option String
  /-- Exact time the earlier baseline path was restored. -/
  exactBaselineRestoredAt : Option String
deriving DecidableEq, Repr

/-- By run event id, then by collector, peer and prefix. -/
abbrev LifecyclePathIndex := String → String × String × String → Option StreamPathEvidence

namespace Json

/-- `.get(key).and_then(as_array)` and its numbers `as u32`. -/
def path? (j : Json) (key : String) : Option (List UInt32) :=
  ((j.get key).bind asArray).map fun items => (items.filterMap asU64).map UInt32.ofNat

def path (j : Json) (key : String) : List UInt32 := (j.path? key).getD []

end Json

def pathTransition (t : Json) : PathTransition where
  timestamp := t.text "timestamp"
  kind := t.text "kind"
  beforePath := t.path "before_path"
  afterPath := t.path "after_path"

/-- The paths after the transitions, without the transitions that have none. -/
def observedPaths (transitions : List Json) : List (List UInt32) :=
  (transitions.filterMap (·.path? "after_path")).filter (· ≠ [])

structure RestoreScan where
  planePresent : Bool
  prevAfter : Option (List UInt32)
  visibility : Option String
  plane : Option String
  exact : Option String
deriving DecidableEq, Repr

namespace RestoreScan
variable (planeContains : List UInt32 → Bool)

def init (baseline : List UInt32) : RestoreScan := ⟨planeContains baseline, none, none, none, none⟩

/-- A transition with a visible path. -/
def observe (s : RestoreScan) (ts kind : String) (after : List UInt32) : RestoreScan :=
  { s with
    exact := if kind = "ReturnToBaseline" then some ts else s.exact
    -- the state before must have been visible
    visibility :=
      if kind = "Announcement" ∧ s.prevAfter.any (!·.isEmpty) then some ts else s.visibility
    plane :=
      if !s.planePresent && planeContains after && s.plane.isNone then some ts else s.plane
    planePresent := planeContains after }

def step (s : RestoreScan) (t : Json) : RestoreScan :=
  match t.path? "after_path" with
  | none => s
  | some after =>
    let s := if after.isEmpty then s
      else s.observe planeContains (t.text "timestamp") (t.text "kind") after
    { s with prevAfter := some after }

def scan (baseline : List UInt32) (transitions : List Json) : RestoreScan :=
  transitions.foldl (step planeContains) (init planeContains baseline)

end RestoreScan

/-- The path before the first transition, or that of the first baseline instance. -/
def evidenceBaseline (lc : Json) : List UInt32 :=
  let firstBefore := (((lc.items "transitions").head?).map (·.path "before_path")).getD []
  if firstBefore.isEmpty then lc.path "baseline_path" else firstBefore

def loadEvidence (plane : List UInt32) (lc : Json) : StreamPathEvidence :=
  let transitions := lc.items "transitions"
  let baseline := evidenceBaseline lc
  let changed := (observedPaths transitions).find? (· ≠ baseline)
  let s := RestoreScan.scan (fun path => plane.any (path.contains ·)) baseline transitions
  let restorationTime := (lc.get "restoration_time").bind Json.asStr
  { transitions := transitions.map pathTransition
    baselinePath := baseline
    changedPath := changed
    finalPath := (observedPaths transitions).getLast?
    -- the restoration time of the lifecycle comes last
    visibilityRestoredAt := restorationTime <|> s.visibility
    equivalentRouteRestoredAt := restorationTime.filter fun rt =>
      changed ≠ some baseline ∧ s.exact.all (rt < ·)
    reviewedPlaneRestoredAt := s.plane
    exactBaselineRestoredAt := s.exact }

/-- A record without a key is passed over. -/
def loadStream (plane : List UInt32) (lc : Json) :
    Option ((String × String × String) × StreamPathEvidence) := do
  let collector ← (lc.get "collector").bind Json.asStr
  let peerIp ← (lc.get "peer_ip").bind Json.asStr
  let pfx ← (lc.get "prefix").bind Json.asStr
  return ((collector, peerIp, pfx), loadEvidence plane lc)

/-- What an artifact puts into the index: its event, and the streams by key, where the last record of
a key counts. -/
def loadArtifact (planeAsns : String → List UInt32) (v : Json) :
    Option (String × (String × String × String → Option StreamPathEvidence)) := do
  let eventId ← (v.get "event_id").bind Json.asStr
  let lifecycles ← (v.get "lifecycles").bind Json.asArray
  let rows := lifecycles.filterMap (loadStream (planeAsns eventId))
  return (eventId, fun key => (rows.reverse.find? (·.1 = key)).map Prod.snd)

def loadIndex (planeAsns : String → List UInt32) (artifacts : List Json) : LifecyclePathIndex :=
  fun eventId key =>
    (((artifacts.filterMap (loadArtifact planeAsns)).reverse.find? (·.1 = eventId)).map
      (·.2 key)).getD none

/-! ## Paths as text -/

/-- The runs of equal ASNs. -/
def asnRuns : List UInt32 → List (UInt32 × Nat)
  | [] => []
  | asn :: rest =>
    match asnRuns rest with
    | (asn', n) :: runs => if asn = asn' then (asn, n + 1) :: runs else (asn, 1) :: (asn', n) :: runs
    | [] => [(asn, 1)]

def collapsePath (path : List UInt32) : String :=
  if path.isEmpty then "—"
  else String.intercalate " " ((asnRuns path).map fun (asn, n) =>
    if 1 < n then "AS" ++ toString asn ++ "×" ++ toString n else "AS" ++ toString asn)

example : collapsePath [64500, 24489, 24489] = "AS64500 AS24489×2" := by decide +kernel

end Inim
