import Inim.Domain.Observation
/-!
# Route types (`domain/route.rs`)

| here | there |
| --- | --- |
| `RouteAttributes`, `RouteState`  | `route.rs:38`, `:133`; `AsPath(Vec<u32>)` is its list |
| `RouteKey`, `ObserverPrefixKey`  | `route.rs:86`, `:127`, with their derived `Ord` |
| `TransitPredicate.evaluate`      | `route.rs:236-246` |
| `EvidencedRouteState`            | `route.rs:342` |
| `StateChange`, `RouteTransition` | `route.rs:428`, `:465` |
-/

namespace Inim

open Std

structure RouteAttributes where
  asPath : List UInt32
  originAsns : List Asn
  nextHop : Option IpAddr
  origin : Option String
  med : Option UInt32
  localPref : Option UInt32
  atomicAggregate : Bool
  communities : List String
deriving DecidableEq, Repr

/-- `RouteAttributes::from_as_path` (`route.rs:58`). -/
def RouteAttributes.fromAsPath (asPath : List UInt32) : RouteAttributes where
  asPath := asPath
  originAsns := (asPath.getLast?.map fun a => [a]).getD []
  nextHop := none
  origin := none
  med := none
  localPref := none
  atomicAggregate := false
  communities := []

/-- `RouteAttributes::empty` (`route.rs:73`). -/
def RouteAttributes.empty : RouteAttributes := ⟨[], [], none, none, none, none, false, []⟩

/-! ## Keys -/

/-- A route instance: collector, peer, prefix, ADD-PATH id. -/
structure RouteKey where
  collector : String
  peerIp : IpAddr
  pfx : Prefix
  pathId : Option UInt32
deriving DecidableEq, Repr

/-- An observer-prefix stream: the key without the path id. -/
structure ObserverPrefixKey where
  collector : String
  peerIp : IpAddr
  pfx : Prefix
deriving DecidableEq, Repr

/-- `RouteKey::observer_prefix_key` (`route.rs:118`). -/
def RouteKey.observerPrefixKey (k : RouteKey) : ObserverPrefixKey := ⟨k.collector, k.peerIp, k.pfx⟩

/-- The derived `Ord`: fields in declaration order, `None < Some`. -/
def RouteKey.cmp : RouteKey → RouteKey → Ordering :=
  compareLex (compareOn collector)
    (compareLex (compareOn peerIp) (compareLex (compareOn pfx) (compareOn pathId)))

def ObserverPrefixKey.cmp : ObserverPrefixKey → ObserverPrefixKey → Ordering :=
  compareLex (compareOn collector) (compareLex (compareOn peerIp) (compareOn pfx))

instance : TransCmp RouteKey.cmp :=
  inferInstanceAs (TransCmp (compareLex (compareOn RouteKey.collector) (compareLex
    (compareOn RouteKey.peerIp) (compareLex (compareOn RouteKey.pfx) (compareOn RouteKey.pathId)))))

instance : TransCmp ObserverPrefixKey.cmp :=
  inferInstanceAs (TransCmp (compareLex (compareOn ObserverPrefixKey.collector) (compareLex
    (compareOn ObserverPrefixKey.peerIp) (compareOn ObserverPrefixKey.pfx))))

instance : LawfulEqCmp RouteKey.cmp where
  eq_of_compare {a b} h := by
    simp only [RouteKey.cmp, compareLex_eq_eq, compareOn, LawfulEqCmp.compare_eq_iff_eq] at h
    obtain ⟨h1, h2, h3, h4⟩ := h
    cases a; cases b; simp_all

instance : LawfulEqCmp ObserverPrefixKey.cmp where
  eq_of_compare {a b} h := by
    simp only [ObserverPrefixKey.cmp, compareLex_eq_eq, compareOn,
      LawfulEqCmp.compare_eq_iff_eq] at h
    obtain ⟨h1, h2, h3⟩ := h
    cases a; cases b; simp_all

structure RouteState where
  pfx : Prefix
  attributes : RouteAttributes
  timestamp : DateTime
  observer : String
  pathId : Option UInt32
deriving DecidableEq, Repr

/-! ## Transitions -/

inductive TransitionKind where
  | announcement
  | withdrawal
  | duplicate
  | pathReplacement (old new : List UInt32)
  | attributeChange
  | sessionReset
  | restoration
  | returnToBaseline
deriving DecidableEq, Repr

/-- `PrependChange` (`route.rs:214`). -/
inductive PrependChange where
  | none
  | increased
  | reduced
  | indeterminate
deriving DecidableEq, Repr

structure GenericTransitionEffects where
  gracefulShutdownAdded : Bool := false
  gracefulShutdownRemoved : Bool := false
  prepend : PrependChange := .none
  materialPathChanged : Bool := false
  communitiesChanged : Bool := false
  medChanged : Bool := false
  localPrefChanged : Bool := false
  originChanged : Bool := false
  nextHopChanged : Bool := false
deriving DecidableEq, Repr

inductive TransitPredicate where
  | containsAny (asns : List UInt32)
  | containsAll (asns : List UInt32)
  | adjacent (a b : UInt32)
deriving DecidableEq, Repr

/-- `path.windows(2).any(..)` of `Adjacent`: the two ASNs next to each other, either way round. -/
def hasAdjacent (a b : UInt32) : List UInt32 → Bool
  | x :: y :: rest => (x == a && y == b) || (x == b && y == a) || hasAdjacent a b (y :: rest)
  | _ => false

def TransitPredicate.evaluate : TransitPredicate → List UInt32 → Bool
  | .containsAny asns, path => asns.any path.contains
  | .containsAll asns, path => asns.all path.contains
  | .adjacent a b, path => hasAdjacent a b path

/-- A state with the observation that established it; `state = none` is explicit absence. -/
structure EvidencedRouteState where
  state : Option RouteState
  evidence : EvidenceRef
deriving DecidableEq, Repr

def EvidencedRouteState.present (s : RouteState) (e : EvidenceRef) : EvidencedRouteState := ⟨some s, e⟩

def EvidencedRouteState.absent (e : EvidenceRef) : EvidencedRouteState := ⟨none, e⟩

/-- `EvidencedRouteState::timestamp` (`route.rs:378`): the evidence's own for an absent state. -/
def EvidencedRouteState.timestamp (e : EvidencedRouteState) : DateTime :=
  (e.state.map (·.timestamp)).getD e.evidence.timestamp

/-- `EvidencedRouteState::attributes` (`route.rs:396`). -/
def EvidencedRouteState.attributes (e : EvidencedRouteState) : RouteAttributes :=
  (e.state.map (·.attributes)).getD .empty

inductive Continuity where
  | known
  | unknown
deriving DecidableEq, Repr

inductive AnalysisPhase where
  | warmup
  | event
  | cooldown
deriving DecidableEq, Repr

structure StateChange where
  key : RouteKey
  eventBaseline : Option EvidencedRouteState
  before : Option EvidencedRouteState
  after : EvidencedRouteState
  triggering : EvidenceRef
  continuity : Continuity
  phase : AnalysisPhase
deriving DecidableEq, Repr

structure RouteTransition where
  key : RouteKey
  eventBaseline : Option EvidencedRouteState
  /-- `from`, `to` in the source. -/
  from_ : Option EvidencedRouteState
  to_ : EvidencedRouteState
  kind : TransitionKind
  effects : GenericTransitionEffects
  triggering : EvidenceRef
  phase : AnalysisPhase
deriving DecidableEq, Repr

/-- `t.from.as_ref().and_then(|f| f.state.as_ref())`. -/
def RouteTransition.fromState (t : RouteTransition) : Option RouteState := t.from_.bind (·.state)

end Inim
