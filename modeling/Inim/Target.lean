import Inim.Cohort
import Inim.Lib.Dedup

/-!
# The target set (`target.rs`)

| here | there |
| --- | --- |
| `TargetStream`, `TargetSet`  | `target.rs:17-31`; the map as the list of its entries, in order of insertion |
| `scanRibAndFreeze`           | `target.rs:41-92` |
| `TargetSet.merge`, `.contains`, `.totalStreams`, `.frozenPrefixes` | `target.rs:96-142` |
| `admitObservation`           | `target.rs:165-176` |

No function here or among the callers shows the order in which the map is iterated: the target
set's hash sorts what it hashes, and the retained collectors are sorted.
-/

namespace Inim

open Std Inim.Lib

structure TargetStream where
  peerIp : IpAddr
  pfx : Prefix
  originAs : UInt32
  asPath : List UInt32
  pathId : Option UInt32
deriving DecidableEq, Repr

/-- `HashMap<String, Vec<TargetStream>>`. -/
abbrev TargetSet := List (String × List TargetStream)

namespace TargetSet

def streams (t : TargetSet) (collector : String) : Option (List TargetStream) :=
  (t.find? (·.1 = collector)).map (·.2)

/-- `entry(collector).or_default().extend(entries)`. -/
def extend (t : TargetSet) (collector : String) (entries : List TargetStream) : TargetSet :=
  if t.any (·.1 = collector) then
    t.map fun e => if e.1 = collector then (e.1, e.2 ++ entries) else e
  else t ++ [(collector, entries)]

def merge (t other : TargetSet) : TargetSet := other.foldl (fun t e => t.extend e.1 e.2) t

def contains (t : TargetSet) (collector : String) (peerIp : IpAddr) (pfx : Prefix) : Bool :=
  (t.streams collector).any fun entries => entries.any fun s => s.peerIp == peerIp && s.pfx == pfx

def totalStreams (t : TargetSet) : Nat := (t.map (·.2.length)).sum

/-- The set of prefixes, as a list. -/
def frozenPrefixes (t : TargetSet) : List Prefix := t.flatMap fun e => e.2.map (·.pfx)

end TargetSet

/-! ## Freezing -/

def targetStream (o : RouteObservation) (a : ObservationAttributes) : TargetStream :=
  ⟨o.peerIp, o.pfx, a.firstOrigin, a.asPath, o.pathId⟩

/-- An entry of the target, if the observation is one. -/
def streamOf (targets : List UInt32) (pred : TransitPredicate) (o : RouteObservation) :
    Option TargetStream := do
  guard (o.kind = .ribEntry)
  let a ← o.attributes
  guard (targets.contains a.firstOrigin)
  guard (pred.evaluate a.asPath)
  return targetStream o a

/-- By peer text, then prefix. -/
def streamOrder : TargetStream → TargetStream → Ordering :=
  compareLex (compareOn (·.peerIp.display)) (compareOn (·.pfx))

/-- One stream for each peer and prefix: `sort_by` and `dedup_by`. -/
def freezeEntries (entries : List TargetStream) : List TargetStream :=
  dedupByKey (fun s => (s.peerIp, s.pfx)) (sortBy streamOrder entries)

def scanRibAndFreeze (rib : List RouteObservation) (targets : List UInt32)
    (pred : TransitPredicate) : TargetSet :=
  let streams : TargetSet := rib.foldl (fun (t : TargetSet) o => match streamOf targets pred o with
    | some s => t.extend o.collector [s]
    | none => t) []
  streams.map fun e => (e.1, freezeEntries e.2)

def admitObservation (o : RouteObservation) (target : TargetSet) (frozenPrefixes : List Prefix) :
    Bool :=
  frozenPrefixes.contains o.pfx && target.contains o.collector o.peerIp o.pfx

end Inim
