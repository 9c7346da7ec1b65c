import Inim.Domain.Route
import Inim.Lib.SortBy
/-!
# Deterministic observation order (`derived_cache.rs:264-308`)

| here | there |
| --- | --- |
| `deterministicObservationOrder` | `derived_cache.rs:271`: collector, timestamp, archive order, element sequence, peer text, prefix, path id |
| `sortDeterministic`             | `derived_cache.rs:297`; `sort_by` is stable |
| `assignDeterministicIds`        | `derived_cache.rs:306` |
-/

namespace Inim

open Std Inim.Lib

/-- `path_id_key`: `None < Some(id)`. -/
def pathIdKey : Option UInt32 → Nat × UInt32
  | none => (0, 0)
  | some id => (1, id)

def deterministicObservationOrder : RouteObservation → RouteObservation → Ordering :=
  compareLex (compareOn (·.collector)) <|
  compareLex (compareOn (·.timestamp)) <|
  compareLex (compareOn (·.provenance.archiveOrder)) <|
  compareLex (compareOn (·.provenance.elementSeq)) <|
  compareLex (compareOn (·.peerIp.display)) <|
  compareLex (compareOn (·.pfx)) <|
  compareLex (compareOn fun o => (pathIdKey o.pathId).1) (compareOn fun o => (pathIdKey o.pathId).2)

instance : TransCmp deterministicObservationOrder := by
  unfold deterministicObservationOrder
  infer_instance

def sortDeterministic (observations : List RouteObservation) : List RouteObservation :=
  sortBy deterministicObservationOrder observations

def assignDeterministicIds (observations : List RouteObservation) : List RouteObservation :=
  observations.mapIdx fun i o => { o with id := i }

/-- The sort is collector-major. -/
theorem collector_le_of_order {a b : RouteObservation}
    (h : CmpLE deterministicObservationOrder a b) : a.collector ≤ b.collector := by
  refine le_of_not_gt ?_
  intro hlt
  have hgt : compare a.collector b.collector = .gt := compare_gt_iff_gt.2 hlt
  rw [CmpLE, deterministicObservationOrder, compareLex, compareOn, hgt] at h
  cases h

theorem sortDeterministic_collectors (obs : List RouteObservation) :
    (sortDeterministic obs).Pairwise fun a b => a.collector ≤ b.collector :=
  (sortBy_pairwise obs).imp collector_le_of_order

end Inim
