import Inim.Routes.Store
import Inim.Lib.SortBy
/-!
# The frozen cohort (`cohort.rs:1-118`)

An observer-prefix stream joins the cohort when at least one of its target-origin RIB entries
satisfies the transit predicate; once admitted, all its target-origin entries are baseline
instances.

| here | there |
| --- | --- |
| `targetOrigin`, `targetEntries`   | the three `continue`s of the first loop (`cohort.rs:46-56`) |
| `streamsOf`, `entriesOf`          | keys and values of `all_instances` (`cohort.rs:43`, `:57-62`) |
| `instanceState`, `instanceMap`    | the inner loop of the second (`cohort.rs:75-113`) |
| `freezeCohort`                    | `cohort.rs:37` |

`BTreeSet` and the outer `BTreeMap` are their ascending key list and their lookup function;
`InstanceMap`, whose values are read in key order, is an ordered map.
-/

namespace Inim

open Std Inim.Lib

/-- `BTreeMap<RouteKey, RouteState>`. -/
abbrev InstanceMap := ExtTreeMap RouteKey RouteState RouteKey.cmp

/-- The values of a map are those its entries have. -/
theorem values_eq_map_toList {α β : Type*} {cmp : α → α → Ordering} [TransCmp cmp]
    (m : ExtTreeMap α β cmp) : m.values = m.toList.map Prod.snd := by
  obtain ⟨m⟩ := m
  induction m using ExtDTreeMap.inductionOn with
  | mk m =>
    change m.inner.values = (DTreeMap.Internal.Impl.Const.toList m.inner).map Prod.snd
    rw [DTreeMap.Internal.Impl.values_eq_map_snd, DTreeMap.Internal.Impl.Const.toList_eq_toListModel_map,
      List.map_map]
    rfl

theorem InstanceMap.mem_values {m : InstanceMap} {s : RouteState} :
    s ∈ m.values ↔ ∃ k : RouteKey, m[k]? = some s := by
  rw [values_eq_map_toList, List.mem_map]
  simp [ExtTreeMap.mem_toList_iff_getElem?_eq_some]

theorem InstanceMap.getElem?_insert (m : InstanceMap) (k k' : RouteKey) (s : RouteState) :
    (ExtTreeMap.insert m k s)[k']? = if k = k' then some s else m[k']? := by
  simp only [ExtTreeMap.getElem?_insert, LawfulEqCmp.compare_eq_iff_eq]

theorem InstanceMap.getElem?_erase (m : InstanceMap) (k k' : RouteKey) :
    (ExtTreeMap.erase m k)[k']? = if k = k' then none else m[k']? := by
  simp only [ExtTreeMap.getElem?_erase, LawfulEqCmp.compare_eq_iff_eq]

structure FrozenCohort where
  observerPrefixes : List ObserverPrefixKey
  baselineInstances : ObserverPrefixKey → Option InstanceMap

def RouteObservation.stream (o : RouteObservation) : ObserverPrefixKey := (observationKey o).observerPrefixKey

/-- `attrs.origin_asns.first().map(|a| a.0).unwrap_or(0)`. -/
def ObservationAttributes.firstOrigin (a : ObservationAttributes) : UInt32 := a.originAsns.head?.getD 0

/-- A RIB entry with attributes whose first origin is a target. -/
def targetOrigin (targets : List UInt32) (o : RouteObservation) : Bool :=
  o.kind == .ribEntry && (o.attributes.map fun a => targets.contains a.firstOrigin).getD false

/-- `obs.attributes.is_some_and(|a| predicate.evaluate(&a.as_path))`. -/
def TransitPredicate.matchesObs (p : TransitPredicate) (o : RouteObservation) : Bool :=
  (o.attributes.map fun a => p.evaluate a.asPath).getD false

section Freeze
variable (targets : List UInt32) (pred : TransitPredicate) (rib : List RouteObservation)

def targetEntries : List RouteObservation := rib.filter (targetOrigin targets)

def streamsOf (entries : List RouteObservation) : List ObserverPrefixKey :=
  sortBy ObserverPrefixKey.cmp (entries.map (·.stream)).dedup

def entriesOf (opk : ObserverPrefixKey) (entries : List RouteObservation) : List RouteObservation :=
  entries.filter (·.stream = opk)

/-- The `RouteState` literal of the inner loop: what reconstruction makes of the same entry. -/
def instanceState (o : RouteObservation) : RouteState where
  pfx := o.pfx
  attributes :=
    { asPath := (o.attributes.map (·.asPath)).getD []
      originAsns := (o.attributes.map (·.originAsns)).getD []
      nextHop := o.attributes.bind (·.nextHop)
      origin := o.attributes.bind (·.origin)
      med := o.attributes.bind (·.med)
      localPref := o.attributes.bind (·.localPref)
      atomicAggregate := (o.attributes.map (·.atomicAggregate)).getD false
      communities := (o.attributes.map (·.communities)).getD [] }
  timestamp := o.timestamp
  observer := o.collector ++ ":" ++ o.peerIp.display
  pathId := o.pathId

def instanceMap (entries : List RouteObservation) : InstanceMap :=
  entries.foldl (fun m o => m.insert (observationKey o) (instanceState o)) ∅

/-- `matches_predicate`: some entry of the stream satisfies the predicate. -/
def admits (opk : ObserverPrefixKey) : Bool :=
  (entriesOf opk (targetEntries targets rib)).any pred.matchesObs

def freezeCohort : FrozenCohort where
  observerPrefixes := (streamsOf (targetEntries targets rib)).filter (admits targets pred rib)
  baselineInstances opk :=
    if admits targets pred rib opk then some (instanceMap (entriesOf opk (targetEntries targets rib)))
    else none

end Freeze

theorem baselineInstances_freezeCohort (targets : List UInt32) (pred : TransitPredicate)
    (rib : List RouteObservation) (opk : ObserverPrefixKey) :
    (freezeCohort targets pred rib).baselineInstances opk =
      if admits targets pred rib opk then
        some (instanceMap (entriesOf opk (targetEntries targets rib)))
      else none := rfl

theorem attributes_of_targetOrigin {targets : List UInt32} {o : RouteObservation}
    (h : targetOrigin targets o = true) : o.kind = .ribEntry ∧ o.attributes ≠ none := by
  simp only [targetOrigin, Bool.and_eq_true, beq_iff_eq] at h
  refine ⟨h.1, fun ha => ?_⟩
  simp [ha] at h

/-- The cohort's prefixes are the admitted streams. -/
theorem mem_observerPrefixes {targets : List UInt32} {pred : TransitPredicate}
    {rib : List RouteObservation} {opk : ObserverPrefixKey} :
    opk ∈ (freezeCohort targets pred rib).observerPrefixes ↔ admits targets pred rib opk = true := by
  simp only [freezeCohort, List.mem_filter, and_iff_right_iff_imp, streamsOf, mem_sortBy,
    List.mem_dedup, List.mem_map]
  intro h
  obtain ⟨o, ho, -⟩ := List.any_eq_true.1 h
  obtain ⟨ho, hs⟩ := List.mem_filter.1 ho
  exact ⟨o, ho, of_decide_eq_true hs⟩

/-- The last entry of a route key decides its baseline instance. -/
theorem getElem?_instanceMap (entries : List RouteObservation) (k : RouteKey) :
    (instanceMap entries)[k]? =
      (entries.filter (observationKey · = k)).getLast?.map instanceState := by
  unfold instanceMap
  induction entries using List.reverseRecOn with
  | nil => simp
  | append_singleton entries o ih =>
    rw [List.foldl_append, List.foldl_cons, List.foldl_nil, InstanceMap.getElem?_insert, ih,
      List.filter_append]
    by_cases hk : observationKey o = k
    · simp [hk]
    · simp [hk]

theorem mem_instanceMap {entries : List RouteObservation} {k : RouteKey} :
    k ∈ instanceMap entries ↔ ∃ o ∈ entries, observationKey o = k := by
  rw [ExtTreeMap.mem_iff_isSome_getElem?, getElem?_instanceMap, Option.isSome_map]
  simp

end Inim
