import Inim.Ingest
import Inim.Routes.Run
import Inim.Routes.Order

/-!
# What a fresh parse leaves of a stream's instances

The loop that parses a RIB keeps an entry only when it satisfies the transit predicate
(`orchestrate.rs:412-417`), and the cohort is frozen from what was kept (`:760`). `freeze_cohort`
means to keep *all* target-origin instances of a stream one of whose instances satisfies the
predicate; it cannot keep what it is not shown. `keepsInstances_iff` says when nothing is lost.

**Bug**: an ADD-PATH alternate off the transit is missing from the baseline and from the route
store (`alternate_is_lost`).
-/

namespace Inim

open Std Inim.Lib

/-- A RIB archive of one collector, as the elements the parser yields of it. -/
structure RibDump where
  path : String
  collector : CollectorId
  url : String
  sha : String
  elems : List BgpElem
deriving DecidableEq, Repr

def RibDump.observations (d : RibDump) : List RouteObservation :=
  d.elems.mapIdx fun seq e => elemObservation e seq d.path (ribContext d.collector d.url d.sha [])

/-- `collector_obs` after a fresh parse. -/
def retained (originAsns : List UInt32) (pred : TransitPredicate) (obs : List RouteObservation) :
    List RouteObservation :=
  ((ribScan originAsns pred ⟨0, 0, 0, []⟩ (obs.map .ok)).toOption.map (·.obs)).getD []

theorem retained_eq (originAsns : List UInt32) (pred : TransitPredicate)
    (obs : List RouteObservation) :
    retained originAsns pred obs = (originMatching originAsns (obs.map .ok)).filter pred.matchesObs := by
  rw [retained, ribScan_ok]
  rfl

/-- `rib_observations` after the loop over the collectors. -/
def retainedRibs (originAsns : List UInt32) (pred : TransitPredicate) (dumps : List RibDump) :
    List RouteObservation :=
  dumps.flatMap fun d => retained originAsns pred d.observations

/-- Every admitted stream has the baseline it has when frozen from all origin-matching entries,
and the route store holds something for each of its entries. -/
def KeepsInstances (originAsns : List UInt32) (pred : TransitPredicate)
    (eventStart eventEnd cooldownEnd : DateTime) (dumps : List RibDump) : Prop :=
  let obs := dumps.flatMap RibDump.observations
  (freezeCohort originAsns pred (retainedRibs originAsns pred dumps)).baselineInstances
      = (freezeCohort originAsns pred (originMatching originAsns (obs.map .ok))).baselineInstances
    ∧ ∀ o ∈ targetEntries originAsns obs, admits originAsns pred obs o.stream →
      ((reconstructRoutes eventStart eventEnd cooldownEnd
        (assignDeterministicIds (sortDeterministic (retainedRibs originAsns pred dumps)))).1.states
          (observationKey o)).isSome

theorem retainedRibs_eq (originAsns : List UInt32) (pred : TransitPredicate)
    (dumps : List RibDump) : retainedRibs originAsns pred dumps
      = retained originAsns pred (dumps.flatMap RibDump.observations) := by
  unfold retainedRibs
  simp only [retained_eq, originMatching_ok]
  induction dumps with
  | nil => rfl
  | cons d dumps ih => rw [List.flatMap_cons, List.flatMap_cons, ih, List.filter_append,
      List.filter_append]

/-- Of every route of an admitted stream, the last entry satisfies the predicate. -/
def LastEntriesMatch (originAsns : List UInt32) (pred : TransitPredicate)
    (obs : List RouteObservation) : Prop :=
  ∀ k, admits originAsns pred obs k.observerPrefixKey →
    ∀ e, ((targetEntries originAsns obs).filter (observationKey · = k)).getLast? = some e →
      pred.matchesObs e

/-! ## Freezing the kept entries -/

/-- Where `f` tells the elements with `p` from the others, dropping those without `p` leaves the
last element's `f` alone only when it has `p`. -/
theorem getLast?_filter_map_eq_iff {α β : Type} {p : α → Bool} {f : α → β} {l : List α}
    (hf : ∀ a ∈ l, ∀ b ∈ l, f a = f b → p a = p b) :
    (l.filter p).getLast?.map f = l.getLast?.map f ↔ ∀ a, l.getLast? = some a → p a = true := by
  cases l using List.reverseRecOn with
  | nil => simp
  | append_singleton l a =>
    rw [List.getLast?_concat, List.filter_append]
    constructor
    · rintro h b hb
      obtain rfl := Option.some.inj hb
      by_contra hp
      have hdrop : [a].filter p = [] := List.filter_eq_nil_iff.mpr (by simpa using hp)
      rw [hdrop, List.append_nil, Option.map_some] at h
      obtain ⟨c, hc, hfc⟩ := Option.map_eq_some_iff.mp h
      obtain ⟨hcl, hcp⟩ := List.mem_filter.mp (List.mem_of_getLast? hc)
      have := hf c (List.mem_append_left _ hcl) a (by simp) hfc
      exact hp (this ▸ hcp)
    · intro h
      rw [List.filter_cons_of_pos (h a rfl), List.filter_nil, List.getLast?_concat]

section Freeze

variable {originAsns : List UInt32} {pred : TransitPredicate} {obs : List RouteObservation}

theorem targetEntries_eq (h : ∀ o ∈ obs, o.kind = .ribEntry) :
    targetEntries originAsns obs = obs.filter (originMatches originAsns) := by
  refine List.filter_congr fun o ho => ?_
  rw [targetOrigin, h o ho]
  rfl

theorem targetEntries_originMatching (h : ∀ o ∈ obs, o.kind = .ribEntry) :
    targetEntries originAsns (originMatching originAsns (obs.map .ok))
      = targetEntries originAsns obs := by
  rw [originMatching_ok, targetEntries_eq fun o ho => h o (List.mem_of_mem_filter ho),
    targetEntries_eq h, List.filter_filter]
  simp

theorem targetEntries_retained (h : ∀ o ∈ obs, o.kind = .ribEntry) :
    targetEntries originAsns (retained originAsns pred obs)
      = (targetEntries originAsns obs).filter pred.matchesObs := by
  rw [retained_eq, targetEntries, List.filter_filter]
  rw [← targetEntries_originMatching h, targetEntries, List.filter_filter]
  exact List.filter_congr fun o _ => Bool.and_comm ..

/-- The same streams are admitted. -/
theorem admits_retained (h : ∀ o ∈ obs, o.kind = .ribEntry) (opk : ObserverPrefixKey) :
    admits originAsns pred (retained originAsns pred obs) opk = admits originAsns pred obs opk := by
  rw [admits, admits, targetEntries_retained h, entriesOf, entriesOf, List.filter_filter,
    List.any_filter, List.any_filter]
  refine congrArg (fun q => (targetEntries originAsns obs).any q) (funext fun o => ?_)
  cases pred.matchesObs o <;> simp

theorem matchesObs_of_instanceState {a b : RouteObservation} (ha : a.attributes ≠ none)
    (hb : b.attributes ≠ none) (h : instanceState a = instanceState b) :
    pred.matchesObs a = pred.matchesObs b := by
  obtain ⟨x, hx⟩ := Option.ne_none_iff_exists'.mp ha
  obtain ⟨y, hy⟩ := Option.ne_none_iff_exists'.mp hb
  have hpath : (instanceState a).attributes.asPath = (instanceState b).attributes.asPath := by
    rw [h]
  simp only [instanceState, hx, hy, Option.map_some, Option.getD_some] at hpath
  simp [TransitPredicate.matchesObs, hx, hy, hpath]

/-- The baselines agree when the last entry of every route satisfies the predicate. -/
theorem baselineInstances_retained_iff (h : ∀ o ∈ obs, o.kind = .ribEntry) :
    (freezeCohort originAsns pred (retained originAsns pred obs)).baselineInstances
      = (freezeCohort originAsns pred (originMatching originAsns (obs.map .ok))).baselineInstances
      ↔ LastEntriesMatch originAsns pred obs := by
  have hadmits : ∀ opk, admits originAsns pred (originMatching originAsns (obs.map .ok)) opk
      = admits originAsns pred obs opk := by
    intro opk
    rw [admits, targetEntries_originMatching h, admits]
  have hlast : ∀ k : RouteKey,
      ((instanceMap (entriesOf k.observerPrefixKey
          ((targetEntries originAsns obs).filter pred.matchesObs)))[k]?
        = (instanceMap (entriesOf k.observerPrefixKey (targetEntries originAsns obs)))[k]?)
      ↔ ∀ e, ((targetEntries originAsns obs).filter (observationKey · = k)).getLast? = some e →
          pred.matchesObs e = true := by
    intro k
    have hkey : ∀ l : List RouteObservation,
        (entriesOf k.observerPrefixKey l).filter (observationKey · = k)
          = l.filter (observationKey · = k) := by
      intro l
      rw [entriesOf, List.filter_filter]
      refine List.filter_congr fun o _ => ?_
      by_cases ho : observationKey o = k
      · simp [ho, RouteObservation.stream]
      · simp [ho]
    rw [getElem?_instanceMap, getElem?_instanceMap, hkey, hkey, ← getLast?_filter_map_eq_iff
      (f := instanceState), List.filter_filter, List.filter_filter]
    · simp only [Bool.and_comm]
    · intro a ha b hb
      exact matchesObs_of_instanceState
        (attributes_of_targetOrigin (List.mem_filter.mp (List.mem_filter.mp ha).1).2).2
        (attributes_of_targetOrigin (List.mem_filter.mp (List.mem_filter.mp hb).1).2).2
  constructor
  · intro heq k hk
    have := congrFun heq k.observerPrefixKey
    rw [baselineInstances_freezeCohort, baselineInstances_freezeCohort, admits_retained h, hadmits,
      targetEntries_retained h, targetEntries_originMatching h, if_pos hk, if_pos hk] at this
    exact (hlast k).mp (by rw [Option.some.inj this])
  · intro hlem
    funext opk
    rw [baselineInstances_freezeCohort, baselineInstances_freezeCohort, admits_retained h, hadmits,
      targetEntries_retained h, targetEntries_originMatching h]
    split
    · rename_i hadm
      refine congrArg some (ExtTreeMap.ext_getElem? fun k => ?_)
      by_cases hk : k.observerPrefixKey = opk
      · subst hk
        exact (hlast k).mpr (hlem k hadm)
      · -- neither map has a key of another stream
        have hnone : ∀ l : List RouteObservation, (instanceMap (entriesOf opk l))[k]? = none := by
          intro l
          rw [getElem?_instanceMap, Option.map_eq_none_iff, List.getLast?_eq_none_iff,
            List.filter_eq_nil_iff]
          intro o ho
          simp only [decide_eq_true_eq]
          rintro rfl
          exact hk (of_decide_eq_true (List.mem_filter.mp ho).2)
        rw [hnone, hnone]
    · rfl

end Freeze

/-! ## The route store -/

/-- Entries of a table dump only fill the store. -/
theorem states_run_ribEntries (eventStart eventEnd cooldownEnd : DateTime)
    {l : List RouteObservation} (h : ∀ o ∈ l, o.kind = .ribEntry) (k : RouteKey) :
    ((Recon.run eventStart eventEnd cooldownEnd l).store.states k).isSome
      ↔ ∃ o ∈ l, observationKey o = k := by
  induction l using List.reverseRecOn with
  | nil => simp [Recon.init, RouteStateStore.new]
  | append_singleton l o ih =>
    have ho : o.kind = .ribEntry := h o (by simp)
    have hdropped : o.dropped eventStart cooldownEnd = false := by
      simp [RouteObservation.dropped, RouteObservation.opens, RouteObservation.isUpdate, ho]
    have ih := ih fun x hx => h x (List.mem_append_left _ hx)
    rw [Recon.run_concat, Recon.step_states, hdropped, if_neg (by simp)]
    by_cases hk : observationKey o = k
    · subst hk
      simp only [Function.update_self, nextState, ho, Option.isSome_some, true_iff]
      exact ⟨o, by simp, rfl⟩
    · rw [Function.update_of_ne (Ne.symm hk), ih]
      simp [hk]

/-- Sorting and numbering change nothing of an observation but its id. -/
theorem of_mem_reordered {obs : List RouteObservation} {o : RouteObservation}
    (h : o ∈ assignDeterministicIds (sortDeterministic obs)) :
    ∃ o' ∈ obs, ∃ i, o = { o' with id := i } := by
  obtain ⟨i, hi, rfl⟩ := List.mem_mapIdx.mp h
  exact ⟨_, mem_sortBy.mp (List.getElem_mem hi), i, rfl⟩

theorem mem_reordered {obs : List RouteObservation} {o : RouteObservation} (h : o ∈ obs) :
    ∃ i, { o with id := i } ∈ assignDeterministicIds (sortDeterministic obs) := by
  have hmem : o ∈ sortDeterministic obs := mem_sortBy.mpr h
  obtain ⟨i, hi, rfl⟩ := List.getElem_of_mem hmem
  exact ⟨i, List.mem_mapIdx.mpr ⟨i, hi, rfl⟩⟩

/-- Nothing of an admitted stream is lost exactly when the last entry of each of its routes
satisfies the predicate: with one entry for each route, when they all do. -/
theorem keepsInstances_iff (originAsns : List UInt32) (pred : TransitPredicate)
    (eventStart eventEnd cooldownEnd : DateTime) (dumps : List RibDump) :
    KeepsInstances originAsns pred eventStart eventEnd cooldownEnd dumps ↔
      LastEntriesMatch originAsns pred (dumps.flatMap RibDump.observations) := by
  have hrib : ∀ o ∈ dumps.flatMap RibDump.observations, o.kind = .ribEntry := by
    intro o ho
    obtain ⟨d, -, ho⟩ := List.mem_flatMap.mp ho
    obtain ⟨i, hi, rfl⟩ := List.mem_mapIdx.mp ho
    rfl
  unfold KeepsInstances
  simp only [retainedRibs_eq]
  generalize dumps.flatMap RibDump.observations = obs at hrib
  rw [baselineInstances_retained_iff hrib, and_iff_left_iff_imp]
  intro hlast o ho hadm
  have hkept : ∀ o ∈ assignDeterministicIds (sortDeterministic (retained originAsns pred obs)),
      o.kind = .ribEntry := by
    intro x hx
    obtain ⟨y, hy, i, rfl⟩ := of_mem_reordered hx
    rw [retained_eq, originMatching_ok] at hy
    exact hrib y (List.mem_of_mem_filter (List.mem_of_mem_filter hy))
  refine (states_run_ribEntries eventStart eventEnd cooldownEnd hkept _).mpr ?_
  -- the last entry of the route was kept
  obtain ⟨e, he⟩ : ∃ e, ((targetEntries originAsns obs).filter
      (observationKey · = observationKey o)).getLast? = some e := by
    rw [← Option.ne_none_iff_exists', Ne, List.getLast?_eq_none_iff]
    exact List.ne_nil_of_mem (List.mem_filter.mpr ⟨ho, by simp⟩)
  obtain ⟨hmem, hkey⟩ := List.mem_filter.mp (List.mem_of_getLast? he)
  have hretained : e ∈ retained originAsns pred obs := by
    rw [retained_eq, originMatching_ok, ← targetEntries_eq hrib]
    exact List.mem_filter.mpr ⟨hmem, hlast _ hadm e he⟩
  obtain ⟨i, hi⟩ := mem_reordered hretained
  exact ⟨_, hi, of_decide_eq_true hkey⟩

/-! ### An alternate off the transit -/

namespace AddPath

/-- An instance of one stream. -/
def instanceOf (pathId : UInt32) (asPath : List UInt32) : BgpElem where
  timestamp := 0
  elemType := .announce
  peerIp := .v4 1
  peerAsn := 64500
  pfx := "10.0.0.0/8"
  pathId := some pathId
  asPath := some [.asSequence asPath]
  originAsns := some [65001]
  nextHop := none
  origin := none
  localPref := none
  med := none
  atomic := false
  communities := none

/-- Two instances, the second not through AS 11537. -/
def dump : RibDump :=
  ⟨"rib.gz", "rv", "u", "s",
    [instanceOf 1 [64500, 11537, 65001], instanceOf 2 [64500, 3356, 65001]]⟩

def alternate : RouteKey := ⟨"rv", .v4 1, "10.0.0.0/8", some 2⟩

end AddPath

open AddPath in
/-- **Bug**: the alternate is an instance of an admitted stream; it is in the baseline of all
entries, and neither in the baseline nor in the store of a run. -/
theorem alternate_is_lost :
    ¬KeepsInstances [65001] (.containsAny [11537]) 10 20 30 [dump]
      ∧ admits [65001] (.containsAny [11537]) dump.observations alternate.observerPrefixKey
      ∧ (reconstructRoutes 10 20 30 (assignDeterministicIds (sortDeterministic
          (retainedRibs [65001] (.containsAny [11537]) [dump])))).1.states alternate = none := by
  have hadm : admits [65001] (.containsAny [11537]) ([dump].flatMap RibDump.observations)
      alternate.observerPrefixKey = true := by
    decide
  have hnone : (reconstructRoutes 10 20 30 (assignDeterministicIds (sortDeterministic
      (retainedRibs [65001] (.containsAny [11537]) [dump])))).1.states alternate = none := by
    decide
  refine ⟨fun h => ?_, hadm, hnone⟩
  obtain ⟨o, ho, hkey⟩ : ∃ o ∈ targetEntries [65001] ([dump].flatMap RibDump.observations),
      observationKey o = alternate := by decide
  have hsome := h.2 o ho (by rw [RouteObservation.stream, hkey]; exact hadm)
  rw [hkey, hnone] at hsome
  cases hsome

end Inim
