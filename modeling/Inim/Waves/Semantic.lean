import Inim.Lib.Clusters
import Inim.Lib.Dedup
import Inim.Lib.Tally
import Inim.Lifecycle.Order
/-!
# Semantic waves (`lifecycle.rs:501-838`)

| here | there |
| --- | --- |
| `WaveLabel`, `SemanticWave`      | `lifecycle.rs:506`, `:544` |
| `GenericFacetCounts`, `EventRelativeCounts` | `lifecycle.rs:579`, `:594` |
| `GapSecs`                        | `max_gap_secs: f64`; NaN compares like `-∞` |
| `labelSupport`, `dominantLabel`  | the calls of `count` and the choice of the label (`lifecycle.rs:719-781`) |
| `buildSemanticWave`, `deriveSemanticWaves` | `lifecycle.rs:653`, `:611`; the lifecycles passed in are not read there |

The clusters partition the event transitions, every count of the waves adds up to the count over
the event, and no window of 60 s is denser than the peak (`deriveSemanticWaves_partition`).
-/

namespace Inim

open Std Inim.Lib

inductive WaveLabel where
  | prependReduction
  | prependIncrease
  | streamWithdrawal
  | transitDeparture
  | streamRestoration
  | transitReturn
  | baselinePolicyRestoration
  | mixedRouteChange
deriving DecidableEq, Repr

def WaveLabel.asStr : WaveLabel → String
  | .prependReduction => "PrependReduction"
  | .prependIncrease => "PrependIncrease"
  | .streamWithdrawal => "StreamWithdrawal"
  | .transitDeparture => "TransitDeparture"
  | .streamRestoration => "StreamRestoration"
  | .transitReturn => "TransitReturn"
  | .baselinePolicyRestoration => "BaselinePolicyRestoration"
  | .mixedRouteChange => "MixedRouteChange"

structure GenericFacetCounts where
  communitiesChanged : Nat := 0
  gracefulShutdownAdded : Nat := 0
  gracefulShutdownRemoved : Nat := 0
  prependReduced : Nat := 0
  prependIncreased : Nat := 0
  materialPathChanged : Nat := 0
  originChanged : Nat := 0
  nextHopChanged : Nat := 0
  medChanged : Nat := 0
  localPrefChanged : Nat := 0
deriving DecidableEq, Repr

structure EventRelativeCounts where
  transitRetained : Nat := 0
  transitDeparted : Nat := 0
  transitReturned : Nat := 0
deriving DecidableEq, Repr

structure SemanticWave where
  id : String
  label : WaveLabel
  start : DateTime
  peakStart : DateTime
  peakEnd : DateTime
  /-- `end` in the source. -/
  stop : DateTime
  streamCount : Nat
  routeInstanceCount : Nat
  prefixes : List String
  peers : List String
  facets : GenericFacetCounts
  eventRelative : EventRelativeCounts
  representativeBefore : List UInt32
  representativeAfter : List UInt32
  evidenceRefs : List EvidenceRef
  durationSecs : Int
deriving DecidableEq, Repr

/-! ## Counting -/

/-- The facets of one transition (`lifecycle.rs:696-730`). -/
def GenericFacetCounts.record (c : GenericFacetCounts) (t : RouteTransition) :
    GenericFacetCounts where
  communitiesChanged := c.communitiesChanged + t.effects.communitiesChanged.toNat
  gracefulShutdownAdded := c.gracefulShutdownAdded + t.effects.gracefulShutdownAdded.toNat
  gracefulShutdownRemoved := c.gracefulShutdownRemoved + t.effects.gracefulShutdownRemoved.toNat
  prependReduced := c.prependReduced + (t.effects.prepend == .reduced).toNat
  prependIncreased := c.prependIncreased + (t.effects.prepend == .increased).toNat
  materialPathChanged := c.materialPathChanged + t.effects.materialPathChanged.toNat
  originChanged := c.originChanged + t.effects.originChanged.toNat
  nextHopChanged := c.nextHopChanged + t.effects.nextHopChanged.toNat
  medChanged := c.medChanged + t.effects.medChanged.toNat
  localPrefChanged := c.localPrefChanged + t.effects.localPrefChanged.toNat

/-- `from_has`. -/
def fromHas (pred : TransitPredicate) (t : RouteTransition) : Bool :=
  (t.fromState.map fun s => pred.evaluate s.attributes.asPath).getD false

/-- `to_has_route`, of a transition that leaves a route. -/
def toHas (pred : TransitPredicate) (t : RouteTransition) : Option Bool :=
  t.to_.state.map fun s => pred.evaluate s.attributes.asPath

def EventRelativeCounts.record (pred : TransitPredicate) (c : EventRelativeCounts)
    (t : RouteTransition) : EventRelativeCounts :=
  match toHas pred t with
  | none => c
  | some toHasRoute =>
    if fromHas pred t && toHasRoute then { c with transitRetained := c.transitRetained + 1 }
    else if fromHas pred t && !toHasRoute then { c with transitDeparted := c.transitDeparted + 1 }
    else if !fromHas pred t && toHasRoute then { c with transitReturned := c.transitReturned + 1 }
    else c

/-! The labels one transition supports, in the order they are counted. -/

def prependSupport (t : RouteTransition) : List WaveLabel :=
  match t.effects.prepend with
  | .reduced => [.prependReduction]
  | .increased => [.prependIncrease]
  | _ => []

/-- A withdrawal is left out: "transit departed" is meant of a stream that stays visible. -/
def transitSupport (pred : TransitPredicate) (t : RouteTransition) : List WaveLabel :=
  match toHas pred t with
  | none => []
  | some toHasRoute =>
    if fromHas pred t && toHasRoute then []
    else if fromHas pred t && !toHasRoute then [.transitDeparture]
    else if !fromHas pred t && toHasRoute then [.transitReturn]
    else []

def kindSupport (t : RouteTransition) : List WaveLabel :=
  match t.kind with
  | .withdrawal => [.streamWithdrawal]
  | .restoration => [.streamRestoration]
  | .returnToBaseline => [.baselinePolicyRestoration]
  | _ => []

def labelSupport (pred : TransitPredicate) (t : RouteTransition) : List WaveLabel :=
  prependSupport t ++ transitSupport pred t ++ kindSupport t

def labelCounts (pred : TransitPredicate) (group : List RouteTransition) : List (WaveLabel × Nat) :=
  tally (group.flatMap (labelSupport pred))

/-- Most frequent first, ties by name. -/
def labelOrder : WaveLabel × Nat → WaveLabel × Nat → Ordering :=
  compareLex (fun a b => compare b.2 a.2) (compareOn (·.1.asStr))

/-- The most frequent label; `MixedRouteChange` on a tie, or where nothing supports one. -/
def dominantLabel (counts : List (WaveLabel × Nat)) : WaveLabel :=
  match sortBy labelOrder counts with
  | [] => .mixedRouteChange
  | [top] => top.1
  | top :: runnerUp :: _ => if runnerUp.2 = top.2 then .mixedRouteChange else top.1

/-! ## Waves -/

/-- `format!("{}:{}:{}", collector, peer_ip, prefix)`. -/
def streamText (k : RouteKey) : String := k.collector ++ ":" ++ k.peerIp.display ++ ":" ++ k.pfx

def timestamps (group : List RouteTransition) : List DateTime := group.map (·.to_.timestamp)

/-- `group[0]` and `group[len - 1]`; a cluster is never empty. -/
def firstTimestamp (group : List RouteTransition) : DateTime := (timestamps group).head?.getD 0

def lastTimestamp (group : List RouteTransition) : DateTime := (timestamps group).getLast?.getD 0

/-- 60 s. -/
def peakWidth : Int := 60 * 1000000000

/-- The peak loop (`lifecycle.rs:783-805`). -/
def peakOf (group : List RouteTransition) : Densest :=
  densest peakWidth (sortBy compare (timestamps group)) (firstTimestamp group) (lastTimestamp group)

def asPathOf (s : Option RouteState) : List UInt32 := (s.map (·.attributes.asPath)).getD []

def buildSemanticWave (pred : TransitPredicate) (group : List RouteTransition) : SemanticWave where
  id := ""
  label := dominantLabel (labelCounts pred group)
  start := firstTimestamp group
  peakStart := (peakOf group).start
  peakEnd := (peakOf group).stop
  stop := lastTimestamp group
  streamCount := (group.map fun t => streamText t.key).dedup.length
  routeInstanceCount := (group.map (·.key)).dedup.length
  prefixes := sortBy compare (group.map (·.key.pfx)).dedup
  peers := sortBy compare (group.map (·.key.peerIp.display)).dedup
  facets := group.foldl GenericFacetCounts.record {}
  eventRelative := group.foldl (EventRelativeCounts.record pred) {}
  representativeBefore := asPathOf (group.head?.bind (·.fromState))
  representativeAfter := asPathOf (group.head?.bind (·.to_.state))
  evidenceRefs := dedupByKey (·.observationId)
    (sortBy (compareOn (·.observationId)) (group.map (·.triggering)))
  durationSecs := max 0 (numSeconds (lastTimestamp group - firstTimestamp group))

/-- An `f64` that is a number: a rational, or an infinity. -/
abbrev GapSecs := WithBot (WithTop ℚ)

/-- `num_seconds() as f64`. -/
def gapSecs (a b : DateTime) : GapSecs := ((numSeconds (b - a) : ℚ) : WithTop ℚ)

def semanticNear (maxGapSecs : GapSecs) (prev next : RouteTransition) : Bool :=
  decide (gapSecs prev.to_.timestamp next.to_.timestamp ≤ maxGapSecs)

/-- The event transitions by timestamp, then path id. -/
def eventTransitions (transitions : List RouteTransition) : List RouteTransition :=
  sortBy transitionOrder (transitions.filter (·.phase = .event))

/-- `wave.id = format!("wave-{}", i + 1)`. -/
def numberWaves (waves : List SemanticWave) : List SemanticWave :=
  waves.mapIdx fun i wave => { wave with id := "wave-" ++ toString (i + 1) }

def semanticGroups (transitions : List RouteTransition) (maxGapSecs : GapSecs) :
    List (List RouteTransition) :=
  clusters (semanticNear maxGapSecs) (eventTransitions transitions)

def deriveSemanticWaves (transitions : List RouteTransition) (maxGapSecs : GapSecs)
    (pred : TransitPredicate) : List SemanticWave :=
  numberWaves ((semanticGroups transitions maxGapSecs).map (buildSemanticWave pred))

/-! ## What the waves are -/

theorem numberWaves_map {β : Type*} (f : SemanticWave → β) (waves : List SemanticWave)
    (h : ∀ wave id, f { wave with id := id } = f wave) : (numberWaves waves).map f = waves.map f := by
  refine List.ext_getElem (by simp [numberWaves]) fun i hi hi' => ?_
  rw [List.getElem_map, List.getElem_map]
  simp only [numberWaves, List.getElem_mapIdx, h]

section Partition
variable (transitions : List RouteTransition) (maxGapSecs : GapSecs) (pred : TransitPredicate)

theorem facets_eq (group : List RouteTransition) : (buildSemanticWave pred group).facets =
    { communitiesChanged := group.countP (·.effects.communitiesChanged)
      gracefulShutdownAdded := group.countP (·.effects.gracefulShutdownAdded)
      gracefulShutdownRemoved := group.countP (·.effects.gracefulShutdownRemoved)
      prependReduced := group.countP (·.effects.prepend == .reduced)
      prependIncreased := group.countP (·.effects.prepend == .increased)
      materialPathChanged := group.countP (·.effects.materialPathChanged)
      originChanged := group.countP (·.effects.originChanged)
      nextHopChanged := group.countP (·.effects.nextHopChanged)
      medChanged := group.countP (·.effects.medChanged)
      localPrefChanged := group.countP (·.effects.localPrefChanged) } := by
  change group.foldl GenericFacetCounts.record {} = _
  induction group using List.reverseRecOn with
  | nil => rfl
  | append_singleton l t ih =>
    rw [List.foldl_append, List.foldl_cons, List.foldl_nil, ih]
    simp [GenericFacetCounts.record, Bool.toNat, Bool.cond_eq_ite]

/-- The three effects on the reviewed transit, of transitions that leave a route. -/
def retains (t : RouteTransition) : Bool := fromHas pred t && toHas pred t == some true

def departsTransit (t : RouteTransition) : Bool := fromHas pred t && toHas pred t == some false

def returnsTransit (t : RouteTransition) : Bool := !fromHas pred t && toHas pred t == some true

theorem eventRelative_record (c : EventRelativeCounts) (t : RouteTransition) : c.record pred t =
    { transitRetained := c.transitRetained + (retains pred t).toNat
      transitDeparted := c.transitDeparted + (departsTransit pred t).toNat
      transitReturned := c.transitReturned + (returnsTransit pred t).toNat } := by
  unfold EventRelativeCounts.record retains departsTransit returnsTransit
  cases toHas pred t with
  | none => simp
  | some toHasRoute => cases toHasRoute <;> cases fromHas pred t <;> rfl

theorem eventRelative_eq (group : List RouteTransition) : (buildSemanticWave pred group).eventRelative =
    { transitRetained := group.countP (retains pred)
      transitDeparted := group.countP (departsTransit pred)
      transitReturned := group.countP (returnsTransit pred) } := by
  change group.foldl (EventRelativeCounts.record pred) {} = _
  induction group using List.reverseRecOn with
  | nil => rfl
  | append_singleton l t ih =>
    rw [List.foldl_append, List.foldl_cons, List.foldl_nil, ih, eventRelative_record]
    simp [Bool.toNat, Bool.cond_eq_ite]

/-- The counts of the waves add up to the counts over `events`. -/
structure CountsAddUp (waves : List SemanticWave) (events : List RouteTransition) : Prop where
  communitiesChanged : (waves.map (·.facets.communitiesChanged)).sum =
    events.countP (·.effects.communitiesChanged)
  gracefulShutdownAdded : (waves.map (·.facets.gracefulShutdownAdded)).sum =
    events.countP (·.effects.gracefulShutdownAdded)
  gracefulShutdownRemoved : (waves.map (·.facets.gracefulShutdownRemoved)).sum =
    events.countP (·.effects.gracefulShutdownRemoved)
  prependReduced : (waves.map (·.facets.prependReduced)).sum =
    events.countP (·.effects.prepend == .reduced)
  prependIncreased : (waves.map (·.facets.prependIncreased)).sum =
    events.countP (·.effects.prepend == .increased)
  materialPathChanged : (waves.map (·.facets.materialPathChanged)).sum =
    events.countP (·.effects.materialPathChanged)
  originChanged : (waves.map (·.facets.originChanged)).sum = events.countP (·.effects.originChanged)
  nextHopChanged : (waves.map (·.facets.nextHopChanged)).sum =
    events.countP (·.effects.nextHopChanged)
  medChanged : (waves.map (·.facets.medChanged)).sum = events.countP (·.effects.medChanged)
  localPrefChanged : (waves.map (·.facets.localPrefChanged)).sum =
    events.countP (·.effects.localPrefChanged)
  transitRetained : (waves.map (·.eventRelative.transitRetained)).sum = events.countP (retains pred)
  transitDeparted : (waves.map (·.eventRelative.transitDeparted)).sum =
    events.countP (departsTransit pred)
  transitReturned : (waves.map (·.eventRelative.transitReturned)).sum =
    events.countP (returnsTransit pred)

/-- A count that is `countP p` on every wave adds up to `countP p` over the event. -/
theorem sum_over_waves (count : SemanticWave → Nat) (p : RouteTransition → Bool)
    (hid : ∀ wave id, count { wave with id := id } = count wave)
    (hcount : ∀ group, count (buildSemanticWave pred group) = group.countP p) :
    ((deriveSemanticWaves transitions maxGapSecs pred).map count).sum =
      (transitions.filter (·.phase = .event)).countP p := by
  have hmap : (deriveSemanticWaves transitions maxGapSecs pred).map count =
      (semanticGroups transitions maxGapSecs).map (List.countP p) := by
    rw [deriveSemanticWaves, numberWaves_map count _ hid, List.map_map]
    exact List.map_congr_left fun group _ => hcount group
  rw [hmap, semanticGroups, sum_countP_clusters]
  exact (sortBy_perm _ _).countP_eq p

theorem countsAddUp : CountsAddUp pred (deriveSemanticWaves transitions maxGapSecs pred)
    (transitions.filter (·.phase = .event)) := by
  have hsum := sum_over_waves transitions maxGapSecs pred
  constructor
  all_goals
    refine hsum _ _ (fun _ _ => rfl) fun group => ?_
    first
    | rw [facets_eq]
    | rw [eventRelative_eq]

theorem eventTransitions_sorted :
    (eventTransitions transitions).Pairwise fun a b => a.to_.timestamp ≤ b.to_.timestamp :=
  sortBy_transitionOrder_sorted _

variable {transitions maxGapSecs pred}

theorem firstTimestamp_eq {group : List RouteTransition} (h : group ≠ []) :
    ∃ t ∈ group.head?, firstTimestamp group = t.to_.timestamp := by
  obtain ⟨t, rest, rfl⟩ := List.exists_cons_of_ne_nil h
  exact ⟨t, rfl, rfl⟩

theorem lastTimestamp_eq {group : List RouteTransition} (h : group ≠ []) :
    ∃ t ∈ group.getLast?, lastTimestamp group = t.to_.timestamp := by
  obtain ⟨rest, t, rfl⟩ := List.eq_nil_or_concat group |>.resolve_left h
  exact ⟨t, by simp, by simp [lastTimestamp, timestamps]⟩

variable (transitions maxGapSecs pred)

/-- What `derive_semantic_waves` does with the event transitions: `groups` are those of its waves. -/
structure PartitionsEvents (groups : List (List RouteTransition)) : Prop where
  waves : deriveSemanticWaves transitions maxGapSecs pred =
    numberWaves (groups.map (buildSemanticWave pred))
  /-- Each event transition belongs to exactly one wave. -/
  partition : groups.flatten.Perm (transitions.filter (·.phase = .event))
  nonempty : ∀ group ∈ groups, group ≠ []
  inTime : groups.flatten.Pairwise fun a b => a.to_.timestamp ≤ b.to_.timestamp
  near : ∀ group ∈ groups, group.IsChain fun a b =>
    gapSecs a.to_.timestamp b.to_.timestamp ≤ maxGapSecs
  order : (deriveSemanticWaves transitions maxGapSecs pred).Pairwise fun v w => v.stop ≤ w.start
  gaps : (deriveSemanticWaves transitions maxGapSecs pred).IsChain fun v w =>
    maxGapSecs < gapSecs v.stop w.start
  counts : CountsAddUp pred (deriveSemanticWaves transitions maxGapSecs pred)
    (transitions.filter (·.phase = .event))
  /-- The window of 60 s from `peak_start` holds as many as the one from any `a`. -/
  peak : ∀ group ∈ groups, ∀ a : ℝ,
    (timestamps group).countP (fun t : DateTime => decide (a ≤ t ∧ (t : ℝ) ≤ a + peakWidth)) ≤
      (inWindow peakWidth (timestamps group) (buildSemanticWave pred group).peakStart).length

theorem deriveSemanticWaves_partition :
    ∃ groups, PartitionsEvents transitions maxGapSecs pred groups := by
  have hne : ∀ group ∈ semanticGroups transitions maxGapSecs, group ≠ [] :=
    fun _ => ne_nil_of_mem_clusters
  have hflat : (semanticGroups transitions maxGapSecs).flatten = eventTransitions transitions :=
    flatten_clusters _
  have hsorted := eventTransitions_sorted transitions
  have hbounds : (deriveSemanticWaves transitions maxGapSecs pred).map (fun w => (w.start, w.stop)) =
      (semanticGroups transitions maxGapSecs).map fun g => (firstTimestamp g, lastTimestamp g) := by
    rw [deriveSemanticWaves, numberWaves_map _ _ fun _ _ => rfl, List.map_map]
    rfl
  refine ⟨semanticGroups transitions maxGapSecs, rfl, ?_, hne, hflat ▸ hsorted, ?_, ?_, ?_,
    countsAddUp transitions maxGapSecs pred, ?_⟩
  · rw [hflat]
    exact sortBy_perm _ _
  · intro group hg
    exact (isChain_of_mem_clusters hg).imp fun a b h => of_decide_eq_true h
  · suffices h : ((deriveSemanticWaves transitions maxGapSecs pred).map
        fun w => (w.start, w.stop)).Pairwise fun v w => v.2 ≤ w.1 from List.pairwise_map.1 h
    rw [hbounds, List.pairwise_map]
    rw [← hflat, List.pairwise_flatten] at hsorted
    refine hsorted.2.imp_of_mem fun {g h} hg hh hgh => ?_
    obtain ⟨a, ha, hlast⟩ := lastTimestamp_eq (hne g hg)
    obtain ⟨b, hb, hfirst⟩ := firstTimestamp_eq (hne h hh)
    rw [hlast, hfirst]
    exact hgh a (List.mem_of_getLast? ha) b (List.mem_of_head? hb)
  · suffices h : ((deriveSemanticWaves transitions maxGapSecs pred).map
        fun w => (w.start, w.stop)).IsChain fun v w => maxGapSecs < gapSecs v.2 w.1 from
      (List.isChain_map _).1 h
    rw [hbounds, List.isChain_map]
    refine List.IsChain.imp_of_mem_imp (fun g h hg hh hgh => ?_)
      (isChain_clusters (eventTransitions transitions))
    obtain ⟨a, ha, hlast⟩ := lastTimestamp_eq (hne g hg)
    obtain ⟨b, hb, hfirst⟩ := firstTimestamp_eq (hne h hh)
    rw [hlast, hfirst]
    exact lt_of_not_ge (of_decide_eq_false (hgh a ha b hb))
  · intro group _ a
    have hsort := sortBy_perm compare (timestamps group)
    have hpeak := countP_window_le_densest peakWidth (sortBy compare (timestamps group))
      (firstTimestamp group) (lastTimestamp group) a
    rw [hsort.countP_eq, inWindow, (hsort.filter _).length_eq] at hpeak
    exact hpeak

end Partition

end Inim
