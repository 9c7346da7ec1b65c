import Inim.Lifecycle.Absence
import Inim.Lifecycle.Streams
/-!
# Path diagrams (`catalog/web/path_diagram.rs:22-114`, `:240-345`, `:480-545`, `:626-717`)

| here | there |
| --- | --- |
| `PathNode`, `ObservedPath`, `PathStateView`, `PathTransition`, `StreamPathEvidence` | `:22-73`, `:481-504` |
| `compactSegments`    | `compact_segments` (`:102`) |
| `evidenceOf`         | the artifact of a lifecycle, as `load_lifecycle_evidence` (`:509`) reads it |
| `Changes`, `comparisonStates` | the loop of `comparison_states` (`:630`), and the whole |
| `stateRow`, `renderRows` | `state_row` (`:254`), and the rows of `render_comparison_svg` (`:319`): what is drawn, not where |

A path is compacted to its segments for drawing. A row keeps the whole path for the next one, which
takes its positions for those of segments: where an ASN is prepended, what follows it is compared
with something else (`comparison_iff`, `identical_rows_marked`). The states are read off the transitions of
single route instances, so an absence is shown for the stream while another instance of it is
active.
-/

namespace Inim.PathDiagram

open Std Inim.Lib

/-- `repeats` is `repeat` in the source. -/
structure PathNode where
  asn : UInt32
  repeats : Nat
  label : String
  planeMatched : Bool
  origin : Bool
deriving DecidableEq, Repr

structure ObservedPath where
  observer : String
  observationKind : String
  pfx : String
  timestamp : String
  nodes : List PathNode
  evidenceRef : Option String
deriving DecidableEq, Repr

structure PathStateView where
  label : String
  timestamp : String
  /-- `none` is drawn as an absence. -/
  path : Option ObservedPath
deriving DecidableEq, Repr

structure PathTransition where
  timestamp : String
  kind : String
  beforePath : List UInt32
  afterPath : List UInt32
deriving DecidableEq, Repr

structure StreamPathEvidence where
  collector : String
  peerIp : String
  pfx : String
  baselinePath : List UInt32
  transitions : List PathTransition
  finalPath : List UInt32
  restorationTimeUtc : Option String
  firstChangeUtc : Option String
deriving DecidableEq, Repr

/-! ## Segments -/

def compactStep (out : List (UInt32 × Nat)) (asn : UInt32) : List (UInt32 × Nat) :=
  match out.getLast? with
  | some (last, count) => if last = asn then out.dropLast ++ [(last, count + 1)] else out ++ [(asn, 1)]
  | none => out ++ [(asn, 1)]

def compactSegments (asns : List UInt32) : List (UInt32 × Nat) := asns.foldl compactStep []

example : compactSegments [64500, 64502, 64502, 64502, 64505] = [(64500, 1), (64502, 3), (64505, 1)] := by
  decide

/-- `repeat_n(n.asn, n.repeat)` over the nodes. -/
def ObservedPath.full (p : ObservedPath) : List UInt32 :=
  p.nodes.flatMap fun n => List.replicate n.repeats n.asn

/-! ## States -/

/-- The paths of the artifact are those of the lifecycle, its times are texts. -/
def evidenceOf (timeText : DateTime → String) (lc : StreamLifecycle) : StreamPathEvidence where
  collector := lc.collector
  peerIp := lc.peerIp
  pfx := lc.pfx
  baselinePath := lc.baselinePath
  transitions := lc.transitions.map fun t =>
    { timestamp := timeText t.timestamp, kind := t.kind, beforePath := t.beforePath
      afterPath := t.afterPath }
  finalPath := (lc.finalState.map (·.attributes.asPath)).getD []
  restorationTimeUtc := lc.restorationTime.map timeText
  firstChangeUtc := lc.firstChange.map timeText

structure Changes where
  firstChange : Option PathTransition := none
  absenceAt : Option PathTransition := none
  returnAt : Option PathTransition := none

def PathTransition.isChange (tr : PathTransition) : Bool :=
  tr.kind != "Announcement" || !tr.beforePath.isEmpty

def Changes.step (c : Changes) (tr : PathTransition) : Changes :=
  let firstChange := if c.firstChange.isNone && tr.isChange then some tr else c.firstChange
  let absenceAt :=
    if c.absenceAt.isNone && tr.kind == "Withdrawal" && tr.afterPath.isEmpty then some tr
    else c.absenceAt
  let returnAt :=
    if absenceAt.isSome && c.returnAt.isNone && tr.kind != "Withdrawal" && !tr.afterPath.isEmpty then
      some tr
    else c.returnAt
  { firstChange, absenceAt, returnAt }

section States

variable (ev : StreamPathEvidence) (originAsn : Option UInt32) (planeAsns : List UInt32)
  (names : UInt32 → Option String)

def toPath (asns : List UInt32) (ts : String) : Option ObservedPath :=
  if asns.isEmpty then none
  else some {
    observer := s!"{ev.collector} (peer {ev.peerIp})"
    observationKind := ""
    pfx := ev.pfx
    timestamp := ts
    nodes := (compactSegments asns).map fun s =>
      { asn := s.1, repeats := s.2, label := (names s.1).getD "", planeMatched := planeAsns.contains s.1
        origin := originAsn == some s.1 }
    evidenceRef := none }

/-- The two states of the first change. -/
def changeStates (fc : PathTransition) : List PathStateView :=
  [{ label := "Pre-finding state", timestamp := fc.timestamp
     path := toPath ev originAsn planeAsns names fc.beforePath fc.timestamp },
    { label := "First changed state", timestamp := fc.timestamp
      path :=
        if fc.kind == "Withdrawal" && fc.afterPath.isEmpty then none
        else toPath ev originAsn planeAsns names fc.afterPath fc.timestamp }]

def returnState (rt : PathTransition) : PathStateView where
  label := "First route after return"
  timestamp := rt.timestamp
  path := toPath ev originAsn planeAsns names rt.afterPath rt.timestamp

def comparisonStates : List PathStateView :=
  let c := ev.transitions.foldl Changes.step {}
  [{ label := "Event baseline", timestamp := "baseline RIB"
     path := toPath ev originAsn planeAsns names ev.baselinePath "baseline RIB" }]
    ++ c.firstChange.toList.flatMap (changeStates ev originAsn planeAsns names)
    ++ c.returnAt.toList.map (returnState ev originAsn planeAsns names)
    ++ [{ label := "Analysis-final state", timestamp := "analysis end"
          path := toPath ev originAsn planeAsns names ev.finalPath "analysis end" }]

end States

/-! ## Rows -/

structure DrawnNode where
  node : PathNode
  changed : Bool
deriving DecidableEq, Repr

structure Row where
  label : String
  timestamp : String
  /-- `none` is the absence block. -/
  nodes : Option (List DrawnNode)
deriving DecidableEq, Repr

def stateRow (state : PathStateView) (prevPath : Option (List UInt32)) : Row × Option (List UInt32) :=
  match state.path with
  | none => (⟨state.label, state.timestamp, none⟩, none)
  | some path =>
    let prev := prevPath.getD []
    let drawn := path.nodes.mapIdx fun i n => { node := n, changed := prev[i]? != some n.asn }
    (⟨state.label, state.timestamp, some drawn⟩, some path.full)

def renderRows (prev : Option (List UInt32)) : List PathStateView → List Row
  | [] => []
  | state :: states => (stateRow state prev).1 :: renderRows (stateRow state prev).2 states

/-- The rows of `render_comparison_svg`. -/
def comparisonRows (states : List PathStateView) : List Row := renderRows none states

/-! ### Marks -/

def PathNode.segment (n : PathNode) : UInt32 × Nat := (n.asn, n.repeats)

/-- In a row behind one with a path, the marked nodes are the segments that differ from those of the
path before. -/
def MarksSegments (states : List PathStateView) : Prop :=
  ∀ pre a b post p q, states = pre ++ a :: b :: post → a.path = some p → b.path = some q →
    ∃ drawn, (comparisonRows states)[pre.length + 1]? = some ⟨b.label, b.timestamp, some drawn⟩ ∧
      drawn.map DrawnNode.node = q.nodes ∧
      ∀ (j : Nat) d, drawn[j]? = some d →
        (d.changed = true ↔ (p.nodes.map PathNode.segment)[j]? ≠ some d.node.segment)

/-- At each position of the path the whole path before has the node's ASN exactly if the path before
has the node's segment there. -/
def Aligned (p q : ObservedPath) : Prop :=
  ∀ (j : Nat) n, q.nodes[j]? = some n →
    (p.full[j]? = some n.asn ↔ (p.nodes.map PathNode.segment)[j]? = some n.segment)

theorem stateRow_full (state : PathStateView) (prev : Option (List UInt32)) :
    (stateRow state prev).2 = state.path.map ObservedPath.full := by
  unfold stateRow
  split <;> simp [*]

theorem renderRows_append (prev : Option (List UInt32)) (pre : List PathStateView)
    (a b : PathStateView) (post : List PathStateView) :
    (renderRows prev (pre ++ a :: b :: post))[pre.length + 1]? =
      some (stateRow b (a.path.map ObservedPath.full)).1 := by
  induction pre generalizing prev with
  | nil =>
    simp [renderRows, stateRow_full]
  | cons c pre ih =>
    simpa [renderRows] using ih _

theorem marksSegments_iff (states : List PathStateView) :
    MarksSegments states ↔ ∀ pre a b post p q, states = pre ++ a :: b :: post → a.path = some p →
      b.path = some q → Aligned p q := by
  refine forall_congr' fun pre => forall_congr' fun a => forall_congr' fun b => forall_congr' fun post =>
    forall_congr' fun p => forall_congr' fun q => forall_congr' fun hstates => forall_congr' fun ha =>
    forall_congr' fun hb => ?_
  have hrow : (comparisonRows states)[pre.length + 1]? = some ⟨b.label, b.timestamp,
      some (q.nodes.mapIdx fun i n => { node := n, changed := p.full[i]? != some n.asn })⟩ := by
    rw [comparisonRows, hstates, renderRows_append, ha, stateRow, hb]
    rfl
  constructor
  · rintro ⟨drawn, hdrawn, -, hmarks⟩ j n hn
    rw [hrow] at hdrawn
    obtain ⟨-, -, hdrawn⟩ := Row.mk.inj (Option.some.inj hdrawn)
    obtain rfl := Option.some.inj hdrawn
    have hj := hmarks j ⟨n, p.full[j]? != some n.asn⟩ (by simp [hn])
    simp only [bne_iff_ne, ne_eq, not_iff_not] at hj
    exact hj
  · intro halign
    refine ⟨_, hrow, ?_, fun j d hd => ?_⟩
    · refine List.ext_getElem? fun j => ?_
      rw [List.getElem?_map, List.getElem?_mapIdx]
      cases q.nodes[j]? <;> rfl
    · simp only [List.getElem?_mapIdx, Option.map_eq_some_iff] at hd
      obtain ⟨n, hn, rfl⟩ := hd
      simp only [bne_iff_ne, ne_eq, not_iff_not]
      exact halign j n hn

/-- Behind a path without prepending, the positions are those of the segments: what counts is that no
ASN is prepended where it stands already. -/
theorem aligned_of_single {p q : ObservedPath} (hp : ∀ n ∈ p.nodes, n.repeats = 1) :
    Aligned p q ↔ ∀ (j : Nat) m n, p.nodes[j]? = some m → q.nodes[j]? = some n → m.asn = n.asn →
      n.repeats = 1 := by
  have hfull : p.full = p.nodes.map PathNode.asn := by
    rw [ObservedPath.full, List.map_eq_flatMap]
    exact List.flatMap_congr fun n hn => by rw [hp n hn]; rfl
  unfold Aligned
  rw [hfull]
  simp only [List.getElem?_map, Option.map_eq_some_iff, PathNode.segment, Prod.mk.injEq]
  constructor
  · intro h j m n hm hn hasn
    obtain ⟨m', hm', -, hrep⟩ := (h j n hn).mp ⟨m, hm, hasn⟩
    rw [← hrep]
    exact hp m' (List.mem_of_getElem? hm')
  · intro h j n hn
    constructor
    · rintro ⟨m, hm, hasn⟩
      exact ⟨m, hm, hasn, (hp m (List.mem_of_getElem? hm)).trans (h j m n hm hn hasn).symm⟩
    · rintro ⟨m, hm, hasn, -⟩
      exact ⟨m, hm, hasn⟩

/-! ### Absences -/

def fromPath (t : RouteTransition) : List UInt32 := (t.fromState.map (·.attributes.asPath)).getD []

def afterPath (t : RouteTransition) : List UInt32 := (t.to_.state.map (·.attributes.asPath)).getD []

/-- A transition before the cooldown that is no first announcement. -/
def isChange (t : RouteTransition) : Bool :=
  t.phase != .cooldown && (t.kind != .announcement || !(fromPath t).isEmpty)

def beforeChange (l : List RouteTransition) : List RouteTransition := l.takeWhile fun t => !isChange t

/-- The path of the last transition that changed an instance, if it put a route on it. -/
def endPath (l : List RouteTransition) : List UInt32 :=
  match (l.filter fun t => t.kind == .withdrawal || t.to_.state.isSome).getLast? with
  | some t => if t.kind = .withdrawal then [] else afterPath t
  | none => []

/-- The active instances of the stream in a state of the comparison. -/
def activeAt (baseline : InstanceMap) (l : List RouteTransition) (label : String) : InstanceMap :=
  if label = "Event baseline" then baseline
  else if label = "Pre-finding state" then activeRun baseline (beforeChange l)
  else if label = "First changed state" then
    activeRun baseline (beforeChange l ++ (l.find? isChange).toList)
  else activeRun baseline l

/-- An absence is shown only where no instance is active, and never for the return. -/
def AbsencesShown (baseline : InstanceMap) (l : List RouteTransition) (states : List PathStateView) :
    Prop :=
  ∀ st ∈ states, st.path = none →
    st.label ≠ "First route after return" ∧ (activeAt baseline l st.label).isEmpty = true

/-- Where the transitions name no path, no instance is active. -/
structure PathsOfStream (baseline : InstanceMap) (l : List RouteTransition) : Prop where
  first : ((principal baseline).map (·.attributes.asPath)).getD [] = [] → baseline.isEmpty = true
  before : ∀ t, l.find? isChange = some t → fromPath t = [] →
    (activeRun baseline (beforeChange l)).isEmpty = true
  after : ∀ t, l.find? isChange = some t → afterPath t = [] →
    (activeRun baseline (beforeChange l ++ [t])).isEmpty = true
  final : endPath l = [] → (activeRun baseline l).isEmpty = true

section Lifecycle

variable (opk : ObserverPrefixKey) (baseline : InstanceMap) (l : List RouteTransition)
  (cooldownEnd : DateTime) (pred : TransitPredicate) (timeText : DateTime → String)

def transitionOf (t : RouteTransition) : PathTransition where
  timestamp := timeText t.to_.timestamp
  kind := transitionKindStr t.kind
  beforePath := fromPath t
  afterPath := afterPath t

theorem transitions_evidenceOf :
    (evidenceOf timeText (buildOneLifecycle opk baseline l cooldownEnd pred)).transitions =
      (l.filter (·.phase ≠ .cooldown)).map (transitionOf timeText) := by
  have h : (buildOneLifecycle opk baseline l cooldownEnd pred).transitions =
      (Sim.run pred baseline l).lifecycleTransitions := rfl
  rw [evidenceOf, h, (Sim.run_records pred baseline l).1, List.map_map]
  rfl

theorem finalPath_evidenceOf :
    (evidenceOf timeText (buildOneLifecycle opk baseline l cooldownEnd pred)).finalPath = endPath l := by
  have h : (evidenceOf timeText (buildOneLifecycle opk baseline l cooldownEnd pred)).finalPath =
      ((Sim.run pred baseline l).finalState.map (·.attributes.asPath)).getD [] := rfl
  rw [h]
  induction l using List.reverseRecOn with
  | nil => rfl
  | append_singleton l t ih =>
    rw [Sim.run_concat, Sim.step_finalState, endPath, List.filter_append]
    by_cases hk : t.kind = .withdrawal
    · simp [hk]
    · cases hst : t.to_.state with
      | none => simpa [hk, hst, endPath] using ih rfl
      | some st => simp [hk, hst, afterPath]

theorem isChange_transitionOf (t : RouteTransition) :
    (transitionOf timeText t).isChange = (t.kind != .announcement || !(fromPath t).isEmpty) := by
  unfold PathTransition.isChange transitionOf transitionKindStr
  cases t.kind <;> rfl

theorem step_firstChange (c : Changes) (tr : PathTransition) :
    (c.step tr).firstChange = c.firstChange.or (if tr.isChange then some tr else none) := by
  unfold Changes.step
  cases c.firstChange <;> simp

theorem foldl_firstChange (ts : List PathTransition) (c : Changes) :
    (ts.foldl Changes.step c).firstChange = c.firstChange.or (ts.find? PathTransition.isChange) := by
  induction ts generalizing c with
  | nil => simp
  | cons tr ts ih =>
    rw [List.foldl_cons, ih, step_firstChange, List.find?_cons]
    cases c.firstChange with
    | some fc => rfl
    | none =>
      cases tr.isChange <;> rfl

/-- What is taken for the first route after the return is a route. -/
theorem foldl_returnAt (ts : List PathTransition) (c : Changes)
    (hc : ∀ r, c.returnAt = some r → r.afterPath ≠ []) :
    ∀ r, (ts.foldl Changes.step c).returnAt = some r → r.afterPath ≠ [] := by
  induction ts generalizing c with
  | nil => exact hc
  | cons tr ts ih =>
    rw [List.foldl_cons]
    refine ih (c.step tr) fun r hr => ?_
    by_cases hne : tr.afterPath = []
    · exact hc r (by simpa [Changes.step, hne] using hr)
    · have hcases : (c.step tr).returnAt = some tr ∨ (c.step tr).returnAt = c.returnAt := by
        unfold Changes.step
        dsimp only
        split <;> split <;> simp
      rcases hcases with h | h
      · obtain rfl := Option.some.inj (h.symm.trans hr)
        exact hne
      · exact hc r (h.symm.trans hr)

theorem firstChange_evidenceOf :
    ((evidenceOf timeText (buildOneLifecycle opk baseline l cooldownEnd pred)).transitions.foldl
      Changes.step {}).firstChange = (l.find? isChange).map (transitionOf timeText) := by
  rw [transitions_evidenceOf, foldl_firstChange, List.find?_map, Option.none_or, List.find?_filter]
  congr 2
  funext t
  rw [Bool.eq_iff_iff]
  simp [isChange_transitionOf, isChange]

theorem toPath_eq_none {ev : StreamPathEvidence} {originAsn : Option UInt32} {planeAsns : List UInt32}
    {names : UInt32 → Option String} {asns : List UInt32} {ts : String} :
    toPath ev originAsn planeAsns names asns ts = none ↔ asns = [] := by
  unfold toPath
  split <;> simp_all

/-- The absences of a comparison are those of the stream exactly if its transitions name a path
wherever an instance is active. -/
theorem absencesShown_iff (originAsn : Option UInt32) (planeAsns : List UInt32)
    (names : UInt32 → Option String) :
    AbsencesShown baseline l (comparisonStates
        (evidenceOf timeText (buildOneLifecycle opk baseline l cooldownEnd pred)) originAsn planeAsns
        names) ↔ PathsOfStream baseline l := by
  have hbase : (evidenceOf timeText (buildOneLifecycle opk baseline l cooldownEnd pred)).baselinePath =
      ((principal baseline).map (·.attributes.asPath)).getD [] := rfl
  have hfinal := finalPath_evidenceOf opk baseline l cooldownEnd pred timeText
  have hfirst := firstChange_evidenceOf opk baseline l cooldownEnd pred timeText
  have hreturn := foldl_returnAt
    (evidenceOf timeText (buildOneLifecycle opk baseline l cooldownEnd pred)).transitions {}
    (fun r hr => absurd hr (by simp))
  unfold AbsencesShown comparisonStates
  dsimp only
  rw [hfirst]
  generalize evidenceOf timeText (buildOneLifecycle opk baseline l cooldownEnd pred) = ev at *
  have hret : ∀ st ∈ (ev.transitions.foldl Changes.step {}).returnAt.toList.map
      (returnState ev originAsn planeAsns names), st.path ≠ none := by
    intro st hst
    simp only [List.mem_map, Option.mem_toList] at hst
    obtain ⟨rt, hrt, rfl⟩ := hst
    exact fun h => hreturn rt hrt (toPath_eq_none.mp h)
  have hchange : (∀ st ∈ ((l.find? isChange).map (transitionOf timeText)).toList.flatMap
        (changeStates ev originAsn planeAsns names), st.path = none →
        st.label ≠ "First route after return" ∧ (activeAt baseline l st.label).isEmpty = true) ↔
      ∀ t, l.find? isChange = some t →
        (fromPath t = [] → (activeRun baseline (beforeChange l)).isEmpty = true) ∧
        (afterPath t = [] → (activeRun baseline (beforeChange l ++ [t])).isEmpty = true) := by
    cases hfind : l.find? isChange with
    | none => simp
    | some t =>
      have hafter : (if (transitionOf timeText t).kind == "Withdrawal" &&
          (transitionOf timeText t).afterPath.isEmpty then none
          else toPath ev originAsn planeAsns names (transitionOf timeText t).afterPath
            (transitionOf timeText t).timestamp) = none ↔ afterPath t = [] := by
        split
        · rename_i h
          simp only [Bool.and_eq_true, List.isEmpty_iff] at h
          exact iff_of_true rfl h.2
        · exact toPath_eq_none
      simp only [Option.map_some, Option.toList_some, List.flatMap_cons, List.flatMap_nil, List.append_nil,
        changeStates, List.forall_mem_cons, List.not_mem_nil, false_implies, implies_true, and_true,
        toPath_eq_none, hafter, Option.some.injEq, forall_eq']
      simp [activeAt, hfind, transitionOf]
  simp only [List.forall_mem_append, List.forall_mem_singleton, toPath_eq_none, hbase, hfinal, hchange]
  constructor
  · rintro ⟨⟨⟨hb, hc⟩, -⟩, hf⟩
    exact ⟨fun h => by simpa [activeAt] using (hb h).2, fun t ht => (hc t ht).1, fun t ht => (hc t ht).2,
      fun h => by simpa [activeAt] using (hf h).2⟩
  · intro h
    refine ⟨⟨⟨fun he => ⟨by decide, by simpa [activeAt] using h.first he⟩,
      fun t ht => ⟨h.before t ht, h.after t ht⟩⟩, fun st hst hnone => absurd hnone (hret st hst)⟩,
      fun he => ⟨by decide, by simpa [activeAt] using h.final he⟩⟩

/-- A comparison shows the absences and marks the changes of a stream exactly if its transitions name
a path wherever an instance is active, and consecutive paths are aligned. -/
theorem comparison_iff (originAsn : Option UInt32) (planeAsns : List UInt32)
    (names : UInt32 → Option String) (states : List PathStateView) :
    (AbsencesShown baseline l (comparisonStates
        (evidenceOf timeText (buildOneLifecycle opk baseline l cooldownEnd pred)) originAsn planeAsns
        names) ∧ MarksSegments states) ↔
      PathsOfStream baseline l ∧ ∀ pre a b post p q, states = pre ++ a :: b :: post →
        a.path = some p → b.path = some q → Aligned p q :=
  and_congr (absencesShown_iff ..) (marksSegments_iff states)

end Lifecycle

/-- A path with a prepended ASN before its origin. -/
def prependedPath : ObservedPath where
  observer := "rrc00 (peer 192.0.2.1)"
  observationKind := ""
  pfx := "10.0.0.0/8"
  timestamp := "baseline RIB"
  nodes := [⟨64500, 1, "", false, false⟩, ⟨64502, 4, "", false, false⟩, ⟨64505, 1, "", false, true⟩]
  evidenceRef := none

def prependedState : PathStateView := ⟨"Event baseline", "baseline RIB", some prependedPath⟩

/-- Of two identical states the second has a marked node; and where one of two instances is withdrawn,
the stream's absence is shown. -/
theorem identical_rows_marked :
    ¬ MarksSegments [prependedState, prependedState] ∧
      ¬ AbsencesShown (sampleBaseline oneOfTwoLost) (sampleTransitions oneOfTwoLost)
        (comparisonStates (evidenceOf toString (sampleLifecycle oneOfTwoLost)) (some 2) [1] fun _ => none) := by
  refine ⟨fun h => ?_, fun h => ?_⟩
  · have halign := (marksSegments_iff _).mp h [] prependedState prependedState [] prependedPath
      prependedPath rfl rfl rfl 2 ⟨64505, 1, "", false, true⟩ rfl
    exact absurd (halign.mpr rfl) (by decide)
  · have hpaths := (absencesShown_iff ..).mp h
    exact absurd (hpaths.final (by decide)) (by decide)

end Inim.PathDiagram
