import Inim.Domain.IpText
import Inim.Lifecycle.Active
import Inim.Sequitur.Build
import Inim.Text
import Inim.Waves.Semantic
/-!
# Impact waves (`waves.rs:1-301`)

| here | there |
| --- | --- |
| `EvidencedRouteState.pfx`, `.observer` | `route.rs:368`, `:388`, with their sentinels for an absent state |
| `transitionSymbol`               | `TransitionSymbol::from_kind` (`tokenize.rs:196`) |
| `ImpactWave`, `WaveMotif`, `MotifEvidenceRange`, `fnv1a64` | `domain/wave.rs:15-75`, `:96` |
| `motifGroups`, `groupMotif`, `sequiturMotif`, `motifStructure` | `waves.rs:98-287`; the indices in `motif_counts` are the motifs themselves |
| `WaveScan`, `detectWaves`, `buildWave` | `waves.rs:25-92`; the label is written later, by `summarize_waves` |

`HashOrder` is an order for each hash map that is walked. The prefix and the observer of a
transition are read off its after-state, which a withdrawal does not have.
-/

namespace Inim

open Std Inim.Lib Inim.Sequitur

def EvidencedRouteState.pfx (e : EvidencedRouteState) : Prefix := (e.state.map (·.pfx)).getD "0.0.0.0/0"

def EvidencedRouteState.observer (e : EvidencedRouteState) : String :=
  (e.state.map (·.observer)).getD "absent"

def transitionSymbol : TransitionKind → String
  | .announcement => "ANNOUNCEMENT"
  | .withdrawal => "WITHDRAWAL"
  | .duplicate => "DUPLICATE"
  | .pathReplacement _ _ => "PATH_REPLACEMENT"
  | .attributeChange => "ATTRIBUTE_CHANGE"
  | .sessionReset => "SESSION_RESET"
  | .restoration => "RESTORATION"
  | .returnToBaseline => "RETURN_TO_BASELINE"

structure MotifEvidenceRange where
  observer : String
  pfx : String
  timeStart : DateTime
  timeEnd : DateTime
  transitionStart : Nat
  transitionEnd : Nat
deriving DecidableEq, Repr

structure WaveMotif where
  id : String
  expanded : String
  /-- `structure` in the source. -/
  hierarchy : List String
  occurrences : Nat
  coveredTerminals : Nat
  totalTerminals : Nat
  scopes : List String
  evidenceRanges : List MotifEvidenceRange
deriving DecidableEq, Repr

structure ImpactWave where
  id : Nat
  label : String
  start : DateTime
  peak : DateTime
  /-- `end` in the source. -/
  stop : DateTime
  affectedPrefixes : List Prefix
  affectedPeers : List String
  motif : Option WaveMotif
deriving DecidableEq, Repr

/-! ## Motifs -/

/-- `format!("{hash:016x}")` of the FNV-1a hash. -/
def fnv1a64 (data : List UInt8) : String :=
  let hash := data.foldl (fun h b => (h ^^^ b.toUInt64) * 0x100000001b3) (0xcbf29ce484222325 : UInt64)
  let digits := Nat.toDigits 16 hash.toNat
  String.ofList (List.replicate (16 - digits.length) '0' ++ digits)

def ruleText (r : Nat) : String := "R" ++ toString r

def symbolText : Symbol String → String
  | .terminal t => t
  | .nonTerminal r => ruleText r

/-- `motif_structure` (`waves.rs:267`): the root, then the rules by their ids. -/
def motifStructure (grammar : Grammar String) : List String :=
  ("ROOT → " ++ String.intercalate " " (grammar.start.map symbolText)) ::
    grammar.ruleIds.map fun r =>
      ruleText r ++ " → " ++ String.intercalate " " (((grammar.rules r).getD []).map symbolText)

structure GroupMotif where
  expanded : List String
  hierarchy : List String
  scope : String
  timeStart : DateTime
  timeEnd : DateTime
deriving DecidableEq, Repr

/-- `(observer, prefix)`. -/
abbrev GroupKey := String × Prefix

/-- The orders in which the hash maps of one wave are walked. -/
structure HashOrder where
  groups : List (GroupKey × List RouteTransition) → List (GroupKey × List RouteTransition)
  groups_perm : ∀ l, (groups l).Perm l
  counts : List (String × List GroupMotif) → List (String × List GroupMotif)
  counts_perm : ∀ l, (counts l).Perm l
  /-- The rules of each group's grammar. -/
  rules : GroupKey → MapOrder

def HashOrder.inserted : HashOrder := ⟨id, .refl, id, .refl, fun _ => .sorted⟩

def byTimestamp : RouteTransition → RouteTransition → Ordering := compareOn (·.to_.timestamp)

def motifGroups (transitions : List RouteTransition) : List (GroupKey × List RouteTransition) :=
  groupOn (fun t => (t.to_.observer, t.to_.pfx)) transitions

/-- One group: its symbols, and what SEQUITUR makes of two or more. -/
def groupMotif (order : MapOrder) (key : GroupKey) (group : List RouteTransition) :
    Option GroupMotif :=
  let group := sortBy byTimestamp group
  let symbols := group.map fun t => transitionSymbol t.kind
  let motif (expanded hierarchy : List String) : GroupMotif :=
    ⟨expanded, hierarchy, key.1 ++ " " ++ key.2, firstTimestamp group, lastTimestamp group⟩
  if 2 ≤ symbols.length then
    match build order (symbols.length + 1) symbols with
    | some grammar =>
      if grammar.expand = [] then none else some (motif grammar.expand (motifStructure grammar))
    | none => none
  else symbols.head?.map fun sym => motif [sym] ["ROOT → " ++ sym]

/-- By the number of groups; on a tie the lexicographically first sequence is the largest. -/
def motifOrder : String × List GroupMotif → String × List GroupMotif → Ordering :=
  compareLex (compareOn (·.2.length)) (fun a b => compare b.1 a.1)

def evidenceRange (g : GroupMotif) : MotifEvidenceRange where
  observer := (splitWhitespace g.scope)[0]?.getD "unknown"
  pfx := (splitWhitespace g.scope)[1]?.getD "unknown"
  timeStart := g.timeStart
  timeEnd := g.timeEnd
  transitionStart := 0
  transitionEnd := g.expanded.length - 1

def motifOf (totalTerminals : Nat) (expanded : String) (best : List GroupMotif) : WaveMotif where
  id := fnv1a64 expanded.toUTF8.toList
  expanded := expanded
  hierarchy := (best.head?.map (·.hierarchy)).getD []
  occurrences := best.length
  coveredTerminals := (best.map (·.expanded.length)).sum
  totalTerminals := totalTerminals
  scopes := best.map (·.scope)
  evidenceRanges := (best.take 3).map evidenceRange

def groupMotifs (order : HashOrder) (transitions : List RouteTransition) : List GroupMotif :=
  (order.groups (motifGroups transitions)).filterMap fun e => groupMotif (order.rules e.1) e.1 e.2

def sequiturMotif (order : HashOrder) (transitions : List RouteTransition) : Option WaveMotif :=
  let counts := groupOn (fun g : GroupMotif => String.intercalate " " g.expanded)
    (groupMotifs order transitions)
  (maxBy motifOrder (order.counts counts)).map fun best =>
    motifOf transitions.length best.1 (sortBy (compareOn (·.scope)) best.2)

/-! ## Waves -/

def buildWave (order : HashOrder) (id : Nat) (transitions : List RouteTransition)
    (waveStart : DateTime) : ImpactWave where
  id := id
  label := ""
  start := waveStart
  peak := ((timestamps transitions)[transitions.length / 2]?).getD 0
  stop := (timestamps transitions).getLast?.getD waveStart
  affectedPrefixes := sortDedup compare (transitions.map (·.to_.pfx))
  affectedPeers := sortDedup compare (transitions.map (·.to_.observer))
  motif := sequiturMotif order transitions

/-- The locals of `detect_waves`. -/
structure WaveScan where
  waves : List ImpactWave
  currentGroup : List RouteTransition
  waveStart : DateTime
  waveId : Nat

def withinGap (maxGap : Int) (prev next : RouteTransition) : Bool :=
  decide (next.to_.timestamp - prev.to_.timestamp ≤ maxGap)

/-- The order of the maps of the wave numbered `id` is `order id`. -/
def WaveScan.step (order : Nat → HashOrder) (maxGap : Int) (s : WaveScan)
    (w : RouteTransition × RouteTransition) : WaveScan :=
  if withinGap maxGap w.1 w.2 then { s with currentGroup := s.currentGroup ++ [w.2] }
  else
    { waves := s.waves ++ [buildWave (order s.waveId) s.waveId s.currentGroup s.waveStart]
      currentGroup := [w.2]
      waveStart := w.2.to_.timestamp
      waveId := s.waveId + 1 }

def detectWaves (order : Nat → HashOrder) (transitions : List RouteTransition) (maxGap : Int) :
    List ImpactWave :=
  match sortBy byTimestamp transitions with
  | [] => []
  | first :: rest =>
    let s := (windows2 (first :: rest)).foldl (WaveScan.step order maxGap)
      ⟨[], [first], first.to_.timestamp, 1⟩
    s.waves ++ [buildWave (order s.waveId) s.waveId s.currentGroup s.waveStart]

def waveGroups (transitions : List RouteTransition) (maxGap : Int) : List (List RouteTransition) :=
  clusters (withinGap maxGap) (sortBy byTimestamp transitions)

section Scan
variable (order : Nat → HashOrder) (maxGap : Int)

/-- The scan has built the waves of the finished clusters and holds the current one. -/
structure WaveScan.Follows (s : WaveScan) (acc : List (List RouteTransition) × List RouteTransition) :
    Prop where
  current : s.currentGroup = acc.2
  nonempty : acc.2 ≠ []
  start : s.waveStart = firstTimestamp acc.2
  id : s.waveId = acc.1.length + 1
  waves : s.waves = acc.1.mapIdx fun i g => buildWave (order (i + 1)) (i + 1) g (firstTimestamp g)

theorem WaveScan.Follows.step {s : WaveScan}
    {acc : List (List RouteTransition) × List RouteTransition} (h : s.Follows order acc)
    (w : RouteTransition × RouteTransition) :
    (s.step order maxGap w).Follows order (clusterStep (withinGap maxGap) acc w) := by
  unfold WaveScan.step clusterStep
  split
  · obtain ⟨t, g, hg⟩ := List.exists_cons_of_ne_nil h.nonempty
    have hstart := h.start
    rw [hg] at hstart
    exact ⟨by rw [h.current], by simp, by rw [hg]; exact hstart, h.id, h.waves⟩
  · refine ⟨rfl, by simp, rfl, by simp [h.id], ?_⟩
    rw [List.mapIdx_concat, h.waves, h.id, h.current, h.start]

/-- **The waves are those of the clusters**, numbered from 1. -/
theorem detectWaves_eq (transitions : List RouteTransition) :
    detectWaves order transitions maxGap = (waveGroups transitions maxGap).mapIdx
      fun i g => buildWave (order (i + 1)) (i + 1) g (firstTimestamp g) := by
  unfold detectWaves waveGroups clusters
  cases sortBy byTimestamp transitions with
  | nil => rfl
  | cons first rest =>
    have hfollows : ∀ (ws : List (RouteTransition × RouteTransition)) (s : WaveScan) acc,
        s.Follows order acc → (ws.foldl (WaveScan.step order maxGap) s).Follows order
          (ws.foldl (clusterStep (withinGap maxGap)) acc) := by
      intro ws
      induction ws with
      | nil => exact fun _ _ h => h
      | cons w ws ih => exact fun s acc h => ih _ _ (h.step order maxGap w)
    have h := hfollows (windows2 (first :: rest)) ⟨[], [first], first.to_.timestamp, 1⟩
      ([], [first]) ⟨rfl, by simp, rfl, rfl, rfl⟩
    dsimp only
    rw [List.mapIdx_concat, h.waves, h.id, h.current, h.start]

end Scan

end Inim
