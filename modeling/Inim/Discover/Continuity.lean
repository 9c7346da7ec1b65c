import Inim.Assess
import Inim.Cache.UpdateTransparency
import Inim.Discover.Select
import Inim.Tokenize

/-!
# Is a loss of evidence ever silent? (`orchestrate.rs:646-847`)

| here | there |
| --- | --- |
| `UpdateAnalysis.select`             | the body of the collector loop (`:664-686`) |
| `UpdateAnalysis.continuityUnknown`  | what the loop leaves in `any_continuity_unknown` |
| `UpdateAnalysis.requests`           | numbering, removal of repeated URLs, downloads (`:690-727`) |
| `UpdateAnalysis.verdict`            | cohort to `assess` (`:748-847`) |
| `UpdateAnalysis.analyze`            | the UPDATE phase to the verdict |

`assess` runs its continuity gate first because "a gap-free UPDATE sequence is required before
'no route-state change' may be concluded" (`assess.rs:24-27`). What reaches the gate is one flag,
and one place sets it: `validate_update_gaps` on the selected archives, by the broker's
`ts_start` and `ts_end`. An archive that does not open, a record that does not decode, a selection
that is empty, starts late or ends early and a gap that only the canonical start shows leave it
as it was.

`lossIsFlagged_iff`: the flag is set for every loss exactly when the sequence is complete or the
broker's times show a gap.
-/

namespace Inim

open Lib

structure CollectedRib where
  collector : CollectorId
  url : String
deriving DecidableEq, Repr

/-- A retained collector and what the broker lists for it. -/
structure ListedCollector where
  collector : CollectorId
  items : List ArchiveItem
deriving DecidableEq, Repr

structure UpdateAnalysis extends UpdateSettings where
  warmupStart : DateTime
  eventStart : DateTime
  eventEnd : DateTime
  cooldownEnd : DateTime
  kind : ExpectationKind
  originAsns : List UInt32
  pred : TransitPredicate
  collectedRibs : List CollectedRib
  retained : List ListedCollector

/-- The archives selected for a collector, with their canonical start. -/
structure Selection where
  ribTimestamp : DateTime
  stamped : List (DateTime × ArchiveItem)
deriving DecidableEq, Repr

def Selection.archives (s : Selection) : List ArchiveItem := s.stamped.map (·.2)

/-- `chrono::Duration::minutes(5)`. -/
def gapTolerance : Int := minutes 5

structure Analyzed where
  cache : UpdateCache
  continuityUnknown : Bool
  verdict : Verdict

namespace UpdateAnalysis

def ribTimestamp (x : UpdateAnalysis) (collector : CollectorId) : Option DateTime :=
  match x.collectedRibs.find? (·.collector = collector) with
  | none => some x.warmupStart
  | some rib => (filenameTimestamp rib.url).map (·.getD x.warmupStart)

def select (x : UpdateAnalysis) (listed : ListedCollector) : Option Selection := do
  let ribTimestamp ← x.ribTimestamp listed.collector
  let stamped ← selectStamped listed.items ribTimestamp x.cooldownEnd
  return ⟨ribTimestamp, stamped⟩

def selections (x : UpdateAnalysis) : Option (List Selection) := x.retained.mapM x.select

def continuityUnknown (selections : List Selection) : Bool :=
  selections.any fun s => !(validateUpdateGaps gapTolerance s.archives).isEmpty

def pending (selections : List Selection) : List (ArchiveItem × Nat) :=
  keepFirst (·.1.url) (selections.flatMap (·.archives)).zipIdx

section Download
variable (cacheArchive : ArchiveItem → Except String UpdateArchive)

/-- A download that fails ends the run. -/
def requests (x : UpdateAnalysis) (selections : List Selection) : Except String (List UpdateRequest) :=
  (pending selections).mapM fun p =>
    match cacheArchive p.1 with
    | .error e => .error ("failed to cache UPDATE " ++ p.1.url ++ ": " ++ e)
    | .ok archive => .ok (x.request (archive, p.2))

end Download

def verdict (x : UpdateAnalysis) (observations : List RouteObservation) (unknown : Bool) : Verdict :=
  let changes := (reconstructRoutes x.eventStart x.eventEnd x.cooldownEnd observations).2
  let transitions := tokenize changes
  let cohort := freezeCohort x.originAsns x.pred x.ribObservations
  deriveVerdict transitions x.kind unknown
    (some (buildLifecycles transitions cohort x.cooldownEnd x.pred))

/-- `none` when the selection panics. -/
def analyze (digest : List UInt8 → String) (parser : BgpkitParser)
    (cacheArchive : ArchiveItem → Except String UpdateArchive) (c : UpdateCache) (x : UpdateAnalysis) :
    Option (Except String Analyzed) :=
  match x.selections with
  | none => none
  | some selections =>
    match x.requests cacheArchive selections with
    | .error e => some (.error e)
    | .ok requests =>
      let (c, results) := updateLoop digest parser c requests
      let observations := x.finalSequence (results.flatMap (·.observations))
      let unknown := continuityUnknown selections
      some (.ok ⟨c, unknown, x.verdict observations unknown⟩)

end UpdateAnalysis

/-! ## What a complete sequence is -/

/-- The archives reach from the baseline RIB to the end of the cooldown, with no gap between the
end of one and the canonical start of the next. -/
def Selection.Covers (s : Selection) (cooldownEnd : DateTime) : Prop :=
  (∃ first ∈ s.stamped.head?, first.1 ≤ s.ribTimestamp + gapTolerance) ∧
    (∃ last ∈ s.stamped.getLast?, cooldownEnd ≤ last.2.tsEnd + gapTolerance) ∧
    s.stamped.IsChain fun prev next => next.1 - prev.2.tsEnd ≤ gapTolerance

/-- Two neighbours in the selection with a gap by the broker's times. -/
def Selection.BrokerGap (s : Selection) : Prop :=
  ¬ s.archives.IsChain fun prev next => next.tsStart - prev.tsEnd ≤ gapTolerance

theorem continuityUnknown_iff (selections : List Selection) :
    UpdateAnalysis.continuityUnknown selections = true ↔ ∃ s ∈ selections, s.BrokerGap := by
  simp only [UpdateAnalysis.continuityUnknown, List.any_eq_true, Selection.BrokerGap,
    ← validateUpdateGaps_eq_nil_iff, Bool.not_eq_true', List.isEmpty_eq_false_iff, ne_eq]

section Loss
variable (digest : List UInt8 → String) (parser : BgpkitParser)
  (cacheArchive : ArchiveItem → Except String UpdateArchive)
  -- how many records of a file the parser's iterator passes over because they do not decode
  (undecoded : String → Nat)

/-- The archive does not open where it is parsed, or a record of it does not decode. -/
def LosesRecords (c : UpdateCache) (r : UpdateRequest) : Prop :=
  0 < undecoded r.localPath ∨
    (updateHit digest c r = none ∧ ∃ e, parser.openElems r.localPath = .error e)

/-- Evidence is lost: in an archive that is processed, or outside what was selected. -/
def Incomplete (c : UpdateCache) (cooldownEnd : DateTime) (selections : List Selection)
    (requests : List UpdateRequest) : Prop :=
  (∃ pre r post, requests = pre ++ r :: post ∧
      LosesRecords digest parser undecoded (run (passStep digest parser) c pre) r) ∨
    ∃ s ∈ selections, ¬ s.Covers cooldownEnd

/-- A loss of evidence sets the flag, and the verdict says so. -/
def LossIsFlagged (c : UpdateCache) (x : UpdateAnalysis) : Prop :=
  ∀ selections requests out, x.selections = some selections →
    x.requests cacheArchive selections = .ok requests →
    x.analyze digest parser cacheArchive c = some (.ok out) →
    Incomplete digest parser undecoded c x.cooldownEnd selections requests →
    out.continuityUnknown = true ∧ out.verdict = .insufficientVisibility

variable {digest parser cacheArchive undecoded}

/-- Behind the gate there is one verdict. -/
theorem verdict_unknown (x : UpdateAnalysis) (observations : List RouteObservation) :
    x.verdict observations true = .insufficientVisibility := by
  simp [UpdateAnalysis.verdict, deriveVerdict]

theorem analyze_eq {c : UpdateCache} {x : UpdateAnalysis} {selections : List Selection}
    {requests : List UpdateRequest} (hsel : x.selections = some selections)
    (hreq : x.requests cacheArchive selections = .ok requests) :
    x.analyze digest parser cacheArchive c = some (.ok
      ⟨(updateLoop digest parser c requests).1, UpdateAnalysis.continuityUnknown selections,
        x.verdict (x.finalSequence ((updateLoop digest parser c requests).2.flatMap (·.observations)))
          (UpdateAnalysis.continuityUnknown selections)⟩) := by
  simp only [UpdateAnalysis.analyze, hsel, hreq]

/-- No loss is silent exactly where every loss comes with a gap by the broker's times. -/
theorem lossIsFlagged_iff (c : UpdateCache) (x : UpdateAnalysis) :
    LossIsFlagged digest parser cacheArchive undecoded c x ↔
      ∀ selections requests, x.selections = some selections →
        x.requests cacheArchive selections = .ok requests →
        ¬ Incomplete digest parser undecoded c x.cooldownEnd selections requests ∨
          ∃ s ∈ selections, s.BrokerGap := by
  constructor
  · intro hflag selections requests hsel hreq
    by_cases hlost : Incomplete digest parser undecoded c x.cooldownEnd selections requests
    · have hset := (hflag selections requests _ hsel hreq (analyze_eq hsel hreq) hlost).1
      exact Or.inr ((continuityUnknown_iff selections).1 hset)
    · exact Or.inl hlost
  · intro hgap selections requests out hsel hreq hout hlost
    rw [analyze_eq hsel hreq] at hout
    cases hout
    have hset : UpdateAnalysis.continuityUnknown selections = true :=
      (continuityUnknown_iff selections).2
        ((hgap selections requests hsel hreq).resolve_left (not_not_intro hlost))
    refine ⟨hset, ?_⟩
    change x.verdict _ (UpdateAnalysis.continuityUnknown selections) = _
    rw [hset]
    exact verdict_unknown x _

end Loss

/-! ### An archive that does not open -/

namespace UnreadableArchive

def midnight : DateTime := 1704067200 * 1000000000

def archive : ArchiveItem where
  project := "route-views"
  collectorId := "rv"
  dataType := "updates"
  tsStart := midnight
  tsEnd := midnight + minutes 15
  url := "http://h/updates.20240101.0000.bz2"
  size := 0

def baseline : RouteObservation where
  id := 0
  source := ⟨"rib"⟩
  timestamp := midnight
  collector := "rv"
  peerIp := .v4 1
  peerAsn := 64500
  pfx := "10.0.0.0/8"
  kind := .ribEntry
  attributes := some
    { asPath := [64500, 11537, 65001], originAsns := [65001], nextHop := none, origin := none
      localPref := none, med := none, atomicAggregate := false, communities := [] }
  pathId := none
  provenance := ⟨"rib", none, none, .rib, 0, 0⟩

def analysis : UpdateAnalysis where
  family := .routeViews
  noDerivedCache := false
  rebuildDerivedCache := false
  rebuildUpdateCaches := false
  target := [("rv", [⟨.v4 1, "10.0.0.0/8", 65001, [64500, 11537, 65001], none⟩])]
  ribObservations := [baseline]
  warmupStart := midnight
  eventStart := midnight + minutes 5
  eventEnd := midnight + minutes 10
  cooldownEnd := midnight + minutes 15
  kind := .participantRelationshipUnavailable
  originAsns := [65001]
  pred := .containsAny [11537]
  collectedRibs := [⟨"rv", "http://h/rib.20240101.0000.bz2"⟩]
  retained := [⟨"rv", [archive]⟩]

def parser : BgpkitParser where
  openElems := fun _ => .error "invalid bzip2 header"
  addFilter := fun _ _ elems => .ok elems

def cacheArchive (item : ArchiveItem) : Except String UpdateArchive :=
  .ok ⟨item.collectorId, item.url, "cache/" ++ item.url, "sha"⟩

def selected : List Selection := [⟨midnight, [(midnight, archive)]⟩]

def request : UpdateRequest :=
  analysis.request (⟨"rv", archive.url, "cache/" ++ archive.url, "sha"⟩, 0)

end UnreadableArchive

open UnreadableArchive in
/-- **Bug**: the one archive of the run cannot be read, and the verdict is that nothing changed. -/
theorem unreadable_archive_is_silent :
    ((analysis.analyze TwoOrigins.keepBytes parser cacheArchive fun _ => none).map fun out =>
      out.map fun a => (a.continuityUnknown, a.verdict)) =
        some (.ok (false, .unexpectedContinuedInternet2Path)) ∧
    ¬ LossIsFlagged TwoOrigins.keepBytes parser cacheArchive (fun _ => 0) (fun _ => none) analysis := by
  refine ⟨by decide +kernel, fun hflag => ?_⟩
  have hsel : analysis.selections = some selected := by decide +kernel
  have hreq : analysis.requests cacheArchive selected = .ok [request] := by decide +kernel
  have hlost : Incomplete TwoOrigins.keepBytes parser (fun _ => 0) (fun _ => none)
      analysis.cooldownEnd selected [request] :=
    Or.inl ⟨[], request, [], rfl, Or.inr ⟨by decide +kernel, "invalid bzip2 header", rfl⟩⟩
  have hset : UpdateAnalysis.continuityUnknown selected = true :=
    (hflag _ _ _ hsel hreq (analyze_eq hsel hreq) hlost).1
  exact absurd hset (by decide +kernel)

end Inim
