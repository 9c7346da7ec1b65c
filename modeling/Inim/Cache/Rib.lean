import Inim.Cache.Keys
import Inim.Ingest
import Inim.Target

/-!
# The RIB stage and its two caches (`orchestrate.rs:243-545`)

| here | there |
| --- | --- |
| `RibArchive`, `RibRequest`         | a `CachedArchive`, and what one pass of the loop over the collectors uses |
| `RibCacheEntry`, `CacheDir`        | `derived_cache.rs:31-60`; the files `rib/<key>.json` and `extracted/<key>.json.gz` |
| `loadRibCache`                     | `derived_cache.rs:126-157` |
| `ribStep`                          | one pass of the loop (`orchestrate.rs:279-545`) |
| `ribFresh`                         | the same pass without any cache |
| `ribStage`, `RibOutcome`           | the loop, and the freeze of the cohort (`:756-764`) |

An entry reads back as it was written, so the two checksums of `load_rib_cache` hold of every
entry; of an entry's fields those are kept that loading checks or a hit uses. The counts and
timings a pass reports are not kept. Writing a cache file does not fail.
-/

namespace Inim

open Inim.Lib

structure RibArchive where
  collector : CollectorId
  url : String
  sha : String
  localPath : String
deriving DecidableEq, Repr

/-- One collector's RIB in one run. -/
structure RibRequest where
  family : SourceFamily
  revision : UInt32
  originAsns : List UInt32
  pred : TransitPredicate
  noDerivedCache : Bool
  rebuildDerivedCache : Bool
  archive : RibArchive
deriving DecidableEq, Repr

structure CachedTargetStream where
  peerIp : IpAddr
  peerAsn : UInt32
  pfx : Prefix
  baselineAsPath : List UInt32
deriving DecidableEq, Repr

structure RibCacheEntry where
  schemaVersion : UInt32
  parserVersion : String
  sourceSha256 : String
  frozenStreams : List CachedTargetStream
  baselineObservations : List RouteObservation
deriving DecidableEq, Repr

structure CacheDir where
  rib : String → Option RibCacheEntry
  extracted : String → Option (List RouteObservation)

def CacheDir.empty : CacheDir := ⟨fun _ => none, fun _ => none⟩

/-! ## Keys and the fresh parse -/

def RibRequest.ribKey (digest : List UInt8 → String) (r : RibRequest) : String :=
  ribCacheKey digest r.archive.sha r.archive.collector r.originAsns r.pred r.revision r.family.asStr

def RibRequest.extractionKey (digest : List UInt8 → String) (r : RibRequest) : String :=
  Inim.extractionKey digest r.archive.sha r.family.asStr r.archive.collector r.originAsns

def RibRequest.context (r : RibRequest) : IngestContext :=
  ribContext r.archive.collector r.archive.url r.archive.sha r.originAsns

/-- Parsing the archive: the entries that match origin and predicate. -/
def freshRib (parser : BgpkitParser) (r : RibRequest) : Except String RibScan := do
  let stream ← (fromLocalFile parser r.archive.localPath r.context).mapError fun e =>
    "failed to open RIB " ++ r.archive.localPath ++ ": " ++ e.display
  ribScan r.originAsns r.pred ⟨0, 0, 0, []⟩ stream

/-! ## One collector -/

/-- What a pass adds to the run. -/
structure RibAnswer where
  targets : TargetSet
  observations : List RouteObservation
deriving DecidableEq, Repr

/-- The stream of the current collector as a cached entry has it. -/
def rebuiltStream (s : CachedTargetStream) : TargetStream := ⟨s.peerIp, s.pfx, 0, s.baselineAsPath, none⟩

def answerOfEntry (r : RibRequest) (entry : RibCacheEntry) : RibAnswer where
  targets := entry.frozenStreams.foldl
    (fun (t : TargetSet) s => t.extend r.archive.collector [rebuiltStream s]) []
  observations := entry.baselineObservations

/-- What follows the choice of `collector_obs`. -/
def answerOf (r : RibRequest) (collectorObs : List RouteObservation) : RibAnswer where
  targets := scanRibAndFreeze collectorObs r.originAsns r.pred
  observations := collectorObs

def cachedStream (s : TargetStream) : CachedTargetStream := ⟨s.peerIp, 0, s.pfx, s.asPath⟩

def entryOf (r : RibRequest) (collectorObs : List RouteObservation) : RibCacheEntry where
  schemaVersion := ribCacheSchemaVersion
  parserVersion := Inim.parserVersion
  sourceSha256 := r.archive.sha
  frozenStreams := (((scanRibAndFreeze collectorObs r.originAsns r.pred).streams
    r.archive.collector).getD []).map cachedStream
  baselineObservations := collectorObs

def ribCacheValid (entry : RibCacheEntry) (sourceSha : String) : Bool :=
  entry.schemaVersion == ribCacheSchemaVersion && entry.parserVersion == parserVersion
    && entry.sourceSha256 == sourceSha

/-- A file that is not valid for the source is removed. -/
def loadRibCache (c : CacheDir) (key sourceSha : String) : CacheDir × Option RibCacheEntry :=
  match c.rib key with
  | none => (c, none)
  | some entry =>
    if ribCacheValid entry sourceSha then (c, some entry)
    else ({ c with rib := Function.update c.rib key none }, none)

section Stage

variable (digest : List UInt8 → String) (parser : BgpkitParser)

def saveRibCache (c : CacheDir) (r : RibRequest) (collectorObs : List RouteObservation) : CacheDir :=
  { c with rib := Function.update c.rib (r.ribKey digest) (some (entryOf r collectorObs)) }

def saveOriginExtraction (c : CacheDir) (r : RibRequest) (collectorObs : List RouteObservation) :
    CacheDir :=
  { c with extracted := Function.update c.extracted (r.extractionKey digest) (some collectorObs) }

def ribStep (c : CacheDir) (r : RibRequest) : CacheDir × Except String RibAnswer :=
  let loaded :=
    if r.noDerivedCache || r.rebuildDerivedCache then (c, none)
    else loadRibCache c (r.ribKey digest) r.archive.sha
  match loaded with
  | (c, some entry) => (c, .ok (answerOfEntry r entry))
  | (c, none) =>
    match if r.noDerivedCache then none else c.extracted (r.extractionKey digest) with
    -- the reused entries are not filtered by the predicate of this run
    | some reused => (saveRibCache digest c r reused, .ok (answerOf r reused))
    | none =>
      match freshRib parser r with
      | .error e => (c, .error e)
      | .ok scan =>
        let c := if r.noDerivedCache then c else saveOriginExtraction digest c r scan.obs
        (saveRibCache digest c r scan.obs, .ok (answerOf r scan.obs))

/-- The pass of a run with no cache at all. -/
def ribFresh (r : RibRequest) : Except String RibAnswer :=
  (freshRib parser r).map fun scan => answerOf r scan.obs

end Stage

/-! ## All collectors of a run -/

structure RibRun where
  family : SourceFamily
  revision : UInt32
  originAsns : List UInt32
  pred : TransitPredicate
  noDerivedCache : Bool
  rebuildDerivedCache : Bool
  archives : List RibArchive
deriving DecidableEq, Repr

def RibRun.request (run : RibRun) (archive : RibArchive) : RibRequest where
  family := run.family
  revision := run.revision
  originAsns := run.originAsns
  pred := run.pred
  noDerivedCache := run.noDerivedCache
  rebuildDerivedCache := run.rebuildDerivedCache
  archive := archive

def RibRun.requests (run : RibRun) : List RibRequest := run.archives.map run.request

structure RibOutcome where
  observations : List RouteObservation
  targets : TargetSet
  cohort : FrozenCohort

def RibAnswer.add (acc answer : RibAnswer) : RibAnswer :=
  ⟨acc.targets.merge answer.targets, acc.observations ++ answer.observations⟩

/-- The loop over the collectors; an error ends the run, the files written stay. -/
def ribLoop (digest : List UInt8 → String) (parser : BgpkitParser) :
    CacheDir → RibAnswer → List RibRequest → CacheDir × Except String RibAnswer
  | c, acc, [] => (c, .ok acc)
  | c, acc, r :: rest =>
    match ribStep digest parser c r with
    | (c, .error e) => (c, .error e)
    | (c, .ok answer) => ribLoop digest parser c (acc.add answer) rest

def ribLoopFresh (parser : BgpkitParser) : RibAnswer → List RibRequest → Except String RibAnswer
  | acc, [] => .ok acc
  | acc, r :: rest => do
    let answer ← ribFresh parser r
    ribLoopFresh parser (acc.add answer) rest

def RibRun.outcome (run : RibRun) (answer : RibAnswer) : RibOutcome where
  observations := answer.observations
  targets := answer.targets
  cohort := freezeCohort run.originAsns run.pred answer.observations

def ribStage (digest : List UInt8 → String) (parser : BgpkitParser) (c : CacheDir) (run : RibRun) :
    CacheDir × Except String RibOutcome :=
  let r := ribLoop digest parser c ⟨[], []⟩ run.requests
  (r.1, r.2.map run.outcome)

def ribStageFresh (parser : BgpkitParser) (run : RibRun) : Except String RibOutcome :=
  (ribLoopFresh parser ⟨[], []⟩ run.requests).map run.outcome

end Inim
