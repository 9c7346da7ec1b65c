import Inim.Cache.Rib
import Inim.Lib.Tables
import Inim.Routes.Order

/-!
# The UPDATE stage and its cache (`orchestrate.rs:640-766`, `:1143-1329`)

| here | there |
| --- | --- |
| `UpdateAdmissionCounters`, `UpdateCacheEntry` | `derived_cache.rs:189-215` |
| `targetsetHash`                    | `derived_cache.rs:221-240` |
| `loadUpdateCache`                  | `derived_cache.rs:349-383` |
| `UpdateRequest`                    | an `UpdateTask` with what is passed along with it |
| `updateScan`, `processOneUpdateFile` | `orchestrate.rs:1143-1329` |
| `pending`                          | the numbering of the archives and the removal of repeated URLs (`:650-693`) |
| `updateStage`                      | the archives in order, then sort and ids (`:700-766`) |

As for the RIB stage, an entry reads back as it was written, and writing one does not fail; of an
entry's fields those are kept that loading checks or a hit uses. The metrics are not kept.
-/

namespace Inim

open Std Inim.Lib

structure UpdateAdmissionCounters where
  totalElementsParsed : Nat := 0
  targetPrefixMatches : Nat := 0
  collectorPrefixMatches : Nat := 0
  fullTargetkeyMatches : Nat := 0
  admittedAnnouncements : Nat := 0
  admittedWithdrawals : Nat := 0
deriving DecidableEq, Repr

structure UpdateCacheEntry where
  schemaVersion : UInt32
  observationSchemaVersion : UInt32
  parserVersion : String
  sourceSha256 : String
  recordCount : Nat
  admissionCounters : UpdateAdmissionCounters
  observations : List RouteObservation
deriving DecidableEq, Repr

/-- The files `updates/<key>.json`. -/
abbrev UpdateCache := String → Option UpdateCacheEntry

structure UpdateRequest where
  family : SourceFamily
  noDerivedCache : Bool
  rebuildDerivedCache : Bool
  rebuildUpdateCaches : Bool
  target : TargetSet
  collector : CollectorId
  archiveOrder : Nat
  url : String
  localPath : String
  sha256 : String
deriving DecidableEq, Repr

section Keys
variable (digest : List UInt8 → String)

/-- The sorted (collector, peer, prefix) texts. -/
def targetsetHash (target : TargetSet) : String :=
  let entries := target.flatMap fun e => e.2.map fun s => (e.1, s.peerIp.display, s.pfx)
  let sorted := sortBy (compareLex (compareOn (·.1)) (compareLex (compareOn (·.2.1)) (compareOn (·.2.2))))
    entries
  digest (sorted.flatMap fun e =>
    utf8 e.1 ++ utf8 "|" ++ utf8 e.2.1 ++ utf8 "|" ++ utf8 e.2.2 ++ utf8 "|")

def UpdateRequest.key (r : UpdateRequest) : String :=
  updateCacheKey digest r.sha256 r.collector (targetsetHash digest r.target) r.family.asStr

end Keys

/-! ## One archive -/

def UpdateRequest.context (r : UpdateRequest) : IngestContext where
  role := .updates
  collector := r.collector
  sourceUrl := some r.url
  sourceSha := some r.sha256
  originAsnFilters := []
  archiveOrder := r.archiveOrder

structure UpdateScan where
  counters : UpdateAdmissionCounters
  admitted : List RouteObservation
deriving DecidableEq, Repr

/-- One element of the archive; one that fails to decode is reported and skipped. -/
def updateScan (target : TargetSet) (acc : UpdateScan) :
    Except InimError RouteObservation → UpdateScan
  | .error _ => acc
  | .ok obs =>
    let c := { acc.counters with totalElementsParsed := acc.counters.totalElementsParsed + 1 }
    if !target.frozenPrefixes.contains obs.pfx then { acc with counters := c }
    else
      let c := { c with targetPrefixMatches := c.targetPrefixMatches + 1 }
      if !((target.streams obs.collector).any fun entries => entries.any (·.pfx == obs.pfx)) then
        { acc with counters := c }
      else
        let c := { c with collectorPrefixMatches := c.collectorPrefixMatches + 1 }
        if !target.contains obs.collector obs.peerIp obs.pfx then { acc with counters := c }
        else
          let c := { c with
            fullTargetkeyMatches := c.fullTargetkeyMatches + 1
            admittedAnnouncements :=
              c.admittedAnnouncements + (obs.kind == .announcement).toNat
            admittedWithdrawals := c.admittedWithdrawals + (obs.kind == .withdrawal).toNat }
          ⟨c, acc.admitted ++ [obs]⟩

def scanUpdates (target : TargetSet) (stream : List (Except InimError RouteObservation)) :
    UpdateScan :=
  stream.foldl (updateScan target) ⟨{}, []⟩

def updateEntryOf (r : UpdateRequest) (scan : UpdateScan) : UpdateCacheEntry where
  schemaVersion := updateCacheSchemaVersion
  observationSchemaVersion := Inim.observationSchemaVersion
  parserVersion := Inim.parserVersion
  sourceSha256 := r.sha256
  recordCount := scan.admitted.length
  admissionCounters := scan.counters
  observations := scan.admitted

def updateCacheValid (cached : UpdateCacheEntry) (sourceSha : String) : Bool :=
  cached.schemaVersion == updateCacheSchemaVersion &&
    cached.observationSchemaVersion == observationSchemaVersion &&
    cached.parserVersion == parserVersion && cached.sourceSha256 == sourceSha

/-- A file that is not valid for the source, or miscounted, is removed. -/
def loadUpdateCache (c : UpdateCache) (key sourceSha : String) :
    UpdateCache × Option UpdateCacheEntry :=
  match c key with
  | none => (c, none)
  | some entry =>
    if !updateCacheValid entry sourceSha then (Function.update c key none, none)
    else if entry.observations.length ≠ entry.recordCount then (Function.update c key none, none)
    else (c, some entry)

structure UpdateFileResult where
  observations : List RouteObservation
  counters : UpdateAdmissionCounters
  cacheHit : Bool
deriving DecidableEq, Repr

section Stage
variable (digest : List UInt8 → String) (parser : BgpkitParser)

/-- Parsing the archive: one that does not open has no observations. -/
def parseUpdates (r : UpdateRequest) : Option UpdateScan :=
  match fromLocalFile parser r.localPath r.context with
  | .error _ => none
  | .ok stream => some (scanUpdates r.target stream)

def processOneUpdateFile (c : UpdateCache) (r : UpdateRequest) : UpdateCache × UpdateFileResult :=
  let rebuildUpdates := r.rebuildDerivedCache || r.rebuildUpdateCaches
  let loaded :=
    if r.noDerivedCache || rebuildUpdates then (c, none)
    else loadUpdateCache c (r.key digest) r.sha256
  match loaded with
  | (c, some cached) => (c, ⟨cached.observations, cached.admissionCounters, true⟩)
  | (c, none) =>
    match parseUpdates parser r with
    | none => (c, ⟨[], {}, false⟩)
    | some scan =>
      let c :=
        if r.noDerivedCache then c
        else Function.update c (r.key digest) (some (updateEntryOf r scan))
      (c, ⟨scan.admitted, scan.counters, false⟩)

end Stage

/-! ## One run -/

structure UpdateArchive where
  collector : CollectorId
  url : String
  localPath : String
  sha256 : String
deriving DecidableEq, Repr

/-- What the UPDATE stage of a run is given apart from the archives. -/
structure UpdateSettings where
  family : SourceFamily
  noDerivedCache : Bool
  rebuildDerivedCache : Bool
  rebuildUpdateCaches : Bool
  target : TargetSet
  ribObservations : List RouteObservation
deriving DecidableEq, Repr

namespace UpdateSettings

def request (x : UpdateSettings) (archive : UpdateArchive × Nat) : UpdateRequest where
  family := x.family
  noDerivedCache := x.noDerivedCache
  rebuildDerivedCache := x.rebuildDerivedCache
  rebuildUpdateCaches := x.rebuildUpdateCaches
  target := x.target
  collector := archive.1.collector
  archiveOrder := archive.2
  url := archive.1.url
  localPath := archive.1.localPath
  sha256 := archive.1.sha256

/-- `all_obs`, sorted and numbered. -/
def finalSequence (x : UpdateSettings) (updates : List RouteObservation) : List RouteObservation :=
  assignDeterministicIds (sortDeterministic (x.ribObservations ++ updates))

end UpdateSettings

/-- A run with the archives of its collectors in the order of discovery. -/
structure UpdateRun extends UpdateSettings where
  selected : List UpdateArchive
deriving DecidableEq, Repr

/-- The archives are numbered, then of those with one URL the first is kept. -/
def UpdateRun.pending (run : UpdateRun) : List UpdateRequest :=
  (keepFirst (·.1.url) run.selected.zipIdx).map run.request

section Runs
variable (digest : List UInt8 → String) (parser : BgpkitParser)

/-- The archives one by one, with their results in order. -/
def updateLoop : UpdateCache → List UpdateRequest → UpdateCache × List UpdateFileResult
  | c, [] => (c, [])
  | c, r :: rest =>
    let (c, result) := processOneUpdateFile digest parser c r
    let (c, results) := updateLoop c rest
    (c, result :: results)

def updateStage (c : UpdateCache) (run : UpdateRun) : UpdateCache × List RouteObservation :=
  let (c, results) := updateLoop digest parser c run.pending
  (c, run.finalSequence (results.flatMap (·.observations)))

/-- What a fresh parse of the archive contributes. -/
def freshUpdates (r : UpdateRequest) : List RouteObservation :=
  ((parseUpdates parser r).map (·.admitted)).getD []

/-- The final sequence of a run in which every archive is parsed. -/
def updateStageFresh (run : UpdateRun) : List RouteObservation :=
  run.finalSequence (run.pending.flatMap (freshUpdates parser))

end Runs

end Inim
