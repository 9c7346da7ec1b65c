import Inim.Cache.Updates
import Inim.Discover.Select
import Inim.Lib.FileTree
import Inim.Lib.Programs
import Inim.Pipeline.Engine

/-!
# Downloading and parsing the UPDATE archives (`discover.rs:294-485`, `orchestrate.rs:1107-1508`)

| here | there |
| --- | --- |
| `InimArchiveError`            | `discover.rs:492-549` |
| `CachedArchive`               | `discover.rs:57-74` |
| `shaSidecarPath`, `readShaSidecar` | `discover.rs:304-325` |
| `Host.cacheArchive`           | `discover.rs:346-460` |
| `loadEntry`                   | `load_update_cache` (`derived_cache.rs:348-379`) |
| `processArchive`              | `process_one_update_file` (`orchestrate.rs:1143-1329`) |
| `resolveJobs`                 | `orchestrate.rs:1127-1139` |
| `UpdatesPipeline.workload`    | the workers of `process_updates_pipeline` (`orchestrate.rs:1344-1438`) |
| `UpdatesPipeline.result`      | its merge (`:1440-1508`) |

Both functions are programs over the file operations they call, each of which is one step: between
two of them other workers act on the same files. The cache entries have a directory of their own, and as
in the UPDATE stage an entry reads back as it was written and writing one does not fail; a failed write
is a warning there. A metric is kept without its two durations.

What the code calls outside is a `Host`: the hash, the answers of the servers, the errors of the
file system and the parser.
-/

namespace Inim

open Lib

inductive InimArchiveError where
  | downloadError (url reason : String)
  | sizeMismatch (url : String) (expected actual : Nat)
  | cacheError (path reason : String)
  | notCached (url : String)
  | brokerQueryError (reason : String)
deriving DecidableEq, Repr

def InimArchiveError.display : InimArchiveError → String
  | .downloadError url reason => "download failed for " ++ url ++ ": " ++ reason
  | .sizeMismatch url expected actual => "size mismatch for " ++ url ++ ": expected " ++
    toString expected ++ ", got " ++ toString actual
  | .cacheError path reason => "cache error at " ++ path ++ ": " ++ reason
  | .notCached url => "archive not cached and offline mode is set: " ++ url
  | .brokerQueryError reason => "broker query failed: " ++ reason

structure CachedArchive where
  url : String
  localPath : String
  project : String
  collectorId : String
  dataType : String
  size : Nat
  sha256 : String
deriving DecidableEq, Repr

/-! ## Files -/

/-- What `reqwest::blocking::get` and reading the body lead to. -/
inductive GetReply where
  | failed (reason : String)
  | status (text : String)
  | cut (reason : String)
  | body (bytes : List UInt8)
deriving DecidableEq, Repr

inductive FileOp where
  | createDirAll (path : String)
  | read (path : String)
  | get (url : String)
  | write (path : String) (bytes : List UInt8)
  | rename (source target : String)
  | readEntry (key : String)
  | removeEntry (key : String)
  | saveEntry (key : String) (entry : UpdateCacheEntry)

def FileOp.Answer : FileOp → Type
  | .createDirAll _ | .write _ _ | .rename _ _ => Except String Unit
  | .read _ => Option (List UInt8)
  | .get _ => GetReply
  | .readEntry _ => Option UpdateCacheEntry
  | .removeEntry _ | .saveEntry _ _ => Unit

abbrev FileProg := Prog FileOp FileOp.Answer

structure Host where
  /-- SHA-256 in hexadecimal. -/
  sha256 : List UInt8 → String
  /-- The same, cut to 16 bytes: for keys. -/
  digest : List UInt8 → String
  get : String → GetReply
  /-- The error of the file system for a change at the path. -/
  refuses : String → Option String
  /-- The elements bgpkit-parser reads from a file of that name and content. -/
  decode : String → List UInt8 → Except String (List BgpElem)
  availableParallelism : Nat

structure CacheFiles where
  files : String → Option (List UInt8)
  updates : UpdateCache

def noSuchFile : String := "No such file or directory (os error 2)"

def Host.permits (host : Host) (path : String) : Except String Unit :=
  match host.refuses path with
  | some e => .error e
  | none => .ok ()

def CacheFiles.put (w : CacheFiles) (path : String) (content : Option (List UInt8)) : CacheFiles :=
  { w with files := Function.update w.files path content }

def CacheFiles.putEntry (w : CacheFiles) (key : String) (entry : Option UpdateCacheEntry) :
    CacheFiles := { w with updates := Function.update w.updates key entry }

def Host.act (host : Host) (w : CacheFiles) : (op : FileOp) → CacheFiles × op.Answer
  | .createDirAll path => (w, host.permits path)
  | .read path => (w, w.files path)
  | .get url => (w, host.get url)
  | .write path bytes =>
    match host.permits path with
    | .error e => (w, .error e)
    | .ok () => (w.put path (some bytes), .ok ())
  | .rename source target =>
    match host.permits target with
    | .error e => (w, .error e)
    | .ok () =>
      match w.files source with
      | none => (w, .error noSuchFile)
      | some bytes => ((w.put source none).put target (some bytes), .ok ())
  | .readEntry key => (w, w.updates key)
  | .removeEntry key => (w.putEntry key none, ())
  | .saveEntry key entry => (w.putEntry key (some entry), ())

/-! ## `cache_archive` -/

/-- `Path::join`: an absolute path takes the place of the one it is joined to. -/
def pathJoin (base rel : String) : String :=
  if isAbsolute rel then rel
  else if base = "" ∨ base.toList.getLast? = some '/' then base ++ rel
  else base ++ "/" ++ rel

/-- Of a path that ends in a name. -/
def shaSidecarPath (path : String) : String := path ++ ".sha256"

/-- `read_to_string`, and of that the first line, trimmed. -/
def readShaSidecar (content : Option (List UInt8)) : Option String :=
  match content.bind fun bytes => String.fromUTF8? ⟨bytes.toArray⟩ with
  | none => none
  | some text =>
    if text = "" then none else some (trim (String.ofList (text.toList.takeWhile (· ≠ '\n'))))

/-- Where the archive is kept. -/
structure LocalPaths where
  dir : String
  final : String
  part : String
deriving DecidableEq, Repr

def localPaths (cacheDir : String) (item : ArchiveItem) : LocalPaths :=
  let basename := ((fileName item.url.toList).map String.ofList).getD "unknown"
  let dir := pathJoin (pathJoin cacheDir item.collectorId) item.dataType
  ⟨dir, pathJoin dir basename, pathJoin dir ("." ++ basename ++ ".part")⟩

namespace LocalPaths

def finalSidecar (p : LocalPaths) : String := shaSidecarPath p.final

def partSidecar (p : LocalPaths) : String := shaSidecarPath p.part

/-- The files of the archive. -/
def all (p : LocalPaths) : List String := [p.final, p.finalSidecar, p.part, p.partSidecar]

end LocalPaths

def cachedArchive (item : ArchiveItem) (p : LocalPaths) (sha : String) : CachedArchive where
  url := item.url
  localPath := p.final
  project := item.project
  collectorId := item.collectorId
  dataType := item.dataType
  size := item.size
  sha256 := sha

/-- `.map_err(|e| CacheError { path, reason })?` on a change of a file. -/
def orCacheError {α : Type} (path : String) (p : FileProg (Except String Unit))
    (rest : FileProg (Except InimArchiveError α)) : FileProg (Except InimArchiveError α) :=
  p.bind fun
    | .error reason => .ret (.error (.cacheError path reason))
    | .ok () => rest

section CacheArchive
variable (host : Host) (item : ArchiveItem) (p : LocalPaths)

/-- The checksum of the file, if its sidecar says the same. -/
def heldSha : FileProg (Option String) :=
  .call (.read p.final) fun
    | none => .ret none
    | some bytes => .call (.read p.finalSidecar) fun sidecar =>
      .ret (if readShaSidecar sidecar = some (host.sha256 bytes) then some (host.sha256 bytes)
        else none)

/-- A body of another size than the broker says is a warning. -/
def storeBody (body : List UInt8) : FileProg (Except InimArchiveError CachedArchive) :=
  let sha := host.sha256 body
  orCacheError p.part (.call (.write p.part body) .ret) <|
  orCacheError p.partSidecar (.call (.write p.partSidecar (utf8 (sha ++ "\n"))) .ret) <|
  orCacheError p.part (.call (.rename p.part p.final) .ret) <|
  orCacheError p.partSidecar (.call (.rename p.partSidecar p.finalSidecar) .ret) <|
  .ret (.ok (cachedArchive item p sha))

def downloadArchive : FileProg (Except InimArchiveError CachedArchive) :=
  .call (.get item.url) fun
    | .failed reason => .ret (.error (.downloadError item.url reason))
    | .status text => .ret (.error (.downloadError item.url ("HTTP " ++ text)))
    | .cut reason => .ret (.error (.downloadError item.url reason))
    | .body body => storeBody host item p body

def Host.cacheArchive (cacheDir : String) (offline : Bool) :
    FileProg (Except InimArchiveError CachedArchive) :=
  let p := localPaths cacheDir item
  orCacheError p.dir (.call (.createDirAll p.dir) .ret) <|
  (heldSha host p).bind fun
    | some sha => .ret (.ok (cachedArchive item p sha))
    | none =>
      if offline then .ret (.error (.notCached item.url)) else downloadArchive host item p

end CacheArchive

/-! ## `process_one_update_file` -/

structure ArchiveMetric where
  archiveUrl : String
  archiveSha256 : String
  compressedBytes : Nat
  parsedElements : Nat
  admittedObservations : Nat
  cacheHit : Bool
deriving DecidableEq, Repr

structure MeasuredResult extends UpdateFileResult where
  metric : ArchiveMetric
deriving DecidableEq, Repr

/-- An entry that is not valid for the source, or miscounted, is removed. -/
def loadEntry (key sourceSha : String) : FileProg (Option UpdateCacheEntry) :=
  .call (.readEntry key) fun
    | none => .ret none
    | some entry =>
      if !updateCacheValid entry sourceSha then .call (.removeEntry key) fun _ => .ret none
      else if entry.observations.length ≠ entry.recordCount then
        .call (.removeEntry key) fun _ => .ret none
      else .ret (some entry)

/-- `metadata(path).map(|m| m.len()).unwrap_or(0)`. -/
def fileLength (path : String) : FileProg Nat :=
  .call (.read path) fun content => .ret ((content.map List.length).getD 0)

/-- The parser on a file of that content. -/
def Host.parserOf (host : Host) (content : Option (List UInt8)) : BgpkitParser where
  openElems path :=
    match content with
    | none => .error noSuchFile
    | some bytes => host.decode path bytes
  addFilter _ _ elems := .ok elems

def UpdateRequest.readsCache (r : UpdateRequest) : Bool :=
  !(r.noDerivedCache || (r.rebuildDerivedCache || r.rebuildUpdateCaches))

section ProcessArchive
variable (host : Host) (r : UpdateRequest)

def hitResult (cached : UpdateCacheEntry) (bytes : Nat) : MeasuredResult where
  observations := cached.observations
  counters := cached.admissionCounters
  cacheHit := true
  metric := ⟨r.url, r.sha256, bytes, cached.admissionCounters.totalElementsParsed,
    cached.observations.length, true⟩

def scanResult (scan : UpdateScan) (bytes : Nat) : MeasuredResult where
  observations := scan.admitted
  counters := scan.counters
  cacheHit := false
  metric := ⟨r.url, r.sha256, bytes, scan.counters.totalElementsParsed, scan.admitted.length, false⟩

/-- An archive that does not open. -/
def unreadResult : MeasuredResult where
  observations := []
  counters := {}
  cacheHit := false
  metric := ⟨r.url, r.sha256, 0, 0, 0, false⟩

def parseArchive : FileProg MeasuredResult :=
  .call (.read r.localPath) fun content =>
    match parseUpdates (host.parserOf content) r with
    | none => .ret (unreadResult r)
    | some scan =>
      let measured : FileProg MeasuredResult :=
        (fileLength r.localPath).bind fun bytes => .ret (scanResult r scan bytes)
      if r.noDerivedCache then measured
      else .call (.saveEntry (r.key host.digest) (updateEntryOf r scan)) fun _ => measured

def processArchive : FileProg MeasuredResult :=
  let loaded : FileProg (Option UpdateCacheEntry) :=
    if r.readsCache then loadEntry (r.key host.digest) r.sha256 else .ret none
  loaded.bind fun
    | some cached => (fileLength r.localPath).bind fun bytes => .ret (hitResult r cached bytes)
    | none => parseArchive host r

end ProcessArchive

section Alone
variable (host : Host) (r : UpdateRequest) (w : CacheFiles)

theorem loadEntry_run (key sourceSha : String) : (loadEntry key sourceSha).run host.act w =
    (⟨w.files, (loadUpdateCache w.updates key sourceSha).1⟩,
      (loadUpdateCache w.updates key sourceSha).2) := by
  unfold loadEntry loadUpdateCache
  simp only [Prog.run, Host.act]
  cases w.updates key with
  | none => rfl
  | some entry =>
    dsimp only
    split
    · rfl
    · split <;> rfl

theorem parseArchive_run : (((parseArchive host r).run host.act w).1.updates,
      ((parseArchive host r).run host.act w).2.toUpdateFileResult) =
    match parseUpdates (host.parserOf (w.files r.localPath)) r with
    | none => (w.updates, ⟨[], {}, false⟩)
    | some scan =>
      (if r.noDerivedCache then w.updates
        else Function.update w.updates (r.key host.digest) (some (updateEntryOf r scan)),
        ⟨scan.admitted, scan.counters, false⟩) := by
  unfold parseArchive
  simp only [Prog.run, Host.act]
  cases parseUpdates (host.parserOf (w.files r.localPath)) r with
  | none => rfl
  | some scan => cases r.noDerivedCache <;> rfl

/-- Alone, an archive is processed as in the UPDATE stage. -/
theorem processArchive_run :
    processOneUpdateFile host.digest (host.parserOf (w.files r.localPath)) w.updates r =
      (((processArchive host r).run host.act w).1.updates,
        ((processArchive host r).run host.act w).2.toUpdateFileResult) := by
  unfold processOneUpdateFile processArchive UpdateRequest.readsCache
  dsimp only
  cases r.noDerivedCache || (r.rebuildDerivedCache || r.rebuildUpdateCaches) with
  | true =>
    exact (parseArchive_run host r w).symm
  | false =>
    simp only [Bool.not_false, if_true, Bool.false_eq_true, if_false, Prog.run_bind, loadEntry_run]
    cases loadUpdateCache w.updates (r.key host.digest) r.sha256 with
    | mk c hit =>
      cases hit with
      | none => exact (parseArchive_run host r ⟨w.files, c⟩).symm
      | some cached => rfl

end Alone

/-! ## `process_updates_pipeline` -/

structure CacheControl where
  noDerivedCache : Bool
  rebuildDerivedCache : Bool
  rebuildUpdateCaches : Bool
  jobs : Nat
  parseJobs : Nat
  downloadJobs : Nat
  offline : Bool
deriving DecidableEq, Repr

def resolveJobs (availableParallelism jobs parseJobs taskCount : Nat) : Nat :=
  let requested := if 0 < parseJobs then parseJobs else jobs
  if requested = 0 then max (min (min availableParallelism 4) taskCount) 1
  else max (min requested taskCount) 1

/-- The arguments of the function; the hash of the target set and its prefixes come from it. -/
structure UpdatesPipeline where
  pending : List (Nat × ArchiveItem)
  cacheDir : String
  cacheControl : CacheControl
  target : TargetSet
  family : SourceFamily

namespace UpdatesPipeline

variable (host : Host) (x : UpdatesPipeline)

def request (cu : CachedArchive) (archiveOrder : Nat) : UpdateRequest where
  family := x.family
  noDerivedCache := x.cacheControl.noDerivedCache
  rebuildDerivedCache := x.cacheControl.rebuildDerivedCache
  rebuildUpdateCaches := x.cacheControl.rebuildUpdateCaches
  target := x.target
  collector := cu.collectorId
  archiveOrder := archiveOrder
  url := cu.url
  localPath := cu.localPath
  sha256 := cu.sha256

def fetch (p : Nat × ArchiveItem) : FileProg (Except String CachedArchive) :=
  (host.cacheArchive p.2 x.cacheDir x.cacheControl.offline).bind fun
    | .ok cu => .ret (.ok cu)
    | .error e => .ret (.error ("failed to cache UPDATE " ++ p.2.url ++ ": " ++ e.display))

def process (p : CachedArchive × (Nat × ArchiveItem)) : FileProg MeasuredResult :=
  processArchive host (x.request p.1 p.2.1)

end UpdatesPipeline

/-! ### How many calls these make -/

section Within
variable {host : Host}

theorem orCacheError_within {α : Type} {path : String} {p : FileProg (Except String Unit)}
    {rest : FileProg (Except InimArchiveError α)} {m n : Nat} (hp : p.Within m)
    (hrest : rest.Within n) : (orCacheError path p rest).Within (m + n) :=
  hp.bind fun
    | .error _ => by cases n <;> trivial
    | .ok () => hrest

theorem call_within (op : FileOp) : (Prog.call op .ret : FileProg op.Answer).Within 1 :=
  fun _ => trivial

theorem heldSha_within (p : LocalPaths) : (heldSha host p).Within 2
  | none => trivial
  | some _ => fun _ => trivial

theorem storeBody_within (item : ArchiveItem) (p : LocalPaths) (body : List UInt8) :
    (storeBody host item p body).Within 4 :=
  orCacheError_within (m := 1) (n := 3) (call_within _) <|
  orCacheError_within (m := 1) (n := 2) (call_within _) <|
  orCacheError_within (m := 1) (n := 1) (call_within _) <|
  orCacheError_within (m := 1) (n := 0) (call_within _) trivial

theorem cacheArchive_within (item : ArchiveItem) (cacheDir : String) (offline : Bool) :
    (host.cacheArchive item cacheDir offline).Within 8 := by
  refine orCacheError_within (m := 1) (n := 7) (call_within _) ?_
  refine Prog.Within.bind (m := 2) (n := 5) (heldSha_within _) fun held => ?_
  cases held with
  | some sha => trivial
  | none =>
    cases offline with
    | true => trivial
    | false =>
      intro reply
      cases reply with
      | failed _ | status _ | cut _ => trivial
      | body body => exact storeBody_within item _ body

theorem fetch_within (x : UpdatesPipeline) (p : Nat × ArchiveItem) : (x.fetch host p).Within 8 :=
  (cacheArchive_within p.2 _ _).bind (n := 0) fun
    | .ok _ => trivial
    | .error _ => trivial

theorem loadEntry_within (key sourceSha : String) : (loadEntry key sourceSha).Within 2
  | none => trivial
  | some entry => by
    dsimp only
    split
    · exact fun _ => trivial
    · split
      · exact fun _ => trivial
      · trivial

theorem fileLength_within (path : String) : (fileLength path).Within 1 := fun _ => trivial

theorem parseArchive_within (r : UpdateRequest) : (parseArchive host r).Within 3 := by
  intro content
  have hmeasured : ∀ scan, Prog.Within 1
      ((fileLength r.localPath).bind fun bytes => .ret (scanResult r scan bytes)) := fun scan =>
    (fileLength_within _).bind (n := 0) fun _ => trivial
  dsimp only
  split
  · trivial
  · next scan _ =>
    split
    · exact (hmeasured scan).mono (by omega)
    · exact fun _ => hmeasured scan

theorem processArchive_within (r : UpdateRequest) : (processArchive host r).Within 5 := by
  refine Prog.Within.bind (m := 2) (n := 3) ?_ fun hit => ?_
  · split
    · exact loadEntry_within _ _
    · trivial
  · cases hit with
    | none => exact parseArchive_within r
    | some cached =>
      have hhit : Prog.Within 1
          ((fileLength r.localPath).bind fun bytes => .ret (hitResult r cached bytes)) :=
        (fileLength_within _).bind (n := 0) fun _ => trivial
      exact hhit.mono (by omega)

end Within

namespace UpdatesPipeline

abbrev FetchPoint := Prog.Point FileOp FileOp.Answer (Except String CachedArchive)

abbrev ProcessPoint := Prog.Point FileOp FileOp.Answer MeasuredResult

variable (host : Host) (x : UpdatesPipeline)

/-- The pools have a worker also where nothing is pending: none is started then. -/
def workload : Workload CacheFiles (Nat × ArchiveItem) CachedArchive MeasuredResult FetchPoint
    ProcessPoint where
  download := Prog.task host.act (x.fetch host) 8 (fetch_within x)
  parse := Prog.task host.act (x.process host) 5 fun _ => processArchive_within _
  items := x.pending
  downloadJobs := max (min (max x.cacheControl.downloadJobs 1) x.pending.length) 1
  parseJobs := resolveJobs host.availableParallelism x.cacheControl.jobs x.cacheControl.parseJobs
    x.pending.length
  downloadJobs_pos := by omega
  parseJobs_pos := by
    unfold resolveJobs
    dsimp only
    split <;> split <;> omega
  checksCancel := true

def cancelledMarker : String := "__inim_cancelled__"

def emptyMetric (url : String) : ArchiveMetric := ⟨url, url, 0, 0, 0, false⟩

/-- What the merge shows for an archive that failed or was not processed. -/
def missing (s : PipelineState (x.workload host)) (i : (x.workload host).Index) :
    List (Option CachedArchive × MeasuredResult) :=
  [(s.acquired i, ⟨⟨[], {}, false⟩, emptyMetric (x.pending.get i).2.url⟩)]

/-- What the call returns once all workers have ended. -/
def result (s : PipelineState (x.workload host)) :
    Except String (List (Option CachedArchive × MeasuredResult)) :=
  if x.pending.isEmpty then .ok []
  else
    match mergeSlots s (x.missing host s) with
    | .error e => .error e
    | .ok out => if s.cancel then .error cancelledMarker else .ok out

/-- The archives one by one. -/
def oneByOne (w : CacheFiles) :
    List (Nat × ArchiveItem) → Except String (List (CachedArchive × MeasuredResult))
  | [] => .ok []
  | p :: rest =>
    match (x.fetch host p).run host.act w with
    | (_, .error e) => .error e
    | (w, .ok cu) =>
      let (w, result) := (x.process host (cu, p)).run host.act w
      (oneByOne w rest).map ((cu, result) :: ·)

end UpdatesPipeline

end Inim
