import Inim.Cache.Preimages
import Inim.Catalog.SessionAudit
import Inim.Catalog.SessionRows
import Inim.Ingest
import Inim.Lib.Pool

/-!
# Audits of all baseline RIBs (`catalog/session_audit.rs:36-88`, `:157-505`)

`jobs` workers take the RIBs from a queue. For the session audit a RIB is parsed with a filter on the
first target origin, or its saved extraction is read; for the inventory it is parsed whole.

| here | there |
| --- | --- |
| `SessionAuditOptions`, `CacheRoot`, `RibDisk` | `SessionAuditOptions` (:36) and the file system |
| `discoverRibs` | `discover_ribs` (:53) |
| `sourceSha`    | `source_sha` (:157) |
| `ExtractionDir` | the directory `extracted/` (`source_extract.rs:66-110`) |
| `loadTask`     | `load_origin_routes` (:187) |
| `fullInventory` | `stream_full_inventory` and its caller (:284, :374-406) |
| `runPeerInventory` | `run_peer_inventory` (:342) |
| `runSessionAudit` | `run_session_audit` (:435) |

The run is a list of turns: which worker goes on next. An extraction is written to a temporary file, which
workers with one key share, and appears with its renaming; a temporary file that cannot be written is as
none. Messages to the console are left out.
-/

namespace Inim.Netprofile

open Std Inim.Lib

/-! ## The file system -/

/-- A cache directory with its source family; `fileName` is the path's last part, if it has one. -/
structure CacheRoot where
  dir : String
  fileName : Option String
  family : String

structure SessionAuditOptions where
  profile : ServicePlaneProfile
  registry : CollectorLocationRegistry
  caches : List CacheRoot
  date : String
  originAsns : List UInt32
  jobs : Nat

/-- What the audits read, and nobody changes meanwhile. -/
structure RibDisk where
  readDir : String → Except String (List RibFile)
  /-- A name is no path. -/
  names : ∀ {dir entries}, readDir dir = .ok entries → ∀ e ∈ entries, '/' ∉ e.name.toList
  isDir : String → Bool
  /-- `read_to_string`. -/
  readText : String → Option String
  /-- The SHA-256 of a file in hexadecimal digits, or why it cannot be opened or read. -/
  hashFile : String → Except String String
  parser : BgpkitParser
  /-- Creating or writing the temporary file of a key fails. -/
  refusesWrite : String → Bool
  refusesRename : String → Bool

/-! ## Discovery -/

section Discovery
variable (disk : RibDisk) (date : String)

/-- The RIB of `<cache>/<collector>/rib`, or of `<cache>/rib`. -/
def discoverIn (ribDir family collector : String) (out : List RibSource) : Option (List RibSource) :=
  if disk.isDir ribDir then
    collectRibCandidates ribDir (disk.readDir ribDir).toOption date family collector out
  else some out

/-- One cache directory; `none` is the panic of a file name. -/
def discoverCache (out : List RibSource) (root : CacheRoot) : ExceptT String Option (List RibSource) := do
  let entries ← ExceptT.mk <| some <|
    (disk.readDir root.dir).mapError fun e => "cannot read cache dir " ++ root.dir ++ ": " ++ e
  let collectors := (entries.map (·.name)).filter fun name => disk.isDir (root.dir ++ "/" ++ name)
  let out ← ExceptT.lift <| (sortBy compare collectors).foldlM
    (fun out collector => discoverIn disk date (root.dir ++ "/" ++ collector ++ "/rib") root.family collector out)
    out
  match root.fileName with
  | some collector =>
    if collector = "" then return out
    else ExceptT.lift (discoverIn disk date (root.dir ++ "/rib") root.family collector out)
  | none => return out

def discoverRibs (caches : List CacheRoot) : ExceptT String Option (List RibSource) := do
  let out ← caches.foldlM (discoverCache disk date) []
  return sortBy (compareLex (compareOn (·.family)) (compareOn (·.collector))) out

end Discovery

/-! ## One RIB -/

section Rib
variable (digest : List UInt8 → String) (disk : RibDisk) (opts : SessionAuditOptions)

def sourceSha (localPath : String) : Except String String :=
  match disk.readText (localPath ++ ".sha256") with
  | some raw =>
    let first := ((splitWhitespace raw).head?).getD ""
    if first.utf8ByteSize = 64 then .ok first else disk.hashFile localPath
  | none => disk.hashFile localPath

/-- "Only RIB entries with attributes carry path evidence." -/
def pathEvidence (o : RouteObservation) : Option PathEvidence :=
  if o.kind ≠ .ribEntry then none
  else o.attributes.map fun attrs =>
    { peerIp := o.peerIp.display
      peerAsn := o.peerAsn
      addressFamily := if textContains o.pfx ":" then "ipv6" else "ipv4"
      pfx := o.pfx
      asPath := attrs.asPath
      originAsns := attrs.originAsns }

def ribIngestContext (rib : RibSource) (sha : Option String) (originAsns : List UInt32) :
    IngestContext where
  role := .rib
  collector := rib.collector
  sourceUrl := none
  sourceSha := sha
  originAsnFilters := originAsns
  archiveOrder := 0

/-- A RIB as it is parsed; entries with an error are skipped. -/
def parseRib (rib : RibSource) (sha : Option String) (originAsns : List UInt32) :
    Except String (List RouteObservation) :=
  match fromLocalFile disk.parser rib.localPath (ribIngestContext rib sha originAsns) with
  | .error e => .error ("failed to open RIB " ++ rib.localPath ++ ": " ++ e.display)
  | .ok stream => .ok (stream.filterMap (·.toOption))

def inventorySource (rib : RibSource) (sha : String) : InventorySource :=
  ⟨opts.profile, opts.registry, rib.family, rib.collector, rib.ribTimestampUtc, sha, rib.localPath,
    opts.originAsns⟩

def fullInventory (rib : RibSource) : Except String (String × List PeerInventoryRow) := do
  let sha ← sourceSha disk rib.localPath
  let obs ← parseRib disk rib none []
  return (sha, (inventorySource opts rib sha).inventory (obs.filterMap pathEvidence))

/-! ### The extraction cache -/

/-- What is found under a key, and the temporary files. -/
structure ExtractionDir where
  saved : String → Option (List RouteObservation)
  tmp : String → Option (List RouteObservation)

inductive LoadPoint where
  | load (rib : RibSource)
  | write (key sha : String) (obs : List RouteObservation)
  | rename (key sha : String) (obs : List RouteObservation)

def ribKey (rib : RibSource) (sha : String) : String :=
  extractionKey digest sha rib.family rib.collector opts.originAsns

def loadStep (d : ExtractionDir) :
    LoadPoint → ExtractionDir × Move LoadPoint (Except String (String × List PathEvidence))
  | .load rib =>
    match sourceSha disk rib.localPath with
    | .error e => (d, .done (.error e))
    | .ok sha =>
      match d.saved (ribKey digest opts rib sha) with
      | some obs => (d, .done (.ok (sha, obs.filterMap pathEvidence)))
      | none =>
        match parseRib disk rib (some sha) opts.originAsns with
        | .error e => (d, .done (.error e))
        | .ok obs => (d, .next (.write (ribKey digest opts rib sha) sha obs))
  | .write key sha obs =>
    if disk.refusesWrite key then
      ({ d with tmp := Function.update d.tmp key none }, .done (.ok (sha, obs.filterMap pathEvidence)))
    else ({ d with tmp := Function.update d.tmp key (some obs) }, .next (.rename key sha obs))
  | .rename key sha obs =>
    match d.tmp key with
    | none => (d, .done (.ok (sha, obs.filterMap pathEvidence)))
    | some written =>
      if disk.refusesRename key then (d, .done (.ok (sha, obs.filterMap pathEvidence)))
      else
        ({ saved := Function.update d.saved key (some written), tmp := Function.update d.tmp key none },
          .done (.ok (sha, obs.filterMap pathEvidence)))

def loadCost : LoadPoint → Nat
  | .load _ => 2
  | .write _ _ _ => 1
  | .rename _ _ _ => 0

theorem loadCost_lt {d d' : ExtractionDir} {p p' : LoadPoint}
    (h : loadStep digest disk opts d p = (d', .next p')) : loadCost p' < loadCost p := by
  cases p with
  | load rib =>
    simp only [loadStep] at h
    split at h
    · cases h
    split at h
    · cases h
    split at h
    · cases h
    · cases h
      exact Nat.lt_succ_self 1
  | write key sha obs =>
    simp only [loadStep] at h
    split at h
    · cases h
    · cases h
      exact Nat.lt_succ_self 0
  | rename key sha obs =>
    simp only [loadStep] at h
    split at h
    · cases h
    split at h
    · cases h
    · cases h

def loadTask (ribs : List RibSource) :
    Task ExtractionDir (Fin ribs.length) LoadPoint (Except String (String × List PathEvidence)) where
  start i := .load ribs[i]
  step := loadStep digest disk opts
  cost := loadCost
  cost_lt := loadCost_lt digest disk opts

end Rib

/-! ## What is parsed -/

def elemEvidence (e : BgpElem) : PathEvidence :=
  { peerIp := (canonicalIp e.peerIp).display
    peerAsn := e.peerAsn
    addressFamily := if textContains e.pfx ":" then "ipv6" else "ipv4"
    pfx := e.pfx
    asPath := (buildAttributes e).asPath
    originAsns := e.originAsns.getD [] }

theorem pathEvidence_elemObservation {e : BgpElem} {seq : Nat} {path : String} {context : IngestContext}
    (hrole : context.role = .rib) :
    pathEvidence (elemObservation e seq path context) = some (elemEvidence e) := by
  simp only [pathEvidence, elemObservation, observationKind, hrole]
  rfl

section Parsed
variable {disk : RibDisk} {opts : SessionAuditOptions} {rib : RibSource} {sha : Option String}
  {elems : List BgpElem} {l : List UInt32}

/-- The evidence of the elements that the parser lets through. -/
theorem parseRib_of_kept {kept : List BgpElem}
    (h : fromLocalFile disk.parser rib.localPath (ribIngestContext rib sha l) = .ok (kept.mapIdx fun seq elem =>
      bgpElemToObservation elem seq rib.localPath (ribIngestContext rib sha l))) :
    (parseRib disk rib sha l).map (·.filterMap pathEvidence) = .ok (kept.map elemEvidence) := by
  rw [parseRib, h]
  simp only [Except.map, Except.ok.injEq, List.mapIdx_eq_zipIdx_map, List.filterMap_map,
    List.filterMap_filterMap]
  have hentry : ∀ p ∈ kept.zipIdx,
      pathEvidence (elemObservation p.1 p.2 rib.localPath (ribIngestContext rib sha l)) =
        some (elemEvidence p.1) := fun p _ => pathEvidence_elemObservation rfl
  refine (List.filterMap_congr hentry).trans ?_
  rw [List.filterMap_eq_map']
  exact (List.map_map (f := Prod.fst) (g := elemEvidence)).symm.trans
    (congrArg _ (List.zipIdx_map_fst 0 _))

theorem parseRib_whole (sha : Option String) (hopen : disk.parser.openElems rib.localPath = .ok elems) :
    (parseRib disk rib sha []).map (·.filterMap pathEvidence) = .ok (elems.map elemEvidence) := by
  refine parseRib_of_kept ?_
  unfold fromLocalFile
  simp only [hopen, ribIngestContext, Except.mapError, bind, Except.bind, pure, Except.pure]

theorem parseRib_ok (hf : disk.parser.FiltersOrigin)
    (hopen : disk.parser.openElems rib.localPath = .ok elems) :
    (parseRib disk rib sha l).map (·.filterMap pathEvidence) =
      .ok ((elems.filter (BgpElem.keptBy l)).map elemEvidence) := by
  cases l with
  | nil =>
    rw [show elems.filter (BgpElem.keptBy []) = elems from List.filter_eq_self.2 fun _ _ => rfl]
    exact parseRib_whole sha hopen
  | cons a l =>
    refine parseRib_of_kept ?_
    unfold fromLocalFile
    simp only [hopen, ribIngestContext, hf a elems, Except.mapError, bind, Except.bind, pure, Except.pure]
    rfl

theorem parseRib_error {e : String} (hopen : disk.parser.openElems rib.localPath = .error e) :
    parseRib disk rib sha l = .error ("failed to open RIB " ++ rib.localPath ++ ": " ++
      (InimError.parserInitializationError rib.localPath e).display) := by
  rw [parseRib, fromLocalFile, hopen]
  rfl

end Parsed

/-! ## All RIBs -/

/-- By family, collector, peer address, address family and peer ASN. -/
def auditOrder : SessionAuditRow → SessionAuditRow → Ordering :=
  compareLex (compareOn (·.sourceFamily)) (compareLex (compareOn (·.collector))
    (compareLex (compareOn (·.peerIp)) (compareLex (compareOn (·.addressFamily)) (compareOn (·.peerAsn)))))

instance : TransCmp auditOrder :=
  inferInstanceAs (TransCmp (compareLex _ (compareLex _ (compareLex _ (compareLex _ _)))))

def rowOrder : PeerInventoryRow → PeerInventoryRow → Ordering :=
  compareLex (compareOn (·.sourceFamily)) (compareLex (compareOn (·.collector))
    (compareLex (compareOn (·.peerIp)) (compareLex (compareOn (·.addressFamily)) (compareOn (·.peerAsn)))))

instance : TransCmp rowOrder :=
  inferInstanceAs (TransCmp (compareLex _ (compareLex _ (compareLex _ (compareLex _ _)))))

/-- The loop over `ribs.iter().zip(ordered)`: the first error, or all rows. -/
def gatherRows {α β : Type} (rowsOf : RibSource → α → List β) :
    List (RibSource × Except String α) → Except String (List β)
  | [] => .ok []
  | (rib, res) :: rest => do
    let loaded ← res.mapError fun e => rib.collector ++ ": " ++ e
    let rows ← gatherRows rowsOf rest
    return rowsOf rib loaded ++ rows

section Gathering
variable {α β : Type} {rowsOf : RibSource → α → List β} {g : RibSource → Except String α}
  {ribs : List RibSource}

theorem gatherRows_ok {x : RibSource → α} (h : ∀ rib ∈ ribs, g rib = .ok (x rib)) :
    gatherRows rowsOf (ribs.map fun rib => (rib, g rib)) = .ok (ribs.flatMap fun rib => rowsOf rib (x rib)) := by
  induction ribs with
  | nil => rfl
  | cons rib ribs ih =>
    obtain ⟨hrib, hribs⟩ := List.forall_mem_cons.1 h
    rw [List.map_cons, gatherRows, hrib, ih hribs]
    rfl

/-- The loop comes to its end only if all RIBs were loaded. -/
theorem of_gatherRows_ok {rows : List β} (h : gatherRows rowsOf (ribs.map fun rib => (rib, g rib)) = .ok rows) :
    ∀ rib ∈ ribs, ∃ a, g rib = .ok a := by
  induction ribs generalizing rows with
  | nil => exact fun _ hrib => by cases hrib
  | cons rib ribs ih =>
    rw [List.map_cons, gatherRows] at h
    cases hg : g rib with
    | error e =>
      rw [hg] at h
      cases h
    | ok a =>
      rw [hg] at h
      cases hrest : gatherRows rowsOf (ribs.map fun rib => (rib, g rib)) with
      | error e =>
        rw [hrest] at h
        cases h
      | ok rest => exact List.forall_mem_cons.2 ⟨⟨a, hg⟩, ih hrest⟩

end Gathering

section Audits
variable (digest : List UInt8 → String) (disk : RibDisk) (opts : SessionAuditOptions)

def noRibs : String := "no baseline RIBs found under the given cache directories"

def auditRows (rib : RibSource) (loaded : String × List PathEvidence) : List SessionAuditRow :=
  (inventorySource opts rib loaded.1).auditSource.auditSessions loaded.2

/-- `none` is a panic, or a run that is not over after these turns. -/
def runPeerInventory (turns : List (Fin (max opts.jobs 1))) :
    Option (Except String (List PeerInventoryRow)) := do
  match ← (discoverRibs disk opts.date opts.caches).run with
  | .error e => return .error e
  | .ok ribs =>
    if ribs.isEmpty then return .error noRibs
    let (_, results) ← Pool.runPool (Pool.ofFun fun i : Fin ribs.length => fullInventory disk opts ribs[i]) ()
      (List.finRange ribs.length) turns
    let ordered := (sortBy (compareOn Prod.fst) results).map Prod.snd
    return (gatherRows (fun _ loaded => loaded.2) (ribs.zip ordered)).map (sortBy rowOrder)

def runSessionAudit (d : ExtractionDir) (turns : List (Fin (max opts.jobs 1))) :
    Option (ExtractionDir × Except String (List SessionAuditRow)) := do
  match ← (discoverRibs disk opts.date opts.caches).run with
  | .error e => return (d, .error e)
  | .ok ribs =>
    if ribs.isEmpty then return (d, .error noRibs)
    let (d, results) ← Pool.runPool (loadTask digest disk opts ribs) d (List.finRange ribs.length) turns
    let ordered := (sortBy (compareOn Prod.fst) results).map Prod.snd
    return (d, (gatherRows (auditRows opts) (ribs.zip ordered)).map (sortBy auditOrder))

end Audits

/-! ## Any number of workers in any order -/

section Schedules
variable (digest : List UInt8 → String) (disk : RibDisk) (opts : SessionAuditOptions)

/-- The target-origin routes of a RIB with no cache. -/
def parsedRoutes (rib : RibSource) (sha : String) : Except String (List PathEvidence) :=
  (parseRib disk rib (some sha) opts.originAsns).map (·.filterMap pathEvidence)

def freshRoutes (rib : RibSource) : Except String (String × List PathEvidence) := do
  let sha ← sourceSha disk rib.localPath
  return (sha, ← parsedRoutes disk opts rib sha)

/-- One RIB after the other, with no cache. -/
def auditInTurn (ribs : List RibSource) : Except String (List SessionAuditRow) :=
  (gatherRows (auditRows opts) (ribs.map fun rib => (rib, freshRoutes disk opts rib))).map
    (sortBy auditOrder)

def inventoryInTurn (ribs : List RibSource) : Except String (List PeerInventoryRow) :=
  (gatherRows (fun _ loaded => loaded.2) (ribs.map fun rib => (rib, fullInventory disk opts rib))).map
    (sortBy rowOrder)

/-- RIBs that share a key have the same routes. -/
def SharedAlike (ribs : List RibSource) : Prop :=
  ∀ rib ∈ ribs, ∀ sha, sourceSha disk rib.localPath = .ok sha →
    ∀ rib' ∈ ribs, ∀ sha', sourceSha disk rib'.localPath = .ok sha' →
      ribKey digest opts rib' sha' = ribKey digest opts rib sha →
        ∀ routes, parsedRoutes disk opts rib sha = .ok routes → parsedRoutes disk opts rib' sha' = .ok routes

/-- Found under the key, or about to be. -/
def ExtractionDir.Has (d : ExtractionDir) (key : String) (obs : List RouteObservation) : Prop :=
  d.saved key = some obs ∨ d.tmp key = some obs

/-- What is found for a RIB, or about to be, has its routes. -/
def ExtractionsTrue (ribs : List RibSource) (d : ExtractionDir) : Prop :=
  ∀ rib ∈ ribs, ∀ sha, sourceSha disk rib.localPath = .ok sha →
    ∀ obs, d.Has (ribKey digest opts rib sha) obs →
      parsedRoutes disk opts rib sha = .ok (obs.filterMap pathEvidence)

/-- Where a worker stands that has this RIB. -/
def Loading (rib : RibSource) : LoadPoint → Prop
  | .load rib' => rib' = rib
  | .write key sha obs | .rename key sha obs =>
    sourceSha disk rib.localPath = .ok sha ∧ key = ribKey digest opts rib sha ∧
      parsedRoutes disk opts rib sha = .ok (obs.filterMap pathEvidence)

variable {digest disk opts} {ribs : List RibSource} {rib : RibSource} {sha : String}

variable (opts) in
theorem freshRoutes_ok (hsha : sourceSha disk rib.localPath = .ok sha) {routes : List PathEvidence}
    (h : parsedRoutes disk opts rib sha = .ok routes) : freshRoutes disk opts rib = .ok (sha, routes) := by
  rw [freshRoutes, hsha]
  change (do return (sha, ← parsedRoutes disk opts rib sha)) = _
  rw [h]
  rfl

theorem freshRoutes_error (hsha : sourceSha disk rib.localPath = .ok sha) {e : String}
    (h : parseRib disk rib (some sha) opts.originAsns = .error e) :
    freshRoutes disk opts rib = .error e := by
  rw [freshRoutes, hsha]
  change (do return (sha, ← parsedRoutes disk opts rib sha)) = _
  rw [parsedRoutes, h]
  rfl

namespace ExtractionDir
variable {d : ExtractionDir} {key k : String} {o : List RouteObservation}

theorem has_write {x : Option (List RouteObservation)}
    (h : Has { d with tmp := Function.update d.tmp key x } k o) : d.Has k o ∨ k = key ∧ x = some o := by
  rcases h with h | h
  · exact .inl (.inl h)
  · dsimp only at h
    rw [Function.update_apply] at h
    split at h
    · next hkey => exact .inr ⟨hkey, h⟩
    · exact .inl (.inr h)

/-- The temporary file goes under the key it was written for. -/
theorem has_rename {written : List RouteObservation} (hwritten : d.tmp key = some written)
    (h : Has { saved := Function.update d.saved key (some written)
               tmp := Function.update d.tmp key none } k o) : d.Has k o := by
  rcases h with h | h
  · dsimp only at h
    rw [Function.update_apply] at h
    split at h
    · next hkey => exact .inr (by rw [hkey, hwritten]; exact h)
    · exact .inl h
  · dsimp only at h
    rw [Function.update_apply] at h
    split at h
    · cases h
    · exact .inr h

end ExtractionDir

/-- Writing the routes of a RIB under its key. -/
theorem ExtractionsTrue.update {d : ExtractionDir} (h : ExtractionsTrue digest disk opts ribs d)
    (halike : SharedAlike digest disk opts ribs) (hrib : rib ∈ ribs)
    (hsha : sourceSha disk rib.localPath = .ok sha) {obs : List RouteObservation}
    (hobs : parsedRoutes disk opts rib sha = .ok (obs.filterMap pathEvidence))
    {x : Option (List RouteObservation)} (hx : x = none ∨ x = some obs) :
    ExtractionsTrue digest disk opts ribs
      { d with tmp := Function.update d.tmp (ribKey digest opts rib sha) x } := by
  intro rib' hrib' sha' hsha' obs' hobs'
  rcases ExtractionDir.has_write hobs' with hold | ⟨hkey, hnew⟩
  · exact h rib' hrib' sha' hsha' obs' hold
  · rcases hx with rfl | rfl
    · cases hnew
    · cases hnew
      exact halike rib hrib sha hsha rib' hrib' sha' hsha' hkey _ hobs

/-- Whatever the others do, a worker that has a RIB comes to its routes. -/
theorem rules_loadTask (halike : SharedAlike digest disk opts ribs) :
    Pool.Rules (loadTask digest disk opts ribs) (ExtractionsTrue digest disk opts ribs)
      (fun i => Loading digest disk opts ribs[i]) (fun i r => r = freshRoutes disk opts ribs[i])
      (List.finRange ribs.length) where
  start _ _ := rfl
  next := by
    intro d i p d' q _ hd hat hstep
    have hrib : ribs[i] ∈ ribs := List.getElem_mem _
    cases p with
    | load rib =>
      obtain rfl : rib = ribs[i] := hat
      simp only [loadTask, loadStep] at hstep
      split at hstep
      · cases hstep
      next sha hsha =>
        split at hstep
        · cases hstep
        split at hstep
        · cases hstep
        next obs hobs =>
          cases hstep
          exact ⟨hd, hsha, rfl, by rw [parsedRoutes, hobs]; rfl⟩
    | write key sha obs =>
      obtain ⟨hsha, rfl, hobs⟩ := hat
      simp only [loadTask, loadStep] at hstep
      split at hstep
      · cases hstep
      · cases hstep
        exact ⟨hd.update halike hrib hsha hobs (.inr rfl), hsha, rfl, hobs⟩
    | rename key sha obs =>
      simp only [loadTask, loadStep] at hstep
      split at hstep
      · cases hstep
      split at hstep
      · cases hstep
      · cases hstep
  done := by
    intro d i p d' r _ hd hat hstep
    have hrib : ribs[i] ∈ ribs := List.getElem_mem _
    cases p with
    | load rib =>
      obtain rfl : rib = ribs[i] := hat
      simp only [loadTask, loadStep] at hstep
      split at hstep
      next e hsha =>
        cases hstep
        exact ⟨hd, by rw [freshRoutes, hsha]; rfl⟩
      next sha hsha =>
        split at hstep
        · next obs hobs =>
          cases hstep
          exact ⟨hd, (freshRoutes_ok opts hsha (hd _ hrib sha hsha obs (.inl hobs))).symm⟩
        split at hstep
        · next e he =>
          cases hstep
          exact ⟨hd, (freshRoutes_error hsha he).symm⟩
        · cases hstep
    | write key sha obs =>
      obtain ⟨hsha, rfl, hobs⟩ := hat
      simp only [loadTask, loadStep] at hstep
      split at hstep
      · cases hstep
        exact ⟨hd.update halike hrib hsha hobs (.inl rfl), (freshRoutes_ok opts hsha hobs).symm⟩
      · cases hstep
    | rename key sha obs =>
      obtain ⟨hsha, rfl, hobs⟩ := hat
      have hdone := (freshRoutes_ok opts hsha hobs).symm
      simp only [loadTask, loadStep] at hstep
      split at hstep
      · cases hstep
        exact ⟨hd, hdone⟩
      next written hwritten =>
        split at hstep
        · cases hstep
          exact ⟨hd, hdone⟩
        · cases hstep
          exact ⟨fun rib' hrib' sha' hsha' obs' h =>
            hd rib' hrib' sha' hsha' obs' (ExtractionDir.has_rename hwritten h), hdone⟩

/-- The RIB has a checksum, and can be opened. -/
def Readable (disk : RibDisk) (rib : RibSource) : Prop :=
  ∃ sha elems, sourceSha disk rib.localPath = .ok sha ∧ disk.parser.openElems rib.localPath = .ok elems

variable (opts) in
theorem fullInventory_ok {elems : List BgpElem} (hsha : sourceSha disk rib.localPath = .ok sha)
    (hopen : disk.parser.openElems rib.localPath = .ok elems) : fullInventory disk opts rib =
      .ok (sha, (inventorySource opts rib sha).inventory (elems.map elemEvidence)) := by
  have hparsed := parseRib_whole none hopen
  rw [fullInventory, hsha]
  cases hobs : parseRib disk rib none [] with
  | error e =>
    rw [hobs] at hparsed
    cases hparsed
  | ok obs =>
    rw [hobs] at hparsed
    simp only [Except.map, Except.ok.injEq] at hparsed
    change Except.ok (sha, (inventorySource opts rib sha).inventory (obs.filterMap pathEvidence)) = _
    rw [hparsed]

variable (opts) in
theorem loads_error (h : ¬ Readable disk rib) :
    ∃ e, freshRoutes disk opts rib = .error e ∧ fullInventory disk opts rib = .error e := by
  cases hsha : sourceSha disk rib.localPath with
  | error e => exact ⟨e, by rw [freshRoutes, hsha]; rfl, by rw [fullInventory, hsha]; rfl⟩
  | ok sha =>
    cases hopen : disk.parser.openElems rib.localPath with
    | ok elems => exact absurd ⟨sha, elems, hsha, hopen⟩ h
    | error e =>
      refine ⟨_, freshRoutes_error hsha (parseRib_error hopen), ?_⟩
      rw [fullInventory, hsha]
      change (do let obs ← parseRib disk rib none []; return (sha, _)) = _
      rw [parseRib_error hopen]
      rfl

/-! ### The runs -/

theorem zip_finRange {α β : Type} (l : List α) (g : α → β) :
    l.zip ((List.finRange l.length).map fun i => g l[i]) = l.map fun a => (a, g a) := by
  refine List.ext_getElem (by simp) fun n h₁ h₂ => ?_
  simp

variable {d d' : ExtractionDir} {turns : List (Fin (max opts.jobs 1))}

instance workers_nonempty : Nonempty (Fin (max opts.jobs 1)) :=
  ⟨⟨0, Nat.lt_of_lt_of_le Nat.one_pos (le_max_right _ _)⟩⟩

theorem runPeerInventory_eq (hribs : (discoverRibs disk opts.date opts.caches).run = some (.ok ribs))
    (hne : ribs ≠ []) {answer : Except String (List PeerInventoryRow)}
    (h : runPeerInventory disk opts turns = some answer) : answer = inventoryInTurn disk opts ribs := by
  simp only [runPeerInventory, hribs, Option.bind_eq_bind, Option.bind_some,
    List.isEmpty_eq_false_iff.2 hne] at h
  obtain ⟨⟨w, results⟩, hrun, hanswer⟩ := Option.bind_eq_some_iff.1 h
  obtain ⟨-, hordered⟩ := Pool.runPool_right (Pool.rules_ofFun _ _) trivial hrun
  cases hanswer
  rw [hordered, zip_finRange ribs (fullInventory disk opts), inventoryInTurn]

/-- An inventory that comes to its rows has discovered RIBs and read them all. -/
theorem of_runPeerInventory_ok {rows : List PeerInventoryRow}
    (h : runPeerInventory disk opts turns = some (.ok rows)) :
    ∃ ribs, (discoverRibs disk opts.date opts.caches).run = some (.ok ribs) ∧
      inventoryInTurn disk opts ribs = .ok rows := by
  cases hribs : (discoverRibs disk opts.date opts.caches).run with
  | none => simp [runPeerInventory, hribs] at h
  | some found =>
    cases found with
    | error e => simp [runPeerInventory, hribs] at h
    | ok ribs =>
      by_cases hne : ribs = []
      · simp [runPeerInventory, hribs, hne] at h
      · exact ⟨ribs, rfl, (runPeerInventory_eq hribs hne h).symm⟩

theorem readable_of_inventoryInTurn {rows : List PeerInventoryRow}
    (h : inventoryInTurn disk opts ribs = .ok rows) : ∀ rib ∈ ribs, Readable disk rib := by
  unfold inventoryInTurn at h
  cases hgather : gatherRows (fun _ loaded => loaded.2)
      (ribs.map fun rib => (rib, fullInventory disk opts rib)) with
  | error e =>
    rw [hgather] at h
    cases h
  | ok all =>
    refine fun rib hrib => by_contra fun hbad => ?_
    obtain ⟨a, ha⟩ := of_gatherRows_ok hgather rib hrib
    obtain ⟨e, -, he⟩ := loads_error opts hbad
    rw [ha] at he
    cases he

theorem mem_inventoryInTurn {rows : List PeerInventoryRow} (h : inventoryInTurn disk opts ribs = .ok rows)
    {row : PeerInventoryRow} : row ∈ rows ↔ ∃ rib ∈ ribs, ∃ sha elems,
      sourceSha disk rib.localPath = .ok sha ∧ disk.parser.openElems rib.localPath = .ok elems ∧
        row ∈ (inventorySource opts rib sha).inventory (elems.map elemEvidence) := by
  have hread := readable_of_inventoryInTurn h
  have hall : ∀ rib ∈ ribs, fullInventory disk opts rib =
      .ok (((fullInventory disk opts rib).toOption).getD ("", [])) := by
    intro rib hrib
    obtain ⟨sha, elems, hsha, hopen⟩ := hread rib hrib
    rw [fullInventory_ok opts hsha hopen]
    rfl
  rw [inventoryInTurn, gatherRows_ok hall] at h
  cases h
  rw [mem_sortBy, List.mem_flatMap]
  constructor
  · rintro ⟨rib, hrib, hrow⟩
    obtain ⟨sha, elems, hsha, hopen⟩ := hread rib hrib
    rw [fullInventory_ok opts hsha hopen] at hrow
    exact ⟨rib, hrib, sha, elems, hsha, hopen, hrow⟩
  · rintro ⟨rib, hrib, sha, elems, hsha, hopen, hrow⟩
    refine ⟨rib, hrib, ?_⟩
    rw [fullInventory_ok opts hsha hopen]
    exact hrow

theorem runSessionAudit_eq (hribs : (discoverRibs disk opts.date opts.caches).run = some (.ok ribs))
    (hne : ribs ≠ []) (halike : SharedAlike digest disk opts ribs)
    (hd : ExtractionsTrue digest disk opts ribs d) {answer : Except String (List SessionAuditRow)}
    (h : runSessionAudit digest disk opts d turns = some (d', answer)) :
    answer = auditInTurn disk opts ribs ∧ ExtractionsTrue digest disk opts ribs d' := by
  simp only [runSessionAudit, hribs, Option.bind_eq_bind, Option.bind_some,
    List.isEmpty_eq_false_iff.2 hne] at h
  obtain ⟨⟨w, results⟩, hrun, hanswer⟩ := Option.bind_eq_some_iff.1 h
  obtain ⟨hkept, hordered⟩ := Pool.runPool_right (rules_loadTask halike) hd hrun
  cases hanswer
  refine ⟨?_, hkept⟩
  rw [hordered, zip_finRange ribs (freshRoutes disk opts), auditInTurn]

/-- **However many workers there are and whatever the order of their turns, the audit comes to an end if
all have their turns, and then has the rows, or the error, of one RIB after the other with no cache; what
it leaves in the cache is true.** -/
theorem runSessionAudit_any_order
    (hribs : (discoverRibs disk opts.date opts.caches).run = some (.ok ribs)) (hne : ribs ≠ [])
    (halike : SharedAlike digest disk opts ribs) (hd : ExtractionsTrue digest disk opts ribs d) :
    (∀ f : ℕ → Fin (max opts.jobs 1), Fair some f →
      ∃ n, (runSessionAudit digest disk opts d ((List.range n).map f)).isSome = true) ∧
    ∀ turns d' answer, runSessionAudit digest disk opts d turns = some (d', answer) →
      answer = auditInTurn disk opts ribs ∧ ExtractionsTrue digest disk opts ribs d' := by
  refine ⟨fun f hfair => ?_, fun turns d' answer => runSessionAudit_eq hribs hne halike hd⟩
  obtain ⟨n, hn⟩ := Pool.exists_runPool (loadTask digest disk opts ribs) d (List.finRange ribs.length) hfair
  obtain ⟨x, hx⟩ := Option.isSome_iff_exists.1 hn
  refine ⟨n, ?_⟩
  simp only [runSessionAudit, hribs, Option.bind_eq_bind, Option.bind_some,
    List.isEmpty_eq_false_iff.2 hne, hx]
  rfl

end Schedules

/-! ### Two collectors in one cache -/

/-- An IPv4 route that lists these origins. -/
def ribEntry (originAsns : List UInt32) : BgpElem where
  timestamp := 0
  elemType := .announce
  peerIp := .v4 0xC0000201
  peerAsn := 64500
  pfx := "198.51.100.0/24"
  pathId := none
  asPath := some [.asSequence (64500 :: originAsns)]
  originAsns := some originAsns
  nextHop := none
  origin := none
  localPref := none
  med := none
  atomic := false
  communities := none

def twoDirectories (dir : String) : List RibFile :=
  if dir = "ris" then [⟨"rrc06", false⟩, ⟨"rrc01", false⟩] else [⟨"bview.20190821.0000.gz", true⟩]

theorem twoDirectories_names {dir : String} : ∀ e ∈ twoDirectories dir, '/' ∉ e.name.toList := by
  unfold twoDirectories
  split
  · decide
  · decide

/-- Two collectors with one RIB each, of the same entries. -/
def twoCollectors (elems : List BgpElem) : RibDisk where
  readDir dir := .ok (twoDirectories dir)
  names h := Except.ok.inj h ▸ twoDirectories_names
  isDir dir := dir ∈ ["ris/rrc01", "ris/rrc06", "ris/rrc01/rib", "ris/rrc06/rib"]
  readText _ := none
  hashFile _ := .ok "sha"
  parser := ⟨fun _ => .ok elems, fun _ value elems => .ok (elems.filter fun e =>
    (e.originAsns.getD []).any fun asn => toString asn = value)⟩
  refusesWrite _ := false
  refusesRename _ := false

def twoJobs (originAsns : List UInt32) : SessionAuditOptions :=
  ⟨⟨[]⟩, [], [⟨"ris", some "ris", "ris"⟩], "20190821", originAsns, 2⟩

def bview (collector : String) : RibSource :=
  ⟨"ris", collector, "ris/" ++ collector ++ "/rib/bview.20190821.0000.gz", "2019-08-21T00:00:00Z"⟩

theorem discoverRibs_twoCollectors (elems : List BgpElem) (originAsns : List UInt32) :
    (discoverRibs (twoCollectors elems) (twoJobs originAsns).date (twoJobs originAsns).caches).run =
      some (.ok [bview "rrc01", bview "rrc06"]) := by
  have hfiles : (discoverRibs (twoCollectors []) (twoJobs []).date (twoJobs []).caches).run =
      some (.ok [bview "rrc01", bview "rrc06"]) := by decide +kernel
  exact hfiles

theorem twoCollectors_filtersOrigin (elems : List BgpElem) :
    (twoCollectors elems).parser.FiltersOrigin := by
  intro asn elems
  refine congrArg Except.ok (List.filter_congr fun e _ => ?_)
  rw [BgpElem.carries, List.contains_eq_any_beq]
  refine congrArg (fun p => (e.originAsns.getD []).any p) (funext fun o => ?_)
  rw [Bool.eq_iff_iff, beq_iff_eq, decide_eq_true_iff, toString_uint32_injective.eq_iff, eq_comm]

theorem twoCollectors_sharedAlike (digest : List UInt8 → String) (elems : List BgpElem)
    (originAsns : List UInt32) (ribs : List RibSource) :
    SharedAlike digest (twoCollectors elems) (twoJobs originAsns) ribs := by
  intro rib _ sha _ rib' _ sha' _ _ routes h
  rw [parsedRoutes, parseRib_ok (twoCollectors_filtersOrigin elems) rfl] at h ⊢
  exact h

/-- With nothing saved. -/
def noExtractions : ExtractionDir := ⟨fun _ => none, fun _ => none⟩

theorem noExtractions_true (digest : List UInt8 → String) (disk : RibDisk) (opts : SessionAuditOptions)
    (ribs : List RibSource) : ExtractionsTrue digest disk opts ribs noExtractions := by
  rintro rib _ sha _ obs (h | h)
  · cases h
  · cases h

/-- The collectors have one key. -/
theorem runSessionAudit_any_order_twoCollectors :
    (∀ f : ℕ → Fin 2, Fair some f →
      ∃ n, (runSessionAudit (fun _ => "key") (twoCollectors [ribEntry [225]]) (twoJobs [225])
        noExtractions ((List.range n).map f)).isSome = true) ∧
    ∀ turns d' answer, runSessionAudit (fun _ => "key") (twoCollectors [ribEntry [225]]) (twoJobs [225])
        noExtractions turns = some (d', answer) →
      answer = auditInTurn (twoCollectors [ribEntry [225]]) (twoJobs [225]) [bview "rrc01", bview "rrc06"] ∧
        ExtractionsTrue (fun _ => "key") (twoCollectors [ribEntry [225]]) (twoJobs [225])
          [bview "rrc01", bview "rrc06"] d' :=
  runSessionAudit_any_order (discoverRibs_twoCollectors _ _) (List.cons_ne_nil _ _)
    (twoCollectors_sharedAlike _ _ _ _) (noExtractions_true _ _ _ _)

end Inim.Netprofile
