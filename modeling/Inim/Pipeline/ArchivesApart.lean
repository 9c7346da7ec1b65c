import Inim.Cache.UpdateTransparency
import Inim.Pipeline.Apart
import Inim.Pipeline.Archives

/-!
# Is the pipeline as good as one archive after the other? (`orchestrate.rs:1331-1508`)

"Serial and parallel completion produce identical artifacts" (`:761-763`). The slots keep the order
of the archives, whatever the order in which they are completed, but the archives share the local cache:
an UPDATE entry is found by collector and content, so of two archives of one collector with equal bytes
the one that is processed first is parsed and the other is answered from its entry, and which is first
is up to the schedule. Two URLs of one collector with the same last component share a local file.

`pipelines_right`: where no archive changes a file or an entry that another one looks at, every schedule
gives what processing the archives one by one gives. `not_updatesRight` is a schedule in which the
second of two equal archives is the first to be parsed.
-/

namespace Inim

open Lib

/-! ## What the programs touch -/

/-- A file operation of a download that keeps its files in `paths` and changes them if `stores`. -/
inductive DownloadOp (paths : List String) (stores : Prop) : FileOp → Prop
  | createDirAll (path) : DownloadOp paths stores (.createDirAll path)
  | read {path} (h : path ∈ paths) : DownloadOp paths stores (.read path)
  | get (url) : DownloadOp paths stores (.get url)
  | write {path} (bytes) (h : path ∈ paths) (hs : stores) : DownloadOp paths stores (.write path bytes)
  | rename {source target} (hs : source ∈ paths) (ht : target ∈ paths) (h : stores) :
    DownloadOp paths stores (.rename source target)

/-- One of processing an archive: `changes` if its entry is removed or written. -/
inductive ProcessOp (path key : String) (reads changes : Prop) : FileOp → Prop
  | read : ProcessOp path key reads changes (.read path)
  | readEntry (h : reads) : ProcessOp path key reads changes (.readEntry key)
  | removeEntry (h : reads) (hc : changes) : ProcessOp path key reads changes (.removeEntry key)
  | saveEntry (entry) (h : reads → changes) : ProcessOp path key reads changes (.saveEntry key entry)

section Downloads
variable {host : Host} {item : ArchiveItem} {w : CacheFiles}

/-- The archive is not held, and its download gives a body to store. -/
def storesFiles (host : Host) (item : ArchiveItem) (p : LocalPaths) (offline : Bool)
    (w : CacheFiles) : Bool :=
  (host.refuses p.dir).isNone && ((heldSha host p).run host.act w).2.isNone && !offline &&
    match host.get item.url with
    | .body _ => true
    | _ => false

theorem calls_orCacheError {α : Type} {path : String} {p : FileProg (Except String Unit)}
    {rest : FileProg (Except InimArchiveError α)} {Q : FileOp → Prop}
    (hp : ∀ op ∈ p.calls host.act w, Q op)
    (hrest : ∀ v, p.run host.act w = (v, .ok ()) → ∀ op ∈ rest.calls host.act v, Q op) :
    ∀ op ∈ (orCacheError path p rest).calls host.act w, Q op := by
  intro op hop
  unfold orCacheError at hop
  rw [Prog.calls_bind, List.mem_append] at hop
  rcases hop with hop | hop
  · exact hp op hop
  · cases hrun : p.run host.act w with
    | mk v r =>
      rw [hrun] at hop
      cases r with
      | error e => cases hop
      | ok u => exact hrest v hrun op hop

theorem calls_storeBody (p : LocalPaths) (body : List UInt8) {stores : Prop} (h : stores) :
    ∀ op ∈ (storeBody host item p body).calls host.act w, DownloadOp p.all stores op := by
  have hfinal : p.final ∈ p.all := by simp [LocalPaths.all]
  have hsidecar : p.finalSidecar ∈ p.all := by simp [LocalPaths.all]
  have hpart : p.part ∈ p.all := by simp [LocalPaths.all]
  have hpartSidecar : p.partSidecar ∈ p.all := by simp [LocalPaths.all]
  refine calls_orCacheError (List.forall_mem_singleton.2 (.write _ hpart h)) fun _ _ => ?_
  refine calls_orCacheError (List.forall_mem_singleton.2 (.write _ hpartSidecar h)) fun _ _ => ?_
  refine calls_orCacheError (List.forall_mem_singleton.2 (.rename hpart hfinal h)) fun _ _ => ?_
  refine calls_orCacheError (List.forall_mem_singleton.2 (.rename hpartSidecar hsidecar h))
    fun _ _ => ?_
  exact fun _ hop => absurd hop List.not_mem_nil

theorem heldSha_world (p : LocalPaths) : ((heldSha host p).run host.act w).1 = w := by
  unfold heldSha
  simp only [Prog.run, Host.act]
  cases w.files p.final <;> rfl

theorem calls_heldSha (p : LocalPaths) {stores : Prop} :
    ∀ op ∈ (heldSha host p).calls host.act w, DownloadOp p.all stores op := by
  intro op hop
  unfold heldSha at hop
  simp only [Prog.calls, Host.act, List.mem_cons] at hop
  rcases hop with rfl | hop
  · exact .read (by simp [LocalPaths.all])
  · cases hfile : w.files p.final with
    | none =>
      rw [hfile] at hop
      cases hop
    | some bytes =>
      rw [hfile] at hop
      rcases List.mem_cons.1 hop with rfl | hop
      · exact .read (by simp [LocalPaths.all])
      · cases hop

theorem calls_cacheArchive (cacheDir : String) (offline : Bool) :
    ∀ op ∈ (host.cacheArchive item cacheDir offline).calls host.act w,
      DownloadOp (localPaths cacheDir item).all
        (storesFiles host item (localPaths cacheDir item) offline w = true) op := by
  refine calls_orCacheError (List.forall_mem_singleton.2 (.createDirAll _)) fun v hdir => ?_
  have hpermits : host.permits (localPaths cacheDir item).dir = .ok () := congrArg Prod.snd hdir
  have hv : v = w := (congrArg Prod.fst hdir).symm
  subst hv
  intro op hop
  rw [Prog.calls_bind, heldSha_world, List.mem_append] at hop
  rcases hop with hop | hop
  · exact calls_heldSha _ op hop
  · cases hheld : ((heldSha host (localPaths cacheDir item)).run host.act v).2 with
    | some sha =>
      rw [hheld] at hop
      cases hop
    | none =>
      rw [hheld] at hop
      cases offline with
      | true => cases hop
      | false =>
        rcases List.mem_cons.1 hop with rfl | hop
        · exact .get _
        · cases hreply : host.get item.url with
          | failed _ | status _ | cut _ =>
            simp only [Host.act, hreply] at hop
            cases hop
          | body body =>
            have hstores : storesFiles host item (localPaths cacheDir item) false v = true := by
              have hrefuses : host.refuses (localPaths cacheDir item).dir = none := by
                unfold Host.permits at hpermits
                split at hpermits
                · cases hpermits
                · assumption
              simp [storesFiles, hrefuses, hheld, hreply]
            simp only [Host.act, hreply] at hop
            exact calls_storeBody _ body hstores op hop

theorem calls_fetch (x : UpdatesPipeline) (p : Nat × ArchiveItem) :
    ∀ op ∈ (x.fetch host p).calls host.act w, DownloadOp (localPaths x.cacheDir p.2).all
      (storesFiles host p.2 (localPaths x.cacheDir p.2) x.cacheControl.offline w = true) op := by
  intro op hop
  unfold UpdatesPipeline.fetch at hop
  rw [Prog.calls_bind, List.mem_append] at hop
  rcases hop with hop | hop
  · exact calls_cacheArchive _ _ op hop
  · split at hop <;> cases hop

/-- What is downloaded is in the archive's own place. -/
theorem all_cacheArchive (cacheDir : String) (offline : Bool) :
    (host.cacheArchive item cacheDir offline).All fun a =>
      ∀ cu, a = .ok cu → cu.localPath = (localPaths cacheDir item).final := by
  have hok : ∀ sha cu,
      (.ok (cachedArchive item (localPaths cacheDir item) sha) : Except InimArchiveError _) = .ok cu →
      cu.localPath = (localPaths cacheDir item).final := by
    intro sha cu heq
    cases heq
    rfl
  have hchange : ∀ (path : String) (p : FileProg (Except String Unit))
      {rest : FileProg (Except InimArchiveError CachedArchive)},
      (rest.All fun a => ∀ cu, a = .ok cu → cu.localPath = (localPaths cacheDir item).final) →
      (orCacheError path p rest).All fun a =>
        ∀ cu, a = .ok cu → cu.localPath = (localPaths cacheDir item).final := by
    intro path p rest hrest
    refine (Prog.all_true p).bind fun r _ => ?_
    cases r with
    | error e => exact fun cu heq => by cases heq
    | ok _ => exact hrest
  refine hchange _ _ ((Prog.all_true _).bind fun held _ => ?_)
  cases held with
  | some sha => exact hok sha
  | none =>
    cases offline with
    | true => exact fun cu heq => by cases heq
    | false =>
      intro reply
      cases reply with
      | failed _ | status _ | cut _ => exact fun cu heq => by cases heq
      | body body => exact hchange _ _ (hchange _ _ (hchange _ _ (hchange _ _ (hok _))))

theorem localPath_fetch {x : UpdatesPipeline} {p : Nat × ArchiveItem} {v : CacheFiles}
    {cu : CachedArchive} (h : (x.fetch host p).run host.act w = (v, .ok cu)) :
    cu.localPath = (localPaths x.cacheDir p.2).final := by
  have hall : (x.fetch host p).All fun a =>
      ∀ cu, a = .ok cu → cu.localPath = (localPaths x.cacheDir p.2).final := by
    refine (all_cacheArchive _ _).bind fun a ha => ?_
    cases a with
    | error e => exact fun cu heq => by cases heq
    | ok cu => exact fun cu' heq => ha cu' (by rw [Except.ok.inj heq])
  have hrun : ∀ cu, ((x.fetch host p).run host.act w).2 = .ok cu →
      cu.localPath = (localPaths x.cacheDir p.2).final := hall.run
  exact hrun cu (by rw [h])

end Downloads

section Process
variable {host : Host} {r : UpdateRequest} {w : CacheFiles}

/-- An entry that is not valid is removed; where there is none, a parsed archive gets one. -/
def changesEntry (host : Host) (w : CacheFiles) (r : UpdateRequest) : Bool :=
  match w.updates (r.key host.digest) with
  | some entry =>
    !(updateCacheValid entry r.sha256 && entry.observations.length == entry.recordCount)
  | none => (parseUpdates (host.parserOf (w.files r.localPath)) r).isSome

section Calls
variable {key : String} {reads changes : Prop}

theorem calls_measured {bytesOf : Nat → MeasuredResult} :
    ∀ op ∈ ((fileLength r.localPath).bind fun bytes => .ret (bytesOf bytes)).calls host.act w,
      ProcessOp r.localPath key reads changes op := by
  intro op hop
  rcases List.mem_cons.1 hop with rfl | hop
  · exact .read
  · cases hop

theorem calls_parseArchive
    (h : (parseUpdates (host.parserOf (w.files r.localPath)) r).isSome = true → reads → changes) :
    ∀ op ∈ (parseArchive host r).calls host.act w,
      ProcessOp r.localPath (r.key host.digest) reads changes op := by
  intro op hop
  unfold parseArchive at hop
  simp only [Prog.calls, Host.act, List.mem_cons] at hop
  rcases hop with rfl | hop
  · exact .read
  · cases hscan : parseUpdates (host.parserOf (w.files r.localPath)) r with
    | none =>
      rw [hscan] at hop
      cases hop
    | some scan =>
      rw [hscan] at hop
      dsimp only at hop
      split at hop
      · exact calls_measured op hop
      · rcases List.mem_cons.1 hop with rfl | hop
        · exact .saveEntry _ (h (by rw [hscan]; rfl))
        · exact calls_measured op hop

end Calls

theorem calls_processArchive : ∀ op ∈ (processArchive host r).calls host.act w,
    ProcessOp r.localPath (r.key host.digest) (r.readsCache = true)
      (changesEntry host w r = true) op := by
  intro op hop
  unfold processArchive at hop
  cases hreads : r.readsCache with
  | false =>
    rw [hreads] at hop
    exact calls_parseArchive (fun _ h => by cases h) op hop
  | true =>
    rw [hreads] at hop
    simp only [if_true, Prog.calls_bind, loadEntry_run, List.mem_append] at hop
    unfold loadEntry loadUpdateCache at hop
    simp only [Prog.calls, Host.act] at hop
    unfold changesEntry
    cases hentry : w.updates (r.key host.digest) with
    | none =>
      rw [hentry] at hop
      rcases hop with hop | hop
      · obtain rfl := List.mem_singleton.1 hop
        exact .readEntry rfl
      · exact calls_parseArchive (w := ⟨w.files, w.updates⟩) (fun h _ => h) op hop
    | some entry =>
      rw [hentry] at hop
      dsimp only at hop ⊢
      cases hvalid : updateCacheValid entry r.sha256 with
      | false =>
        rw [hvalid] at hop
        rcases hop with hop | hop
        · rcases List.mem_cons.1 hop with rfl | hop
          · exact .readEntry rfl
          · obtain rfl := List.mem_singleton.1 hop
            exact .removeEntry rfl rfl
        · exact calls_parseArchive (fun _ _ => rfl) op hop
      | true =>
        rw [hvalid] at hop
        by_cases hcount : entry.observations.length = entry.recordCount
        · simp only [Bool.not_true, Bool.false_eq_true, if_false, ne_eq, hcount, not_true] at hop
          rcases hop with hop | hop
          · obtain rfl := List.mem_singleton.1 hop
            exact .readEntry rfl
          · exact calls_measured op hop
        · have hchanges : (!(true && entry.observations.length == entry.recordCount)) = true := by
            simp [hcount]
          rw [hchanges]
          simp only [Bool.not_true, Bool.false_eq_true, if_false, ne_eq, hcount, not_false_eq_true,
            if_true] at hop
          rcases hop with hop | hop
          · rcases List.mem_cons.1 hop with rfl | hop
            · exact .readEntry rfl
            · obtain rfl := List.mem_singleton.1 hop
              exact .removeEntry rfl rfl
          · exact calls_parseArchive (fun _ _ => rfl) op hop

end Process

/-! ## Parts of the cache -/

namespace UpdatesPipeline

variable (host : Host) (x : UpdatesPipeline) (w : CacheFiles)

/-- The local files of an archive. -/
def paths (i : Fin x.pending.length) : List String :=
  (localPaths x.cacheDir (x.pending.get i).2).all

def stores (i : Fin x.pending.length) : Bool :=
  storesFiles host (x.pending.get i).2 (localPaths x.cacheDir (x.pending.get i).2)
    x.cacheControl.offline w

def fetchedAlone (i : Fin x.pending.length) : CacheFiles × Except String CachedArchive :=
  (x.fetch host (x.pending.get i)).run host.act w

/-- The cache entry that the archive is looked up in. -/
def entryKey (i : Fin x.pending.length) : Option String :=
  match (x.fetchedAlone host w i).2 with
  | .error _ => none
  | .ok cu =>
    let r := x.request cu (x.pending.get i).1
    if r.readsCache then some (r.key host.digest) else none

/-- The archive's own pass changes it. -/
def changes (i : Fin x.pending.length) : Bool :=
  match x.fetchedAlone host w i with
  | (_, .error _) => false
  | (v, .ok cu) => changesEntry host v (x.request cu (x.pending.get i).1)

/-- No archive changes a file or an entry that another one looks at. -/
structure Apart : Prop where
  files : ∀ i j, i ≠ j → x.stores host w i = true → ∀ path ∈ x.paths i, path ∉ x.paths j
  entries : ∀ i j, i ≠ j → x.changes host w i = true → x.entryKey host w i = x.entryKey host w j →
    x.entryKey host w i = none

instance decidableApart : Decidable (x.Apart host w) :=
  decidable_of_iff ((∀ i j, i ≠ j → x.stores host w i = true → ∀ path ∈ x.paths i, path ∉ x.paths j) ∧
      ∀ i j, i ≠ j → x.changes host w i = true → x.entryKey host w i = x.entryKey host w j →
        x.entryKey host w i = none)
    ⟨fun h => ⟨h.1, h.2⟩, fun h => ⟨h.1, h.2⟩⟩

/-- Agreement on what the archive looks at. -/
structure SamePart (i : Fin x.pending.length) (u v : CacheFiles) : Prop where
  files : ∀ path ∈ x.paths i, u.files path = v.files path
  entry : ∀ key, x.entryKey host w i = some key → u.updates key = v.updates key

variable {host x w} {i j : Fin x.pending.length} {u v : CacheFiles}

theorem SamePart.refl : x.SamePart host w i u u := ⟨fun _ _ => rfl, fun _ _ => rfl⟩

theorem SamePart.trans {t : CacheFiles} (h : x.SamePart host w i t u) (h' : x.SamePart host w i u v) :
    x.SamePart host w i t v :=
  ⟨fun path hp => (h.files path hp).trans (h'.files path hp),
    fun key hk => (h.entry key hk).trans (h'.entry key hk)⟩

theorem SamePart.put (h : x.SamePart host w i u v) (path : String) (content : Option (List UInt8)) :
    x.SamePart host w i (u.put path content) (v.put path content) where
  files p hp := by
    simp only [CacheFiles.put, Function.update_apply]
    split
    · rfl
    · exact h.files p hp
  entry := h.entry

theorem samePart_put {path : String} (hpath : path ∉ x.paths j) (content : Option (List UInt8)) :
    x.SamePart host w j (u.put path content) u where
  files p hp := by
    have hne : p ≠ path := fun heq => hpath (heq ▸ hp)
    exact Function.update_of_ne hne _ _
  entry _ _ := rfl

theorem SamePart.putEntry (h : x.SamePart host w i u v) (key : String)
    (entry : Option UpdateCacheEntry) :
    x.SamePart host w i (u.putEntry key entry) (v.putEntry key entry) where
  files := h.files
  entry k hk := by
    simp only [CacheFiles.putEntry, Function.update_apply]
    split
    · rfl
    · exact h.entry k hk

theorem samePart_putEntry {key : String} (hkey : x.entryKey host w j ≠ some key)
    (entry : Option UpdateCacheEntry) : x.SamePart host w j (u.putEntry key entry) u where
  files _ _ := rfl
  entry k hk := by
    have hne : k ≠ key := fun heq => hkey (heq ▸ hk)
    exact Function.update_of_ne hne _ _

open Prog in
/-- A download has its files to itself. -/
theorem ownCall_download (h : x.Apart host w) {op : FileOp}
    (hop : DownloadOp (x.paths i) (x.stores host w i = true) op) :
    OwnCall host.act (x.SamePart host w) i op := by
  cases hop with
  | createDirAll path => exact ⟨fun _ => rfl, id, fun _ _ => .refl⟩
  | get url => exact ⟨fun _ => rfl, id, fun _ _ => .refl⟩
  | read hpath => exact ⟨fun hs => hs.files _ hpath, id, fun _ _ => .refl⟩
  | @write path bytes hpath hstores =>
    constructor
    · intro u v _
      simp only [Host.act]
      cases host.permits path <;> rfl
    · intro u v hs
      simp only [Host.act]
      cases host.permits path with
      | error e => exact hs
      | ok _ => exact hs.put path _
    · intro j u hj
      simp only [Host.act]
      cases host.permits path with
      | error e => exact .refl
      | ok _ => exact samePart_put (h.files i j hj.symm hstores path hpath) _
  | @rename source target hsource htarget hstores =>
    constructor
    · intro u v hs
      simp only [Host.act]
      cases host.permits target with
      | error e => rfl
      | ok _ =>
        rw [hs.files source hsource]
        cases v.files source <;> rfl
    · intro u v hs
      simp only [Host.act]
      cases host.permits target with
      | error e => exact hs
      | ok _ =>
        rw [hs.files source hsource]
        cases v.files source with
        | none => exact hs
        | some bytes => exact (hs.put source none).put target _
    · intro j u hj
      simp only [Host.act]
      cases host.permits target with
      | error e => exact .refl
      | ok _ =>
        cases u.files source with
        | none => exact .refl
        | some bytes =>
          have hout := h.files i j hj.symm hstores
          exact (samePart_put (hout target htarget) _).trans (samePart_put (hout source hsource) _)

theorem entryKey_of_not_reads {cu : CachedArchive} {n : Nat}
    (h : (x.request cu n).readsCache = false) : x.entryKey host w j = none := by
  unfold entryKey
  split
  · rfl
  · next cu' _ =>
    have hreads : (x.request cu' (x.pending.get j).1).readsCache = false := h
    exact if_neg (by rw [hreads]; exact Bool.false_ne_true)

open Prog in
/-- So has processing it its entry. -/
theorem ownCall_process (h : x.Apart host w) {v₀ : CacheFiles} {cu : CachedArchive}
    (hfetch : x.fetchedAlone host w i = (v₀, .ok cu)) {op : FileOp}
    (hop : ProcessOp cu.localPath ((x.request cu (x.pending.get i).1).key host.digest)
      ((x.request cu (x.pending.get i).1).readsCache = true)
      (changesEntry host v₀ (x.request cu (x.pending.get i).1) = true) op) :
    OwnCall host.act (x.SamePart host w) i op := by
  have hpath : cu.localPath ∈ x.paths i := by
    rw [localPath_fetch hfetch]
    exact List.mem_cons_self
  have hkey : (x.request cu (x.pending.get i).1).readsCache = true →
      x.entryKey host w i = some ((x.request cu (x.pending.get i).1).key host.digest) := by
    intro hreads
    unfold entryKey
    rw [hfetch]
    exact if_pos hreads
  have hothers : ((x.request cu (x.pending.get i).1).readsCache = true →
      changesEntry host v₀ (x.request cu (x.pending.get i).1) = true) → ∀ j, j ≠ i →
      x.entryKey host w j ≠ some ((x.request cu (x.pending.get i).1).key host.digest) := by
    intro himp j hj heq
    cases hreads : (x.request cu (x.pending.get i).1).readsCache with
    | false =>
      rw [entryKey_of_not_reads hreads] at heq
      cases heq
    | true =>
      have hchanges : x.changes host w i = true := by
        unfold changes
        rw [hfetch]
        exact himp hreads
      have hnone := h.entries i j hj.symm hchanges ((hkey hreads).trans heq.symm)
      rw [hkey hreads] at hnone
      cases hnone
  cases hop with
  | read => exact ⟨fun hs => hs.files _ hpath, id, fun _ _ => .refl⟩
  | readEntry hreads => exact ⟨fun hs => hs.entry _ (hkey hreads), id, fun _ _ => .refl⟩
  | removeEntry hreads hchanges =>
    exact ⟨fun _ => rfl, fun hs => hs.putEntry _ _,
      fun u hj => samePart_putEntry (hothers (fun _ => hchanges) _ hj) _⟩
  | saveEntry entry himp =>
    exact ⟨fun _ => rfl, fun hs => hs.putEntry _ _,
      fun u hj => samePart_putEntry (hothers himp _ hj) _⟩

theorem workload_apart (h : x.Apart host w) :
    (x.workload host).Apart w (x.SamePart host w) where
  refl _ _ := .refl
  trans _ _ _ _ := .trans
  download i := Prog.owns_of_calls (fun _ _ => .refl) fun op hop =>
    ownCall_download h (calls_fetch x (x.pending.get i) op hop)
  parse {i v cu} hfin := by
    have hfetch : x.fetchedAlone host w i = (v, .ok cu) := Prog.finishes_iff.1 hfin
    exact Prog.owns_of_calls (fun _ _ => .refl) fun op hop =>
      ownCall_process h hfetch (calls_processArchive op hop)

/-! ## Every schedule -/

variable (host x w) in
/-- The state of a run of the workers. -/
def state (as : List (PipelineAction (x.workload host))) : PipelineState (x.workload host) :=
  run pipelineStep (.init (x.workload host) w) as

variable (host x w) in
/-- What the call owes in every schedule: it returns; no archive is downloaded or parsed twice; without
a cancellation there is a result for every archive, in order, or the first error, as when they are
processed one by one; and an archive that was not processed makes it an error. -/
structure Right : Prop where
  ends : ∀ f, Fair PipelineAction.worker f →
    ∃ n, (stateAfter pipelineStep (.init (x.workload host) w) f n).finished
  once : ∀ as i, (x.state host w as).downloadCalls i ≤ 1 ∧ (x.state host w as).parseCalls i ≤ 1
  answers : ∀ as, (x.state host w as).finished → (x.state host w as).cancel = false →
    ∃ answers : Fin x.pending.length → Except String (CachedArchive × MeasuredResult),
      (∀ i, (x.state host w as).Answers i (answers i)) ∧ x.result host (x.state host w as) =
        (List.finRange x.pending.length).mapM fun i => (answers i).map fun p => (some p.1, p.2)
  oneByOne : ∀ as, (x.state host w as).finished → (x.state host w as).cancel = false →
    x.result host (x.state host w as) =
      (x.oneByOne host w x.pending).map (List.map fun p => (some p.1, p.2))
  cancelled : ∀ as i, (x.state host w as).finished → (x.state host w as).slots i = none →
    ∃ e, x.result host (x.state host w as) = .error e

variable (host x) in
theorem oneByOne_spec (u : CacheFiles) (is : List (Fin x.pending.length)) :
    OneByOne (x.workload host) u is (x.oneByOne host u (is.map x.pending.get)) := by
  induction is generalizing u with
  | nil => exact .nil
  | cons i is ih =>
    rw [List.map_cons, UpdatesPipeline.oneByOne]
    cases hfetch : (x.fetch host (x.pending.get i)).run host.act u with
    | mk v d =>
      have hd : (x.workload host).Downloads u i v d := Prog.finishes_iff.2 hfetch
      cases d with
      | error e => exact .failed hd
      | ok cu => exact .next hd (Prog.finishes_run _ _) (ih _)

theorem result_eq {s : PipelineState (x.workload host)} (h : s.cancel = false) :
    x.result host s = mergeSlots s (x.missing host s) := by
  unfold result
  cases hempty : x.pending.isEmpty with
  | true =>
    have hnil : List.finRange (x.workload host).items.length = [] := by
      refine List.eq_nil_of_length_eq_zero ?_
      rw [List.length_finRange]
      exact List.length_eq_zero_iff.2 (List.isEmpty_iff.1 hempty)
    rw [mergeSlots_eq, hnil]
    rfl
  | false =>
    simp only [Bool.false_eq_true, if_false, h]
    cases mergeSlots s (x.missing host s) <;> rfl

/-- A slot that a cancellation left unfilled is not passed over. -/
theorem result_cancelled {as : List (PipelineAction (x.workload host))}
    {i : Fin x.pending.length} (hend : (x.state host w as).finished)
    (hslot : (x.state host w as).slots i = none) :
    ∃ e, x.result host (x.state host w as) = .error e := by
  have hcontrol : (x.state host w as).Control := control_run w as
  have hseen : (x.state host w as).cancelSeen = true := by
    by_contra hno
    have hfilled := PipelineState.filled_of_finished hcontrol (countedAt_run w as i) hend
      (by simpa using hno)
    simp [PipelineState.filled, hslot] at hfilled
  obtain ⟨hcancel, -⟩ := hcontrol.seen hseen
  have hne : x.pending.isEmpty = false := by
    rw [List.isEmpty_eq_false_iff_exists_mem]
    exact ⟨_, List.get_mem _ i⟩
  unfold result
  rw [hne, hcancel]
  cases mergeSlots (x.state host w as) (x.missing host (x.state host w as)) with
  | error e => exact ⟨e, rfl⟩
  | ok out => exact ⟨cancelledMarker, rfl⟩

theorem right_of_apart (h : x.Apart host w) : x.Right host w where
  ends := finished_of_fair w
  once as i := (countedAt_run w as i).calls_le
  answers as hend hcancel := by
    obtain ⟨answers, hall⟩ := exists_answers w as hend (.inl hcancel)
    exact ⟨answers, fun i => (hall i).1,
      (result_eq hcancel).trans (mergeSlots_of_shows fun i => (hall i).2)⟩
  oneByOne as hend hcancel := by
    have hserial := oneByOne_spec host x w (List.finRange x.pending.length)
    rw [List.map_get_finRange] at hserial
    exact (result_eq hcancel).trans
      (mergeSlots_oneByOne (workload_apart h) as hend (.inl hcancel) _ hserial)
  cancelled as i hend hslot := result_cancelled hend hslot

end UpdatesPipeline

/-- **Both pipelines**: where no archive changes a file or an entry that another one looks at,
`process_updates_pipeline` is right in every schedule; and so is `run_bounded_pipeline`, for any
items, closures and numbers of workers. -/
theorem pipelines_right (host : Host) (x : UpdatesPipeline) (w : CacheFiles) (h : x.Apart host w) :
    x.Right host w ∧
      ∀ {σ A B R π ρ : Type} (download : Task σ A π (Except String B)) (parse : Task σ (B × A) ρ R)
        (items : List A) (downloadJobs parseJobs : Nat) (v : σ),
        EngineRight (boundedWorkload download parse items downloadJobs parseJobs) v :=
  ⟨UpdatesPipeline.right_of_apart h, fun _ _ _ _ _ v => engineRight _ v⟩

/-! ### Two archives with the same bytes -/

namespace EqualArchives

def item (url : String) : ArchiveItem where
  project := "route-views"
  collectorId := "rv"
  dataType := "updates"
  tsStart := 0
  tsEnd := 0
  url := url
  size := 1

/-- With the default cache control. -/
def pipeline : UpdatesPipeline where
  pending := [(0, item "http://rv/a"), (1, item "http://rv/b")]
  cacheDir := "c"
  cacheControl := ⟨false, false, false, 1, 0, 2, false⟩
  target := (MovedWindow.windowRun []).target
  family := .routeViews

def host (get : String → GetReply) : Host where
  sha256 := TwoOrigins.keepBytes
  digest := TwoOrigins.keepBytes
  get := get
  refuses _ := none
  decode _ _ := .ok [MovedWindow.updateElem .announce "10.0.0.0/8"]
  availableParallelism := 1

def noFiles : CacheFiles := ⟨fun _ => none, fun _ => none⟩

/-- The second archive is downloaded and parsed first. -/
def schedule : List (PipelineAction (pipeline.workload (host fun _ => .body [1]))) :=
  [.download ⟨0, by decide⟩ false] ++ List.replicate 12 (.download ⟨1, by decide⟩ false) ++
    List.replicate 8 (.parse ⟨0, by decide⟩) ++ List.replicate 12 (.download ⟨0, by decide⟩ false) ++
    [.download ⟨1, by decide⟩ false] ++ List.replicate 9 (.parse ⟨0, by decide⟩)

end EqualArchives

open EqualArchives in
/-- **Bug**: with a download worker that is slow, the second of two equal archives is parsed and the
first is answered from its entry; one by one it is the other way round. -/
theorem not_updatesRight : ¬ pipeline.Right (host fun _ => .body [1]) noFiles := by
  intro h
  have hserial := h.oneByOne schedule (by decide +kernel) (by decide +kernel)
  have hrun : (pipeline.result _ (pipeline.state (host fun _ => .body [1]) noFiles schedule)).map
      (fun out => out.map fun p => p.2.observations.map (·.provenance.archiveOrder)) =
        .ok [[1], [1]] := by decide +kernel
  have hone : (pipeline.oneByOne (host fun _ => .body [1]) noFiles pipeline.pending).map
      (fun out => out.map fun p => p.2.observations.map (·.provenance.archiveOrder)) =
        .ok [[0], [0]] := by decide +kernel
  rw [hserial] at hrun
  cases hres : pipeline.oneByOne (host fun _ => .body [1]) noFiles pipeline.pending with
  | error e =>
    rw [hres] at hone
    cases hone
  | ok out =>
    rw [hres] at hrun hone
    simp only [Except.map, Except.ok.injEq, List.map_map] at hrun hone
    have hsame := hrun.symm.trans hone
    simp at hsame

open EqualArchives in
/-- Archives with bytes of their own. -/
theorem pipelines_right_ownBytes :
    pipeline.Right (host fun url => .body (utf8 url)) noFiles :=
  (pipelines_right _ _ _ (by decide +kernel)).1

end Inim
