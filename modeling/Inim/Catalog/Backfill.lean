import Inim.Catalog.AuditRun
import Inim.Lib.Tables
import Inim.Workbench.Episodes

/-!
# Peer-session metadata (`catalog/session_audit.rs:511-560`, `catalog/store.rs:1296-1375`)

A backfill records, of every session in the baseline RIBs of a date, which peer ASN was seen; the
episodes of the workbench read the peer ASNs of a session from what was recorded.

| here | there |
| --- | --- |
| `MetadataRow` | `ObserverSessionMetadata` and its table (`migrations.rs:461-474`) |
| `insertSessionMetadata` | `insert_session_metadata` (`store.rs:1296`) |
| `listSessionMetadata` | `list_session_metadata` (`store.rs:1337`) |
| `backfillSessionMetadata` | `backfill_session_metadata` (`session_audit.rs:518`) |

A failure of the database is left out. Ids are positions. A row that is there for the same session, peer
ASN and file is kept as it is, with its time; since the time is read from the name of the file, it is the
same time (`timed_of_discoverRibs`).
-/

namespace Inim.Netprofile

open Std Inim.Lib

structure MetadataRow where
  sourceFamily : String
  collector : String
  peerIp : String
  addressFamily : String
  peerAsn : UInt32
  validFrom : String
  validTo : Option String
  sourceArchive : String
  sourceSha256 : String
deriving DecidableEq, Repr

namespace MetadataRow

/-- The columns that are unique together. -/
def key (m : MetadataRow) : String × String × String × UInt32 × String :=
  (m.collector, m.peerIp, m.addressFamily, m.peerAsn, m.sourceArchive)

/-- What the workbench reads of a row. -/
def observed (m : MetadataRow) : ObserverSessionMetadata :=
  ⟨m.collector, m.peerIp, m.addressFamily, m.peerAsn, m.validFrom⟩

end MetadataRow

/-- `INSERT OR IGNORE`, and the id of the row that has the key. -/
def insertSessionMetadata (row : MetadataRow) (t : List MetadataRow) : List MetadataRow × Nat :=
  insertUnique MetadataRow.key row t

/-- By collector, peer address and time. -/
def listSessionMetadata (t : List MetadataRow) : List MetadataRow :=
  sortBy (compareLex (compareOn (·.collector)) (compareLex (compareOn (·.peerIp)) (compareOn (·.validFrom)))) t

def metadataOf (row : PeerInventoryRow) : MetadataRow :=
  { sourceFamily := row.sourceFamily
    collector := row.collector
    peerIp := row.peerIp
    addressFamily := row.addressFamily
    peerAsn := row.peerAsn
    validFrom := row.ribTimestampUtc
    validTo := none
    sourceArchive := row.ribSource
    sourceSha256 := row.ribSourceSha }

/-- One row of the inventory: the table, and the rows inserted so far. -/
def recordRow (s : List MetadataRow × Nat) (row : PeerInventoryRow) : List MetadataRow × Nat :=
  let before := (listSessionMetadata s.1).length
  let t := (insertSessionMetadata (metadataOf row) s.1).1
  let after := (listSessionMetadata t).length
  (t, if before < after then s.2 + 1 else s.2)

/-- No planes and no origins: the parse of the RIBs is all that is asked for. -/
def backfillOptions (caches : List CacheRoot) (date : String) : SessionAuditOptions :=
  ⟨⟨[]⟩, [], caches, date, [], 4⟩

/-- What a backfill is called with, and the turns of its workers. -/
structure Backfill where
  disk : RibDisk
  caches : List CacheRoot
  date : String
  turns : List (Fin (max (backfillOptions caches date).jobs 1))

def Backfill.inventory (b : Backfill) : Option (Except String (List PeerInventoryRow)) :=
  runPeerInventory b.disk (backfillOptions b.caches b.date) b.turns

/-- `none` is a panic of the inventory, or a run that is not over. -/
def backfillSessionMetadata (b : Backfill) (t : List MetadataRow) :
    Option (List MetadataRow × Except String Nat) := do
  match ← b.inventory with
  | .error e => return (t, .error e)
  | .ok rows =>
    let (t, inserted) := rows.foldl recordRow (t, 0)
    return (t, .ok inserted)

/-- The table after a backfill, be it over or not. -/
def backfillStep (t : List MetadataRow) (b : Backfill) : List MetadataRow :=
  ((backfillSessionMetadata b t).map Prod.fst).getD t

/-! ## A backfill inserts its rows -/

/-- The rows a backfill comes with. -/
def Backfill.rows (b : Backfill) : List MetadataRow :=
  match b.inventory with
  | some (.ok rows) => rows.map metadataOf
  | _ => []

def insertAll (t rows : List MetadataRow) : List MetadataRow :=
  rows.foldl (fun t m => (insertUnique MetadataRow.key m t).1) t

theorem length_listSessionMetadata (t : List MetadataRow) : (listSessionMetadata t).length = t.length :=
  (sortBy_perm _ _).length_eq

theorem length_insertUnique (m : MetadataRow) (t : List MetadataRow) :
    (insertUnique MetadataRow.key m t).1.length = t.length ∨
      (insertUnique MetadataRow.key m t).1.length = t.length + 1 := by
  unfold insertUnique
  split
  · exact .inl rfl
  · exact .inr (List.length_append ..)

/-- The count is the number of rows that are new in the table. -/
theorem foldl_recordRow (rows : List PeerInventoryRow) (t : List MetadataRow) (n : Nat) :
    (rows.foldl recordRow (t, n)).1 = insertAll t (rows.map metadataOf) ∧
      (rows.foldl recordRow (t, n)).2 + t.length = n + (insertAll t (rows.map metadataOf)).length := by
  induction rows generalizing t n with
  | nil => exact ⟨rfl, rfl⟩
  | cons row rows ih =>
    have hstep : recordRow (t, n) row = ((insertUnique MetadataRow.key (metadataOf row) t).1,
        n + ((insertUnique MetadataRow.key (metadataOf row) t).1.length - t.length)) := by
      rw [recordRow, length_listSessionMetadata, length_listSessionMetadata, insertSessionMetadata]
      rcases length_insertUnique (metadataOf row) t with h | h
      · simp [h]
      · simp [h]
    obtain ⟨htable, hcount⟩ := ih (insertUnique MetadataRow.key (metadataOf row) t).1
      (n + ((insertUnique MetadataRow.key (metadataOf row) t).1.length - t.length))
    rw [List.foldl_cons, List.map_cons, hstep]
    refine ⟨htable, ?_⟩
    change _ = n + (insertAll (insertUnique MetadataRow.key (metadataOf row) t).1
      (rows.map metadataOf)).length
    have hle : t.length ≤ (insertUnique MetadataRow.key (metadataOf row) t).1.length :=
      (insertUnique_initial _ _ t).length_le
    omega

theorem backfillStep_eq (t : List MetadataRow) (b : Backfill) : backfillStep t b = insertAll t b.rows := by
  unfold backfillStep backfillSessionMetadata Backfill.rows
  cases b.inventory with
  | none => rfl
  | some answer =>
    cases answer with
    | error e => rfl
    | ok rows => exact (foldl_recordRow rows t 0).1

theorem run_backfillStep (t : List MetadataRow) (bs : List Backfill) :
    run backfillStep t bs = insertAll t (bs.flatMap (·.rows)) := by
  induction bs generalizing t with
  | nil => rfl
  | cons b bs ih =>
    rw [run_cons, ih, backfillStep_eq, List.flatMap_cons, insertAll, insertAll, insertAll, List.foldl_append]

/-- From an empty table, what is recorded are the first rows with their keys. -/
theorem run_backfillStep_nil (bs : List Backfill) :
    run backfillStep [] bs = keepFirst MetadataRow.key (bs.flatMap (·.rows)) := run_backfillStep [] bs

/-! ## Backfilling again -/

theorem insertAll_initial (t rows : List MetadataRow) : t <+: insertAll t rows := by
  induction rows generalizing t with
  | nil => exact List.prefix_rfl
  | cons m rows ih => exact (insertUnique_initial _ m t).trans (ih _)

theorem key_mem_insertAll {t rows : List MetadataRow} {m : MetadataRow} (hm : m ∈ rows) :
    ∃ m' ∈ insertAll t rows, m'.key = m.key := by
  induction rows generalizing t with
  | nil => cases hm
  | cons x rows ih =>
    rcases List.mem_cons.1 hm with rfl | hm
    · obtain ⟨i, hi⟩ : ∃ i, (insertUnique MetadataRow.key m t).1.findIdx?
          (fun a => decide (a.key = m.key)) = some i := ⟨_, findIdx?_insertUnique _ _ _⟩
      obtain ⟨hlt, hkey, -⟩ := List.findIdx?_eq_some_iff_getElem.1 hi
      exact ⟨_, (insertAll_initial _ rows).subset (List.getElem_mem hlt), of_decide_eq_true hkey⟩
    · exact ih hm

theorem insertAll_eq_self {t rows : List MetadataRow} (h : ∀ m ∈ rows, ∃ m' ∈ t, m'.key = m.key) :
    insertAll t rows = t := by
  induction rows with
  | nil => rfl
  | cons m rows ih =>
    obtain ⟨⟨m', hm', hkey⟩, hrows⟩ := List.forall_mem_cons.1 h
    have hsome : (t.findIdx? fun a => decide (a.key = m.key)).isSome = true := by
      rw [List.findIdx?_isSome]
      exact List.any_eq_true.2 ⟨m', hm', decide_eq_true hkey⟩
    obtain ⟨i, hi⟩ := Option.isSome_iff_exists.1 hsome
    change insertAll (insertUnique MetadataRow.key m t).1 rows = t
    rw [insertUnique_present hi]
    exact ih hrows

/-! ## A RIB has the time of its file name -/

/-- What comes after the last `/`. -/
def lastPart (path : String) : String :=
  String.ofList (path.toList.reverse.takeWhile (· ≠ '/')).reverse

theorem lastPart_append {dir name : String} (h : '/' ∉ name.toList) : lastPart (dir ++ "/" ++ name) = name := by
  have hne : ∀ c ∈ name.toList.reverse, decide (c ≠ '/') = true := fun c hc =>
    decide_eq_true fun heq => h (heq ▸ List.mem_reverse.1 hc)
  have hslash : "/".toList = ['/'] := rfl
  rw [lastPart, String.toList_append, String.toList_append, hslash, List.reverse_append,
    List.reverse_append, List.reverse_singleton, List.takeWhile_append_of_pos hne, List.singleton_append,
    List.takeWhile_cons_of_neg (by simp), List.append_nil, List.reverse_reverse, String.ofList_toList]

def Timed (rib : RibSource) : Prop := filenameTimestampUtc (lastPart rib.localPath) = some rib.ribTimestampUtc

section Discovered
variable {disk : RibDisk} {date family collector ribDir : String} {out out' : List RibSource}

theorem timed_collectRibCandidates {entries : Option (List RibFile)}
    (hnames : ∀ e ∈ entries.getD [], '/' ∉ e.name.toList) (hout : ∀ rib ∈ out, Timed rib)
    (h : collectRibCandidates ribDir entries date family collector out = some out') :
    ∀ rib ∈ out', Timed rib := by
  unfold collectRibCandidates at h
  split at h
  · cases h
    exact hout
  next c rest hsorted =>
    obtain ⟨t, ht, hpush⟩ := Option.bind_eq_some_iff.1 h
    cases hpush
    have hc : c ∈ entries.getD [] := List.mem_of_mem_filter (sortBy_head hsorted).1
    intro rib hrib
    rcases List.mem_append.1 hrib with hrib | hrib
    · exact hout rib hrib
    · rw [List.mem_singleton.1 hrib, Timed, lastPart_append (hnames c hc)]
      exact ht

theorem timed_discoverIn (hout : ∀ rib ∈ out, Timed rib)
    (h : discoverIn disk date ribDir family collector out = some out') : ∀ rib ∈ out', Timed rib := by
  unfold discoverIn at h
  split at h
  · refine timed_collectRibCandidates (fun e he => ?_) hout h
    cases hdir : disk.readDir ribDir with
    | error e' =>
      rw [hdir] at he
      cases he
    | ok entries =>
      rw [hdir] at he
      exact disk.names hdir e he
  · cases h
    exact hout

theorem foldlM_option {α β : Type} {P : β → Prop} {f : β → α → Option β} {l : List α} {b b' : β}
    (hstep : ∀ b a b', P b → f b a = some b' → P b') (hb : P b) (h : l.foldlM f b = some b') : P b' := by
  induction l generalizing b with
  | nil =>
    cases h
    exact hb
  | cons a l ih =>
    rw [List.foldlM_cons] at h
    obtain ⟨b₁, hb₁, h⟩ := Option.bind_eq_some_iff.1 h
    exact ih (hstep b a b₁ hb hb₁) h

/-- Two computations one after the other that both come to a value. -/
theorem run_bind_ok {ε α β : Type} {x : ExceptT ε Option α} {f : α → ExceptT ε Option β} {b : β}
    (h : (x >>= f).run = some (.ok b)) : ∃ a, x.run = some (.ok a) ∧ (f a).run = some (.ok b) := by
  rw [ExceptT.run_bind] at h
  obtain ⟨r, hr, h⟩ := Option.bind_eq_some_iff.1 h
  cases r with
  | error e => cases h
  | ok a => exact ⟨a, hr, h⟩

theorem timed_discoverCache {root : CacheRoot} (hout : ∀ rib ∈ out, Timed rib)
    (h : (discoverCache disk date out root).run = some (.ok out')) : ∀ rib ∈ out', Timed rib := by
  unfold discoverCache at h
  obtain ⟨entries, -, h⟩ := run_bind_ok h
  obtain ⟨nested, hnested, h⟩ := run_bind_ok h
  rw [ExceptT.run_lift] at hnested
  obtain ⟨nested', hfold, heq⟩ := Option.map_eq_some_iff.1 hnested
  cases heq
  have hnested : ∀ rib ∈ nested, Timed rib :=
    foldlM_option (P := fun out => ∀ rib ∈ out, Timed rib) (fun _ _ _ hout h => timed_discoverIn hout h)
      hout hfold
  split at h
  · split at h
    · cases h
      exact hnested
    · rw [ExceptT.run_lift] at h
      obtain ⟨flat, hflat, heq⟩ := Option.map_eq_some_iff.1 h
      cases heq
      exact timed_discoverIn hnested hflat
  · cases h
    exact hnested

/-- Every RIB that is discovered has the time that its file name tells. -/
theorem timed_discoverRibs {caches : List CacheRoot} {ribs : List RibSource}
    (h : (discoverRibs disk date caches).run = some (.ok ribs)) : ∀ rib ∈ ribs, Timed rib := by
  unfold discoverRibs at h
  obtain ⟨out, hout, h⟩ := run_bind_ok h
  cases h
  have hall : ∀ (caches : List CacheRoot) {out out' : List RibSource}, (∀ rib ∈ out, Timed rib) →
      (caches.foldlM (discoverCache disk date) out).run = some (.ok out') → ∀ rib ∈ out', Timed rib := by
    intro caches
    induction caches with
    | nil =>
      intro out out' hout h
      cases h
      exact hout
    | cons root caches ih =>
      intro out out' hout h
      rw [List.foldlM_cons] at h
      obtain ⟨out₁, h₁, h⟩ := run_bind_ok h
      exact ih (timed_discoverCache hout h₁) h
  exact fun rib hrib => hall caches (fun _ hrib => by cases hrib) hout rib (mem_sortBy.1 hrib)

end Discovered

/-! ## What a backfill shows -/

namespace Backfill
variable (b : Backfill)

/-- It came to its end with no error. -/
def Done : Prop := ∃ rows, b.inventory = some (.ok rows)

/-- `e` is an entry of a RIB that was discovered. -/
def Shows (rib : RibSource) (e : BgpElem) : Prop :=
  ∃ ribs elems, (discoverRibs b.disk b.date b.caches).run = some (.ok ribs) ∧ rib ∈ ribs ∧
    b.disk.parser.openElems rib.localPath = .ok elems ∧ e ∈ elems

/-- What is recorded of the entry's session. -/
def recordOf (rib : RibSource) (sha : String) (e : BgpElem) : MetadataRow :=
  { sourceFamily := rib.family
    collector := rib.collector
    peerIp := (elemEvidence e).peerIp
    addressFamily := (elemEvidence e).addressFamily
    peerAsn := e.peerAsn
    validFrom := rib.ribTimestampUtc
    validTo := none
    sourceArchive := rib.localPath
    sourceSha256 := sha }

variable {b}

theorem Shows.timed {rib : RibSource} {e : BgpElem} (h : b.Shows rib e) : Timed rib := by
  obtain ⟨ribs, elems, hribs, hrib, -⟩ := h
  exact timed_discoverRibs hribs rib hrib

/-- What was read has a checksum. -/
theorem Shows.sha {rib : RibSource} {e : BgpElem} (h : b.Shows rib e) (hdone : b.Done) :
    ∃ sha, sourceSha b.disk rib.localPath = .ok sha := by
  obtain ⟨ribs, elems, hribs, hrib, -⟩ := h
  obtain ⟨rows, hrows⟩ := hdone
  obtain ⟨ribs', hribs', hturn⟩ := of_runPeerInventory_ok hrows
  obtain rfl : ribs = ribs' := Except.ok.inj (Option.some.inj (hribs.symm.trans hribs'))
  obtain ⟨sha, -, hsha, -⟩ := readable_of_inventoryInTurn hturn rib hrib
  exact ⟨sha, hsha⟩

/-- The rows of a backfill are those of the sessions in its RIBs. -/
theorem mem_rows {m : MetadataRow} : m ∈ b.rows ↔ b.Done ∧ ∃ rib e sha, b.Shows rib e ∧
    sourceSha b.disk rib.localPath = .ok sha ∧ m = recordOf rib sha e := by
  have hreport : ∀ (rib : RibSource) (sha : String) (routes : List PathEvidence) (e : BgpElem),
      metadataOf ((inventorySource (backfillOptions b.caches b.date) rib sha).reported routes
        (elemEvidence e).session) = recordOf rib sha e := fun _ _ _ _ => rfl
  unfold rows
  constructor
  · intro hm
    split at hm
    · next rows hrows =>
      obtain ⟨row, hrow, rfl⟩ := List.mem_map.1 hm
      obtain ⟨ribs, hribs, hturn⟩ := of_runPeerInventory_ok hrows
      obtain ⟨rib, hrib, sha, elems, hsha, hopen, hrow⟩ := (mem_inventoryInTurn hturn).1 hrow
      obtain ⟨k, ⟨r, hr, rfl⟩, rfl⟩ := (InventorySource.mem_inventory _).1 hrow
      obtain ⟨e, he, rfl⟩ := List.mem_map.1 hr
      exact ⟨⟨rows, hrows⟩, rib, e, sha, ⟨ribs, elems, hribs, hrib, hopen, he⟩, hsha, hreport _ _ _ _⟩
    · cases hm
  · rintro ⟨⟨rows, hrows⟩, rib, e, sha, ⟨ribs, elems, hribs, hrib, hopen, he⟩, hsha, rfl⟩
    rw [hrows]
    obtain ⟨ribs', hribs', hturn⟩ := of_runPeerInventory_ok hrows
    obtain rfl : ribs = ribs' := Except.ok.inj (Option.some.inj (hribs.symm.trans hribs'))
    refine List.mem_map.2 ⟨_, (mem_inventoryInTurn hturn).2 ⟨rib, hrib, sha, elems, hsha, hopen, ?_⟩,
      hreport rib sha (elems.map elemEvidence) e⟩
    exact (InventorySource.mem_inventory _).2 ⟨_, ⟨_, List.mem_map.2 ⟨e, he, rfl⟩, rfl⟩, rfl⟩

end Backfill

/-! ## What the workbench sees of it -/

/-- The sources of an episode with what is recorded. -/
def recordedSources (src : EpisodeSources) (t : List MetadataRow) : EpisodeSources :=
  { src with metadata := (listSessionMetadata t).map (·.observed) }

section Observed
variable {src : EpisodeSources} {t : List MetadataRow} {k : EpisodeKey} {asn : UInt32}

theorem mem_observedAsns : asn ∈ (recordedSources src t).observedAsns k ↔
    ∃ m ∈ t, m.peerAsn = asn ∧ m.collector = k.collector ∧ m.peerIp = k.peerIp ∧
      m.addressFamily = addressFamilyOf k.peerIp ∧ m.validFrom ≤ src.windowEnd := by
  unfold EpisodeSources.observedAsns recordedSources listSessionMetadata
  rw [mem_sortDedup, List.mem_map]
  constructor
  · rintro ⟨o, ho, rfl⟩
    obtain ⟨ho, hfields⟩ := List.mem_filter.1 ho
    obtain ⟨m, hm, rfl⟩ := List.mem_map.1 ho
    exact ⟨m, mem_sortBy.1 hm, rfl, of_decide_eq_true hfields⟩
  · rintro ⟨m, hm, rfl, hfields⟩
    exact ⟨m.observed, List.mem_filter.2 ⟨List.mem_map.2 ⟨m, mem_sortBy.2 hm, rfl⟩,
      decide_eq_true hfields⟩, rfl⟩

end Observed

/-- **After any backfills, the peer ASNs that an episode is told of are those of the entries, in the RIBs of
its collector up to the end of its window, that came from its peer with a prefix of the peer's address
family.** -/
theorem observedAsns_backfilled (bs : List Backfill) (src : EpisodeSources) (k : EpisodeKey) (asn : UInt32) :
    asn ∈ (recordedSources src (run backfillStep [] bs)).observedAsns k ↔
      ∃ b ∈ bs, b.Done ∧ ∃ rib e, b.Shows rib e ∧
        rib.collector = k.collector ∧ rib.ribTimestampUtc ≤ src.windowEnd ∧
        (elemEvidence e).peerIp = k.peerIp ∧ e.peerAsn = asn ∧
        (elemEvidence e).addressFamily = addressFamilyOf k.peerIp := by
  rw [mem_observedAsns, run_backfillStep_nil]
  constructor
  · rintro ⟨m, hm, hasn, hcollector, hip, hfamily, hwindow⟩
    obtain ⟨b, hb, hm⟩ := List.mem_flatMap.1 ((keepFirst_sublist _ _).subset hm)
    obtain ⟨hdone, rib, e, sha, hshows, -, rfl⟩ := Backfill.mem_rows.1 hm
    exact ⟨b, hb, hdone, rib, e, hshows, hcollector, hwindow, hip, hasn, hfamily⟩
  · rintro ⟨b, hb, hdone, rib, e, hshows, hcollector, hwindow, hip, hasn, hfamily⟩
    obtain ⟨sha, hsha⟩ := hshows.sha hdone
    have hrow : Backfill.recordOf rib sha e ∈ bs.flatMap (·.rows) :=
      List.mem_flatMap.2 ⟨b, hb, Backfill.mem_rows.2 ⟨hdone, rib, e, sha, hshows, hsha, rfl⟩⟩
    obtain ⟨m, hm, hkey⟩ := key_mem_insertAll (t := []) hrow
    obtain ⟨b', hb', hm'⟩ := List.mem_flatMap.1 ((keepFirst_sublist _ _).subset hm)
    obtain ⟨-, rib', e', sha', hshows', -, rfl⟩ := Backfill.mem_rows.1 hm'
    simp only [MetadataRow.key, Backfill.recordOf, Prod.mk.injEq] at hkey
    obtain ⟨hc, hi, hf, ha, hpath⟩ := hkey
    -- the row that was there first is of the same file, so of the same time
    have htime : rib'.ribTimestampUtc = rib.ribTimestampUtc := by
      have h := hshows.timed
      have h' := hshows'.timed
      unfold Timed at h h'
      rw [hpath, h] at h'
      exact (Option.some.inj h').symm
    refine ⟨_, hm, ha.trans hasn, hc.trans hcollector, hi.trans hip, hf.trans hfamily, ?_⟩
    rw [← htime] at hwindow
    exact hwindow

/-- **What a backfill answers is how many rows are new, it changes none of the old ones, and of a backfill
that was done before, whatever has come between, nothing is new.** -/
theorem backfill_again (t : List MetadataRow) (bs : List Backfill) (b : Backfill) {t' : List MetadataRow}
    {n : Nat} (h : backfillSessionMetadata b (run backfillStep t bs) = some (t', .ok n)) :
    run backfillStep t bs <+: t' ∧ t'.length = (run backfillStep t bs).length + n ∧
      ((∃ b' ∈ bs, b'.Done ∧ b'.disk = b.disk ∧ b'.caches = b.caches ∧ b'.date = b.date) → n = 0) := by
  obtain ⟨rows, hrows, rfl, rfl⟩ : ∃ rows, b.inventory = some (.ok rows) ∧
      (rows.foldl recordRow (run backfillStep t bs, 0)).1 = t' ∧
      (rows.foldl recordRow (run backfillStep t bs, 0)).2 = n := by
    unfold backfillSessionMetadata at h
    obtain ⟨answer, hanswer, h⟩ := Option.bind_eq_some_iff.1 h
    cases answer with
    | error e => cases h
    | ok rows =>
      cases h
      exact ⟨rows, hanswer, rfl, rfl⟩
  have hmine : b.rows = rows.map metadataOf := by rw [Backfill.rows, hrows]
  obtain ⟨htable, hcount⟩ := foldl_recordRow rows (run backfillStep t bs) 0
  rw [← hmine] at htable hcount
  rw [htable]
  refine ⟨insertAll_initial _ _, by omega, ?_⟩
  rintro ⟨b', hb', hdone, hdisk, hcaches, hdate⟩
  -- the rows of the backfill then are those of this one, and none of them has gone
  have hthere : ∀ m ∈ b.rows, ∃ m' ∈ run backfillStep t bs, m'.key = m.key := by
    intro m hm
    obtain ⟨-, rib, e, sha, hshows, hsha, rfl⟩ := Backfill.mem_rows.1 hm
    rw [run_backfillStep]
    refine key_mem_insertAll (List.mem_flatMap.2 ⟨b', hb', Backfill.mem_rows.2 ⟨hdone, rib, e, sha, ?_, ?_, rfl⟩⟩)
    · unfold Backfill.Shows
      rw [hdisk, hcaches, hdate]
      exact hshows
    · rw [hdisk]
      exact hsha
  rw [insertAll_eq_self hthere] at hcount
  omega

/-- The RIBs of `twoCollectors`, twice. -/
def twoBackfills : Backfill where
  disk := twoCollectors [ribEntry [225]]
  caches := (twoJobs []).caches
  date := "20190821"
  turns := ([0, 1, 0, 1, 0, 1, 2, 3] : List (Fin 4))

theorem backfill_again_twoBackfills : ∃ t',
    backfillSessionMetadata twoBackfills (run backfillStep [] [twoBackfills]) = some (t', .ok 0) := by
  have hfound : (twoBackfills.inventory.map fun answer => answer.toOption.isSome) = some true := by
    decide +kernel
  obtain ⟨answer, hinventory, hok⟩ := Option.map_eq_some_iff.1 hfound
  cases answer with
  | error e => cases hok
  | ok rows =>
    obtain ⟨t', n, h⟩ : ∃ t' n,
        backfillSessionMetadata twoBackfills (run backfillStep [] [twoBackfills]) = some (t', .ok n) := by
      rw [backfillSessionMetadata, hinventory]
      exact ⟨_, _, rfl⟩
    have hzero := (backfill_again [] [twoBackfills] twoBackfills h).2.2
      ⟨twoBackfills, List.mem_singleton_self _, ⟨rows, hinventory⟩, rfl, rfl, rfl⟩
    rw [hzero] at h
    exact ⟨_, h⟩

end Inim.Netprofile
