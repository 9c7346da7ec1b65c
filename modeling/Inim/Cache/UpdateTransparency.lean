import Inim.Cache.Transparency
import Inim.Cache.Updates

/-!
# Is the UPDATE cache transparent?

An entry is found by the content of its archive, and the observations in it carry the archive's
place, URL and file in the run that wrote it. `archive_order` is "pre-assigned from discovery
order" (`orchestrate.rs:695`) and decides ties of the final sort, so an archive answered from the
cache can sort among the archives of this run where it stood in another one.

`updateStage_transparent`: in every history of runs in which each hit carries the place it has now,
every run gets the sequence it would with no cache. `cached_archive_swaps_updates` is a window that
moved by one archive.
-/

namespace Inim

open Inim.Lib

/-! ## What a pass parses -/

theorem contains_frozenPrefixes {target : TargetSet} {collector : CollectorId} {peerIp : IpAddr}
    {pfx : Prefix} (h : target.contains collector peerIp pfx = true) : pfx ∈ target.frozenPrefixes ∧
      ((target.streams collector).any fun entries => entries.any (·.pfx == pfx)) = true := by
  unfold TargetSet.contains at h
  obtain ⟨entries, hentries, s, hs, hkey⟩ : ∃ entries, target.streams collector = some entries ∧
      ∃ s ∈ entries, s.peerIp = peerIp ∧ s.pfx = pfx := by
    simpa [Option.any_eq_true, List.any_eq_true] using h
  have hany : entries.any (·.pfx == pfx) = true :=
    List.any_eq_true.2 ⟨s, hs, beq_iff_eq.2 hkey.2⟩
  refine ⟨?_, by rw [hentries]; exact hany⟩
  obtain ⟨e, he, rfl⟩ := Option.map_eq_some_iff.1 hentries
  rw [TargetSet.frozenPrefixes, List.mem_flatMap]
  exact ⟨e, List.mem_of_find?_eq_some he, List.mem_map.2 ⟨s, hs, hkey.2⟩⟩

/-- The target set has the stream of the observation. -/
def TargetSet.admits (target : TargetSet) (o : RouteObservation) : Bool :=
  target.contains o.collector o.peerIp o.pfx

theorem updateScan_admitted (target : TargetSet) (acc : UpdateScan) (o : RouteObservation) :
    (updateScan target acc (.ok o)).admitted =
      acc.admitted ++ if target.admits o then [o] else [] := by
  unfold updateScan
  cases h : target.contains o.collector o.peerIp o.pfx with
  | true =>
    obtain ⟨hfrozen, hany⟩ := contains_frozenPrefixes h
    simp [hfrozen, hany, h, TargetSet.admits]
  | false =>
    simp only [TargetSet.admits, h]
    split
    · simp
    · split <;> simp

/-- The admitted elements of an archive, as the request numbers and names them. -/
def updatesOf (r : UpdateRequest) (elems : List BgpElem) : List RouteObservation :=
  (elems.mapIdx fun seq e => elemObservation e seq r.localPath r.context).filter r.target.admits

theorem scanUpdates_admitted (target : TargetSet) (obs : List RouteObservation) :
    (scanUpdates target (obs.map .ok)).admitted = obs.filter target.admits := by
  unfold scanUpdates
  induction obs using List.reverseRecOn with
  | nil => rfl
  | append_singleton obs o ih =>
    rw [List.map_append, List.foldl_append, List.map_cons, List.map_nil, List.foldl_cons,
      List.foldl_nil, updateScan_admitted, ih, List.filter_append]
    cases h : target.admits o <;> simp [h]

/-- The observation has the place the request gives its archive. -/
def UpdateRequest.PlaceOf (r : UpdateRequest) (o : RouteObservation) : Prop :=
  o.provenance.archiveOrder = r.archiveOrder ∧ o.provenance.sourceUrl = some r.url ∧
    o.provenance.input = r.localPath

instance (r : UpdateRequest) (o : RouteObservation) : Decidable (r.PlaceOf o) :=
  inferInstanceAs (Decidable (_ ∧ _ ∧ _))

theorem placeOf_of_mem_updatesOf {r : UpdateRequest} {elems : List BgpElem} {o : RouteObservation}
    (h : o ∈ updatesOf r elems) : r.PlaceOf o := by
  obtain ⟨ho, -⟩ := List.mem_filter.1 h
  obtain ⟨seq, hseq, rfl⟩ := List.mem_mapIdx.1 ho
  exact ⟨rfl, rfl, rfl⟩

def UpdateRequest.observe (r : UpdateRequest) (p : BgpElem × Nat) : RouteObservation :=
  elemObservation p.1 p.2 r.localPath r.context

theorem updatesOf_eq_map (r : UpdateRequest) (elems : List BgpElem) : updatesOf r elems =
    (elems.zipIdx.filter fun p => r.target.admits (r.observe p)).map r.observe := by
  unfold updatesOf
  rw [List.mapIdx_eq_zipIdx_map, List.filter_map]
  rfl

/-- Two requests for one content under one target set admit the same elements of it, and observe
them alike exactly where they give them one place. -/
theorem updatesOf_eq_iff {w r : UpdateRequest} (elems : List BgpElem) (hsha : w.sha256 = r.sha256)
    (hcoll : w.collector = r.collector) (htarget : ∀ collector peerIp pfx,
      w.target.contains collector peerIp pfx = r.target.contains collector peerIp pfx) :
    updatesOf w elems = updatesOf r elems ↔ ∀ o ∈ updatesOf w elems, r.PlaceOf o := by
  constructor
  · intro heq o ho
    exact placeOf_of_mem_updatesOf (heq ▸ ho)
  · intro hplace
    -- what is admitted depends on the collector, the peer and the prefix
    have hadmits : ∀ p : BgpElem × Nat,
        w.target.admits (w.observe p) = r.target.admits (r.observe p) := by
      intro p
      unfold TargetSet.admits UpdateRequest.observe elemObservation UpdateRequest.context
      rw [hcoll]
      exact htarget _ _ _
    rw [updatesOf_eq_map] at hplace
    rw [updatesOf_eq_map, updatesOf_eq_map, List.filter_congr fun p _ => (hadmits p).symm]
    refine List.map_congr_left fun p hp => ?_
    obtain ⟨horder, hurl, hpath⟩ := hplace _ (List.mem_map_of_mem hp)
    have horder : w.archiveOrder = r.archiveOrder := horder
    have hurl : w.url = r.url := Option.some.inj hurl
    have hpath : w.localPath = r.localPath := hpath
    unfold UpdateRequest.observe elemObservation UpdateRequest.context
    rw [horder, hurl, hpath, hcoll, hsha]

section Fresh
variable {parser : BgpkitParser} {r : UpdateRequest} {elems : List BgpElem}

theorem parseUpdates_ok (hopen : parser.openElems r.localPath = .ok elems) :
    ∃ scan, parseUpdates parser r = some scan ∧ scan.admitted = updatesOf r elems := by
  have hstream : fromLocalFile parser r.localPath r.context =
      .ok ((elems.mapIdx fun seq e => elemObservation e seq r.localPath r.context).map .ok) := by
    unfold fromLocalFile
    rw [hopen, List.mapIdx_eq_zipIdx_map, List.map_map]
    exact congrArg Except.ok List.mapIdx_eq_zipIdx_map
  refine ⟨_, by rw [parseUpdates, hstream], ?_⟩
  exact scanUpdates_admitted _ _

theorem parseUpdates_error {e : String} (hopen : parser.openElems r.localPath = .error e) :
    parseUpdates parser r = none := by
  unfold parseUpdates fromLocalFile
  rw [hopen]
  rfl

theorem freshUpdates_ok (hopen : parser.openElems r.localPath = .ok elems) :
    freshUpdates parser r = updatesOf r elems := by
  obtain ⟨scan, hscan, hadmitted⟩ := parseUpdates_ok hopen
  rw [freshUpdates, hscan]
  exact hadmitted

end Fresh

/-! ## The invariant of the cache -/

section Stage
variable (digest : List UInt8 → String) (parser : BgpkitParser)

/-- What is assumed of the requests of a history: keys and target set hashes do not collide, and a
checksum is that of one content. -/
structure SameUpdateSources (requests : List UpdateRequest) : Prop where
  key : ∀ r ∈ requests, ∀ w ∈ requests, w.key digest = r.key digest →
    w.sha256 = r.sha256 ∧ w.collector = r.collector ∧
      targetsetHash digest w.target = targetsetHash digest r.target
  target : ∀ r ∈ requests, ∀ w ∈ requests,
    targetsetHash digest w.target = targetsetHash digest r.target →
    ∀ collector peerIp pfx, w.target.contains collector peerIp pfx =
      r.target.contains collector peerIp pfx
  content : ∀ r ∈ requests, ∀ w ∈ requests, w.sha256 = r.sha256 →
    parser.openElems w.localPath = parser.openElems r.localPath

/-- The entry that answers the request, if the cache is asked. -/
def updateHit (c : UpdateCache) (r : UpdateRequest) : Option UpdateCacheEntry :=
  if r.noDerivedCache || (r.rebuildDerivedCache || r.rebuildUpdateCaches) then none
  else (loadUpdateCache c (r.key digest) r.sha256).2

/-- The condition on a pass: an archive answered from the cache has, in the observations of its
entry, the place, URL and file it has in this run. -/
def SamePlace (c : UpdateCache) (r : UpdateRequest) : Prop :=
  ∀ entry, updateHit digest c r = some entry → ∀ o ∈ entry.observations, r.PlaceOf o

instance (c : UpdateCache) (r : UpdateRequest) : Decidable (SamePlace digest c r) :=
  match h : updateHit digest c r with
  | none => isTrue fun entry hentry => by rw [h] at hentry; cases hentry
  | some entry =>
    decidable_of_iff (∀ o ∈ entry.observations, r.PlaceOf o)
      ⟨fun hall e he => by rw [h] at he; exact Option.some.inj he ▸ hall, fun hall => hall entry h⟩

/-- Every entry is that of a fresh parse by some request. -/
def UpdateCacheTrue (requests : List UpdateRequest) (c : UpdateCache) : Prop :=
  ∀ r ∈ requests, ∀ entry, c (r.key digest) = some entry →
    ∃ w ∈ requests, w.key digest = r.key digest ∧ ∃ elems scan,
      parser.openElems w.localPath = .ok elems ∧ parseUpdates parser w = some scan ∧
        entry = updateEntryOf w scan

variable {digest parser} {requests : List UpdateRequest} {c : UpdateCache} {r : UpdateRequest}

theorem UpdateCacheTrue.empty : UpdateCacheTrue digest parser requests fun _ => none :=
  fun _ _ _ h => by cases h

theorem UpdateCacheTrue.save (h : UpdateCacheTrue digest parser requests c) (hr : r ∈ requests)
    {elems : List BgpElem} {scan : UpdateScan} (hopen : parser.openElems r.localPath = .ok elems)
    (hscan : parseUpdates parser r = some scan) : UpdateCacheTrue digest parser requests
      (Function.update c (r.key digest) (some (updateEntryOf r scan))) := by
  intro q hq entry hentry
  rw [Function.update_apply] at hentry
  split at hentry
  · next hkey => exact ⟨r, hr, hkey.symm, elems, scan, hopen, hscan, (Option.some.inj hentry).symm⟩
  · exact h q hq entry hentry

/-- Loading answers an entry that is there, and removes at most a file. -/
theorem loadUpdateCache_cases (c : UpdateCache) (key sourceSha : String) :
    (∃ entry, c key = some entry ∧ loadUpdateCache c key sourceSha = (c, some entry)) ∨
      loadUpdateCache c key sourceSha = (c, none) ∨
      loadUpdateCache c key sourceSha = (Function.update c key none, none) := by
  unfold loadUpdateCache
  cases hc : c key with
  | none => exact Or.inr (Or.inl rfl)
  | some entry =>
    dsimp only
    split
    · exact Or.inr (Or.inr rfl)
    · split
      · exact Or.inr (Or.inr rfl)
      · exact Or.inl ⟨entry, rfl, rfl⟩

theorem UpdateCacheTrue.remove (h : UpdateCacheTrue digest parser requests c) (key : String) :
    UpdateCacheTrue digest parser requests (Function.update c key none) := by
  intro q hq entry hentry
  rw [Function.update_apply] at hentry
  split at hentry
  · cases hentry
  · exact h q hq entry hentry

variable (digest parser) in
/-- What a pass does that is not answered from the cache. -/
def updateMiss (c : UpdateCache) (r : UpdateRequest) : UpdateCache × UpdateFileResult :=
  match parseUpdates parser r with
  | none => (c, ⟨[], {}, false⟩)
  | some scan =>
    (if r.noDerivedCache then c
      else Function.update c (r.key digest) (some (updateEntryOf r scan)),
      ⟨scan.admitted, scan.counters, false⟩)

variable (digest parser) in
/-- A pass is a hit, or a miss over a cache from which at most a file was removed. -/
theorem processOneUpdateFile_cases (c : UpdateCache) (r : UpdateRequest) :
    (∃ entry, updateHit digest c r = some entry ∧ c (r.key digest) = some entry ∧
      processOneUpdateFile digest parser c r =
        (c, ⟨entry.observations, entry.admissionCounters, true⟩)) ∨
      updateHit digest c r = none ∧
        (processOneUpdateFile digest parser c r = updateMiss digest parser c r ∨
          processOneUpdateFile digest parser c r =
            updateMiss digest parser (Function.update c (r.key digest) none) r) := by
  by_cases hoff : (r.noDerivedCache || (r.rebuildDerivedCache || r.rebuildUpdateCaches)) = true
  · refine Or.inr ⟨if_pos hoff, Or.inl ?_⟩
    unfold processOneUpdateFile
    dsimp only
    rw [if_pos hoff]
    rfl
  · have hhit : updateHit digest c r = (loadUpdateCache c (r.key digest) r.sha256).2 := if_neg hoff
    unfold processOneUpdateFile
    dsimp only
    rw [if_neg hoff, hhit]
    rcases loadUpdateCache_cases c (r.key digest) r.sha256 with ⟨entry, hc, hload⟩ | hload | hload
    · rw [hload]
      exact Or.inl ⟨entry, rfl, hc, rfl⟩
    · rw [hload]
      exact Or.inr ⟨rfl, Or.inl rfl⟩
    · rw [hload]
      exact Or.inr ⟨rfl, Or.inr rfl⟩

theorem updateMiss_true (h : UpdateCacheTrue digest parser requests c) (hr : r ∈ requests) :
    UpdateCacheTrue digest parser requests (updateMiss digest parser c r).1 ∧
      (updateMiss digest parser c r).2.observations = freshUpdates parser r := by
  unfold updateMiss freshUpdates
  cases hopen : parser.openElems r.localPath with
  | error e =>
    rw [parseUpdates_error hopen]
    exact ⟨h, rfl⟩
  | ok elems =>
    obtain ⟨scan, hscan, -⟩ := parseUpdates_ok hopen
    rw [hscan]
    refine ⟨?_, rfl⟩
    dsimp only
    split
    · exact h
    · exact h.save hr hopen hscan

theorem processOneUpdateFile_invariant (h : UpdateCacheTrue digest parser requests c)
    (hr : r ∈ requests) :
    UpdateCacheTrue digest parser requests (processOneUpdateFile digest parser c r).1 := by
  rcases processOneUpdateFile_cases digest parser c r with
    ⟨entry, -, -, hpass⟩ | ⟨-, hpass | hpass⟩
  · rw [hpass]
    exact h
  · rw [hpass]
    exact (updateMiss_true h hr).1
  · rw [hpass]
    exact (updateMiss_true (h.remove _) hr).1

/-- **One archive**: it is answered as a fresh parse would be exactly where a hit has the place. -/
theorem processOneUpdateFile_fresh_iff (hs : SameUpdateSources digest parser requests)
    (h : UpdateCacheTrue digest parser requests c) (hr : r ∈ requests) :
    (processOneUpdateFile digest parser c r).2.observations = freshUpdates parser r ↔
      SamePlace digest c r := by
  rcases processOneUpdateFile_cases digest parser c r with
    ⟨entry, hhit, hc, hpass⟩ | ⟨hhit, hpass⟩
  · obtain ⟨w, hw, hkey, elems, scan, hopen, hscan, rfl⟩ := h r hr entry hc
    obtain ⟨hsha, hcoll, hhash⟩ := hs.key r hr w hw hkey
    have hopen' := (hs.content r hr w hw hsha).symm.trans hopen
    have hadmitted : (updateEntryOf w scan).observations = updatesOf w elems := by
      obtain ⟨scan', hscan', hadmitted⟩ := parseUpdates_ok hopen
      obtain rfl := Option.some.inj (hscan'.symm.trans hscan)
      exact hadmitted
    have hplace : SamePlace digest c r ↔ ∀ o ∈ updatesOf w elems, r.PlaceOf o := by
      unfold SamePlace
      rw [hhit, ← hadmitted]
      exact ⟨fun hsame => hsame _ rfl, fun hsame e he => Option.some.inj he ▸ hsame⟩
    rw [hpass, freshUpdates_ok hopen', hplace,
      ← updatesOf_eq_iff elems hsha hcoll (hs.target r hr w hw hhash)]
    dsimp only
    rw [hadmitted]
  · have hplace : SamePlace digest c r := by
      intro entry hentry
      rw [hhit] at hentry
      cases hentry
    refine iff_of_true ?_ hplace
    rcases hpass with hpass | hpass
    · rw [hpass]
      exact (updateMiss_true h hr).2
    · rw [hpass]
      exact (updateMiss_true (h.remove _) hr).2

/-- What a fresh parse contributes has the place of its request. -/
theorem placeOf_of_mem_freshUpdates {o : RouteObservation} (h : o ∈ freshUpdates parser r) :
    r.PlaceOf o := by
  cases hopen : parser.openElems r.localPath with
  | error e =>
    rw [freshUpdates, parseUpdates_error hopen] at h
    cases h
  | ok elems =>
    rw [freshUpdates_ok hopen] at h
    exact placeOf_of_mem_updatesOf h

/-! ## Runs and histories -/

variable (digest parser) in
def passStep (c : UpdateCache) (r : UpdateRequest) : UpdateCache :=
  (processOneUpdateFile digest parser c r).1

variable (digest parser) in
/-- Every archive of a run meets the condition where it is processed. -/
def UpdatesOk (c : UpdateCache) (rs : List UpdateRequest) : Prop :=
  Along (passStep digest parser) (SamePlace digest) c rs

instance (c : UpdateCache) (rs : List UpdateRequest) : Decidable (UpdatesOk digest parser c rs) :=
  inferInstanceAs (Decidable (Along _ _ c rs))

theorem updateLoop_true (hs : SameUpdateSources digest parser requests) {rs : List UpdateRequest}
    (hrs : ∀ r ∈ rs, r ∈ requests) (h : UpdateCacheTrue digest parser requests c)
    (hok : UpdatesOk digest parser c rs) :
    UpdateCacheTrue digest parser requests (updateLoop digest parser c rs).1 ∧
      List.Forall₂ (fun r result => result.observations = freshUpdates parser r) rs
        (updateLoop digest parser c rs).2 := by
  induction rs generalizing c with
  | nil => exact ⟨h, .nil⟩
  | cons r rs ih =>
    obtain ⟨hplace, hrest⟩ := hok
    have hr := hrs r (by simp)
    obtain ⟨hc, hresults⟩ := ih (fun q hq => hrs q (by simp [hq]))
      (processOneUpdateFile_invariant h hr) hrest
    exact ⟨hc, .cons ((processOneUpdateFile_fresh_iff hs h hr).2 hplace) hresults⟩

theorem flatMap_observations {rs : List UpdateRequest} {results : List UpdateFileResult}
    (h : List.Forall₂ (fun r result => result.observations = freshUpdates parser r) rs results) :
    results.flatMap (·.observations) = rs.flatMap (freshUpdates parser) := by
  induction h with
  | nil => rfl
  | cons hr _ ih => rw [List.flatMap_cons, List.flatMap_cons, hr, ih]

variable (digest parser) in
def updateStep (c : UpdateCache) (x : UpdateRun) : UpdateCache := (updateStage digest parser c x).1

/-- One run: every archive of it is answered as it would be with no cache. -/
theorem updateStage_true (hs : SameUpdateSources digest parser requests) {x : UpdateRun}
    (hx : ∀ r ∈ x.pending, r ∈ requests) (h : UpdateCacheTrue digest parser requests c)
    (hok : UpdatesOk digest parser c x.pending) :
    UpdateCacheTrue digest parser requests (updateStage digest parser c x).1 ∧
      (updateStage digest parser c x).2 = updateStageFresh parser x := by
  obtain ⟨hc, hresults⟩ := updateLoop_true hs hx h hok
  exact ⟨hc, congrArg x.finalSequence (flatMap_observations hresults)⟩

/-- Over any history whose hits all carry the place of this run, every run obtains the sequence it
would with no cache, and every archive its observations under the order it has now. -/
theorem updateStage_transparent (runs : List UpdateRun)
    (hs : SameUpdateSources digest parser (runs.flatMap UpdateRun.pending))
    (hok : Along (updateStep digest parser) (fun c x => UpdatesOk digest parser c x.pending)
      (fun _ => none) runs) :
    ∀ pre x post, runs = pre ++ x :: post →
      (updateStage digest parser (run (updateStep digest parser) (fun _ => none) pre) x).2 =
        updateStageFresh parser x ∧
      List.Forall₂ (fun r result => ∀ o ∈ result.observations,
          o.provenance.archiveOrder = r.archiveOrder) x.pending
        (updateLoop digest parser (run (updateStep digest parser) (fun _ => none) pre) x.pending).2 := by
  intro pre x post heq
  have hmem : ∀ y ∈ runs, ∀ r ∈ y.pending, r ∈ runs.flatMap UpdateRun.pending := fun y hy r hr =>
    List.mem_flatMap.2 ⟨y, hy, hr⟩
  obtain ⟨hcache, hx, hloop⟩ := along_split
    (P := UpdateCacheTrue digest parser (runs.flatMap UpdateRun.pending))
    (Q := fun c x => x ∈ runs ∧ UpdatesOk digest parser c x.pending)
    UpdateCacheTrue.empty (fun c y h hy => (updateStage_true hs (hmem y hy.1) h hy.2).1)
    (along_mem hok) heq
  refine ⟨(updateStage_true hs (hmem x hx) hcache hloop).2, ?_⟩
  refine (updateLoop_true hs (hmem x hx) hcache hloop).2.imp fun r result hresult o ho => ?_
  exact (placeOf_of_mem_freshUpdates (hresult ▸ ho)).1

end Stage

/-! ### A window that moved by one archive -/

namespace MovedWindow

def updateElem (type : ElemType) (pfx : Prefix) : BgpElem where
  timestamp := 15
  elemType := type
  peerIp := .v4 1
  peerAsn := 64500
  pfx := pfx
  pathId := none
  asPath := none
  originAsns := none
  nextHop := none
  origin := none
  localPref := none
  med := none
  atomic := false
  communities := none

/-- The announcement ends one archive, the withdrawal of the same second begins the next. -/
def parser : BgpkitParser where
  openElems := fun path =>
    if path = "p" then .ok []
    else if path = "q" then
      .ok [updateElem .announce "10.1.0.0/16", updateElem .announce "10.0.0.0/8"]
    else if path = "r" then .ok [updateElem .withdraw "10.0.0.0/8"]
    else .error "No such file or directory"
  addFilter := fun _ _ elems => .ok elems

def archive (name : String) : UpdateArchive := ⟨"rv", name, name, name⟩

def windowRun (names : List String) : UpdateRun where
  family := .routeViews
  noDerivedCache := false
  rebuildDerivedCache := false
  rebuildUpdateCaches := false
  target := [("rv", [⟨.v4 1, "10.0.0.0/8", 65001, [64500, 65001], none⟩])]
  ribObservations := []
  selected := names.map archive

end MovedWindow

open MovedWindow in
/-- **Bug**: the archive was second of its run and is first of this one; the withdrawal of the next
archive sorts before its announcement. -/
theorem cached_archive_swaps_updates :
    let c := run (updateStep TwoOrigins.keepBytes parser) (fun _ => none) [windowRun ["p", "q"]]
    (updateStage TwoOrigins.keepBytes parser c (windowRun ["q", "r"])).2.map
        (fun o => (o.id, o.kind, o.provenance.archiveOrder)) =
      [(0, .withdrawal, 1), (1, .announcement, 1)] ∧
    (updateStageFresh parser (windowRun ["q", "r"])).map
        (fun o => (o.id, o.kind, o.provenance.archiveOrder)) =
      [(0, .announcement, 0), (1, .withdrawal, 1)] := by
  decide +kernel

open MovedWindow in
/-- The same window twice: the second run is answered from the cache. -/
theorem updateStage_transparent_twice :
    (updateStage TwoOrigins.keepBytes parser
      (run (updateStep TwoOrigins.keepBytes parser) (fun _ => none) [windowRun ["q", "r"]])
      (windowRun ["q", "r"])).2 = updateStageFresh parser (windowRun ["q", "r"]) := by
  have hsame : SameUpdateSources TwoOrigins.keepBytes parser
      ([windowRun ["q", "r"], windowRun ["q", "r"]].flatMap UpdateRun.pending) := by
    refine ⟨by decide +kernel, fun r hr w hw _ collector peerIp pfx => ?_, by decide +kernel⟩
    have htarget : ∀ q ∈ [windowRun ["q", "r"], windowRun ["q", "r"]].flatMap UpdateRun.pending,
        q.target = (windowRun []).target := by
      decide +kernel
    rw [htarget r hr, htarget w hw]
  exact (updateStage_transparent [windowRun ["q", "r"], windowRun ["q", "r"]] hsame
    (by decide +kernel) [windowRun ["q", "r"]] (windowRun ["q", "r"]) [] rfl).1

end Inim
