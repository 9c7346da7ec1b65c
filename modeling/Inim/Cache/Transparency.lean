import Inim.Cache.Rib
import Inim.Ingest.OriginOrder
import Inim.Lib.Runs

/-!
# Are the caches of the RIB stage transparent?

The module doc of `source_extract.rs` says that an extraction is the origin-matching entries of a
source whatever the predicate, that "filtering and cohort admission always run after loading",
and that runs with and without it are identical. Three things in `run_inner_impl` are otherwise:

* the entries saved as the extraction are those the predicate of the *saving* run holds of
  (`orchestrate.rs:402-425`);
* the entries loaded are not filtered by the predicate of the loading run (`:373-384`);
* a derived hit rebuilds every target stream with origin 0 and no path id (`:300-312`).

`ribStage_transparent`: in every history of runs over the same sources whose passes all meet
`PassOk`, every run obtains what it would with no cache, and every saved extraction is the full
one. `other_predicate_gets_filtered_extraction` is the case of two predicates.
-/

namespace Inim

open Inim.Lib

/-! ## What a pass parses -/

def BgpElem.pathAsns (e : BgpElem) : List UInt32 := (e.asPath.map (·.flatMap segmentAsns)).getD []

/-- The element comes through the parser's filter and matches the origins. -/
def RibRequest.originElem (r : RibRequest) (e : BgpElem) : Bool :=
  e.keptBy r.originAsns && e.originIn r.originAsns

def RibRequest.observe (r : RibRequest) : BgpElem × Nat → RouteObservation :=
  ribObservation r.archive.localPath r.archive.collector r.archive.url r.archive.sha

/-- All origin-matching entries of the source. -/
def fullExtraction (r : RibRequest) (elems : List BgpElem) : List RouteObservation :=
  (numberedBy (BgpElem.keptBy r.originAsns) (BgpElem.originIn r.originAsns) elems).map r.observe

/-- Those of them the predicate holds of. -/
def retainedExtraction (r : RibRequest) (elems : List BgpElem) : List RouteObservation :=
  (fullExtraction r elems).filter r.pred.matchesObs

theorem matchesObs_observe (r : RibRequest) (pred : TransitPredicate) (p : BgpElem × Nat) :
    pred.matchesObs (r.observe p) = pred.evaluate p.1.pathAsns := rfl

section Fresh
variable {parser : BgpkitParser} {r : RibRequest} {elems : List BgpElem}

theorem freshRib_ok (hf : parser.FiltersOrigin)
    (hopen : parser.openElems r.archive.localPath = .ok elems) :
    ∃ scan, freshRib parser r = .ok scan ∧ scan.obs = retainedExtraction r elems := by
  unfold freshRib RibRequest.context
  rw [fromLocalFile_rib r.archive.collector r.archive.url r.archive.sha hopen hf]
  refine ⟨_, ribScan_ok .., ?_⟩
  rw [originMatching_rib]
  rfl

theorem freshRib_error {e : String} (hopen : parser.openElems r.archive.localPath = .error e) :
    ∃ e', freshRib parser r = .error e' := by
  unfold freshRib fromLocalFile
  rw [hopen]
  exact ⟨_, rfl⟩

end Fresh

/-! ## When two listings number a source alike -/

theorem keep_of_mem_numberedBy {keep q : BgpElem → Bool} {elems : List BgpElem}
    {p : BgpElem × Nat} (h : p ∈ numberedBy keep q elems) : keep p.1 = true :=
  (List.mem_filter.1 (List.fst_mem_of_mem_zipIdx (List.mem_of_mem_filter h))).2

theorem numberedBy_eq_iff (keep keep' q : BgpElem → Bool) (elems : List BgpElem) :
    numberedBy keep q elems = numberedBy keep' q elems ↔
      ∀ pre e post, elems = pre ++ e :: post → q e = true →
        (keep e = keep' e ∧ (keep e = true → pre.countP keep = pre.countP keep')) := by
  induction elems using List.reverseRecOn with
  | nil => simp [numberedBy]
  | append_singleton elems e ih =>
    rw [numberedBy_concat, numberedBy_concat, forall_split_concat
      (P := fun pre e => q e = true →
        (keep e = keep' e ∧ (keep e = true → pre.countP keep = pre.countP keep'))), ← ih]
    cases hq : q e with
    | false => simp
    | true =>
      cases hk : keep e <;> cases hk' : keep' e
      · simp
      · -- an element one side keeps is not in what the other does
        have hno : numberedBy keep q elems ≠ numberedBy keep' q elems ++ [(e, elems.countP keep')] := by
          intro heq
          have hmem : (e, elems.countP keep') ∈ numberedBy keep q elems := by simp [heq]
          simpa [hk] using keep_of_mem_numberedBy hmem
        simpa using hno
      · have hno : numberedBy keep q elems ++ [(e, elems.countP keep)] ≠ numberedBy keep' q elems := by
          intro heq
          have hmem : (e, elems.countP keep) ∈ numberedBy keep' q elems := by simp [← heq]
          simpa [hk'] using keep_of_mem_numberedBy hmem
        simpa using hno
      · simp only [and_self, if_true, true_imp_iff, true_and]
        constructor
        · intro heq
          obtain ⟨h₁, h₂⟩ := List.append_inj' heq rfl
          simp only [List.cons.injEq, Prod.mk.injEq, true_and, and_true] at h₂
          exact ⟨h₁, h₂⟩
        · rintro ⟨h₁, h₂⟩
          rw [h₁, h₂]

/-! ## The invariant of the cache directory -/

section Stage
variable (digest : List UInt8 → String) (parser : BgpkitParser)

/-- What is assumed of the requests of a history: keys do not collide, and a checksum is that of
one file. -/
structure SameSources (requests : List RibRequest) : Prop where
  ribKey : ∀ r ∈ requests, ∀ r' ∈ requests, r'.ribKey digest = r.ribKey digest →
    r'.archive.sha = r.archive.sha ∧ r'.archive.collector = r.archive.collector ∧
      r'.originAsns = r.originAsns ∧ r'.pred = r.pred
  extractionKey : ∀ r ∈ requests, ∀ r' ∈ requests,
    r'.extractionKey digest = r.extractionKey digest →
    r'.archive.sha = r.archive.sha ∧ r'.archive.collector = r.archive.collector ∧
      ∀ a, a ∈ r'.originAsns ↔ a ∈ r.originAsns
  file : ∀ r ∈ requests, ∀ r' ∈ requests, r'.archive.sha = r.archive.sha →
    r'.archive.url = r.archive.url ∧ r'.archive.localPath = r.archive.localPath

/-- The derived cache is asked, and has a valid entry. -/
def derivedHit (c : CacheDir) (r : RibRequest) : Bool :=
  !(r.noDerivedCache || r.rebuildDerivedCache) &&
    (loadRibCache c (r.ribKey digest) r.archive.sha).2.isSome

/-- The condition on a pass: where the derived cache answers, no entry retained has an origin or
a path id to lose; where an extraction is saved or reused, the predicate holds of every
origin-matching entry, and every run that shares the extraction numbers them alike. -/
structure PassOk (requests : List RibRequest) (c : CacheDir) (r : RibRequest)
    (elems : List BgpElem) : Prop where
  derived : derivedHit digest c r = true → ∀ e ∈ elems, r.originElem e = true →
    r.pred.evaluate e.pathAsns = true → (e.originAsns.getD []).head?.getD 0 = 0 ∧ e.pathId = none
  predicate : derivedHit digest c r = false → r.noDerivedCache = false →
    ∀ e ∈ elems, r.originElem e = true → r.pred.evaluate e.pathAsns = true
  listing : derivedHit digest c r = false → r.noDerivedCache = false →
    (c.extracted (r.extractionKey digest)).isSome = true → ∀ b ∈ requests,
    b.extractionKey digest = r.extractionKey digest → ∀ pre e post, elems = pre ++ e :: post →
    e.originIn r.originAsns = true → (e.keptBy b.originAsns = e.keptBy r.originAsns ∧
      (e.keptBy b.originAsns = true → pre.countP (BgpElem.keptBy b.originAsns) =
        pre.countP (BgpElem.keptBy r.originAsns)))

/-- What the files in the cache directory are: derived entries those of a fresh parse, extractions
full ones. -/
structure CacheTrue (requests : List RibRequest) (c : CacheDir) : Prop where
  rib : ∀ r ∈ requests, ∀ entry, c.rib (r.ribKey digest) = some entry →
    ∃ elems, parser.openElems r.archive.localPath = .ok elems ∧
      entry = entryOf r (retainedExtraction r elems)
  extracted : ∀ r ∈ requests, ∀ obs, c.extracted (r.extractionKey digest) = some obs →
    ∃ b ∈ requests, b.extractionKey digest = r.extractionKey digest ∧
      ∃ elems, parser.openElems b.archive.localPath = .ok elems ∧ obs = fullExtraction b elems

variable {digest parser} {requests : List RibRequest} {c : CacheDir} {r w : RibRequest}
  {elems : List BgpElem}

theorem retainedExtraction_congr (elems : List BgpElem) (hs : SameSources digest requests)
    (hr : r ∈ requests) (hw : w ∈ requests) (hkey : w.ribKey digest = r.ribKey digest) :
    w.archive.localPath = r.archive.localPath ∧
      retainedExtraction w elems = retainedExtraction r elems ∧
      entryOf w (retainedExtraction w elems) = entryOf r (retainedExtraction r elems) := by
  obtain ⟨hsha, hcoll, horig, hpred⟩ := hs.ribKey r hr w hw hkey
  obtain ⟨hurl, hpath⟩ := hs.file r hr w hw hsha
  have hret : retainedExtraction w elems = retainedExtraction r elems := by
    simp only [retainedExtraction, fullExtraction, RibRequest.observe, hsha, hcoll, horig, hpred,
      hurl, hpath]
  refine ⟨hpath, hret, ?_⟩
  rw [hret]
  simp only [entryOf, hsha, hcoll, horig, hpred]

/-- Saving an entry of a fresh parse. -/
theorem CacheTrue.saveRibCache (h : CacheTrue digest parser requests c)
    (hs : SameSources digest requests) (hr : r ∈ requests)
    (hopen : parser.openElems r.archive.localPath = .ok elems) :
    CacheTrue digest parser requests (saveRibCache digest c r (retainedExtraction r elems)) := by
  refine ⟨fun q hq entry hentry => ?_, h.extracted⟩
  simp only [Inim.saveRibCache, Function.update_apply] at hentry
  split at hentry
  · next hkey =>
    cases hentry
    obtain ⟨hpath, -, hent⟩ := retainedExtraction_congr elems hs hr hq hkey
    exact ⟨elems, hpath ▸ hopen, hent.symm⟩
  · exact h.rib q hq entry hentry

/-- Saving a full extraction. -/
theorem CacheTrue.saveOriginExtraction (h : CacheTrue digest parser requests c) (hr : r ∈ requests)
    (hopen : parser.openElems r.archive.localPath = .ok elems) :
    CacheTrue digest parser requests
      (saveOriginExtraction digest c r (fullExtraction r elems)) := by
  refine ⟨h.rib, fun q hq obs hobs => ?_⟩
  simp only [Inim.saveOriginExtraction, Function.update_apply] at hobs
  split at hobs
  · next hkey =>
    cases hobs
    exact ⟨r, hr, hkey.symm, elems, hopen, rfl⟩
  · exact h.extracted q hq obs hobs

theorem CacheTrue.loadRibCache (h : CacheTrue digest parser requests c) (key sourceSha : String) :
    CacheTrue digest parser requests (loadRibCache c key sourceSha).1 := by
  unfold Inim.loadRibCache
  split
  · exact h
  · split
    · exact h
    · refine ⟨fun q hq entry hentry => ?_, h.extracted⟩
      simp only [Function.update_apply] at hentry
      split at hentry
      · cases hentry
      · exact h.rib q hq entry hentry

/-- A predicate that holds of all origin-matching entries filters none. -/
theorem retainedExtraction_eq_full
    (h : ∀ e ∈ elems, r.originElem e = true → r.pred.evaluate e.pathAsns = true) :
    retainedExtraction r elems = fullExtraction r elems := by
  refine List.filter_eq_self.2 fun o ho => ?_
  obtain ⟨p, hp, rfl⟩ := List.mem_map.1 ho
  rw [matchesObs_observe]
  have hkept := keep_of_mem_numberedBy hp
  have horig : p.1.originIn r.originAsns = true := (List.mem_filter.1 hp).2
  have hmem : p.1 ∈ elems :=
    List.mem_of_mem_filter (List.fst_mem_of_mem_zipIdx (List.mem_of_mem_filter hp))
  exact h p.1 hmem (by simp [RibRequest.originElem, hkept, horig])

/-- The extraction of a request that numbers the source alike. -/
theorem fullExtraction_congr (hs : SameSources digest requests) (hr : r ∈ requests)
    (hw : w ∈ requests) (hkey : w.extractionKey digest = r.extractionKey digest)
    (hnum : ∀ pre e post, elems = pre ++ e :: post → e.originIn r.originAsns = true →
      (e.keptBy w.originAsns = e.keptBy r.originAsns ∧ (e.keptBy w.originAsns = true →
        pre.countP (BgpElem.keptBy w.originAsns) = pre.countP (BgpElem.keptBy r.originAsns)))) :
    w.archive.localPath = r.archive.localPath ∧ fullExtraction w elems = fullExtraction r elems := by
  obtain ⟨hsha, hcoll, horig⟩ := hs.extractionKey r hr w hw hkey
  obtain ⟨hurl, hpath⟩ := hs.file r hr w hw hsha
  have hin : BgpElem.originIn w.originAsns = BgpElem.originIn r.originAsns := by
    funext e
    rw [Bool.eq_iff_iff]
    simp only [BgpElem.originIn, Option.any_eq_true, List.contains_iff_mem, horig]
  refine ⟨hpath, ?_⟩
  rw [fullExtraction, fullExtraction, hin, (numberedBy_eq_iff _ _ _ _).2 hnum]
  simp only [RibRequest.observe, hsha, hcoll, hurl, hpath]

end Stage

/-! ## What a derived hit rebuilds -/

section Derived

theorem foldl_extend (collector : String) (l : List TargetStream) :
    l.foldl (fun (t : TargetSet) s => t.extend collector [s]) [] =
      if l = [] then [] else [(collector, l)] := by
  induction l using List.reverseRecOn with
  | nil => rfl
  | append_singleton l s ih =>
    rw [List.foldl_append, ih]
    by_cases hl : l = []
    · subst hl
      rfl
    · simp [hl, TargetSet.extend]

/-- The loop over one collector's entries extends by the streams they give. -/
theorem foldl_streams {targets : List UInt32} {pred : TransitPredicate} {collector : String}
    {f : TargetSet → RouteObservation → TargetSet}
    (hf : ∀ t o, f t o = (streamOf targets pred o).elim t fun s => t.extend o.collector [s])
    {obs : List RouteObservation} (hc : ∀ o ∈ obs, o.collector = collector) (t : TargetSet) :
    obs.foldl f t = (obs.filterMap (streamOf targets pred)).foldl
      (fun (t : TargetSet) s => t.extend collector [s]) t := by
  induction obs generalizing t with
  | nil => rfl
  | cons o obs ih =>
    have ih := ih fun o ho => hc o (by simp [ho])
    rw [List.foldl_cons, ih, hf, hc o (by simp)]
    cases hs : streamOf targets pred o with
    | none => rw [List.filterMap_cons_none hs, Option.elim_none]
    | some s => rw [List.filterMap_cons_some hs, Option.elim_some, List.foldl_cons]

/-- The target set of one collector's entries. -/
theorem scanRibAndFreeze_single {obs : List RouteObservation} {collector : String}
    (hc : ∀ o ∈ obs, o.collector = collector) (targets : List UInt32) (pred : TransitPredicate) :
    scanRibAndFreeze obs targets pred =
      if obs.filterMap (streamOf targets pred) = [] then []
      else [(collector, freezeEntries (obs.filterMap (streamOf targets pred)))] := by
  unfold scanRibAndFreeze
  dsimp only
  rw [foldl_streams (fun t o => by cases streamOf targets pred o <;> rfl) hc, foldl_extend]
  split <;> rfl

theorem mem_of_mem_freezeEntries {s : TargetStream} {l : List TargetStream}
    (h : s ∈ freezeEntries l) : s ∈ l :=
  mem_sortBy.1 ((dedupByKey_sublist _ _).subset h)

/-- Nothing is lost if the streams have neither origin nor path id. -/
theorem answerOfEntry_eq {r : RibRequest} {obs : List RouteObservation}
    (hc : ∀ o ∈ obs, o.collector = r.archive.collector)
    (h : ∀ o ∈ obs, ∀ s, streamOf r.originAsns r.pred o = some s → s.originAs = 0 ∧ s.pathId = none) :
    answerOfEntry r (entryOf r obs) = answerOf r obs := by
  have hsame : ∀ s ∈ freezeEntries (obs.filterMap (streamOf r.originAsns r.pred)),
      rebuiltStream (cachedStream s) = s := by
    intro s hs
    obtain ⟨o, ho, hos⟩ := List.mem_filterMap.1 (mem_of_mem_freezeEntries hs)
    obtain ⟨h0, hnone⟩ := h o ho s hos
    obtain ⟨peer, pfx, originAs, asPath, pathId⟩ := s
    cases h0
    cases hnone
    rfl
  unfold answerOfEntry answerOf entryOf
  rw [scanRibAndFreeze_single hc]
  refine congrArg (RibAnswer.mk · obs) ?_
  by_cases hnil : obs.filterMap (streamOf r.originAsns r.pred) = []
  · rw [if_pos hnil]
    rfl
  · have hne : freezeEntries (obs.filterMap (streamOf r.originAsns r.pred)) ≠ [] := by
      obtain ⟨s, hs⟩ := List.exists_mem_of_ne_nil _ hnil
      obtain ⟨s', hs', -⟩ := exists_mem_dedupByKey (fun s : TargetStream => (s.peerIp, s.pfx))
        (mem_sortBy.2 hs : s ∈ sortBy streamOrder _)
      exact List.ne_nil_of_mem hs'
    have hfind : TargetSet.streams
        [(r.archive.collector, freezeEntries (obs.filterMap (streamOf r.originAsns r.pred)))]
        r.archive.collector =
          some (freezeEntries (obs.filterMap (streamOf r.originAsns r.pred))) := by
      simp [TargetSet.streams]
    have hmap : ((freezeEntries (obs.filterMap (streamOf r.originAsns r.pred))).map
        cachedStream).map rebuiltStream =
          freezeEntries (obs.filterMap (streamOf r.originAsns r.pred)) := by
      rw [List.map_map]
      exact (List.map_congr_left hsame).trans (List.map_id' _)
    have hfold := foldl_extend r.archive.collector
      (((freezeEntries (obs.filterMap (streamOf r.originAsns r.pred))).map cachedStream).map
        rebuiltStream)
    rw [List.foldl_map, hmap, if_neg hne] at hfold
    rw [if_neg hnil, hfind, Option.getD_some]
    exact hfold

end Derived

/-! ## One pass -/

section Pass
variable {digest : List UInt8 → String} {parser : BgpkitParser} {requests : List RibRequest}
  {c c' : CacheDir} {r : RibRequest} {elems : List BgpElem}

theorem ribFresh_ok (hf : parser.FiltersOrigin)
    (hopen : parser.openElems r.archive.localPath = .ok elems) :
    ribFresh parser r = .ok (answerOf r (retainedExtraction r elems)) := by
  obtain ⟨scan, hscan, hobs⟩ := freshRib_ok hf hopen
  rw [ribFresh, hscan, ← hobs]
  rfl

/-- An element of a retained entry. -/
theorem of_mem_retainedExtraction {o : RouteObservation} (h : o ∈ retainedExtraction r elems) :
    ∃ p : BgpElem × Nat, o = r.observe p ∧ p.1 ∈ elems ∧ r.originElem p.1 = true ∧
      r.pred.evaluate p.1.pathAsns = true := by
  obtain ⟨hmem, hpred⟩ := List.mem_filter.1 h
  obtain ⟨p, hp, rfl⟩ := List.mem_map.1 hmem
  have hkept := keep_of_mem_numberedBy hp
  have horig : p.1.originIn r.originAsns = true := (List.mem_filter.1 hp).2
  exact ⟨p, rfl, List.mem_of_mem_filter (List.fst_mem_of_mem_zipIdx (List.mem_of_mem_filter hp)),
    by simp [RibRequest.originElem, hkept, horig], hpred⟩

/-- A derived hit answers as a fresh parse would. -/
theorem derived_answer (h : ∀ e ∈ elems, r.originElem e = true →
      r.pred.evaluate e.pathAsns = true → (e.originAsns.getD []).head?.getD 0 = 0 ∧ e.pathId = none) :
    answerOfEntry r (entryOf r (retainedExtraction r elems)) =
      answerOf r (retainedExtraction r elems) := by
  refine answerOfEntry_eq (fun o ho => ?_) fun o ho s hs => ?_
  · obtain ⟨p, rfl, -⟩ := of_mem_retainedExtraction ho
    rfl
  · obtain ⟨p, rfl, hmem, horig, hpred⟩ := of_mem_retainedExtraction ho
    obtain ⟨h0, hnone⟩ := h p.1 hmem horig hpred
    simp only [streamOf, bind, Option.bind_eq_some_iff, Option.guard_eq_some'] at hs
    obtain ⟨-, -, a, ha, -, -, -, -, hs⟩ := hs
    cases hs
    cases ha
    exact ⟨h0, hnone⟩

theorem loadRibCache_some {key sourceSha : String} {entry : RibCacheEntry}
    (h : (loadRibCache c key sourceSha).2 = some entry) :
    c.rib key = some entry ∧ (loadRibCache c key sourceSha).1 = c := by
  unfold loadRibCache at h ⊢
  split at h
  · cases h
  · next e he =>
    split at h
    · next hvalid =>
      cases h
      simp [he, hvalid]
    · cases h

theorem extracted_loadRibCache (c : CacheDir) (key sourceSha : String) :
    (loadRibCache c key sourceSha).1.extracted = c.extracted := by
  unfold loadRibCache
  split
  · rfl
  · split <;> rfl

/-- What a pass does when the derived cache gives nothing. -/
def ribMiss (digest : List UInt8 → String) (parser : BgpkitParser) (c : CacheDir) (r : RibRequest) :
    CacheDir × Except String RibAnswer :=
  match if r.noDerivedCache then none else c.extracted (r.extractionKey digest) with
  | some reused => (saveRibCache digest c r reused, .ok (answerOf r reused))
  | none =>
    match freshRib parser r with
    | .error e => (c, .error e)
    | .ok scan =>
      let c := if r.noDerivedCache then c else saveOriginExtraction digest c r scan.obs
      (saveRibCache digest c r scan.obs, .ok (answerOf r scan.obs))

theorem ribStep_eq (digest : List UInt8 → String) (parser : BgpkitParser) (c : CacheDir)
    (r : RibRequest) :
    ribStep digest parser c r =
      if r.noDerivedCache || r.rebuildDerivedCache then ribMiss digest parser c r
      else match (loadRibCache c (r.ribKey digest) r.archive.sha).2 with
        | some entry => ((loadRibCache c (r.ribKey digest) r.archive.sha).1,
            .ok (answerOfEntry r entry))
        | none => ribMiss digest parser (loadRibCache c (r.ribKey digest) r.archive.sha).1 r := by
  unfold ribStep ribMiss
  split
  · rfl
  · cases loadRibCache c (r.ribKey digest) r.archive.sha with
    | mk c₁ o => cases o <;> rfl

/-- A pass past the derived cache: the predicate holds of all it saves or reuses, and what it
reuses is numbered as it would number it. -/
theorem ribMiss_true (hf : parser.FiltersOrigin) (hs : SameSources digest requests)
    (h : CacheTrue digest parser requests c) (hr : r ∈ requests)
    (hpred : ∀ elems, parser.openElems r.archive.localPath = .ok elems → r.noDerivedCache = false →
      ∀ e ∈ elems, r.originElem e = true → r.pred.evaluate e.pathAsns = true)
    (hlist : ∀ elems, parser.openElems r.archive.localPath = .ok elems → r.noDerivedCache = false →
      (c.extracted (r.extractionKey digest)).isSome = true → ∀ b ∈ requests,
      b.extractionKey digest = r.extractionKey digest → fullExtraction b elems = fullExtraction r elems) :
    CacheTrue digest parser requests (ribMiss digest parser c r).1 ∧
      (ribMiss digest parser c r).2 = ribFresh parser r := by
  unfold ribMiss
  cases hno : r.noDerivedCache with
  | true =>
    rw [if_pos rfl]
    cases hopen : parser.openElems r.archive.localPath with
    | error e =>
      obtain ⟨e', he'⟩ := freshRib_error hopen
      simp only [he', ribFresh]
      exact ⟨h, rfl⟩
    | ok elems =>
      obtain ⟨scan, hscan, hobs⟩ := freshRib_ok hf hopen
      rw [ribFresh_ok hf hopen]
      simp only [hscan, hobs, if_true]
      exact ⟨h.saveRibCache hs hr hopen, trivial⟩
  | false =>
    rw [if_neg (by simp)]
    cases hex : c.extracted (r.extractionKey digest) with
    | some reused =>
      obtain ⟨b, hb, hkey, elems, hopen, rfl⟩ := h.extracted r hr reused hex
      obtain ⟨hsha, -⟩ := hs.extractionKey r hr b hb hkey
      obtain ⟨-, hpath⟩ := hs.file r hr b hb hsha
      rw [hpath] at hopen
      have hfull := hlist elems hopen hno (by rw [hex]; rfl) b hb hkey
      rw [← retainedExtraction_eq_full (hpred elems hopen hno)] at hfull
      simp only [hfull, ribFresh_ok hf hopen]
      exact ⟨h.saveRibCache hs hr hopen, trivial⟩
    | none =>
      cases hopen : parser.openElems r.archive.localPath with
      | error e =>
        obtain ⟨e', he'⟩ := freshRib_error hopen
        simp only [he', ribFresh]
        exact ⟨h, rfl⟩
      | ok elems =>
        obtain ⟨scan, hscan, hobs⟩ := freshRib_ok hf hopen
        rw [ribFresh_ok hf hopen]
        simp only [hscan, hobs, Bool.false_eq_true, if_false]
        refine ⟨CacheTrue.saveRibCache ?_ hs hr hopen, trivial⟩
        rw [retainedExtraction_eq_full (hpred elems hopen hno)]
        exact h.saveOriginExtraction hr hopen

theorem ribStep_true (hf : parser.FiltersOrigin) (hs : SameSources digest requests)
    (h : CacheTrue digest parser requests c) (hr : r ∈ requests)
    (hok : ∀ elems, parser.openElems r.archive.localPath = .ok elems →
      PassOk digest requests c r elems) :
    CacheTrue digest parser requests (ribStep digest parser c r).1 ∧
      (ribStep digest parser c r).2 = ribFresh parser r := by
  have hmiss : ∀ c₁, CacheTrue digest parser requests c₁ → c₁.extracted = c.extracted →
      derivedHit digest c r = false → CacheTrue digest parser requests (ribMiss digest parser c₁ r).1 ∧
        (ribMiss digest parser c₁ r).2 = ribFresh parser r := by
    intro c₁ h₁ hext hhit
    refine ribMiss_true hf hs h₁ hr (fun elems hopen => (hok elems hopen).predicate hhit) ?_
    intro elems hopen hno hsome b hb hkey
    rw [hext] at hsome
    exact (fullExtraction_congr hs hr hb hkey
      ((hok elems hopen).listing hhit hno hsome b hb hkey)).2
  rw [ribStep_eq]
  split
  · next hoff => exact hmiss c h rfl (by simp [derivedHit, hoff])
  · next hon =>
    split
    · next entry hentry =>
      obtain ⟨hrib, hsame⟩ := loadRibCache_some hentry
      obtain ⟨elems, hopen, rfl⟩ := h.rib r hr entry hrib
      have hhit : derivedHit digest c r = true := by simp [derivedHit, hon, hentry]
      rw [hsame, ribFresh_ok hf hopen, derived_answer ((hok elems hopen).derived hhit)]
      exact ⟨h, rfl⟩
    · next hnone =>
      exact hmiss _ (h.loadRibCache _ _) (extracted_loadRibCache ..) (by simp [derivedHit, hnone])

/-! ## Runs and histories -/

variable (digest parser requests) in
/-- Every pass of the loop meets the condition where it is taken. -/
def LoopOk : CacheDir → List RibRequest → Prop
  | _, [] => True
  | c, r :: rest =>
    (∀ elems, parser.openElems r.archive.localPath = .ok elems → PassOk digest requests c r elems) ∧
      ((ribStep digest parser c r).2.isOk = true → LoopOk (ribStep digest parser c r).1 rest)

theorem ribLoop_true (hf : parser.FiltersOrigin) (hs : SameSources digest requests)
    {rs : List RibRequest} (hrs : ∀ r ∈ rs, r ∈ requests)
    (h : CacheTrue digest parser requests c) (hok : LoopOk digest parser requests c rs)
    (acc : RibAnswer) :
    CacheTrue digest parser requests (ribLoop digest parser c acc rs).1 ∧
      (ribLoop digest parser c acc rs).2 = ribLoopFresh parser acc rs := by
  induction rs generalizing c acc with
  | nil => exact ⟨h, rfl⟩
  | cons r rs ih =>
    obtain ⟨hpass, hrest⟩ := hok
    obtain ⟨hc, hans⟩ := ribStep_true hf hs h (hrs r (by simp)) hpass
    unfold ribLoop ribLoopFresh
    cases hstep : ribStep digest parser c r with
    | mk c₁ res =>
      rw [hstep] at hc hans hrest
      dsimp only at hc hans
      rw [← hans]
      cases res with
      | error e => exact ⟨hc, rfl⟩
      | ok answer => exact ih (fun q hq => hrs q (by simp [hq])) hc (hrest rfl) (acc.add answer)

variable (digest parser) in
def cacheStep (c : CacheDir) (x : RibRun) : CacheDir := (ribStage digest parser c x).1

/-- One run: every pass of it answers as it would with no cache. -/
theorem ribStage_true (hf : parser.FiltersOrigin) (hs : SameSources digest requests) {x : RibRun}
    (hx : ∀ r ∈ x.requests, r ∈ requests) (h : CacheTrue digest parser requests c)
    (hok : LoopOk digest parser requests c x.requests) :
    CacheTrue digest parser requests (ribStage digest parser c x).1 ∧
      (ribStage digest parser c x).2 = ribStageFresh parser x := by
  obtain ⟨hc, hans⟩ := ribLoop_true hf hs hx h hok ⟨[], []⟩
  exact ⟨hc, congrArg (Except.map x.outcome) hans⟩

/-- Over any history whose passes all meet the condition, every run obtains what it would with no
cache, and what it leaves as an extraction is a full one. -/
theorem ribStage_transparent (hf : parser.FiltersOrigin) (runs : List RibRun)
    (hs : SameSources digest (runs.flatMap RibRun.requests))
    (hok : Along (cacheStep digest parser)
      (fun c x => LoopOk digest parser (runs.flatMap RibRun.requests) c x.requests) .empty runs) :
    ∀ pre x post, runs = pre ++ x :: post →
      (ribStage digest parser (run (cacheStep digest parser) .empty pre) x).2 = ribStageFresh parser x ∧
      ∀ r ∈ x.requests, ∀ obs,
        (ribStage digest parser (run (cacheStep digest parser) .empty pre) x).1.extracted
          (r.extractionKey digest) = some obs →
        ∃ b ∈ runs.flatMap RibRun.requests, b.extractionKey digest = r.extractionKey digest ∧
          ∃ elems, parser.openElems b.archive.localPath = .ok elems ∧ obs = fullExtraction b elems := by
  intro pre x post heq
  have hmem : ∀ y ∈ runs, ∀ r ∈ y.requests, r ∈ runs.flatMap RibRun.requests := fun y hy r hr =>
    List.mem_flatMap.2 ⟨y, hy, hr⟩
  have hempty : CacheTrue digest parser (runs.flatMap RibRun.requests) .empty :=
    ⟨fun _ _ _ h => (Option.some_ne_none _ h.symm).elim,
      fun _ _ _ h => (Option.some_ne_none _ h.symm).elim⟩
  -- the steps of the machine are those of runs in the history
  obtain ⟨hcache, hx, hloop⟩ := along_split
    (P := CacheTrue digest parser (runs.flatMap RibRun.requests))
    (Q := fun c x => x ∈ runs ∧ LoopOk digest parser (runs.flatMap RibRun.requests) c x.requests)
    hempty (fun c y h hy => (ribStage_true hf hs (hmem y hy.1) h hy.2).1)
    (along_mem hok) heq
  obtain ⟨htrue, hans⟩ := ribStage_true hf hs (hmem x hx) hcache hloop
  exact ⟨hans, fun r hr obs hobs => htrue.extracted r (hmem x hx r hr) obs hobs⟩

/-- The first run over an empty cache directory. -/
theorem ribStep_empty (hf : parser.FiltersOrigin)
    (hopen : parser.openElems r.archive.localPath = .ok elems) (hon : r.noDerivedCache = false) :
    ribStep digest parser .empty r =
      (saveRibCache digest (saveOriginExtraction digest .empty r (retainedExtraction r elems)) r
        (retainedExtraction r elems), .ok (answerOf r (retainedExtraction r elems))) := by
  obtain ⟨scan, hscan, hobs⟩ := freshRib_ok hf hopen
  have hmiss : ribMiss digest parser .empty r =
      (saveRibCache digest (saveOriginExtraction digest .empty r (retainedExtraction r elems)) r
        (retainedExtraction r elems), .ok (answerOf r (retainedExtraction r elems))) := by
    simp [ribMiss, hon, CacheDir.empty, hscan, hobs]
  rw [ribStep_eq]
  split
  · exact hmiss
  · exact hmiss

/-- After it, a request under another derived key and the same extraction key gets what the first
one retained. -/
theorem ribStep_reuses (hf : parser.FiltersOrigin)
    (hopen : parser.openElems w.archive.localPath = .ok elems) (hw : w.noDerivedCache = false)
    (hr : r.noDerivedCache = false) (hkey : r.extractionKey digest = w.extractionKey digest)
    (hrib : r.ribKey digest ≠ w.ribKey digest) :
    derivedHit digest (ribStep digest parser .empty w).1 r = false ∧
      (ribStep digest parser (ribStep digest parser .empty w).1 r).2 =
        .ok (answerOf r (retainedExtraction w elems)) := by
  rw [ribStep_empty hf hopen hw]
  have hload : loadRibCache (saveRibCache digest (saveOriginExtraction digest .empty w
      (retainedExtraction w elems)) w (retainedExtraction w elems)) (r.ribKey digest) r.archive.sha =
      (saveRibCache digest (saveOriginExtraction digest .empty w
        (retainedExtraction w elems)) w (retainedExtraction w elems), none) := by
    simp [loadRibCache, saveRibCache, saveOriginExtraction, Function.update_of_ne hrib,
      CacheDir.empty]
  refine ⟨by simp [derivedHit, hload], ?_⟩
  rw [ribStep_eq, hload]
  have hmiss : (ribMiss digest parser (saveRibCache digest (saveOriginExtraction digest .empty w
      (retainedExtraction w elems)) w (retainedExtraction w elems)) r).2 =
        .ok (answerOf r (retainedExtraction w elems)) := by
    simp [ribMiss, hr, saveRibCache, saveOriginExtraction, hkey]
  split
  · exact hmiss
  · exact hmiss

end Pass

/-! ### Two predicates over one source -/

namespace TwoOrigins

/-- A digest that keeps its input. -/
def keepBytes (l : List UInt8) : String := String.ofList (l.map fun b => Char.ofNat b.toNat)

/-- A run over the dump. -/
def dumpRun (asn : UInt32) : RibRun where
  family := .routeViews
  revision := 1
  originAsns := [65001]
  pred := .containsAny [asn]
  noDerivedCache := false
  rebuildDerivedCache := false
  archives := [⟨"rv", "u", "s", "rib.gz"⟩]

def dumpRequest (asn : UInt32) : RibRequest := (dumpRun asn).request ⟨"rv", "u", "s", "rib.gz"⟩

theorem ribStage_dumpRun (digest : List UInt8 → String) (c : CacheDir) (asn : UInt32) :
    ribStage digest parser c (dumpRun asn) = ((ribStep digest parser c (dumpRequest asn)).1,
      (ribStep digest parser c (dumpRequest asn)).2.map fun answer =>
        (dumpRun asn).outcome (RibAnswer.add ⟨[], []⟩ answer)) := by
  unfold ribStage RibRun.requests dumpRequest
  simp only [dumpRun, List.map_cons, List.map_nil, ribLoop]
  split <;> simp_all [Except.map]

theorem extractionKey_dumpRequest (digest : List UInt8 → String) (a b : UInt32) :
    (dumpRequest a).extractionKey digest = (dumpRequest b).extractionKey digest := rfl

theorem ribStageFresh_dumpRun (asn : UInt32) :
    ribStageFresh parser (dumpRun asn) = .ok ((dumpRun asn).outcome
      (RibAnswer.add ⟨[], []⟩ (answerOf (dumpRequest asn) (retainedExtraction (dumpRequest asn) dump)))) := by
  have hfresh : ribFresh parser (dumpRequest asn) =
      .ok (answerOf (dumpRequest asn) (retainedExtraction (dumpRequest asn) dump)) :=
    ribFresh_ok parser_filtersOrigin rfl
  change (ribLoopFresh parser ⟨[], []⟩ [dumpRequest asn]).map (dumpRun asn).outcome = _
  simp only [ribLoopFresh, hfresh]
  rfl

end TwoOrigins

open TwoOrigins in
/-- **Bug**: what one predicate filtered is reused for another. -/
theorem other_predicate_gets_filtered_extraction :
    ((ribStage keepBytes parser (run (cacheStep keepBytes parser) .empty [dumpRun 1])
        (dumpRun 64500)).2.map fun o => o.observations.length) = .ok 0 ∧
      ((ribStageFresh parser (dumpRun 64500)).map fun o => o.observations.length) = .ok 1 := by
  have hopen : parser.openElems (dumpRequest 1).archive.localPath = .ok dump := rfl
  constructor
  · rw [run_cons, run_nil, cacheStep, ribStage_dumpRun, ribStage_dumpRun]
    dsimp only
    have hkeys : (dumpRequest 64500).ribKey keepBytes ≠ (dumpRequest 1).ribKey keepBytes := by
      decide +kernel
    rw [(ribStep_reuses parser_filtersOrigin hopen rfl rfl (extractionKey_dumpRequest ..) hkeys).2]
    decide +kernel
  · rw [ribStageFresh_dumpRun]
    decide +kernel

open TwoOrigins in
/-- Two predicates that hold of every entry of the source. -/
theorem ribStage_transparent_twice :
    ((ribStage keepBytes parser (run (cacheStep keepBytes parser) .empty [dumpRun 64500])
      (dumpRun 65001)).2 = ribStageFresh parser (dumpRun 65001)) := by
  have hmem : ∀ r ∈ [dumpRun 64500, dumpRun 65001].flatMap RibRun.requests,
      r = dumpRequest 64500 ∨ r = dumpRequest 65001 := by
    intro r hr
    simpa [dumpRun, RibRun.requests, dumpRequest] using hr
  have hkeys : (dumpRequest 64500).ribKey keepBytes ≠ (dumpRequest 65001).ribKey keepBytes := by
    decide +kernel
  have hsame : SameSources keepBytes ([dumpRun 64500, dumpRun 65001].flatMap RibRun.requests) := by
    refine ⟨fun r hr w hw hkey => ?_, fun r hr w hw _ => ?_, fun r hr w hw _ => ?_⟩
    · rcases hmem r hr with rfl | rfl <;> rcases hmem w hw with rfl | rfl
      · exact ⟨rfl, rfl, rfl, rfl⟩
      · exact absurd hkey.symm hkeys
      · exact absurd hkey hkeys
      · exact ⟨rfl, rfl, rfl, rfl⟩
    · rcases hmem r hr with rfl | rfl <;> rcases hmem w hw with rfl | rfl <;>
        exact ⟨rfl, rfl, fun _ => Iff.rfl⟩
    · rcases hmem r hr with rfl | rfl <;> rcases hmem w hw with rfl | rfl <;> exact ⟨rfl, rfl⟩
  have hopen : ∀ asn elems, parser.openElems (dumpRequest asn).archive.localPath = .ok elems →
      elems = dump := fun asn elems h => (Except.ok.inj h).symm
  have hholds : ∀ asn : UInt32, asn = 64500 ∨ asn = 65001 → ∀ e ∈ dump,
      (dumpRequest asn).originElem e = true → (dumpRequest asn).pred.evaluate e.pathAsns = true := by
    rintro asn (rfl | rfl)
    · decide +kernel
    · decide +kernel
  have hlisting : ∀ asn : UInt32, ∀ b ∈ [dumpRun 64500, dumpRun 65001].flatMap RibRun.requests,
      b.originAsns = (dumpRequest asn).originAsns := by
    intro asn b hb
    rcases hmem b hb with rfl | rfl <;> rfl
  have hpass : ∀ c asn, asn = 64500 ∨ asn = 65001 → derivedHit keepBytes c (dumpRequest asn) = false →
      ∀ elems, parser.openElems (dumpRequest asn).archive.localPath = .ok elems →
        PassOk keepBytes ([dumpRun 64500, dumpRun 65001].flatMap RibRun.requests) c
          (dumpRequest asn) elems := by
    intro c asn hasn hhit elems h
    obtain rfl := hopen asn elems h
    refine ⟨fun hd => absurd hd (by simp [hhit]), fun _ _ => hholds asn hasn, ?_⟩
    intro _ _ _ b hb _ pre e post _ _
    rw [hlisting asn b hb]
    exact ⟨rfl, fun _ => rfl⟩
  refine (ribStage_transparent parser_filtersOrigin [dumpRun 64500, dumpRun 65001] hsame ?_
    [dumpRun 64500] (dumpRun 65001) [] rfl).1
  refine ⟨⟨hpass .empty 64500 (.inl rfl) rfl, fun _ => trivial⟩,
    ⟨hpass _ 65001 (.inr rfl) ?_, fun _ => trivial⟩, trivial⟩
  rw [cacheStep, ribStage_dumpRun]
  exact (ribStep_reuses parser_filtersOrigin rfl rfl rfl (extractionKey_dumpRequest ..)
    hkeys.symm).1

end Inim
