import Inim.Cache.Updates
import Inim.Domain.IpText

/-!
# The target set and the cohort are one set of streams (`target.rs:40-104`, `cohort.rs:37-118`)

`scan_rib_and_freeze` filters entry by entry and drops repeats after a sort on texts;
`freeze_cohort` groups the entries by stream and asks whether one of them satisfies the predicate.
Both admit the same streams, each once (`streamKeys_scan_perm`), and the hashes taken from them
agree. The target sets are merged one after the other and `merge` only appends: the merged set
lists each stream once as long as no stream is frozen in two of them (`mergedKeys_nodup_iff`).

| here | there |
| --- | --- |
| `TargetSet.entries`, `TargetSet.streamKeys` | all `(collector, stream)` of a target set; their keys |
| `mergeTargets`  | the merges of `run_inner_impl` (`orchestrate.rs:317`, `:485`) |
| `cohortHash`    | `cohort_hash` (`derived_cache.rs:239`) |
-/

namespace Inim

open Std Inim.Lib

/-! ## Entries and keys -/

namespace TargetSet

def entries (t : TargetSet) : List (String × TargetStream) := t.flatMap fun e => e.2.map (e.1, ·)

def keyOf (e : String × TargetStream) : ObserverPrefixKey := ⟨e.1, e.2.peerIp, e.2.pfx⟩

/-- The streams of the set, as often as they stand there. -/
def streamKeys (t : TargetSet) : List ObserverPrefixKey := t.entries.map keyOf

/-- A hash map has one entry for each collector. -/
def Distinct (t : TargetSet) : Prop := (t.map Prod.fst).Nodup

section
variable {t u : TargetSet} {collector : String} {l : List TargetStream}

theorem fst_extend : (t.extend collector l).map Prod.fst =
    if t.any (·.1 = collector) then t.map Prod.fst else t.map Prod.fst ++ [collector] := by
  unfold extend
  split
  · rw [List.map_map]
    refine List.map_congr_left fun e _ => ?_
    simp only [Function.comp_apply]
    split <;> rfl
  · rw [List.map_append]
    rfl

theorem Distinct.extend (h : t.Distinct) : (t.extend collector l).Distinct := by
  unfold Distinct at *
  rw [fst_extend]
  split
  · exact h
  · next hno =>
    refine List.nodup_append'.2 ⟨h, List.nodup_singleton _, ?_⟩
    rintro c hc hc'
    obtain ⟨e, he, rfl⟩ := List.mem_map.1 hc
    exact hno (List.any_eq_true.2 ⟨e, he, decide_eq_true (List.mem_singleton.1 hc')⟩)

theorem entries_cons (e : String × List TargetStream) (t : TargetSet) :
    entries (e :: t) = e.2.map (e.1, ·) ++ entries t := rfl

/-- The collector's entry takes the streams. -/
theorem entries_extend (h : t.Distinct) :
    (t.extend collector l).entries.Perm (t.entries ++ l.map (collector, ·)) := by
  unfold TargetSet.extend
  split
  · next hany =>
    induction t with
    | nil => cases hany
    | cons e t ih =>
      obtain ⟨hnot, ht⟩ := List.nodup_cons.1 h
      rw [List.map_cons, entries_cons, entries_cons]
      by_cases he : e.1 = collector
      · -- no other entry has this collector
        have hrest : (t.map fun e => if e.1 = collector then (e.1, e.2 ++ l) else e) = t := by
          refine (List.map_congr_left fun e' he' => ?_).trans (List.map_id t)
          refine if_neg fun hc => hnot ?_
          rw [he, ← hc]
          exact List.mem_map_of_mem he'
        rw [hrest, if_pos he, List.map_append, he, List.append_assoc, List.append_assoc]
        exact List.Perm.append_left _ List.perm_append_comm
      · have hany' : (t.any (·.1 = collector)) = true := by
          rw [List.any_cons, decide_eq_false he, Bool.false_or] at hany
          exact hany
        rw [if_neg he, List.append_assoc]
        exact (ih ht hany').append_left _
  · simp [entries]

end

/-- `merge` appends. -/
theorem merge_entries {t : TargetSet} (h : t.Distinct) (u : TargetSet) :
    (t.merge u).Distinct ∧ (t.merge u).entries.Perm (t.entries ++ u.entries) := by
  unfold TargetSet.merge
  induction u generalizing t with
  | nil => exact ⟨h, by rw [List.foldl_nil]; simp [entries]⟩
  | cons e u ih =>
    obtain ⟨hd, hp⟩ := ih (t := t.extend e.1 e.2) h.extend
    refine ⟨hd, hp.trans ?_⟩
    rw [entries_cons, ← List.append_assoc]
    exact (entries_extend h).append_right _

end TargetSet

/-- The target sets merged one after the other into an empty one. -/
def mergeTargets (ts : List TargetSet) : TargetSet := ts.foldl TargetSet.merge []

theorem mergeTargets_entries (ts : List TargetSet) :
    (mergeTargets ts).entries.Perm (ts.flatMap TargetSet.entries) := by
  have hfold : ∀ (ts : List TargetSet) (t : TargetSet), t.Distinct →
      (ts.foldl TargetSet.merge t).entries.Perm (t.entries ++ ts.flatMap TargetSet.entries) := by
    intro ts
    induction ts with
    | nil => intro t _; simp
    | cons u ts ih =>
      intro t ht
      obtain ⟨hd, hp⟩ := TargetSet.merge_entries ht u
      refine (ih _ hd).trans ?_
      rw [List.flatMap_cons, ← List.append_assoc]
      exact hp.append_right _
  exact hfold ts [] List.nodup_nil

theorem mergedKeys_perm (ts : List TargetSet) :
    (mergeTargets ts).streamKeys.Perm (ts.flatMap TargetSet.streamKeys) := by
  have hmap := (mergeTargets_entries ts).map TargetSet.keyOf
  rwa [List.map_flatMap] at hmap

/-! ## One scan -/

section Scan
variable {targets : List UInt32} {pred : TransitPredicate} {rib : List RouteObservation}

/-- One round of the loop. -/
def scanStep (targets : List UInt32) (pred : TransitPredicate) (t : TargetSet)
    (o : RouteObservation) : TargetSet :=
  (streamOf targets pred o).elim t fun s => t.extend o.collector [s]

theorem scanRibAndFreeze_eq (targets : List UInt32) (pred : TransitPredicate)
    (rib : List RouteObservation) : scanRibAndFreeze rib targets pred =
      (rib.foldl (scanStep targets pred) []).map fun e => (e.1, freezeEntries e.2) := by
  unfold scanRibAndFreeze
  dsimp only
  congr 2
  funext t o
  unfold scanStep
  cases streamOf targets pred o <;> rfl

/-- The loop before the repeats are dropped. -/
theorem scan_entries (rib : List RouteObservation) {t : TargetSet} (ht : t.Distinct) :
    (rib.foldl (scanStep targets pred) t).Distinct ∧
      (rib.foldl (scanStep targets pred) t).entries.Perm (t.entries ++
        rib.filterMap fun o => (streamOf targets pred o).map (o.collector, ·)) := by
  induction rib generalizing t with
  | nil => exact ⟨ht, by rw [List.foldl_nil]; simp⟩
  | cons o rib ih =>
    rw [List.foldl_cons, scanStep]
    cases hs : streamOf targets pred o with
    | none =>
      rw [Option.elim_none, List.filterMap_cons_none (by rw [hs]; rfl)]
      exact ih ht
    | some s =>
      obtain ⟨hd, hp⟩ := ih ht.extend
      refine ⟨hd, hp.trans ?_⟩
      rw [List.filterMap_cons_some (by rw [hs]; rfl)]
      exact ((TargetSet.entries_extend ht).append_right _).trans (by simp)

/-- An entry that passes the three filters and the predicate. -/
def admitsEntry (targets : List UInt32) (pred : TransitPredicate) (o : RouteObservation) : Bool :=
  targetOrigin targets o && pred.matchesObs o

theorem streamOf_isSome (o : RouteObservation) :
    (streamOf targets pred o).isSome = admitsEntry targets pred o := by
  unfold streamOf admitsEntry targetOrigin TransitPredicate.matchesObs
  cases ha : o.attributes with
  | none => by_cases hk : o.kind = .ribEntry <;> simp [hk, guard, failure]
  | some a =>
    by_cases hk : o.kind = .ribEntry <;> by_cases ho : targets.contains a.firstOrigin = true <;>
      by_cases hp : pred.evaluate a.asPath = true <;> simp_all [guard, failure]

theorem keyOf_streamOf {o : RouteObservation} {s : TargetStream}
    (h : streamOf targets pred o = some s) : TargetSet.keyOf (o.collector, s) = o.stream := by
  unfold streamOf at h
  simp only [Option.bind_eq_bind, Option.bind_eq_some_iff] at h
  obtain ⟨-, -, a, -, -, -, -, -, hs⟩ := h
  cases hs
  rfl

instance : TransCmp streamOrder :=
  inferInstanceAs (TransCmp (compareLex (compareOn fun s : TargetStream => s.peerIp.display)
    (compareOn fun s : TargetStream => s.pfx)))

/-- The sort on texts brings equal streams together. -/
theorem streamOrder_eq_iff (s s' : TargetStream) :
    streamOrder s s' = .eq ↔ (s.peerIp, s.pfx) = (s'.peerIp, s'.pfx) := by
  simp only [streamOrder, compareLex_eq_eq, compareOn, LawfulEqCmp.compare_eq_iff_eq, Prod.mk.injEq,
    IpAddr.display_injective.eq_iff]

theorem freezeEntries_nodup (l : List TargetStream) :
    ((freezeEntries l).map fun s => (s.peerIp, s.pfx)).Nodup :=
  dedupByKey_nodup streamOrder_eq_iff (sortBy_pairwise l)

theorem mem_freezeEntries_keys {l : List TargetStream} {k : IpAddr × Prefix} :
    k ∈ (freezeEntries l).map (fun s => (s.peerIp, s.pfx)) ↔ k ∈ l.map fun s => (s.peerIp, s.pfx) := by
  simp only [List.mem_map]
  constructor
  · rintro ⟨s, hs, rfl⟩
    exact ⟨s, mem_sortBy.1 ((dedupByKey_sublist _ _).subset hs), rfl⟩
  · rintro ⟨s, hs, rfl⟩
    exact exists_mem_dedupByKey _ (mem_sortBy.2 hs)

/-- The keys of one collector's streams. -/
theorem keys_eq (collector : String) (l : List TargetStream) :
    l.map (fun s => TargetSet.keyOf (collector, s)) =
      (l.map fun s => (s.peerIp, s.pfx)).map fun k => ⟨collector, k.1, k.2⟩ := by
  rw [List.map_map]
  rfl

theorem streamKeys_eq (t : TargetSet) :
    t.streamKeys = t.flatMap fun e => e.2.map fun s => TargetSet.keyOf (e.1, s) := by
  simp only [TargetSet.streamKeys, TargetSet.entries, List.map_flatMap, List.map_map]
  rfl

theorem frozenKeys_nodup {t : TargetSet} (h : t.Distinct) :
    (TargetSet.streamKeys (t.map fun e => (e.1, freezeEntries e.2))).Nodup := by
  rw [streamKeys_eq, List.flatMap_map]
  refine List.nodup_flatMap.2 ⟨fun e _ => ?_, ?_⟩
  · rw [keys_eq]
    refine (freezeEntries_nodup e.2).map fun k k' hk => ?_
    simp only [ObserverPrefixKey.mk.injEq, true_and] at hk
    exact Prod.ext hk.1 hk.2
  · refine (List.pairwise_map.1 h).imp fun {e e'} hne => ?_
    intro k hk hk'
    obtain ⟨s, -, rfl⟩ := List.mem_map.1 hk
    obtain ⟨s', -, hs'⟩ := List.mem_map.1 hk'
    exact hne (congrArg ObserverPrefixKey.collector hs').symm

theorem mem_frozenKeys {t : TargetSet} {k : ObserverPrefixKey} :
    k ∈ TargetSet.streamKeys (t.map fun e => (e.1, freezeEntries e.2)) ↔ k ∈ t.streamKeys := by
  have heach : ∀ e : String × List TargetStream,
      (k ∈ (freezeEntries e.2).map fun s => TargetSet.keyOf (e.1, s)) ↔
        k ∈ e.2.map fun s => TargetSet.keyOf (e.1, s) := by
    intro e
    rw [keys_eq, keys_eq, List.mem_map, List.mem_map]
    simp only [mem_freezeEntries_keys]
  rw [streamKeys_eq, streamKeys_eq, List.flatMap_map, List.mem_flatMap, List.mem_flatMap]
  simp only [heach]

variable (targets pred) in
/-- The streams of the admitted entries. -/
def admittedStreams (rib : List RouteObservation) : List ObserverPrefixKey :=
  (rib.filter (admitsEntry targets pred)).map (·.stream)

/-- The scan freezes the streams of the admitted entries, each once. -/
theorem scanKeys (targets : List UInt32) (pred : TransitPredicate) (rib : List RouteObservation) :
    (scanRibAndFreeze rib targets pred).streamKeys.Nodup ∧
      ∀ k, k ∈ (scanRibAndFreeze rib targets pred).streamKeys ↔ k ∈ admittedStreams targets pred rib := by
  rw [scanRibAndFreeze_eq]
  obtain ⟨hd, hp⟩ : (rib.foldl (scanStep targets pred) []).Distinct ∧ _ :=
    scan_entries rib List.nodup_nil
  refine ⟨frozenKeys_nodup hd, fun k => mem_frozenKeys.trans ?_⟩
  rw [TargetSet.streamKeys, (hp.map _).mem_iff]
  simp only [TargetSet.entries, List.flatMap_nil, List.nil_append, List.mem_map,
    List.mem_filterMap, Option.map_eq_some_iff, admittedStreams, List.mem_filter, ← streamOf_isSome]
  constructor
  · rintro ⟨-, ⟨o, ho, s, hs, rfl⟩, rfl⟩
    exact ⟨o, ⟨ho, by rw [hs]; rfl⟩, (keyOf_streamOf hs).symm⟩
  · rintro ⟨o, ⟨ho, hs⟩, rfl⟩
    obtain ⟨s, hs⟩ := Option.isSome_iff_exists.1 hs
    exact ⟨_, ⟨o, ho, s, hs, rfl⟩, keyOf_streamOf hs⟩

end Scan

/-! ## The cohort -/

section Cohort
variable {targets : List UInt32} {pred : TransitPredicate} {rib : List RouteObservation}

theorem mem_cohort {k : ObserverPrefixKey} :
    k ∈ (freezeCohort targets pred rib).observerPrefixes ↔ k ∈ admittedStreams targets pred rib := by
  rw [mem_observerPrefixes, admits, List.any_eq_true, admittedStreams, List.mem_map]
  simp only [entriesOf, targetEntries, List.mem_filter, admitsEntry, Bool.and_eq_true,
    decide_eq_true_eq]
  constructor
  · rintro ⟨o, ⟨⟨ho, ht⟩, hs⟩, hm⟩
    exact ⟨o, ⟨ho, ht, hm⟩, hs⟩
  · rintro ⟨o, ⟨ho, ht, hm⟩, hs⟩
    exact ⟨o, ⟨⟨ho, ht⟩, hs⟩, hm⟩

theorem cohort_nodup : (freezeCohort targets pred rib).observerPrefixes.Nodup := by
  refine List.Nodup.filter _ ((sortBy_perm _ _).nodup_iff.2 (List.nodup_dedup _))

end Cohort

/-! ## Hashes -/

section Hash
variable (digest : List UInt8 → String)

/-- The sorted (collector, peer, prefix) texts of the cohort. -/
def cohortHash (cohort : FrozenCohort) : String :=
  let entries := cohort.observerPrefixes.map fun k => (k.collector, k.peerIp.display, k.pfx)
  let sorted := sortBy (compareLex (compareOn (·.1)) (compareLex (compareOn (·.2.1)) (compareOn (·.2.2))))
    entries
  digest (sorted.flatMap fun e =>
    utf8 e.1 ++ utf8 "|" ++ utf8 e.2.1 ++ utf8 "|" ++ utf8 e.2.2 ++ utf8 "|")

instance entryTextOrder_trans :
    TransCmp (compareLex (compareOn fun e : String × String × String => e.1)
      (compareLex (compareOn (·.2.1)) (compareOn (·.2.2)))) := inferInstance

/-- Both hashes are of the same sorted texts. -/
theorem targetsetHash_eq_cohortHash {t : TargetSet} {cohort : FrozenCohort}
    (h : t.streamKeys.Perm cohort.observerPrefixes) :
    targetsetHash digest t = cohortHash digest cohort := by
  have hkeys : (t.flatMap fun e => e.2.map fun s => (e.1, s.peerIp.display, s.pfx)) =
      t.streamKeys.map fun k => (k.collector, k.peerIp.display, k.pfx) := by
    rw [streamKeys_eq, List.map_flatMap]
    simp only [List.map_map]
    rfl
  unfold targetsetHash cohortHash
  rw [hkeys]
  dsimp only
  rw [sortBy_eq_of_perm (h.map _)]
  rintro ⟨c, p, x⟩ - ⟨c', p', x'⟩ - heq
  simp only [compareLex_eq_eq, compareOn, LawfulEqCmp.compare_eq_iff_eq] at heq
  obtain ⟨rfl, rfl, rfl⟩ := heq
  rfl

end Hash

/-! ## Agreement -/

/-- The target set has the streams of the cohort, each once, and its hash. -/
structure AgreesWithCohort (digest : List UInt8 → String) (t : TargetSet) (cohort : FrozenCohort) :
    Prop where
  streams : t.streamKeys.Perm cohort.observerPrefixes
  once : t.streamKeys.Nodup
  hash : targetsetHash digest t = cohortHash digest cohort

/-- The entries of one stream are all in one part. -/
def SplitsStreams (parts : List (List RouteObservation)) : Prop :=
  parts.Pairwise fun p q => ∀ o ∈ p, ∀ o' ∈ q, o.stream ≠ o'.stream

section Agreement
variable {digest : List UInt8 → String} {targets : List UInt32} {pred : TransitPredicate}
  {rib : List RouteObservation}

theorem agrees_of_mem {t : TargetSet} (hnodup : t.streamKeys.Nodup)
    (hmem : ∀ k, k ∈ t.streamKeys ↔ k ∈ admittedStreams targets pred rib) :
    AgreesWithCohort digest t (freezeCohort targets pred rib) := by
  have hperm : t.streamKeys.Perm (freezeCohort targets pred rib).observerPrefixes :=
    (List.perm_ext_iff_of_nodup hnodup cohort_nodup).2 fun k => (hmem k).trans mem_cohort.symm
  exact ⟨hperm, hnodup, targetsetHash_eq_cohortHash digest hperm⟩

theorem mem_admittedStreams_perm {rib' : List RouteObservation} (h : rib'.Perm rib)
    (k : ObserverPrefixKey) :
    k ∈ admittedStreams targets pred rib' ↔ k ∈ admittedStreams targets pred rib :=
  ((h.filter _).map _).mem_iff

theorem mem_mergedKeys (parts : List (List RouteObservation)) (k : ObserverPrefixKey) :
    k ∈ (mergeTargets (parts.map (scanRibAndFreeze · targets pred))).streamKeys ↔
      k ∈ admittedStreams targets pred parts.flatten := by
  rw [(mergedKeys_perm _).mem_iff, List.flatMap_map, List.mem_flatMap, admittedStreams,
    List.filter_flatten, List.map_flatten, List.mem_flatten]
  simp only [List.mem_map, (scanKeys targets pred _).2]
  constructor
  · rintro ⟨p, hp, hk⟩
    exact ⟨_, ⟨_, ⟨p, hp, rfl⟩, rfl⟩, hk⟩
  · rintro ⟨-, ⟨-, ⟨p, hp, rfl⟩, rfl⟩, hk⟩
    exact ⟨p, hp, hk⟩

/-- `merge` appends without looking: the merged set lists each stream once exactly when no stream
is frozen in two parts. -/
theorem mergedKeys_nodup_iff (parts : List (List RouteObservation)) :
    (mergeTargets (parts.map (scanRibAndFreeze · targets pred))).streamKeys.Nodup ↔
      parts.Pairwise fun p q =>
        (admittedStreams targets pred p).Disjoint (admittedStreams targets pred q) := by
  rw [(mergedKeys_perm _).nodup_iff, List.flatMap_map, List.nodup_flatMap,
    and_iff_right fun p _ => (scanKeys targets pred p).1]
  have hdisjoint : ∀ p q, List.Disjoint (scanRibAndFreeze p targets pred).streamKeys
      (scanRibAndFreeze q targets pred).streamKeys ↔
        (admittedStreams targets pred p).Disjoint (admittedStreams targets pred q) := by
    intro p q
    simp only [List.Disjoint, (scanKeys targets pred _).2]
  constructor
  · exact fun h => h.imp fun {p q} => (hdisjoint p q).1
  · exact fun h => h.imp fun {p q} => (hdisjoint p q).2

/-- One scan, or one scan for each part of the streams and a merge: the streams of the cohort, each
once, whatever the order of the entries. -/
theorem targetSet_agrees_cohort (digest : List UInt8 → String) (targets : List UInt32)
    (pred : TransitPredicate) (rib : List RouteObservation) :
    (∀ rib', rib'.Perm rib → AgreesWithCohort digest (scanRibAndFreeze rib' targets pred)
      (freezeCohort targets pred rib)) ∧
    ∀ parts : List (List RouteObservation), parts.flatten.Perm rib → SplitsStreams parts →
      AgreesWithCohort digest (mergeTargets (parts.map (scanRibAndFreeze · targets pred)))
        (freezeCohort targets pred rib) := by
  constructor
  · intro rib' h
    obtain ⟨hnodup, hmem⟩ := scanKeys targets pred rib'
    exact agrees_of_mem hnodup fun k => (hmem k).trans (mem_admittedStreams_perm h k)
  · intro parts h hsplit
    refine agrees_of_mem ((mergedKeys_nodup_iff parts).2 ?_) fun k =>
      (mem_mergedKeys parts k).trans (mem_admittedStreams_perm h k)
    refine hsplit.imp fun hne k hk hk' => ?_
    obtain ⟨o, ho, rfl⟩ := List.mem_map.1 hk
    obtain ⟨o', ho', hs⟩ := List.mem_map.1 hk'
    exact hne o (List.mem_of_mem_filter ho) o' (List.mem_of_mem_filter ho') hs.symm

/-- RIB entries of two prefixes, one with two paths. -/
def ribSample : List RouteObservation :=
  [ RouteObservation.plain "rrc00" 1 .ribEntry 0 none [64500, 7],
    RouteObservation.plain "rrc00" 2 .ribEntry 0 (some 1) [64500, 8, 7],
    { RouteObservation.plain "rrc00" 3 .ribEntry 0 none [64500, 7] with pfx := "10.1.0.0/16" } ]

/-- The text in hexadecimal, a digest without collisions. -/
def hexDigest (l : List UInt8) : String := String.join (l.map fun b => IpAddr.hex b.toNat)

/-- Its two streams the other way round in one scan, and frozen by two merges. -/
theorem targetSet_agrees_cohort_sample :
    AgreesWithCohort hexDigest (scanRibAndFreeze ribSample.reverse [7] (.containsAny [64500]))
      (freezeCohort [7] (.containsAny [64500]) ribSample) ∧
    AgreesWithCohort hexDigest
      (mergeTargets ([ribSample.take 2, ribSample.drop 2].map
        (scanRibAndFreeze · [7] (.containsAny [64500]))))
      (freezeCohort [7] (.containsAny [64500]) ribSample) := by
  obtain ⟨hscan, hmerge⟩ := targetSet_agrees_cohort hexDigest [7] (.containsAny [64500]) ribSample
  refine ⟨hscan _ (List.reverse_perm _), hmerge _ (.of_eq rfl) ?_⟩
  refine List.pairwise_pair.2 ?_
  decide +kernel

/-- The parts by collector, as the pipeline scans them. -/
theorem splitsStreams_collectors {collectors : List String} (h : collectors.Nodup)
    (rib : List RouteObservation) :
    SplitsStreams (collectors.map fun c => rib.filter (·.collector = c)) := by
  refine List.pairwise_map.2 (h.imp fun hne o ho o' ho' hs => hne ?_)
  have hc := of_decide_eq_true (List.mem_filter.1 ho).2
  have hc' := of_decide_eq_true (List.mem_filter.1 ho').2
  rw [← hc, ← hc']
  exact congrArg ObserverPrefixKey.collector hs

end Agreement

end Inim
