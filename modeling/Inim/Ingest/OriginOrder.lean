import Inim.Ingest
import Inim.Cache.Keys
import Inim.Catalog.CanonicalPlan
import Inim.Lib.Splits

/-!
# The order in which a target lists its origins

`fromLocalFile` gives the parser one filter, the first listed origin, and `ribScan` then keeps
the elements whose origin is in the whole list. Cache and plan identities sort the list
(`extractionKey_congr`, `CanonicalPlan.fromManifest_congr`), so runs that list one set in
different orders are taken for the same run.

**Bug**: of a target with two origins only the first one's elements are ingested
(`listing_order_matters`). The exact condition for the order not to matter is `OriginsAlike`.
-/

namespace Inim

open Inim.Lib

/-- The observations of a RIB that pass the loop's origin check. -/
def ribIngest (parser : BgpkitParser) (path : String) (context : IngestContext) :
    Except InimError (List RouteObservation) :=
  (fromLocalFile parser path context).map (originMatching context.originAsnFilters)

/-- At every element with an origin of `l`: it carries all of `l`, and equally many elements
before it carry each of `l` (the parser numbers only what its filter keeps). -/
def OriginsAlike (l : List UInt32) (elems : List BgpElem) : Prop :=
  ∀ pre e post, elems = pre ++ e :: post → e.originIn l → ∀ a ∈ l, e.carries a
    ∧ ∀ b ∈ l, pre.countP (BgpElem.carries a) = pre.countP (BgpElem.carries b)

/-! ## What one listing ingests -/

/-- The elements ingested when `a` is listed first, with their numbers. -/
def ingested (a : UInt32) (l : List UInt32) : List BgpElem → List (BgpElem × Nat) :=
  numberedBy (BgpElem.carries a) (BgpElem.originIn l)

theorem ingested_concat (a : UInt32) (l : List UInt32) (elems : List BgpElem) (e : BgpElem) :
    ingested a l (elems ++ [e]) = ingested a l elems
      ++ if e.carries a ∧ e.originIn l then [(e, elems.countP (BgpElem.carries a))] else [] :=
  numberedBy_concat ..

theorem ingested_sublist (a : UInt32) (l : List UInt32) (elems : List BgpElem) :
    ((ingested a l elems).map Prod.fst).Sublist (elems.filter (·.originIn l)) := by
  induction elems using List.reverseRecOn with
  | nil => exact List.Sublist.refl _
  | append_singleton elems e ih =>
    rw [ingested_concat, List.map_append, List.filter_append]
    refine ih.append ?_
    by_cases ho : e.originIn l = true
    · by_cases hc : e.carries a = true
      · simp [hc, ho]
      · simp [hc]
    · simp [ho]

/-- All listings number the same elements, and number them alike. -/
theorem ingested_alike_iff (l : List UInt32) (elems : List BgpElem) :
    (∀ a ∈ l, (ingested a l elems).map Prod.fst = elems.filter (·.originIn l)
      ∧ ∀ b ∈ l, ingested a l elems = ingested b l elems) ↔ OriginsAlike l elems := by
  unfold OriginsAlike
  induction elems using List.reverseRecOn with
  | nil => simp [ingested, numberedBy]
  | append_singleton elems e ih =>
    rw [forall_split_concat (P := fun pre e => e.originIn l = true → ∀ a ∈ l, e.carries a = true
      ∧ ∀ b ∈ l, pre.countP (BgpElem.carries a) = pre.countP (BgpElem.carries b)), ← ih]
    by_cases ho : e.originIn l = true
    · -- the new element is one to ingest: its number is the count before it
      have hsplit : ∀ a ∈ l, ((ingested a l (elems ++ [e])).map Prod.fst
          = (elems ++ [e]).filter (·.originIn l) ↔
          (ingested a l elems).map Prod.fst = elems.filter (·.originIn l) ∧ e.carries a) := by
        intro a ha
        rw [ingested_concat, List.map_append, List.filter_append]
        by_cases hc : e.carries a = true
        · simp [hc, ho]
        · have hlen := (ingested_sublist a l elems).length_le
          simp only [hc, ho, Bool.false_eq_true, false_and, if_false, List.map_nil,
            List.append_nil, and_false, iff_false, List.filter_cons_of_pos, List.filter_nil]
          intro heq
          have := congrArg List.length heq
          rw [List.length_append, List.length_singleton] at this
          omega
      constructor
      · intro h
        have hc : ∀ a ∈ l, e.carries a = true := fun a ha => ((hsplit a ha).mp (h a ha).1).2
        have hpair : ∀ a ∈ l, ∀ b ∈ l, ingested a l elems = ingested b l elems
            ∧ elems.countP (BgpElem.carries a) = elems.countP (BgpElem.carries b) := by
          intro a ha b hb
          have := (h a ha).2 b hb
          rw [ingested_concat, ingested_concat, if_pos ⟨hc a ha, ho⟩, if_pos ⟨hc b hb, ho⟩] at this
          obtain ⟨h1, h2⟩ := List.append_inj' this rfl
          exact ⟨h1, by simpa using h2⟩
        exact ⟨fun a ha => ⟨((hsplit a ha).mp (h a ha).1).1, fun b hb => (hpair a ha b hb).1⟩,
          fun _ a ha => ⟨hc a ha, fun b hb => (hpair a ha b hb).2⟩⟩
      · rintro ⟨h, he⟩ a ha
        obtain ⟨hc, hcount⟩ := he ho a ha
        refine ⟨(hsplit a ha).mpr ⟨(h a ha).1, hc⟩, fun b hb => ?_⟩
        rw [ingested_concat, ingested_concat, if_pos ⟨hc, ho⟩, if_pos ⟨(he ho b hb).1, ho⟩,
          (h a ha).2 b hb, hcount b hb]
    · have hskip : ∀ a, ingested a l (elems ++ [e]) = ingested a l elems := by
        intro a
        rw [ingested_concat]
        simp [ho]
      simp [hskip, ho]

/-! ## From the file to the observations -/

section Listing

variable {parser : BgpkitParser} {path : String} {elems : List BgpElem}
variable (collector : CollectorId) (url sha : String)

theorem ribIngest_eq (hopen : parser.openElems path = .ok elems) (hf : parser.FiltersOrigin)
    (l : List UInt32) :
    ribIngest parser path (ribContext collector url sha l) = .ok
      ((numberedBy (BgpElem.keptBy l) (BgpElem.originIn l) elems).map
        (ribObservation path collector url sha)) := by
  rw [ribIngest, fromLocalFile_rib collector url sha hopen hf]
  exact congrArg Except.ok (originMatching_rib collector url sha l elems)

theorem ribIngest_cons (hopen : parser.openElems path = .ok elems) (hf : parser.FiltersOrigin)
    (a : UInt32) (l : List UInt32) :
    ribIngest parser path (ribContext collector url sha (a :: l)) = .ok
      ((ingested a (a :: l) elems).map (ribObservation path collector url sha)) :=
  ribIngest_eq collector url sha hopen hf (a :: l)

theorem originIn_nil (e : BgpElem) : e.originIn [] = false := by
  unfold BgpElem.originIn
  cases (e.originAsns.getD []).head? <;> rfl

theorem ribIngest_nil (hopen : parser.openElems path = .ok elems) (hf : parser.FiltersOrigin) :
    ribIngest parser path (ribContext collector url sha []) = .ok [] := by
  rw [ribIngest_eq collector url sha hopen hf, numberedBy,
    List.filter_eq_nil_iff.mpr fun p _ => by simp [originIn_nil]]
  rfl

/-- An observation without its numbers. -/
def RouteObservation.unnumbered (o : RouteObservation) : RouteObservation :=
  { o with id := 0, provenance := { o.provenance with elementSeq := 0 } }

/-- Every listing of the set of `l` ingests the same observations, one for each element whose
origin is in the set. -/
def ListingFree (parser : BgpkitParser) (path : String) (elems : List BgpElem)
    (collector : CollectorId) (url sha : String) (l : List UInt32) : Prop :=
  ∃ obs, (∀ l', (∀ a, a ∈ l' ↔ a ∈ l) →
      ribIngest parser path (ribContext collector url sha l') = .ok obs) ∧
    obs.map RouteObservation.unnumbered = (elems.filter (·.originIn l)).map fun e =>
      ribObservation path collector url sha (e, 0)

theorem originIn_congr {l l' : List UInt32} (h : ∀ a, a ∈ l' ↔ a ∈ l) (e : BgpElem) :
    e.originIn l' = e.originIn l := by
  have : l'.contains = l.contains := by
    funext a
    rw [Bool.eq_iff_iff, List.contains_iff_mem, List.contains_iff_mem, h]
  rw [BgpElem.originIn, this, BgpElem.originIn]

theorem ingested_congr {l l' : List UInt32} (h : ∀ a, a ∈ l' ↔ a ∈ l) (a : UInt32)
    (elems : List BgpElem) : ingested a l' elems = ingested a l elems :=
  List.filter_congr fun p _ => originIn_congr h p.1

/-- The numbers can be read off the observations. -/
theorem snd_of_map_ribObservation {ps qs : List (BgpElem × Nat)}
    (h : ps.map (ribObservation path collector url sha)
      = qs.map (ribObservation path collector url sha)) : ps.map Prod.snd = qs.map Prod.snd := by
  have := congrArg (List.map RouteObservation.id) h
  rwa [List.map_map, List.map_map] at this

theorem pairs_ext {α β : Type} {ps qs : List (α × β)} (h1 : ps.map Prod.fst = qs.map Prod.fst)
    (h2 : ps.map Prod.snd = qs.map Prod.snd) : ps = qs := by
  rw [← List.zip_unzip ps, ← List.zip_unzip qs, List.unzip_eq_map, List.unzip_eq_map, h1, h2]

/-- Which files are ingested alike whatever the order of the target's origins. -/
theorem listingFree_iff (hopen : parser.openElems path = .ok elems) (hf : parser.FiltersOrigin)
    (l : List UInt32) :
    ListingFree parser path elems collector url sha l ↔ OriginsAlike l elems := by
  rw [← ingested_alike_iff]
  constructor
  · rintro ⟨obs, hobs, hexact⟩
    -- `a` first and then all of `l` lists the same set
    have hlisting : ∀ a ∈ l,
        obs = (ingested a l elems).map (ribObservation path collector url sha) := by
      intro a ha
      have hset : ∀ x, x ∈ a :: l ↔ x ∈ l := by
        intro x
        simp only [List.mem_cons, or_iff_right_iff_imp]
        rintro rfl
        exact ha
      have := hobs (a :: l) hset
      rw [ribIngest_cons collector url sha hopen hf, ingested_congr hset] at this
      exact (Except.ok.inj this).symm
    have hfst : ∀ a ∈ l, (ingested a l elems).map Prod.fst = elems.filter (·.originIn l) := by
      intro a ha
      refine (ingested_sublist a l elems).eq_of_length ?_
      have := congrArg List.length hexact
      rw [hlisting a ha] at this
      simpa using this
    refine fun a ha => ⟨hfst a ha, fun b hb => pairs_ext ((hfst a ha).trans (hfst b hb).symm) ?_⟩
    exact snd_of_map_ribObservation collector url sha ((hlisting a ha).symm.trans (hlisting b hb))
  · intro h
    cases l with
    | nil =>
      refine ⟨[], fun l' hl' => ?_, ?_⟩
      · rw [List.eq_nil_iff_forall_not_mem.mpr fun a ha => List.not_mem_nil ((hl' a).mp ha)]
        exact ribIngest_nil collector url sha hopen hf
      · rw [List.filter_eq_nil_iff.mpr fun e _ => by simp [originIn_nil]]
        rfl
    | cons a l =>
      obtain ⟨hfst, hsame⟩ := h a List.mem_cons_self
      refine ⟨(ingested a (a :: l) elems).map (ribObservation path collector url sha),
        fun l' hl' => ?_, ?_⟩
      · cases l' with
        | nil => exact absurd ((hl' a).mpr List.mem_cons_self) List.not_mem_nil
        | cons b l' =>
          have hb : b ∈ a :: l := (hl' b).mp List.mem_cons_self
          rw [ribIngest_cons collector url sha hopen hf, ingested_congr hl', ← hsame b hb]
      · rw [← hfst, List.map_map, List.map_map]
        rfl

end Listing

/-! ### Two origins -/

namespace TwoOrigins

/-- An element of a table dump with one origin. -/
def elem (pfx : Prefix) (origin : UInt32) : BgpElem where
  timestamp := 0
  elemType := .announce
  peerIp := .v4 1
  peerAsn := 64500
  pfx := pfx
  pathId := none
  asPath := some [.asSequence [64500, origin]]
  originAsns := some [origin]
  nextHop := none
  origin := none
  localPref := none
  med := none
  atomic := false
  communities := none

def dump : List BgpElem := [elem "10.0.0.0/8" 65001, elem "10.1.0.0/16" 65002]

/-- A parser of that one file. -/
def parser : BgpkitParser where
  openElems := fun path => if path = "rib.gz" then .ok dump else .error "No such file or directory"
  addFilter := fun name value elems =>
    if name = "origin_asn" then
      match value.toNat? with
      | some n => .ok (elems.filter fun e => (e.originAsns.getD []).any (·.toNat == n))
      | none => .error "invalid digit found in string"
    else .error "unknown filter type"

theorem parser_filtersOrigin : parser.FiltersOrigin := by
  intro asn elems
  have hnat : (toString asn : String).toNat? = some asn.toNat := Nat.toNat?_repr asn.toNat
  simp only [parser, if_pos, hnat]
  refine congrArg Except.ok (List.filter_congr fun e _ => ?_)
  rw [BgpElem.carries, List.contains_eq_any_beq]
  refine congrArg (fun p => (e.originAsns.getD []).any p) (funext fun o => ?_)
  rw [Bool.eq_iff_iff, beq_iff_eq, beq_iff_eq, UInt32.toNat_inj, eq_comm]

end TwoOrigins

open TwoOrigins in
/-- A target with one origin has one listing. -/
theorem listingFree_single :
    ListingFree parser "rib.gz" dump "rv" "u" "s" [65001] := by
  refine (listingFree_iff "rv" "u" "s" rfl parser_filtersOrigin [65001]).mpr
    ((ingested_alike_iff [65001] dump).mp fun a ha => ?_)
  obtain rfl := List.mem_singleton.mp ha
  exact ⟨by decide, fun b hb => by rw [List.mem_singleton.mp hb]⟩

open TwoOrigins in
/-- **Bug**: of a target with two origins a run ingests the elements of the one listed first. The
two listings share every extraction key and every canonical plan. -/
theorem listing_order_matters :
    ¬ListingFree parser "rib.gz" dump "rv" "u" "s" [65001, 65002]
      ∧ (∀ digest, extractionKey digest "s" "RouteViews" "rv" [65001, 65002]
          = extractionKey digest "s" "RouteViews" "rv" [65002, 65001])
      ∧ ∀ m : Manifest, CanonicalPlan.fromManifest (m.withOrigins [65001, 65002])
          = CanonicalPlan.fromManifest (m.withOrigins [65002, 65001]) := by
  have hset : ∀ a : UInt32, a ∈ [65001, 65002] ↔ a ∈ [65002, 65001] := by
    intro a
    simp [or_comm]
  refine ⟨?_, fun digest => extractionKey_congr digest _ _ _ hset,
    fun m => CanonicalPlan.fromManifest_congr m hset⟩
  rintro ⟨obs, hobs, -⟩
  have h1 := hobs [65001, 65002] fun a => Iff.rfl
  have h2 := hobs [65002, 65001] fun a => (hset a).symm
  have hopen : parser.openElems "rib.gz" = .ok dump := rfl
  rw [ribIngest_cons "rv" "u" "s" hopen parser_filtersOrigin] at h1 h2
  have := Except.ok.inj (h1.trans h2.symm)
  exact absurd this (by decide)

end Inim
