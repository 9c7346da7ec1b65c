import Inim.Workbench.Findings

/-!
# Reviewed identities of ASNs (`catalog/workbench.rs:383-512`)

An identity has a window of dates, and an ASN may have several, one after the other. A registry keeps one
of them: the first that is loaded. So what a lookup finds is the first identity of the ASN, if the date is
in its window, and nothing otherwise (`lookup_registry`); a later one that covers the date is lost
(`findsIdentity_iff`).

| here | there |
| --- | --- |
| `AsnIdentity.validAt`         | `valid_at` (:407), see `Workbench.Findings` |
| `AsnIdentityRegistry.load`    | `load` (:438); a row that is no identity is `none` |
| `AsnIdentityRegistry.lookup`  | `lookup` (:461) |
| `AsnIdentityRegistry.merge`   | `merge` (:504) |
| `IdentityLoads`               | which files are loaded, and how they are merged |
-/

namespace Inim

open Lib

structure AsnIdentityRegistry where
  identities : List AsnIdentity
deriving DecidableEq, Repr

namespace AsnIdentityRegistry

/-- `load`, of the rows of the file. A file that is absent or cannot be parsed has none. -/
def load (rows : List (Option AsnIdentity)) : AsnIdentityRegistry :=
  ⟨dedupByKey AsnIdentity.asn (sortBy (compareOn AsnIdentity.asn) rows.reduceOption)⟩

def lookup (r : AsnIdentityRegistry) (asn : UInt32) (date : String) : Option AsnIdentity :=
  r.identities.find? fun i => i.asn = asn && i.validAt date

/-- `if !self.identities.iter().any(…) { self.identities.push(…) }`. -/
def pushNew (kept : List AsnIdentity) (i : AsnIdentity) : List AsnIdentity :=
  if kept.any (·.asn = i.asn) then kept else kept ++ [i]

def merge (r other : AsnIdentityRegistry) : AsnIdentityRegistry :=
  ⟨sortBy (compareOn AsnIdentity.asn) (other.identities.foldl pushNew r.identities)⟩

end AsnIdentityRegistry

open AsnIdentityRegistry

/-- Files that are loaded, the earlier ones on the left, and merged. -/
inductive IdentityLoads where
  | file (rows : List (Option AsnIdentity))
  | merge (first second : IdentityLoads)

namespace IdentityLoads

def registry : IdentityLoads → AsnIdentityRegistry
  | file rows => .load rows
  | merge a b => a.registry.merge b.registry

/-- The identities of each file, in the order of loading. -/
def files : IdentityLoads → List (List AsnIdentity)
  | file rows => [rows.reduceOption]
  | merge a b => a.files ++ b.files

def loaded (l : IdentityLoads) : List AsnIdentity := l.files.flatten

end IdentityLoads

/-! ## One identity for each ASN -/

namespace AsnIdentityRegistry

/-- No ASN has two identities. -/
def OneEach (r : AsnIdentityRegistry) : Prop := (r.identities.map AsnIdentity.asn).Nodup

/-- The first identity of an ASN. -/
def firstOf (asn : UInt32) (l : List AsnIdentity) : Option AsnIdentity := l.find? (·.asn = asn)

theorem load_oneEach (rows : List (Option AsnIdentity)) : (load rows).OneEach := by
  have hkey : ∀ a b : AsnIdentity, compareOn AsnIdentity.asn a b = .eq ↔ a.asn = b.asn :=
    fun a b => Std.LawfulEqOrd.compare_eq_iff_eq (a := a.asn) (b := b.asn)
  exact dedupByKey_nodup hkey (sortBy_pairwise _)

theorem firstOf_load (rows : List (Option AsnIdentity)) (asn : UInt32) :
    firstOf asn (load rows).identities = firstOf asn rows.reduceOption := by
  rw [firstOf, load, find?_dedupByKey, find?_sortBy_key, firstOf]

theorem pushNew_oneEach {kept : List AsnIdentity} (i : AsnIdentity)
    (h : (kept.map AsnIdentity.asn).Nodup) : ((pushNew kept i).map AsnIdentity.asn).Nodup := by
  rw [pushNew]
  split
  · exact h
  · next hnew =>
    rw [List.map_append, List.nodup_append]
    refine ⟨h, List.nodup_singleton _, ?_⟩
    intro a ha b hb hab
    obtain ⟨j, hj, rfl⟩ := List.mem_map.1 ha
    obtain rfl : b = i.asn := by simpa using hb
    exact hnew (List.any_eq_true.2 ⟨j, hj, by simpa using hab⟩)

theorem firstOf_pushNew (kept : List AsnIdentity) (i : AsnIdentity) (asn : UInt32) :
    firstOf asn (pushNew kept i) = firstOf asn (kept ++ [i]) := by
  rw [pushNew]
  split
  · next hold =>
    rw [firstOf, firstOf, List.find?_append]
    by_cases hi : i.asn = asn
    · -- there is one of this ASN before it
      obtain ⟨j, hj, hasn⟩ := List.any_eq_true.1 hold
      have hsome : (kept.find? (·.asn = asn)).isSome := by
        rw [List.find?_isSome]
        exact ⟨j, hj, by simpa [hi] using hasn⟩
      obtain ⟨x, hx⟩ := Option.isSome_iff_exists.1 hsome
      rw [hx]
      rfl
    · rw [List.find?_cons_of_neg (by simpa using hi), List.find?_nil, Option.or_none]
  · rfl

theorem foldl_pushNew (kept l : List AsnIdentity) (asn : UInt32)
    (h : (kept.map AsnIdentity.asn).Nodup) :
    ((l.foldl pushNew kept).map AsnIdentity.asn).Nodup ∧
      firstOf asn (l.foldl pushNew kept) = firstOf asn (kept ++ l) := by
  induction l generalizing kept with
  | nil => exact ⟨h, by rw [List.append_nil]; rfl⟩
  | cons i l ih =>
    obtain ⟨hnodup, hfirst⟩ := ih (pushNew kept i) (pushNew_oneEach i h)
    refine ⟨hnodup, ?_⟩
    have hpush := firstOf_pushNew kept i asn
    rw [firstOf, firstOf] at hpush
    rw [List.foldl_cons, hfirst, firstOf, firstOf, List.find?_append, hpush, ← List.find?_append,
      List.append_assoc, List.singleton_append]

theorem merge_oneEach {r : AsnIdentityRegistry} (other : AsnIdentityRegistry) (h : r.OneEach) :
    (r.merge other).OneEach :=
  ((sortBy_perm _ _).map _).nodup_iff.2 (foldl_pushNew r.identities other.identities 0 h).1

theorem firstOf_merge {r : AsnIdentityRegistry} (other : AsnIdentityRegistry) (h : r.OneEach)
    (asn : UInt32) : firstOf asn (r.merge other).identities =
      (firstOf asn r.identities).or (firstOf asn other.identities) := by
  rw [merge, firstOf, find?_sortBy_key]
  exact (foldl_pushNew r.identities other.identities asn h).2.trans List.find?_append

/-- A lookup finds the identity of the ASN, if the date is in its window. -/
theorem lookup_eq {r : AsnIdentityRegistry} (h : r.OneEach) (asn : UInt32) (date : String) :
    r.lookup asn date = (firstOf asn r.identities).filter (·.validAt date) := by
  rw [lookup, firstOf]
  rw [OneEach] at h
  generalize r.identities = l at *
  induction l with
  | nil => rfl
  | cons i l ih =>
    obtain ⟨hi, hl⟩ := List.nodup_cons.1 h
    by_cases hasn : i.asn = asn
    · have hrest : l.find? (fun i => i.asn = asn && i.validAt date) = none := by
        rw [List.find?_eq_none]
        intro j hj
        have hne : j.asn ≠ asn := by
          intro heq
          exact hi (List.mem_map.2 ⟨j, hj, heq.trans hasn.symm⟩)
        simp [hne]
      simp only [List.find?_cons, hasn, decide_true, Bool.true_and, hrest]
      cases hv : i.validAt date
      · exact (Option.filter_some_neg (p := (AsnIdentity.validAt · date)) (by simp [hv])).symm
      · exact (Option.filter_some_pos (p := (AsnIdentity.validAt · date)) hv).symm
    · simp only [List.find?_cons, hasn, decide_false, Bool.false_and]
      exact ih hl

end AsnIdentityRegistry

/-! ## What a lookup finds -/

namespace IdentityLoads

theorem registry_spec (l : IdentityLoads) (asn : UInt32) :
    l.registry.OneEach ∧ firstOf asn l.registry.identities = firstOf asn l.loaded := by
  induction l with
  | file rows =>
    refine ⟨load_oneEach rows, ?_⟩
    rw [registry, firstOf_load, loaded, files, List.flatten_singleton]
  | merge a b iha ihb =>
    refine ⟨merge_oneEach b.registry iha.1, ?_⟩
    have hloaded : (IdentityLoads.merge a b).loaded = a.loaded ++ b.loaded := List.flatten_append
    rw [registry, firstOf_merge b.registry iha.1, iha.2, ihb.2, hloaded]
    exact List.find?_append.symm

/-- What is found is the first identity of the ASN that was loaded, if the date is in its window. -/
theorem lookup_registry (l : IdentityLoads) (asn : UInt32) (date : String) :
    l.registry.lookup asn date = (firstOf asn l.loaded).filter (·.validAt date) := by
  obtain ⟨hone, hfirst⟩ := l.registry_spec asn
  rw [lookup_eq hone, hfirst]

/-- The identity is one of the ASN, and the date is in its window. -/
def Covers (asn : UInt32) (date : String) (i : AsnIdentity) : Prop :=
  i.asn = asn ∧ i.validAt date = true

instance (asn : UInt32) (date : String) (i : AsnIdentity) : Decidable (Covers asn date i) :=
  inferInstanceAs (Decidable (_ ∧ _))

/-- The lookup finds an identity that covers the date where one was loaded, one of the earliest file that
has one, and finds none that does not cover it. -/
structure FindsIdentity (l : IdentityLoads) (asn : UInt32) (date : String) : Prop where
  found : (∃ i ∈ l.loaded, Covers asn date i) → (l.registry.lookup asn date).isSome
  covers : ∀ i, l.registry.lookup asn date = some i → i ∈ l.loaded ∧ Covers asn date i
  earliest : ∀ before file after, l.files = before ++ file :: after →
    (∃ i ∈ file, Covers asn date i) → (∀ f ∈ before, ∀ i ∈ f, ¬ Covers asn date i) →
      ∀ i, l.registry.lookup asn date = some i → i ∈ file

/-- **What a lookup finds.** A lookup finds what it should for an ASN and a date if no identity of the
ASN covers the date, or if the first one that was loaded does. -/
theorem findsIdentity_iff (l : IdentityLoads) (asn : UInt32) (date : String) :
    l.FindsIdentity asn date ↔
      ((∃ i ∈ l.loaded, Covers asn date i) → ∃ i, firstOf asn l.loaded = some i ∧ i.validAt date) := by
  have hlook := l.lookup_registry asn date
  constructor
  · intro h hex
    obtain ⟨i, hi⟩ := Option.isSome_iff_exists.1 (h.found hex)
    rw [hlook, Option.filter_eq_some_iff] at hi
    exact ⟨i, hi⟩
  · intro h
    have hsome : ∀ i, l.registry.lookup asn date = some i →
        firstOf asn l.loaded = some i ∧ i ∈ l.loaded ∧ Covers asn date i := by
      intro i hi
      rw [hlook, Option.filter_eq_some_iff] at hi
      have hasn : i.asn = asn := by simpa using List.find?_some hi.1
      exact ⟨hi.1, List.mem_of_find?_eq_some hi.1, hasn, hi.2⟩
    refine ⟨?_, fun i hi => (hsome i hi).2, ?_⟩
    · intro hex
      obtain ⟨i, hfirst, hv⟩ := h hex
      rw [hlook, hfirst, Option.filter_some_pos (p := (AsnIdentity.validAt · date)) hv]
      rfl
    · intro before file after hfiles hex hnone i hi
      obtain ⟨hfirst, -, hcov⟩ := hsome i hi
      rw [firstOf, loaded, hfiles, List.flatten_append, List.flatten_cons, List.find?_append,
        List.find?_append] at hfirst
      have hbefore : before.flatten.find? (·.asn = asn) ≠ some i := by
        intro hb
        obtain ⟨f, hf, hif⟩ := List.mem_flatten.1 (List.mem_of_find?_eq_some hb)
        exact hnone f hf i hif hcov
      rcases Option.or_eq_some_iff.1 hfirst with hb | ⟨-, hrest⟩
      · exact absurd hb hbefore
      · obtain ⟨j, hj, hjcov⟩ := hex
        have hsome : (file.find? (·.asn = asn)).isSome :=
          List.find?_isSome.2 ⟨j, hj, by simpa using hjcov.1⟩
        rw [Option.or_of_isSome hsome] at hrest
        exact List.mem_of_find?_eq_some hrest

/-- **Bug**: an ASN had one operator until 2018 and has another since; the lookup for a day of 2019 finds
neither. -/
theorem later_identity_is_lost :
    let before : AsnIdentity := ⟨64512, "First Net", "re", none, some "2018-12-31",
      "HistoricallyReviewed"⟩
    let since : AsnIdentity := ⟨64512, "Second Net", "re", some "2019-01-01", none,
      "HistoricallyReviewed"⟩
    ¬ (file [some before, some since]).FindsIdentity 64512 "2019-08-21" := by
  intro before since h
  have hfound := h.found ⟨since, by decide, by decide⟩
  revert hfound
  decide

end IdentityLoads

end Inim
