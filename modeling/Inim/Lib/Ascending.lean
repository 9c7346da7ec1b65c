import Inim.Lib.Dedup
/-!
# What stands where in a sorted list

A list ascends in a relation that never goes both ways if it is pairwise related by it. Such a list is
told by its elements: what holds of every two in a row of places holds of every two elements that are
so related (`pairwise_iff`), its ends are the elements with nothing beyond them, and next to each other
are those with nothing between them (`isChain_iff`).

A stable sort of an ascending list ascends in the comparison, and among ties in the order the list had
(`sortBy_ascends`). Removing adjacent repeats keeps all elements iff no neighbours are alike
(`dedupByKey_subset_iff`).
-/

namespace Inim.Lib

open Std

variable {α : Type*}

namespace Ascending
variable {T R : α → α → Prop} {l : List α}

/-- Of two places of an ascending list, the related element stands later. -/
theorem pairwise_iff (hT : ∀ a b, T a b → ¬ T b a) (h : l.Pairwise T) :
    l.Pairwise R ↔ ∀ a ∈ l, ∀ b ∈ l, T a b → R a b := by
  constructor
  · intro hR a ha b hb hab
    have hne : a ≠ b := by
      rintro rfl
      exact hT a a hab hab
    rcases before_or_before (h.and hR) ha hb hne with hfirst | hlast
    · exact hfirst.2
    · exact absurd hlast.1 (hT a b hab)
  · intro hR
    exact h.imp_of_mem fun ha hb hab => hR _ ha _ hb hab

/-- Nothing is related to the first element, and the last to nothing. -/
theorem head?_eq_iff (hT : ∀ a b, T a b → ¬ T b a) (h : l.Pairwise T) {a : α} :
    l.head? = some a ↔ a ∈ l ∧ ∀ b ∈ l, ¬ T b a := by
  cases l with
  | nil => simp
  | cons x l =>
    obtain ⟨hx, -⟩ := List.pairwise_cons.1 h
    rw [List.head?_cons, Option.some.injEq]
    constructor
    · rintro rfl
      refine ⟨List.mem_cons_self, fun b hb hbx => ?_⟩
      rcases List.mem_cons.1 hb with rfl | hb
      · exact hT b b hbx hbx
      · exact hT x b (hx b hb) hbx
    · rintro ⟨ha, hnone⟩
      exact ((List.mem_cons.1 ha).resolve_right fun hal => hnone x List.mem_cons_self (hx a hal)).symm

theorem getLast?_eq_iff (hT : ∀ a b, T a b → ¬ T b a) (h : l.Pairwise T) {a : α} :
    l.getLast? = some a ↔ a ∈ l ∧ ∀ b ∈ l, ¬ T a b := by
  rw [List.getLast?_eq_head?_reverse,
    head?_eq_iff (T := fun a b => T b a) (fun a b hab => hT b a hab) (List.pairwise_reverse.2 h)]
  simp only [List.mem_reverse]

theorem nodup (hT : ∀ a b, T a b → ¬ T b a) (h : l.Pairwise T) : l.Nodup := by
  refine h.imp fun {a b} hab => ?_
  rintro rfl
  exact hT a a hab hab

/-- Neighbours are the elements with none between them. -/
theorem isChain_iff (hT : ∀ a b, T a b → ¬ T b a) (h : l.Pairwise T) :
    l.IsChain R ↔ ∀ a ∈ l, ∀ b ∈ l, T a b → (∀ c ∈ l, ¬ (T a c ∧ T c b)) → R a b := by
  rw [List.isChain_iff_forall_rel_of_append_cons_cons]
  constructor
  · intro hR a ha b hb hab hnone
    obtain ⟨p, r, rfl⟩ := List.append_of_mem ha
    obtain ⟨-, har, hpr⟩ := List.pairwise_append.1 h
    have hbr : b ∈ r := by
      rcases List.mem_append.1 hb with hbp | hbar
      · exact absurd (hpr b hbp a List.mem_cons_self) (hT a b hab)
      · refine (List.mem_cons.1 hbar).resolve_left ?_
        rintro rfl
        exact hT b b hab hab
    obtain ⟨m, q, rfl⟩ := List.append_of_mem hbr
    cases m with
    | nil => exact hR rfl
    | cons c m =>
      -- whatever stands between is related to both
      have hac : T a c := (List.pairwise_cons.1 har).1 c (by simp)
      have hcb : T c b := by
        have htail := (List.pairwise_cons.1 har).2
        exact (List.pairwise_append.1 htail).2.2 c List.mem_cons_self b List.mem_cons_self
      exact absurd ⟨hac, hcb⟩ (hnone c (by simp))
  · rintro hR a b p q rfl
    obtain ⟨-, habq, hp⟩ := List.pairwise_append.1 h
    obtain ⟨ha, hbq⟩ := List.pairwise_cons.1 habq
    obtain ⟨hb, -⟩ := List.pairwise_cons.1 hbq
    have hab : T a b := ha b List.mem_cons_self
    refine hR a (by simp) b (by simp) hab fun c hc ⟨hac, hcb⟩ => ?_
    rcases List.mem_append.1 hc with hcp | hc
    · exact hT a c hac (hp c hcp a List.mem_cons_self)
    rcases List.mem_cons.1 hc with rfl | hc
    · exact hT c c hac hac
    rcases List.mem_cons.1 hc with rfl | hcq
    · exact hT c c hcb hcb
    · exact hT c b hcb (hb c hcq)

end Ascending

/-! ## After a stable sort -/

section Sorted
variable {cmp : α → α → Ordering} [TransCmp cmp] {R T : α → α → Prop}

theorem orderedInsert_pairwise_iff (a : α) {l : List α} (hl : l.Pairwise (CmpLE cmp)) :
    (l.orderedInsert (CmpLE cmp) a).Pairwise R ↔
      (∀ b ∈ l, (CmpLE cmp a b → R a b) ∧ (¬ CmpLE cmp a b → R b a)) ∧ l.Pairwise R := by
  induction l with
  | nil => simp
  | cons b l ih =>
    obtain ⟨hb, hl'⟩ := List.pairwise_cons.1 hl
    by_cases hab : CmpLE cmp a b
    · -- it goes to the front, where nothing is less
      have hall : ∀ x ∈ b :: l, CmpLE cmp a x := by
        intro x hx
        rcases List.mem_cons.1 hx with rfl | hx
        · exact hab
        · exact cmpLE_trans hab (hb x hx)
      rw [List.orderedInsert_cons_of_le _ _ hab, List.pairwise_cons]
      refine and_congr_left fun _ => forall₂_congr fun x hx => ?_
      exact ⟨fun h => ⟨fun _ => h, fun hn => absurd (hall x hx) hn⟩, fun h => h.1 (hall x hx)⟩
    · rw [List.orderedInsert_of_not_le _ _ hab, List.pairwise_cons, ih hl', List.pairwise_cons]
      simp only [List.mem_orderedInsert, List.forall_mem_cons, forall_eq_or_imp, hab, not_false_eq_true,
        false_implies, true_implies, true_and]
      tauto

/-- Of two elements the first stays first, unless it is the greater. -/
theorem sortBy_pairwise_iff {l : List α} : (sortBy cmp l).Pairwise R ↔
    l.Pairwise fun a b => (CmpLE cmp a b → R a b) ∧ (¬ CmpLE cmp a b → R b a) := by
  induction l with
  | nil => simp [sortBy]
  | cons a l ih =>
    rw [sortBy, List.insertionSort_cons, ← sortBy, orderedInsert_pairwise_iff a (sortBy_pairwise l), ih,
      List.pairwise_cons]
    simp only [mem_sortBy]

theorem sortBy_ascends {l : List α} (h : l.Pairwise T) :
    (sortBy cmp l).Pairwise fun a b => cmp a b = .lt ∨ cmp a b = .eq ∧ T a b := by
  refine sortBy_pairwise_iff.2 (h.imp fun {a b} hab => ⟨fun hle => ?_, fun hle => ?_⟩)
  · cases hcmp : cmp a b with
    | lt => exact .inl rfl
    | eq => exact .inr ⟨rfl, hab⟩
    | gt => exact absurd hle (by simp [CmpLE, hcmp])
  · refine .inl (OrientedCmp.lt_of_gt ?_)
    cases hcmp : cmp a b with
    | lt => exact absurd (by simp [CmpLE, hcmp]) hle
    | eq => exact absurd (by simp [CmpLE, hcmp]) hle
    | gt => rfl

end Sorted

/-! ## After the removal of adjacent repeats -/

section Repeats
variable {κ : Type*} [DecidableEq κ] {key : α → κ}

theorem dedupFrom_eq_cons_iff {a : α} {l : List α} :
    dedupFrom key a l = a :: l ↔ (a :: l).IsChain fun x y => key x ≠ key y := by
  induction l generalizing a with
  | nil => simp [dedupFrom]
  | cons b l ih =>
    rw [dedupFrom, List.isChain_cons_cons]
    split
    · next hab =>
      refine iff_of_false (fun h => ?_) fun h => h.1 hab
      have hlen := (dedupFrom_sublist key a l).length_le
      rw [h] at hlen
      simp at hlen
    · next hab => rw [List.cons_inj_right, ih, and_iff_right hab]

theorem dedupByKey_eq_self_iff {l : List α} :
    dedupByKey key l = l ↔ l.IsChain fun x y => key x ≠ key y := by
  cases l with
  | nil => simp [dedupByKey]
  | cons a l => exact dedupFrom_eq_cons_iff

/-- Nothing is removed iff no neighbours are alike. -/
theorem dedupByKey_subset_iff {l : List α} (h : l.Nodup) :
    (∀ a ∈ l, a ∈ dedupByKey key l) ↔ l.IsChain fun x y => key x ≠ key y := by
  rw [← dedupByKey_eq_self_iff]
  constructor
  · intro hsub
    exact (dedupByKey_sublist key l).eq_of_length_le (h.subperm hsub).length_le
  · intro heq a ha
    rwa [heq]

end Repeats

end Inim.Lib
