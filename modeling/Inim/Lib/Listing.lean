import Mathlib.Data.List.Basic
import Mathlib.Data.List.Sort

/-!
# Listings with ties left open

`ORDER BY at DESC` fixes the order of rows with different keys only. `Listing at rows l` are the
lists such a query may return, and `head_listing_iff` says which rows may come first: those that
no other row exceeds.
-/

namespace Inim.Lib

variable {α β : Type*} [LinearOrder β]

/-- `l` lists `rows` by `at`, greatest first. -/
structure Listing (at_ : α → β) (rows l : List α) : Prop where
  perm : l.Perm rows
  sorted : l.Pairwise fun a b => at_ b ≤ at_ a

variable {at_ : α → β} {rows l : List α} {a : α}

/-- The listing that keeps ties in the order of the rows. -/
theorem listing_insertionSort (at_ : α → β) (rows : List α) :
    Listing at_ rows (rows.insertionSort fun a b => at_ b ≤ at_ a) := by
  have : Std.Total fun a b : α => at_ b ≤ at_ a := ⟨fun a b => le_total _ _⟩
  have : IsTrans α fun a b => at_ b ≤ at_ a := ⟨fun a b c hab hbc => hbc.trans hab⟩
  exact ⟨List.perm_insertionSort _ _, List.pairwise_insertionSort _ _⟩

theorem exists_listing (at_ : α → β) (rows : List α) : ∃ l, Listing at_ rows l :=
  ⟨_, listing_insertionSort at_ rows⟩

/-- A row may be listed first iff none exceeds it. -/
theorem head_listing_iff :
    (∃ l, Listing at_ rows l ∧ l.head? = some a) ↔ a ∈ rows ∧ ∀ b ∈ rows, at_ b ≤ at_ a := by
  constructor
  · rintro ⟨l, hl, hhead⟩
    obtain ⟨rest, rfl⟩ := List.head?_eq_some_iff.1 hhead
    refine ⟨hl.perm.subset (by simp), fun b hb => ?_⟩
    rcases List.mem_cons.1 (hl.perm.symm.subset hb) with rfl | hrest
    · exact le_rfl
    · exact (List.pairwise_cons.1 hl.sorted).1 b hrest
  · rintro ⟨ha, hmax⟩
    obtain ⟨pre, post, rfl⟩ := List.append_of_mem ha
    obtain ⟨l, hl⟩ := exists_listing at_ (pre ++ post)
    refine ⟨a :: l, ⟨(hl.perm.cons a).trans List.perm_middle.symm, ?_⟩, rfl⟩
    refine List.pairwise_cons.2 ⟨fun b hb => hmax b ?_, hl.sorted⟩
    have := hl.perm.subset hb
    simp only [List.mem_append, List.mem_cons] at this ⊢
    tauto

/-- Every listing starts with the value `v` iff there are rows and each row that none exceeds
has it. -/
theorem forall_listing_head_iff {γ : Type*} (p : α → γ) (v : γ) :
    (∀ l, Listing at_ rows l → l.head?.map p = some v) ↔
      rows ≠ [] ∧ ∀ a ∈ rows, (∀ b ∈ rows, at_ b ≤ at_ a) → p a = v := by
  constructor
  · intro h
    refine ⟨?_, fun a ha hmax => ?_⟩
    · rintro rfl
      obtain ⟨l, hl⟩ := exists_listing at_ ([] : List α)
      have := h l hl
      rw [List.perm_nil.1 hl.perm] at this
      cases this
    · obtain ⟨l, hl, hhead⟩ := head_listing_iff.2 ⟨ha, hmax⟩
      have := h l hl
      rw [hhead] at this
      exact Option.some.inj this
  · rintro ⟨hne, h⟩ l hl
    cases hhead : l.head? with
    | none =>
      rw [List.head?_eq_none_iff] at hhead
      subst hhead
      exact absurd (List.nil_perm.1 hl.perm) hne
    | some a =>
      obtain ⟨ha, hmax⟩ := head_listing_iff.1 ⟨l, hl, hhead⟩
      rw [Option.map_some, h a ha hmax]

/-- Some row is exceeded by none. -/
theorem exists_max (at_ : α → β) (h : rows ≠ []) : ∃ a ∈ rows, ∀ b ∈ rows, at_ b ≤ at_ a := by
  obtain ⟨l, hl⟩ := exists_listing at_ rows
  cases hhead : l.head? with
  | none =>
    rw [List.head?_eq_none_iff] at hhead
    subst hhead
    exact absurd (List.nil_perm.1 hl.perm) h
  | some a => exact ⟨a, head_listing_iff.1 ⟨l, hl, hhead⟩⟩

end Inim.Lib
