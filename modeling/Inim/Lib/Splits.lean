import Mathlib
/-!
# Positions in a list

`l = pre ++ a :: post` is how a run says "at this point of the input". The two rules here move
such a statement over one appended element, which is the step of every induction on a run.
-/

namespace Inim.Lib

variable {α : Type*} {l : List α} {a : α}

theorem concat_eq_split {pre : List α} {b : α} {post : List α} (h : l ++ [a] = pre ++ b :: post) :
    (pre = l ∧ b = a ∧ post = []) ∨ ∃ post', post = post' ++ [a] ∧ l = pre ++ b :: post' := by
  rcases List.eq_nil_or_concat post with rfl | ⟨post, c, rfl⟩
  · obtain ⟨rfl, hab⟩ := List.append_inj' h rfl
    exact Or.inl ⟨rfl, by simpa using hab.symm, rfl⟩
  · rw [List.concat_eq_append, ← List.cons_append, ← List.append_assoc] at h
    obtain ⟨rfl, hac⟩ := List.append_inj' h rfl
    obtain rfl : a = c := by simpa using hac
    exact Or.inr ⟨post, by simp, rfl⟩

/-- Something happens at a position of `l ++ [a]` iff it happens at the end or before it. -/
theorem exists_split_concat {P : List α → α → Prop} :
    (∃ pre b post, l ++ [a] = pre ++ b :: post ∧ P pre b) ↔
      (∃ pre b post, l = pre ++ b :: post ∧ P pre b) ∨ P l a := by
  constructor
  · rintro ⟨pre, b, post, h, hP⟩
    rcases concat_eq_split h with ⟨rfl, rfl, -⟩ | ⟨post', -, rfl⟩
    · exact Or.inr hP
    · exact Or.inl ⟨pre, b, post', rfl, hP⟩
  · rintro (⟨pre, b, post, rfl, hP⟩ | hP)
    · exact ⟨pre, b, post ++ [a], by simp, hP⟩
    · exact ⟨l, a, [], rfl, hP⟩

theorem forall_split_concat {P : List α → α → Prop} :
    (∀ pre b post, l ++ [a] = pre ++ b :: post → P pre b) ↔
      (∀ pre b post, l = pre ++ b :: post → P pre b) ∧ P l a := by
  constructor
  · intro h
    exact ⟨fun pre b post hl => h pre b (post ++ [a]) (by simp [hl]), h l a [] rfl⟩
  · rintro ⟨h, ha⟩ pre b post heq
    rcases concat_eq_split heq with ⟨rfl, rfl, -⟩ | ⟨post', -, rfl⟩
    · exact ha
    · exact h pre b post' rfl

/-- A list in which nothing with `p` follows anything without it is its part with `p`, then the
rest. -/
theorem filter_append_filter_not {p : α → Bool} (h : l.Pairwise fun a b => p b = true → p a = true) :
    l = l.filter p ++ l.filter fun a => !p a := by
  induction l with
  | nil => rfl
  | cons a l ih =>
    obtain ⟨ha, hl⟩ := List.pairwise_cons.1 h
    by_cases hp : p a = true
    · simpa [hp] using ih hl
    · have hnone : l.filter p = [] := by
        rw [List.filter_eq_nil_iff]
        exact fun b hb hpb => hp (ha b hb hpb)
      have hrest := ih hl
      rw [hnone, List.nil_append] at hrest
      simp [hp, hnone, ← hrest]

/-! ## The first and the last of a kind in an ordered list -/

section Ordered
variable {β : Type*} [LinearOrder β] {k : α → β} {p q : α → Bool} {x y : α}

theorem key_le_of_find? (hl : l.Pairwise fun a b => k a ≤ k b) (hx : l.find? p = some x)
    {z : α} (hz : z ∈ l) (hp : p z = true) : k x ≤ k z := by
  obtain ⟨-, as, bs, rfl, has⟩ := List.find?_eq_some_iff_append.1 hx
  rcases List.mem_append.1 hz with hz | hz
  · exact absurd hp (by simpa using has z hz)
  · rcases List.mem_cons.1 hz with rfl | hz
    · exact le_rfl
    · exact (List.pairwise_cons.1 (List.pairwise_append.1 hl).2.1).1 z hz

theorem key_le_getLast (hl : l.Pairwise fun a b => k a ≤ k b)
    (hy : (l.filter q).getLast? = some y) {z : α} (hz : z ∈ l) (hq : q z = true) :
    k z ≤ k y := by
  obtain ⟨as, has⟩ := List.getLast?_eq_some_iff.1 hy
  have hmem : z ∈ as ++ [y] := has ▸ List.mem_filter.2 ⟨hz, hq⟩
  have hsorted : (as ++ [y]).Pairwise fun a b => k a ≤ k b := has ▸ hl.sublist List.filter_sublist
  rcases List.mem_append.1 hmem with hz | hz
  · exact (List.pairwise_append.1 hsorted).2.2 z hz y (by simp)
  · rw [List.mem_singleton.1 hz]

/-- The last `q` is no later than the first `p` iff no `q` after a `p` is later than it. -/
theorem getLast_le_find?_iff (hl : l.Pairwise fun a b => k a ≤ k b)
    (hx : l.find? p = some x) (hy : (l.filter q).getLast? = some y) :
    k y ≤ k x ↔ l.Pairwise fun a b => p a = true → q b = true → k a = k b := by
  constructor
  · intro h
    refine hl.imp_of_mem fun {a b} ha hb hab hpa hqb => le_antisymm hab ?_
    calc k b ≤ k y := key_le_getLast hl hy hb hqb
      _ ≤ k x := h
      _ ≤ k a := key_le_of_find? hl hx ha hpa
  · intro h
    have hymem : y ∈ l ∧ q y = true := List.mem_filter.1 (List.mem_of_getLast? hy)
    obtain ⟨hpx, as, bs, rfl, -⟩ := List.find?_eq_some_iff_append.1 hx
    rcases List.mem_append.1 hymem.1 with hmem | hmem
    · exact (List.pairwise_append.1 hl).2.2 y hmem x (by simp)
    · rcases List.mem_cons.1 hmem with rfl | hmem
      · exact le_rfl
      · exact ((List.pairwise_cons.1 (List.pairwise_append.1 h).2.1).1 y hmem hpx hymem.2).ge

end Ordered

end Inim.Lib
