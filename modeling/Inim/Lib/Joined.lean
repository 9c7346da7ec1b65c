import Mathlib
/-!
# Joined texts

Pieces joined by a separator none of them contains can be told apart again
(`intercalate_injective`), and so can numbers from their digits (`toDigits_injective`).
-/

namespace Inim.Lib

theorem append_cons_inj {α : Type*} {c : α} {xs ys us vs : List α} (hx : c ∉ xs) (hy : c ∉ ys)
    (h : xs ++ c :: us = ys ++ c :: vs) : xs = ys ∧ us = vs := by
  induction xs generalizing ys with
  | nil =>
    cases ys with
    | nil => simpa using h
    | cons y ys =>
      rw [List.nil_append, List.cons_append, List.cons.injEq] at h
      exact absurd (List.mem_cons.2 (Or.inl h.1)) hy
  | cons x xs ih =>
    cases ys with
    | nil =>
      rw [List.nil_append, List.cons_append, List.cons.injEq] at h
      exact absurd (List.mem_cons.2 (Or.inl h.1.symm)) hx
    | cons y ys =>
      rw [List.cons_append, List.cons_append, List.cons.injEq] at h
      obtain ⟨rfl, h⟩ := h
      obtain ⟨rfl, rfl⟩ := ih (fun hm => hx (List.mem_cons_of_mem _ hm))
        (fun hm => hy (List.mem_cons_of_mem _ hm)) h
      exact ⟨rfl, rfl⟩

section Joined
variable {sep : String} {c : Char}

theorem intercalate_injective (hsep : sep.toList = [c]) {ps qs : List String} (hps : ps ≠ [])
    (hqs : qs ≠ []) (hp : ∀ p ∈ ps, c ∉ p.toList) (hq : ∀ q ∈ qs, c ∉ q.toList)
    (h : sep.intercalate ps = sep.intercalate qs) : ps = qs := by
  -- a piece that ends the list is not one that a separator follows
  have hlast : ∀ (p q : String) (rest : List String), rest ≠ [] → c ∉ p.toList →
      p ≠ sep.intercalate (q :: rest) := by
    rintro p q rest hrest hmem rfl
    rw [String.intercalate_cons_of_ne_nil hrest] at hmem
    simp [String.toList_append, hsep] at hmem
  induction ps generalizing qs with
  | nil => exact absurd rfl hps
  | cons p ps ih =>
    obtain ⟨q, qs, rfl⟩ := List.exists_cons_of_ne_nil hqs
    have hp1 := hp p (by simp)
    have hq1 := hq q (by simp)
    by_cases hps' : ps = []
    · by_cases hqs' : qs = []
      · subst hps' hqs'
        simpa using h
      · rw [hps', String.intercalate_singleton] at h
        exact absurd h (hlast p q qs hqs' hp1)
    · by_cases hqs' : qs = []
      · rw [hqs', String.intercalate_singleton] at h
        exact absurd h.symm (hlast q p ps hps' hq1)
      · rw [String.intercalate_cons_of_ne_nil hps', String.intercalate_cons_of_ne_nil hqs'] at h
        have hl := congrArg String.toList h
        simp only [String.toList_append, hsep, List.append_assoc, List.singleton_append] at hl
        obtain ⟨hpq, hrest⟩ := append_cons_inj hp1 hq1 hl
        obtain rfl := String.toList_inj.1 hpq
        rw [ih hps' hqs' (fun p hm => hp p (by simp [hm])) (fun q hm => hq q (by simp [hm]))
          (String.toList_inj.1 hrest)]

theorem mem_intercalate {d : Char} {ps : List String} (h : d ∈ (sep.intercalate ps).toList) :
    d ∈ sep.toList ∨ ∃ p ∈ ps, d ∈ p.toList := by
  induction ps with
  | nil => simp at h
  | cons p ps ih =>
    by_cases hps : ps = []
    · subst hps
      exact Or.inr ⟨p, by simp, by simpa using h⟩
    · rw [String.intercalate_cons_of_ne_nil hps] at h
      simp only [String.toList_append, List.mem_append] at h
      rcases h with (h | h) | h
      · exact Or.inr ⟨p, by simp, h⟩
      · exact Or.inl h
      · rcases ih h with h | ⟨q, hq, h⟩
        · exact Or.inl h
        · exact Or.inr ⟨q, by simp [hq], h⟩

end Joined

/-! ## Digits -/

theorem digitChar_injective {a b : Nat} (ha : a < 16) (hb : b < 16)
    (h : a.digitChar = b.digitChar) : a = b := by
  have hall : ∀ a : Fin 16, ∀ b : Fin 16, a.val.digitChar = b.val.digitChar → a = b := by decide
  exact congrArg Fin.val (hall ⟨a, ha⟩ ⟨b, hb⟩ h)

theorem toDigits_injective {b : Nat} (hb : 1 < b) (hb' : b ≤ 16) {m n : Nat}
    (h : Nat.toDigits b m = Nat.toDigits b n) : m = n := by
  induction m using Nat.strong_induction_on generalizing n with
  | _ m ih =>
    rw [Nat.toDigits_eq_if (n := m) hb, Nat.toDigits_eq_if (n := n) hb] at h
    have hpos : 0 < b := by omega
    have hmod (k : Nat) : k % b < 16 := lt_of_lt_of_le (Nat.mod_lt k hpos) hb'
    split at h
    · next hm =>
      split at h
      · next hn =>
        exact digitChar_injective (by omega) (by omega) (List.singleton_inj.1 h)
      · have hlen := congrArg List.length h
        have := @Nat.length_toDigits_pos b (n / b)
        simp only [List.length_singleton, List.length_append] at hlen
        omega
    · next hm =>
      split at h
      · have hlen := congrArg List.length h
        have := @Nat.length_toDigits_pos b (m / b)
        simp only [List.length_singleton, List.length_append] at hlen
        omega
      · obtain ⟨hdiv, hdigit⟩ := List.append_inj' h rfl
        have hrec := ih (m / b) (Nat.div_lt_self (by omega) hb) hdiv
        have hrem := digitChar_injective (hmod m) (hmod n) (List.singleton_inj.1 hdigit)
        rw [← Nat.div_add_mod m b, ← Nat.div_add_mod n b, hrec, hrem]

/-- The characters of a number are digits of its base. -/
theorem mem_toDigits {b : Nat} (hb : 1 < b) {n : Nat} {c : Char} (h : c ∈ Nat.toDigits b n) :
    ∃ d, d < b ∧ c = d.digitChar := by
  induction n using Nat.strong_induction_on with
  | _ n ih =>
    rw [Nat.toDigits_eq_if hb] at h
    split at h
    · next hn => exact ⟨n, hn, List.mem_singleton.1 h⟩
    · rcases List.mem_append.1 h with h | h
      · exact ih (n / b) (Nat.div_lt_self (by omega) hb) h
      · exact ⟨n % b, Nat.mod_lt _ (by omega), List.mem_singleton.1 h⟩

end Inim.Lib
