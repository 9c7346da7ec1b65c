import Mathlib.Algebra.Group.Nat.Defs
import Mathlib.Data.List.Basic
import Mathlib.Tactic.Common
/-!
# Numbers with leading zeros

`padZero w n` is `n` in decimal, filled up to `w` digits. Texts of digits of one length compare as
their numbers do.
-/

namespace Inim.Lib

/-- `{n:0w}`. -/
def padZero (w n : Nat) : List Char :=
  List.replicate (w - (Nat.toDigits 10 n).length) '0' ++ Nat.toDigits 10 n

theorem padZero_digits (w n : Nat) : ∀ c ∈ padZero w n, c.isDigit = true := by
  intro c hc
  rcases List.mem_append.1 hc with hc | hc
  · rw [List.eq_of_mem_replicate hc]
    rfl
  · exact Nat.isDigit_of_mem_toDigits (by decide) (by decide) hc

theorem padZero_value (w n : Nat) : Nat.ofDigitChars 10 (padZero w n) 0 = n := by
  rw [padZero, Nat.ofDigitChars_append, Nat.ofDigitChars_replicate_zero, Nat.mul_zero,
    Nat.ofDigitChars_ten_toDigits]

theorem padZero_injective (w : Nat) : Function.Injective (padZero w) := fun a b h => by
  rw [← padZero_value w a, h, padZero_value]

theorem padZero_length {w n : Nat} (hw : 0 < w) (h : n < 10 ^ w) : (padZero w n).length = w := by
  have hlen := (Nat.length_toDigits_le_iff (by decide) hw).2 h
  rw [padZero, List.length_append, List.length_replicate]
  omega

theorem utf8Size_digit {c : Char} (h : c.isDigit = true) : c.utf8Size = 1 := by
  simp only [Char.isDigit, Bool.and_eq_true, decide_eq_true_eq] at h
  exact Char.utf8Size_eq_one_iff.2 (UInt32.le_trans h.2 (by decide))

/-! ## Order -/

theorem digit_value_lt {c : Char} (h : c.isDigit = true) : c.toNat - '0'.toNat < 10 := by
  simp only [Char.isDigit, Bool.and_eq_true, decide_eq_true_eq] at h
  have hhi : c.toNat ≤ '9'.toNat := h.2
  have : '9'.toNat = 57 := rfl
  have : '0'.toNat = 48 := rfl
  omega

theorem digit_lt_iff {c d : Char} (hc : c.isDigit = true) (hd : d.isDigit = true) :
    c < d ↔ c.toNat - '0'.toNat < d.toNat - '0'.toNat := by
  simp only [Char.isDigit, Bool.and_eq_true, decide_eq_true_eq] at hc hd
  have hc0 : 48 ≤ c.toNat := hc.1
  have hd0 : 48 ≤ d.toNat := hd.1
  have hlt : c < d ↔ c.toNat < d.toNat := Iff.rfl
  rw [hlt, show '0'.toNat = 48 from rfl]
  omega

/-- What follows never makes up for a smaller beginning. -/
theorem ofDigitChars_lt_of_lt {l m : List Char} {a b : Nat} (hlen : l.length = m.length)
    (hl : ∀ c ∈ l, c.isDigit = true) (hab : a < b) :
    Nat.ofDigitChars 10 l a < Nat.ofDigitChars 10 m b := by
  induction l generalizing m a b with
  | nil =>
    obtain rfl := List.length_eq_zero_iff.1 hlen.symm
    simpa using hab
  | cons c l ih =>
    cases m with
    | nil => cases hlen
    | cons d m =>
      rw [Nat.ofDigitChars_cons, Nat.ofDigitChars_cons]
      have hc := digit_value_lt (hl c List.mem_cons_self)
      exact ih (Nat.succ.inj hlen) (fun c hc => hl c (List.mem_cons_of_mem _ hc)) (by omega)

theorem digits_lt_iff {l m : List Char} (hlen : l.length = m.length)
    (hl : ∀ c ∈ l, c.isDigit = true) (hm : ∀ c ∈ m, c.isDigit = true) (a : Nat) :
    l < m ↔ Nat.ofDigitChars 10 l a < Nat.ofDigitChars 10 m a := by
  induction l generalizing m a with
  | nil =>
    obtain rfl := List.length_eq_zero_iff.1 hlen.symm
    simp
  | cons c l ih =>
    cases m with
    | nil => cases hlen
    | cons d m =>
      have hrest : l.length = m.length := Nat.succ.inj hlen
      have hc := hl c List.mem_cons_self
      have hd := hm d List.mem_cons_self
      have hl' := fun x hx => hl x (List.mem_cons_of_mem _ hx)
      have hm' := fun x hx => hm x (List.mem_cons_of_mem _ hx)
      rw [List.cons_lt_cons_iff, Nat.ofDigitChars_cons, Nat.ofDigitChars_cons]
      rcases Nat.lt_trichotomy (c.toNat - '0'.toNat) (d.toNat - '0'.toNat) with hlt | heq | hgt
      · refine iff_of_true (Or.inl ((digit_lt_iff hc hd).2 hlt)) ?_
        exact ofDigitChars_lt_of_lt hrest hl' (by omega)
      · have hcd : ¬c < d := fun h => absurd ((digit_lt_iff hc hd).1 h) (by omega)
        have hdc : ¬d < c := fun h => absurd ((digit_lt_iff hd hc).1 h) (by omega)
        obtain rfl : c = d := Char.le_antisymm (Char.not_lt.1 hdc) (Char.not_lt.1 hcd)
        rw [← ih hrest hl' hm', or_iff_right hcd, and_iff_right rfl]
      · have hdc : d < c := (digit_lt_iff hd hc).2 hgt
        have hback := @ofDigitChars_lt_of_lt m l (10 * a + (d.toNat - '0'.toNat))
          (10 * a + (c.toNat - '0'.toNat)) hrest.symm hm' (by omega)
        refine iff_of_false ?_ (by omega)
        rintro (hcd | ⟨rfl, -⟩)
        · exact absurd hcd (Char.lt_asymm hdc)
        · exact Char.lt_irrefl _ hdc

/-- Numbers of one width are ordered as their texts. -/
theorem padZero_lt_iff {w a b : Nat} (hw : 0 < w) (ha : a < 10 ^ w) (hb : b < 10 ^ w) :
    padZero w a < padZero w b ↔ a < b := by
  rw [digits_lt_iff (by rw [padZero_length hw ha, padZero_length hw hb]) (padZero_digits w a)
    (padZero_digits w b) 0, padZero_value, padZero_value]

/-- Texts of digits are numbers with leading zeros. -/
theorem exists_padZero {l : List Char} (hne : l ≠ []) (hl : ∀ c ∈ l, c.isDigit = true) :
    ∃ n < 10 ^ l.length, padZero l.length n = l := by
  have hpos := List.length_pos_of_ne_nil hne
  have hlt : Nat.ofDigitChars 10 l 0 < 10 ^ l.length := by
    have h := @ofDigitChars_lt_of_lt l (List.replicate l.length '0') 0 1 (by simp) hl (by decide)
    rwa [Nat.ofDigitChars_replicate_zero, Nat.mul_one] at h
  refine ⟨Nat.ofDigitChars 10 l 0, hlt, ?_⟩
  have hlen := padZero_length hpos hlt
  have hdigits := padZero_digits l.length (Nat.ofDigitChars 10 l 0)
  have hvalue := padZero_value l.length (Nat.ofDigitChars 10 l 0)
  -- neither is less than the other, as they have the same value
  refine List.le_antisymm (List.not_lt.1 fun h => ?_) (List.not_lt.1 fun h => ?_)
  · exact absurd ((digits_lt_iff hlen.symm hl hdigits 0).1 h) (by omega)
  · exact absurd ((digits_lt_iff hlen hdigits hl 0).1 h) (by omega)

/-- The number that a text of digits begins with. -/
theorem exists_padZero_append {l : List Char} {a b : Nat} (ha : 0 < a) (hlen : l.length = a + b)
    (hl : ∀ c ∈ l, c.isDigit = true) :
    ∃ n < 10 ^ a, ∃ r, l = padZero a n ++ r ∧ r.length = b ∧ ∀ c ∈ r, c.isDigit = true := by
  have htake : (l.take a).length = a := by
    rw [List.length_take]
    omega
  obtain ⟨n, hn, heq⟩ := exists_padZero (l := l.take a) (by rw [← List.length_pos_iff]; omega)
    fun c hc => hl c (List.mem_of_mem_take hc)
  rw [htake] at hn heq
  refine ⟨n, hn, l.drop a, by rw [heq, List.take_append_drop], ?_, fun c hc => ?_⟩
  · rw [List.length_drop]
    omega
  · exact hl c (List.mem_of_mem_drop hc)

/-- Texts that begin with parts of one length are ordered by these first. -/
theorem append_lt_append_iff {l m l' m' : List Char} (hlen : l.length = m.length) :
    l ++ l' < m ++ m' ↔ l < m ∨ l = m ∧ l' < m' := by
  induction l generalizing m with
  | nil =>
    obtain rfl := List.length_eq_zero_iff.1 hlen.symm
    simp
  | cons c l ih =>
    cases m with
    | nil => cases hlen
    | cons d m =>
      rw [List.cons_append, List.cons_append, List.cons_lt_cons_iff, List.cons_lt_cons_iff,
        ih (Nat.succ.inj hlen), List.cons.injEq]
      tauto

theorem append_left_lt_iff (l : List Char) {l' m' : List Char} : l ++ l' < l ++ m' ↔ l' < m' := by
  rw [append_lt_append_iff rfl]
  exact ⟨fun h => h.elim (fun hlt => absurd hlt (List.lt_irrefl l)) And.right, fun h => .inr ⟨rfl, h⟩⟩

end Inim.Lib
