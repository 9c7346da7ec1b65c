import Mathlib.Data.List.Basic

/-!
# Parenthetical phrases

A phrase begins at an opening parenthesis and ends at the one that closes it (`Phrase`). The
outermost phrases are those that do not begin inside another (`Outer`). What stands before a text
changes neither, as long as its own parentheses are closed in it (`Whole`).
-/

namespace Inim.Lib

/-- How many parentheses are open after a text that begins inside `d` of them; `none` where one
closes that was not opened. -/
def depthAfter : Nat → List Char → Option Nat
  | d, [] => some d
  | d, c :: cs =>
    if c = '(' then depthAfter (d + 1) cs
    else if c = ')' then match d with
      | 0 => none
      | d + 1 => depthAfter d cs
    else depthAfter d cs

/-- Every parenthesis of the text is closed or opened in it. -/
def Balanced (cs : List Char) : Prop := depthAfter 0 cs = some 0

instance (cs : List Char) : Decidable (Balanced cs) :=
  inferInstanceAs (Decidable (depthAfter 0 cs = some 0))

theorem depthAfter_append (a b : List Char) (d : Nat) :
    depthAfter d (a ++ b) = (depthAfter d a).bind (depthAfter · b) := by
  induction a generalizing d with
  | nil => rfl
  | cons c a ih =>
    simp only [List.cons_append, depthAfter]
    split
    · exact ih _
    · split
      · cases d with
        | zero => rfl
        | succ d => exact ih _
      · exact ih _

/-- The closing parenthesis of a balanced text is found in one place only. -/
theorem Balanced.eq_of_append {x y s s' : List Char} (hx : Balanced x) (hy : Balanced y)
    (h : x ++ ')' :: s = y ++ ')' :: s') : x = y := by
  have key : ∀ {a b r r' : List Char}, Balanced a → Balanced b → a <+: b →
      a ++ ')' :: r = b ++ ')' :: r' → a = b := by
    rintro a b r r' ha hb ⟨m, rfl⟩ hab
    cases m with
    | nil => simp
    | cons c m =>
      -- a longer text has the closing parenthesis of the shorter one in it, with nothing open
      obtain ⟨rfl, -⟩ : ')' = c ∧ _ := by simpa using hab
      simp [Balanced, depthAfter_append, show depthAfter 0 a = some 0 from ha, depthAfter] at hb
  rcases List.prefix_or_prefix_of_prefix ⟨_, rfl⟩ (⟨_, h.symm⟩ : y <+: _) with hxy | hyx
  · exact key hx hy hxy h
  · exact (key hy hx hyx h.symm).symm

/-- A text that ends fewer levels up than it begins has the closing parenthesis of its level. -/
theorem exists_close {v : List Char} {e d : Nat} (h : depthAfter (e + (d + 1)) v = some 0) :
    ∃ x s, v = x ++ ')' :: s ∧ depthAfter e x = some 0 := by
  induction v generalizing e with
  | nil => simp [depthAfter] at h
  | cons c v ih =>
    by_cases hopen : c = '('
    · obtain ⟨x, s, rfl, hx⟩ := ih (e := e + 1) (by simpa [depthAfter, hopen, Nat.add_right_comm] using h)
      exact ⟨c :: x, s, rfl, by simpa [depthAfter, hopen] using hx⟩
    by_cases hclose : c = ')'
    · subst hclose
      cases e with
      | zero => exact ⟨[], v, rfl, rfl⟩
      | succ e =>
        obtain ⟨x, s, rfl, hx⟩ := ih (e := e) (by
          rw [Nat.add_right_comm] at h
          simpa [depthAfter] using h)
        exact ⟨')' :: x, s, rfl, by simpa [depthAfter] using hx⟩
    · obtain ⟨x, s, rfl, hx⟩ := ih (e := e) (by simpa [depthAfter, hopen, hclose] using h)
      exact ⟨c :: x, s, rfl, by simpa [depthAfter, hopen, hclose] using hx⟩

/-! ## Phrases -/

/-- The text has an opening parenthesis at `i`, and `inner` up to the one that closes it. -/
def Phrase (t : List Char) (i : Nat) (inner : List Char) : Prop :=
  ∃ p s, t = p ++ '(' :: inner ++ ')' :: s ∧ p.length = i ∧ Balanced inner

/-- A phrase that does not begin inside another one. -/
def Outer (t : List Char) (i : Nat) (inner : List Char) : Prop :=
  Phrase t i inner ∧ ∀ k x, Phrase t k x → k < i → k + x.length + 2 ≤ i

/-- Every parenthesis opened before `i` is closed somewhere. -/
def ClosedBefore (t : List Char) (i : Nat) : Prop :=
  ∀ k < i, t[k]? = some '(' → ∃ x, Phrase t k x

/-- Every parenthesis opened in the text is closed in it. -/
def Whole (p : List Char) : Prop :=
  ∀ u v, p = u ++ '(' :: v → ∃ x w, v = x ++ ')' :: w ∧ Balanced x

theorem Phrase.unique {t x y : List Char} {i : Nat} (hx : Phrase t i x) (hy : Phrase t i y) : x = y := by
  obtain ⟨p, s, rfl, hp, hbx⟩ := hx
  obtain ⟨q, s', hq, hql, hby⟩ := hy
  simp only [List.append_assoc, List.cons_append] at hq
  obtain ⟨rfl, h⟩ := List.append_inj hq (hp.trans hql.symm)
  exact hbx.eq_of_append hby (List.cons.inj h).2

theorem Phrase.append_left {p s x : List Char} {i : Nat} :
    Phrase (p ++ s) (p.length + i) x ↔ Phrase s i x := by
  constructor
  · rintro ⟨q, r, h, hq, hx⟩
    simp only [List.append_assoc, List.cons_append] at h
    obtain ⟨m, rfl, rfl⟩ | ⟨m, rfl, h'⟩ := List.append_eq_append_iff.mp h
    · exact ⟨m, r, by simp, by simpa using hq, hx⟩
    · obtain rfl : m = [] := List.length_eq_zero_iff.mp (by simp at hq; omega)
      exact ⟨[], r, by simpa using h'.symm, by simp at hq ⊢; omega, hx⟩
  · rintro ⟨q, r, rfl, rfl, hx⟩
    exact ⟨p ++ q, r, by simp, by simp, hx⟩

theorem Phrase.lt_length {t x : List Char} {i : Nat} (h : Phrase t i x) : i + x.length + 2 ≤ t.length := by
  obtain ⟨p, s, rfl, rfl, -⟩ := h
  simp only [List.length_append, List.length_cons]
  omega

theorem Phrase.getElem? {t x : List Char} {i : Nat} (h : Phrase t i x) : t[i]? = some '(' := by
  obtain ⟨p, s, rfl, rfl, -⟩ := h
  simp

theorem phrase_of_mem_whole {p s : List Char} (hp : Whole p) {k : Nat} (hk : p[k]? = some '(') :
    ∃ x, Phrase (p ++ s) k x ∧ k + x.length + 2 ≤ p.length := by
  obtain ⟨hlt, hget⟩ := List.getElem?_eq_some_iff.mp hk
  have hsplit : p = p.take k ++ '(' :: p.drop (k + 1) := by
    rw [← hget, List.getElem_cons_drop, List.take_append_drop]
  obtain ⟨x, w, hv, hx⟩ := hp _ _ hsplit
  rw [hv] at hsplit
  have hlen : (p.take k).length = k := List.length_take_of_le (Nat.le_of_lt hlt)
  refine ⟨x, ⟨p.take k, w ++ s, ?_, hlen, hx⟩, ?_⟩
  · conv_lhs => rw [hsplit]
    simp
  · have := congrArg List.length hsplit
    simp only [List.length_append, hlen, List.length_cons] at this
    omega

theorem Phrase.end_le {p s x : List Char} {k : Nat} (hp : Whole p) (h : Phrase (p ++ s) k x)
    (hk : k < p.length) : k + x.length + 2 ≤ p.length := by
  have hget : p[k]? = some '(' := by rw [← List.getElem?_append_left hk]; exact h.getElem?
  obtain ⟨y, hy, hle⟩ := phrase_of_mem_whole (s := s) hp hget
  rwa [h.unique hy]

theorem outer_append_left {p s x : List Char} {i : Nat} (hp : Whole p) :
    Outer (p ++ s) (p.length + i) x ↔ Outer s i x := by
  constructor
  · rintro ⟨hx, hout⟩
    refine ⟨Phrase.append_left.mp hx, fun k y hy hk => ?_⟩
    have := hout (p.length + k) y (Phrase.append_left.mpr hy) (by omega)
    omega
  · rintro ⟨hx, hout⟩
    refine ⟨Phrase.append_left.mpr hx, fun k y hy hk => ?_⟩
    rcases Nat.lt_or_ge k p.length with hlt | hge
    · have := hy.end_le hp hlt
      omega
    · obtain ⟨m, rfl⟩ := Nat.exists_eq_add_of_le hge
      have := hout m y (Phrase.append_left.mp hy) (by omega)
      omega

theorem closedBefore_append_left {p s : List Char} {i : Nat} (hp : Whole p) :
    ClosedBefore (p ++ s) (p.length + i) ↔ ClosedBefore s i := by
  constructor
  · intro h k hk hget
    obtain ⟨x, hx⟩ := h (p.length + k) (by omega) (by
      rwa [List.getElem?_append_right (by omega), Nat.add_sub_cancel_left])
    exact ⟨x, Phrase.append_left.mp hx⟩
  · intro h k hk hget
    rcases Nat.lt_or_ge k p.length with hlt | hge
    · rw [List.getElem?_append_left hlt] at hget
      obtain ⟨x, hx, -⟩ := phrase_of_mem_whole (s := s) hp hget
      exact ⟨x, hx⟩
    · obtain ⟨m, rfl⟩ := Nat.exists_eq_add_of_le hge
      rw [List.getElem?_append_right (by omega), Nat.add_sub_cancel_left] at hget
      obtain ⟨x, hx⟩ := h m (by omega) hget
      exact ⟨x, Phrase.append_left.mpr hx⟩

theorem Balanced.whole {p : List Char} (h : Balanced p) : Whole p := by
  rintro u v rfl
  rw [Balanced, depthAfter_append] at h
  obtain ⟨d, -, hd⟩ := Option.bind_eq_some_iff.mp h
  obtain ⟨x, s, hv, hx⟩ := exists_close (v := v) (e := 0) (d := d) (by simpa [depthAfter, Nat.add_comm] using hd)
  exact ⟨x, s, hv, hx⟩

theorem whole_singleton {c : Char} (hc : c ≠ '(') : Whole [c] := by
  intro u v h
  cases u with
  | nil => exact absurd (List.cons.inj h).1 hc
  | cons a u => simp at h

theorem Balanced.group {x : List Char} (hx : Balanced x) : Balanced ('(' :: x ++ [')']) := by
  have hshift : ∀ (d e : Nat) (y : List Char), depthAfter d y = some e → depthAfter (d + 1) y = some (e + 1) := by
    intro d e y
    induction y generalizing d with
    | nil => simp [depthAfter]
    | cons c y ih =>
      simp only [depthAfter]
      split
      · exact ih _
      · split
        · cases d with
          | zero => simp
          | succ d => exact ih d
        · exact ih _
  have h1 : depthAfter 1 x = some 1 := hshift 0 0 x hx
  simp [Balanced, depthAfter, depthAfter_append, h1]

/-- The phrases of a text that begins with one: this one, and those behind it. -/
theorem outer_group {x s y : List Char} {i : Nat} (hx : Balanced x) :
    Outer ('(' :: x ++ ')' :: s) i y ↔
      (i = 0 ∧ y = x) ∨ ∃ k, i = x.length + 2 + k ∧ Outer s k y := by
  have htext : '(' :: x ++ ')' :: s = ('(' :: x ++ [')']) ++ s := by simp
  have hlen : ('(' :: x ++ [')']).length = x.length + 2 := by simp
  have hfirst : Phrase ('(' :: x ++ ')' :: s) 0 x := ⟨[], s, rfl, rfl, hx⟩
  constructor
  · rintro ⟨hy, hout⟩
    rcases Nat.eq_zero_or_pos i with rfl | hpos
    · exact Or.inl ⟨rfl, hy.unique hfirst⟩
    · have hge := hout 0 x hfirst hpos
      obtain ⟨k, rfl⟩ := Nat.exists_eq_add_of_le (show x.length + 2 ≤ i by omega)
      refine Or.inr ⟨k, rfl, ?_⟩
      rw [htext, ← hlen] at hy hout
      exact (outer_append_left hx.group.whole).mp ⟨hy, hout⟩
  · rintro (⟨rfl, rfl⟩ | ⟨k, rfl, hk⟩)
    · exact ⟨hfirst, fun k _ _ hk => absurd hk (Nat.not_lt_zero k)⟩
    · rw [htext, ← hlen]
      exact (outer_append_left hx.group.whole).mpr hk

theorem closedBefore_group {x s : List Char} {k : Nat} (hx : Balanced x) :
    ClosedBefore ('(' :: x ++ ')' :: s) (x.length + 2 + k) ↔ ClosedBefore s k := by
  have htext : '(' :: x ++ ')' :: s = ('(' :: x ++ [')']) ++ s := by simp
  have hlen : ('(' :: x ++ [')']).length = x.length + 2 := by simp
  rw [htext, ← hlen]
  exact closedBefore_append_left hx.group.whole

theorem outer_of_balanced {p x s : List Char} (hp : Balanced p) (hx : Balanced x) :
    Outer (p ++ '(' :: x ++ ')' :: s) p.length x := by
  have hfirst : Outer ('(' :: x ++ ')' :: s) 0 x := (outer_group hx).mpr (Or.inl ⟨rfl, rfl⟩)
  simpa using (outer_append_left hp.whole).mpr hfirst

/-- A text is read by its outermost phrases: nothing, a character outside of phrases, a phrase, or
a parenthesis that is never closed. -/
theorem phrases_induction {motive : List Char → Prop} (nil : motive [])
    (other : ∀ c cs, c ≠ '(' → motive cs → motive (c :: cs))
    (group : ∀ x s, Balanced x → motive s → motive ('(' :: x ++ ')' :: s))
    (left : ∀ cs, (∀ x s, cs = x ++ ')' :: s → ¬ Balanced x) → motive ('(' :: cs))
    (t : List Char) : motive t := by
  induction hn : t.length using Nat.strongRecOn generalizing t with
  | ind n ih =>
    subst hn
    cases t with
    | nil => exact nil
    | cons c cs =>
      by_cases hc : c = '('
      · subst hc
        by_cases hclose : ∃ x s, cs = x ++ ')' :: s ∧ Balanced x
        · obtain ⟨x, s, rfl, hx⟩ := hclose
          exact group x s hx (ih s.length (by simp; omega) s rfl)
        · exact left cs fun x s h hx => hclose ⟨x, s, h, hx⟩
      · exact other c cs hc (ih cs.length (by simp) cs rfl)

end Inim.Lib
