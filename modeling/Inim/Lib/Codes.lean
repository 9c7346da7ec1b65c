import Inim.Lib.Joined
/-!
# Self-delimiting texts

A *prefix code* can be read off the front of any text, so pieces written one after the other can be
told apart. Injectivity of the pieces alone is not enough for that: `PrefixCode` is what composes.
-/

namespace Inim.Lib

section
variable {α β σ : Type*} {f : α → List σ} {g : β → List σ}

/-- What is written can be read off the front of any text. -/
def PrefixCode (f : α → List σ) : Prop := ∀ ⦃a b : α⦄ ⦃r s : List σ⦄, f a ++ r = f b ++ s → a = b ∧ r = s

namespace PrefixCode

theorem lit_append (hf : PrefixCode f) (pre : List σ) : PrefixCode fun a => pre ++ f a := by
  intro a b r s h
  simp only [List.append_assoc] at h
  exact hf (List.append_cancel_left h)

/-- Two ways to write a value, told apart by the first symbol. -/
theorem option {n : List σ} {c d : σ} {rest : List σ} (hf : PrefixCode f)
    (hnone : n = c :: rest) (hsome : ∀ a, ∃ t, f a = d :: t) (hcd : c ≠ d) :
    PrefixCode fun o : Option α => o.elim n f := by
  rintro (_ | a) (_ | b) r s h
  · exact ⟨rfl, List.append_cancel_left h⟩
  · obtain ⟨t, ht⟩ := hsome b
    simp only [Option.elim_none, Option.elim_some, hnone, ht, List.cons_append] at h
    exact absurd (List.cons.inj h).1 hcd
  · obtain ⟨t, ht⟩ := hsome a
    simp only [Option.elim_none, Option.elim_some, hnone, ht, List.cons_append] at h
    exact absurd (List.cons.inj h).1.symm hcd
  · obtain ⟨hab, hrest⟩ := hf h
    exact ⟨congrArg some hab, hrest⟩

/-- One value after the other, ended by a symbol none of them starts with. -/
theorem many {stop : σ} (hf : PrefixCode f) (hstop : ∀ a r s, f a ++ r ≠ stop :: s) :
    PrefixCode fun l : List α => l.flatMap f ++ [stop] := by
  intro l m
  induction l generalizing m with
  | nil =>
    intro r s h
    cases m with
    | nil => exact ⟨rfl, by simpa using h⟩
    | cons b m =>
      simp only [List.flatMap_nil, List.flatMap_cons, List.append_assoc, List.nil_append,
        List.singleton_append] at h
      exact absurd h.symm (hstop b _ r)
  | cons a l ih =>
    intro r s h
    cases m with
    | nil =>
      simp only [List.flatMap_nil, List.flatMap_cons, List.append_assoc, List.nil_append,
        List.singleton_append] at h
      exact absurd h (hstop a _ s)
    | cons b m =>
      simp only [List.flatMap_cons, List.append_assoc] at h
      obtain ⟨hab, hrest⟩ := hf h
      obtain ⟨hlm, hrs⟩ := @ih m r s (by simpa only [List.append_assoc] using hrest)
      exact ⟨by rw [hab, hlm], hrs⟩

end PrefixCode

/-! ## Texts that need what comes after them -/

/-- What is written can be read off the front of a text once a symbol in `P` follows. -/
def CodeBefore (P : σ → Prop) (f : α → List σ) : Prop :=
  ∀ ⦃a b : α⦄ ⦃x y : σ⦄ ⦃r s : List σ⦄, P x → P y → f a ++ x :: r = f b ++ y :: s →
    a = b ∧ x :: r = y :: s

theorem PrefixCode.codeBefore {P : σ → Prop} (hf : PrefixCode f) : CodeBefore P f :=
  fun _ _ _ _ _ _ _ _ h => hf h

namespace CodeBefore
variable {P : σ → Prop}

/-- A text without a symbol of `P` ends at the first one. -/
theorem of_free (hinj : Function.Injective f) (hfree : ∀ a, ∀ c ∈ f a, ¬ P c) : CodeBefore P f := by
  classical
  have htake : ∀ (a : α) (x : σ) (r : List σ), P x →
      (f a ++ x :: r).takeWhile (fun c => ¬ P c) = f a := by
    intro a x r hx
    rw [List.takeWhile_append_of_pos fun c hc => by simpa using hfree a c hc,
      List.takeWhile_cons_of_neg (by simpa using hx), List.append_nil]
  intro a b x y r s hx hy h
  obtain rfl : a = b := hinj (by rw [← htake a x r hx, h, htake b y s hy])
  exact ⟨rfl, List.append_cancel_left h⟩

/-- With its terminator. -/
theorem ended (hf : CodeBefore P f) {stop : σ} (hstop : P stop) :
    PrefixCode fun a => f a ++ [stop] := by
  intro a b r s h
  simp only [List.append_assoc, List.singleton_append] at h
  obtain ⟨hab, hrest⟩ := hf hstop hstop h
  exact ⟨hab, (List.cons.inj hrest).2⟩

section SepBy
variable {d c : σ} {w : List σ}

/-- What follows the first of several values. -/
def sepTail (f : α → List σ) (c : σ) (w : List σ) (d : σ) (l : List α) (r : List σ) : List σ :=
  l.flatMap (fun a => c :: w ++ f a) ++ d :: r

theorem sepTail_cons (a : α) (l : List α) (r : List σ) :
    sepTail f c w d (a :: l) r = c :: (w ++ (f a ++ sepTail f c w d l r)) := by
  simp [sepTail]

theorem sepTail_head (hc : P c) (hstop : P d) (l : List α) (r : List σ) :
    ∃ x t, P x ∧ sepTail f c w d l r = x :: t := by
  cases l with
  | nil => exact ⟨d, r, hstop, rfl⟩
  | cons a l => exact ⟨c, _, hc, sepTail_cons a l r⟩

/-- A value and the w of the list come apart. -/
theorem sepTail_inj_head (hf : CodeBefore P f) (hc : P c) (hstop : P d) {a b : α} {l m : List α}
    {r s : List σ} (h : f a ++ sepTail f c w d l r = f b ++ sepTail f c w d m s) :
    a = b ∧ sepTail f c w d l r = sepTail f c w d m s := by
  obtain ⟨x, t, hx, hl⟩ := sepTail_head (f := f) (c := c) (w := w) hc hstop l r
  obtain ⟨y, u, hy, hm⟩ := sepTail_head (f := f) (c := c) (w := w) hc hstop m s
  rw [hl, hm] at h ⊢
  exact hf hx hy h

theorem sepTail_inj (hf : CodeBefore P f) (hc : P c) (hstop : P d) (hne : c ≠ d)
    {l m : List α} {r s : List σ} (h : sepTail f c w d l r = sepTail f c w d m s) :
    l = m ∧ r = s := by
  induction l generalizing m with
  | nil =>
    cases m with
    | nil => exact ⟨rfl, (List.cons.inj h).2⟩
    | cons b m =>
      rw [sepTail_cons] at h
      exact absurd (List.cons.inj h).1.symm hne
  | cons a l ih =>
    cases m with
    | nil =>
      rw [sepTail_cons] at h
      exact absurd (List.cons.inj h).1 hne
    | cons b m =>
      rw [sepTail_cons, sepTail_cons] at h
      obtain ⟨hab, hrest⟩ :=
        sepTail_inj_head hf hc hstop (List.append_cancel_left (List.cons.inj h).2)
      obtain ⟨hlm, hrs⟩ := ih hrest
      exact ⟨by rw [hab, hlm], hrs⟩

theorem intercalate_cons (a : α) (l : List α) (r : List σ) :
    (c :: w).intercalate ((a :: l).map f) ++ d :: r = f a ++ sepTail f c w d l r := by
  have hflat : (c :: w).intercalate ((a :: l).map f) =
      f a ++ l.flatMap fun a => c :: w ++ f a := by
    induction l generalizing a with
    | nil => simp
    | cons b l ih =>
      rw [List.map_cons, List.map_cons, List.intercalate_cons_cons, ← List.map_cons, ih b,
        List.flatMap_cons]
      simp only [List.append_assoc]
  rw [hflat, sepTail, List.append_assoc]

/-- Values with a separator between them, up to a terminator no value starts with. -/
theorem sepBy (hf : CodeBefore P f) (hc : P c) (hstop : P d) (hne : c ≠ d)
    (hstart : ∀ a r s, f a ++ r ≠ d :: s) :
    PrefixCode fun l : List α => (c :: w).intercalate (l.map f) ++ [d] := by
  intro l m r s h
  rw [List.append_assoc, List.append_assoc, List.singleton_append, List.singleton_append] at h
  rcases l with _ | ⟨a, l⟩ <;> rcases m with _ | ⟨b, m⟩ <;>
    simp only [intercalate_cons, List.map_nil, List.intercalate_nil, List.nil_append] at h
  · exact ⟨rfl, (List.cons.inj h).2⟩
  · exact absurd h.symm (hstart b _ r)
  · exact absurd h (hstart a _ s)
  · obtain ⟨hab, hrest⟩ := sepTail_inj_head hf hc hstop h
    obtain ⟨hlm, hrs⟩ := sepTail_inj hf hc hstop hne hrest
    exact ⟨by rw [hab, hlm], hrs⟩

end SepBy

end CodeBefore

end

/-! ## Escapes and quotes -/

/-- The symbols of a quoted text: plain ones, ones written as `e` and a letter, and ones written as
`e`, `u` and their number. Neither `e` nor the quote `q` is plain. -/
structure Escapes {σ : Type*} (esc : σ → List σ) (e q u : σ) (unescape : σ → σ) (num : σ → List σ) :
    Prop where
  cases : ∀ c, (esc c = [c] ∧ c ≠ e ∧ c ≠ q) ∨ (∃ k, esc c = [e, k] ∧ unescape k = c ∧ k ≠ u) ∨
    esc c = e :: u :: num c
  num_code : ∀ a b r s, esc a = e :: u :: num a → esc b = e :: u :: num b →
    num a ++ r = num b ++ s → a = b ∧ r = s
  quote_ne : e ≠ q

namespace Escapes
variable {σ : Type*} {esc : σ → List σ} {e q u : σ} {unescape : σ → σ} {num : σ → List σ}

theorem code (he : Escapes esc e q u unescape num) : PrefixCode esc := by
  intro a b r s h
  rcases he.cases a with ⟨ha, hne, -⟩ | ⟨k, ha, rfl, hu⟩ | ha <;>
    rcases he.cases b with ⟨hb, hne', -⟩ | ⟨m, hb, rfl, hu'⟩ | hb <;>
    have heq := h <;> rw [ha, hb] at heq
  · exact List.cons.inj heq
  · exact absurd (List.cons.inj heq).1 hne
  · exact absurd (List.cons.inj heq).1 hne
  · exact absurd (List.cons.inj heq).1.symm hne'
  · obtain ⟨rfl, hrs⟩ := List.cons.inj (List.cons.inj heq).2
    exact ⟨rfl, hrs⟩
  · exact absurd (List.cons.inj (List.cons.inj heq).2).1 hu
  · exact absurd (List.cons.inj heq).1.symm hne'
  · exact absurd (List.cons.inj (List.cons.inj heq).2).1.symm hu'
  · exact he.num_code a b r s ha hb (List.cons.inj (List.cons.inj heq).2).2

/-- The quote that ends a text is not the start of a symbol. -/
theorem ne_quote (he : Escapes esc e q u unescape num) (c : σ) (r s : List σ) :
    esc c ++ r ≠ q :: s := by
  intro h
  rcases he.cases c with ⟨hc, -, hq⟩ | ⟨k, hc, -, -⟩ | hc <;> rw [hc] at h
  · exact hq (List.cons.inj h).1
  · exact he.quote_ne (List.cons.inj h).1
  · exact he.quote_ne (List.cons.inj h).1

theorem quoted (he : Escapes esc e q u unescape num) :
    PrefixCode fun l : List σ => [q] ++ (l.flatMap esc ++ [q]) :=
  (PrefixCode.many he.code he.ne_quote).lit_append [q]

end Escapes

end Inim.Lib
