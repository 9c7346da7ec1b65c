import Mathlib.Data.List.Basic

/-!
# Reading a successful computation backwards

A function that checks its arguments one after the other is, in `do` notation, a chain of
binds and guards. From its success each of these gives back what was checked, so a proof about
such a function takes the checks off one at a time and never splits the failing branches.
-/

namespace Inim.Lib

universe u

variable {ε α β σ : Type u}

theorem bind_ok {x : Except ε α} {k : α → Except ε β} {b : β} (h : (x >>= k) = .ok b) :
    ∃ a, x = .ok a ∧ k a = .ok b := by
  cases x with
  | error e => cases h
  | ok a => exact ⟨a, rfl, h⟩

theorem map_ok {x : Except ε α} {f : α → β} {b : β} (h : x.map f = .ok b) :
    ∃ a, x = .ok a ∧ f a = b := by
  cases x with
  | error e => cases h
  | ok a =>
    cases h
    exact ⟨a, rfl, rfl⟩

/-- `if c then throw e` followed by `k`. -/
theorem guard_ok {c : Prop} [Decidable c] {e : ε} {k : PUnit → Except ε β} {b : β}
    (h : (if c then throw e >>= k else k ⟨⟩) = .ok b) : ¬c ∧ k ⟨⟩ = .ok b := by
  split at h
  · cases h
  · rename_i hc
    exact ⟨hc, h⟩

theorem bind_ok_iff {x : Except ε α} {k : α → Except ε β} {b : β} :
    (x >>= k) = .ok b ↔ ∃ a, x = .ok a ∧ k a = .ok b := by
  constructor
  · exact bind_ok
  · rintro ⟨a, rfl, h⟩
    exact h

/-- One check, then the rest. -/
theorem then_ok_iff {x : Except ε PUnit.{u + 1}} {k : PUnit → Except ε β} {b : β} :
    (x >>= k) = .ok b ↔ x = .ok ⟨⟩ ∧ k ⟨⟩ = .ok b := by
  rw [bind_ok_iff]
  constructor
  · rintro ⟨⟨⟩, hx, hk⟩
    exact ⟨hx, hk⟩
  · rintro ⟨hx, hk⟩
    exact ⟨⟨⟩, hx, hk⟩

theorem mapError_ok_iff {ε' : Type u} {f : ε → ε'} {x : Except ε α} {a : α} :
    x.mapError f = .ok a ↔ x = .ok a := by
  cases x <;> simp [Except.mapError]

/-- A loop of checks passes when every check does. -/
theorem forM_ok_iff {f : α → Except ε PUnit.{u + 1}} {l : List α} :
    l.forM f = .ok ⟨⟩ ↔ ∀ a ∈ l, f a = .ok ⟨⟩ := by
  induction l with
  | nil => exact iff_of_true rfl (by simp)
  | cons a l ih =>
    rw [List.forM_eq_forM, List.forM_cons, then_ok_iff, ← List.forM_eq_forM, ih,
      List.forall_mem_cons]

theorem mapM_ok_forall₂ {f : α → Except ε β} {l : List α} {bs : List β} (h : l.mapM f = .ok bs) :
    List.Forall₂ (fun a b => f a = .ok b) l bs := by
  induction l generalizing bs with
  | nil =>
    cases h
    exact .nil
  | cons a l ih =>
    rw [List.mapM_cons] at h
    obtain ⟨b, hb, h⟩ := bind_ok h
    obtain ⟨bs', hbs, h⟩ := bind_ok h
    cases h
    exact .cons hb (ih hbs)

theorem exists_of_forall₂ {R : α → β → Prop} {l : List α} {bs : List β} (h : List.Forall₂ R l bs)
    {b : β} (hb : b ∈ bs) : ∃ a ∈ l, R a b := by
  induction h with
  | nil => cases hb
  | cons hab _ ih =>
    rcases List.mem_cons.1 hb with rfl | hb
    · exact ⟨_, List.mem_cons_self, hab⟩
    · obtain ⟨a, ha, hR⟩ := ih hb
      exact ⟨a, List.mem_cons_of_mem _ ha, hR⟩

/-- A loop that succeeds keeps what each round keeps. -/
theorem foldlM_invariant {P : σ → Prop} {f : σ → α → Except ε σ} {l : List α} {s s' : σ}
    (h : l.foldlM f s = .ok s') (h0 : P s)
    (hstep : ∀ a ∈ l, ∀ t t', P t → f t a = .ok t' → P t') : P s' := by
  induction l generalizing s with
  | nil =>
    cases h
    exact h0
  | cons a l ih =>
    rw [List.foldlM_cons] at h
    obtain ⟨t, ht, h⟩ := bind_ok h
    exact ih h (hstep a List.mem_cons_self _ _ h0 ht)
      fun b hb => hstep b (List.mem_cons_of_mem _ hb)

/-- The same, where a round knows its position: `P` is about the elements done so far. -/
theorem foldlM_zipIdx_invariant {P : List α → σ → Prop} {f : σ → α × Nat → Except ε σ}
    {l : List α} {s s' : σ} (h : l.zipIdx.foldlM f s = .ok s') (h0 : P [] s)
    (hstep : ∀ done a t t', P done t → f t (a, done.length) = .ok t' → P (done ++ [a]) t') :
    P l s' := by
  have hrun : ∀ (rest done : List α) (t : σ), P done t →
      (rest.zipIdx done.length).foldlM f t = .ok s' → P (done ++ rest) s' := by
    intro rest
    induction rest with
    | nil =>
      intro done t hP ht
      cases ht
      rwa [List.append_nil]
    | cons a rest ih =>
      intro done t hP ht
      rw [List.zipIdx_cons, List.foldlM_cons] at ht
      obtain ⟨t', ht', ht⟩ := bind_ok ht
      have := ih (done ++ [a]) t' (hstep done a t t' hP ht')
      rw [List.length_append, List.length_singleton, List.append_assoc, List.singleton_append]
        at this
      exact this ht
  exact hrun l [] s h0 h

/-! ## Lists of results that may be missing -/

theorem mapM_isSome {f : α → Option β} {l : List α} :
    (l.mapM f).isSome = true ↔ ∀ a ∈ l, f a ≠ none := by
  induction l with
  | nil => simp
  | cons a l ih =>
    rw [List.mapM_cons]
    cases hf : f a with
    | none => simp [hf]
    | some b =>
      cases hl : l.mapM f with
      | none =>
        rw [hl] at ih
        simp only [List.mem_cons, forall_eq_or_imp, hf]
        simpa using ih
      | some bs =>
        rw [hl] at ih
        simp only [List.mem_cons, forall_eq_or_imp, hf]
        simpa using ih

theorem mem_mapM {f : α → Option β} {l : List α} {bs : List β}
    (h : l.mapM f = some bs) {b : β} (hb : b ∈ bs) : ∃ a ∈ l, f a = some b := by
  induction l generalizing bs with
  | nil =>
    cases h
    cases hb
  | cons a l ih =>
    rw [List.mapM_cons] at h
    simp only [bind, Option.bind_eq_some_iff] at h
    obtain ⟨b₀, hb₀, bs₀, hbs₀, heq⟩ := h
    cases heq
    rcases List.mem_cons.1 hb with rfl | hb
    · exact ⟨a, List.mem_cons_self, hb₀⟩
    · obtain ⟨a', ha', hfa⟩ := ih hbs₀ hb
      exact ⟨a', List.mem_cons_of_mem _ ha', hfa⟩

theorem mapM_forall₂ {f : α → Option β} {l : List α} {bs : List β} (h : l.mapM f = some bs) :
    List.Forall₂ (fun a b => f a = some b) l bs := by
  induction l generalizing bs with
  | nil =>
    cases h
    exact .nil
  | cons a l ih =>
    rw [List.mapM_cons] at h
    simp only [bind, Option.bind_eq_some_iff] at h
    obtain ⟨b, hb, bs', hbs', heq⟩ := h
    cases heq
    exact .cons hb (ih hbs')

section Rows
variable {γ : Type*} {R : α → List β → Prop} {l : List α} {rows : List (List β)}

/-- What each element gave is among what there is in all. -/
theorem row_of_mem (hrows : List.Forall₂ R l rows) {a : α} (ha : a ∈ l) :
    ∃ row, R a row ∧ ∀ b ∈ row, b ∈ rows.flatten := by
  induction hrows with
  | nil => cases ha
  | @cons _ row _ _ hrow _ ih =>
    rw [List.flatten_cons]
    rcases List.mem_cons.1 ha with rfl | ha
    · exact ⟨row, hrow, fun b hb => List.mem_append_left _ hb⟩
    · obtain ⟨row', hrow', hsub⟩ := ih ha
      exact ⟨row', hrow', fun b hb => List.mem_append_right _ (hsub b hb)⟩

theorem row_of_mem_flatten (hrows : List.Forall₂ R l rows) {b : β} (hb : b ∈ rows.flatten) :
    ∃ a ∈ l, ∃ row, R a row ∧ b ∈ row := by
  induction hrows with
  | nil => cases hb
  | @cons a row _ _ hrow _ ih =>
    rcases List.mem_append.1 (List.flatten_cons ▸ hb) with hb | hb
    · exact ⟨a, List.mem_cons_self, row, hrow, hb⟩
    · obtain ⟨a', ha', h⟩ := ih hb
      exact ⟨a', List.mem_cons_of_mem _ ha', h⟩

theorem flatMap_flatten_perm {g : β → List γ} {k : α → List γ} (hrows : List.Forall₂ R l rows)
    (h : ∀ a row, R a row → (row.flatMap g).Perm (k a)) :
    (rows.flatten.flatMap g).Perm (l.flatMap k) := by
  induction hrows with
  | nil => rfl
  | cons hrow _ ih =>
    simp only [List.flatten_cons, List.flatMap_append, List.flatMap_cons]
    exact (h _ _ hrow).append ih

end Rows

theorem mapM_eq_filterMap {f : α → Option β} {l : List α} (h : ∀ a ∈ l, f a ≠ none) :
    l.mapM f = some (l.filterMap f) := by
  induction l with
  | nil => rfl
  | cons a l ih =>
    obtain ⟨ha, hl⟩ := List.forall_mem_cons.1 h
    obtain ⟨b, hb⟩ := Option.ne_none_iff_exists'.1 ha
    rw [List.mapM_cons, hb, ih hl, List.filterMap_cons_some hb]
    rfl

end Inim.Lib
