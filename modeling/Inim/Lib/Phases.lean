import Mathlib.Data.List.Basic

/-!
# Phases that keep what they wrote

A command outside of a transaction goes through phases: it ends with the first that fails, and what was
written before stays, by the failing phase too. What every phase respects relates the ends
(`inTurn_rel`); where none fails, each phase was run, between phases that respect the same
(`inTurn_done`). Phases that have nothing left to do after themselves leave nothing to do together
(`Redone.inTurn`).
-/

namespace Inim.Lib

variable {σ ε : Type*}

/-- A write that changes nothing where it fails. -/
def attempt (f : σ → Except ε σ) (s : σ) : σ × Option ε :=
  match f s with
  | .ok s' => (s', none)
  | .error e => (s, some e)

def inTurn (s : σ) : List (σ → σ × Option ε) → σ × Option ε
  | [] => (s, none)
  | f :: fs =>
    match f s with
    | (s, some e) => (s, some e)
    | (s, none) => inTurn s fs

section Rules
variable {R : σ → σ → Prop} {fs : List (σ → σ × Option ε)}

theorem inTurn_cons_some {f : σ → σ × Option ε} {s s' : σ} {e : ε} (h : f s = (s', some e)) :
    inTurn s (f :: fs) = (s', some e) := by
  rw [inTurn, h]

theorem inTurn_cons_none {f : σ → σ × Option ε} {s s' : σ} (h : f s = (s', none)) :
    inTurn s (f :: fs) = inTurn s' fs := by
  rw [inTurn, h]

theorem attempt_rel (hrefl : ∀ s, R s s) {f : σ → Except ε σ} {s : σ}
    (h : ∀ s', f s = .ok s' → R s s') : R s (attempt f s).1 := by
  unfold attempt
  split
  · next s' hs' => exact h s' hs'
  · exact hrefl s

theorem attempt_done {f : σ → Except ε σ} {s : σ} (h : (attempt f s).2 = none) :
    f s = .ok (attempt f s).1 := by
  unfold attempt at h ⊢
  cases hf : f s with
  | ok s' => rfl
  | error e =>
    rw [hf] at h
    cases h

theorem inTurn_none (h : ∀ f ∈ fs, ∀ s, (f s).2 = none) (s : σ) : (inTurn s fs).2 = none := by
  induction fs generalizing s with
  | nil => rfl
  | cons f fs ih =>
    have hf : f s = ((f s).1, none) := Prod.ext rfl (h f List.mem_cons_self s)
    rw [inTurn_cons_none hf]
    exact ih (fun g hg => h g (List.mem_cons_of_mem f hg)) _

variable (fs) in
theorem inTurn_rel (hrefl : ∀ s, R s s) (htrans : ∀ {s t u}, R s t → R t u → R s u)
    (hstep : ∀ f ∈ fs, ∀ s, R s (f s).1) (s : σ) : R s (inTurn s fs).1 := by
  induction fs generalizing s with
  | nil => exact hrefl s
  | cons f fs ih =>
    have hfirst := hstep f List.mem_cons_self s
    have hrest := ih fun g hg => hstep g (List.mem_cons_of_mem f hg)
    rw [inTurn]
    split
    · next s' e heq =>
      rw [heq] at hfirst
      exact hfirst
    · next s' heq =>
      rw [heq] at hfirst
      exact htrans hfirst (hrest s')

theorem inTurn_done (hrefl : ∀ s, R s s) (htrans : ∀ {s t u}, R s t → R t u → R s u)
    (hstep : ∀ f ∈ fs, ∀ s, R s (f s).1) {s : σ} (hdone : (inTurn s fs).2 = none) :
    ∀ f ∈ fs, ∃ s', R s s' ∧ (f s').2 = none ∧ R (f s').1 (inTurn s fs).1 := by
  induction fs generalizing s with
  | nil => exact fun f hf => nomatch hf
  | cons g fs ih =>
    have hfirst := hstep g List.mem_cons_self s
    have hlater := fun f hf => hstep f (List.mem_cons_of_mem g hf)
    rw [inTurn] at hdone ⊢
    cases hg : g s with
    | mk s₁ out =>
      rw [hg] at hdone hfirst
      cases out with
      | some e => cases hdone
      | none =>
        dsimp only at hdone ⊢
        intro f hf
        rcases List.mem_cons.1 hf with rfl | hf
        · refine ⟨s, hrefl s, by rw [hg], ?_⟩
          rw [hg]
          exact inTurn_rel fs hrefl htrans hlater s₁
        · obtain ⟨s', hs', hnone, hend⟩ := ih hlater hdone f hf
          exact ⟨s', htrans hfirst hs', hnone, hend⟩

/-! ## Phases that are run again -/

/-- After `f`, and whatever respects `R` from there on, `g` changes nothing and ends as `f` did. -/
structure Redone (R : σ → σ → Prop) (f g : σ → σ × Option ε) : Prop where
  rel : ∀ s, R s (f s).1
  again : ∀ s s', R (f s).1 s' → g s' = (s', (f s).2)

theorem Redone.inTurn (hrefl : ∀ s, R s s) (htrans : ∀ {s t u}, R s t → R t u → R s u)
    {gs : List (σ → σ × Option ε)} (h : List.Forall₂ (Redone R) fs gs) :
    Redone R (fun s => Lib.inTurn s fs) fun s => Lib.inTurn s gs := by
  induction h with
  | nil => exact ⟨hrefl, fun _ _ _ => rfl⟩
  | @cons f g fs gs hfirst hrest ih =>
    refine ⟨fun s => ?_, fun s s' hs' => ?_⟩
    all_goals
      have hrel := hfirst.rel s
      have hagain := hfirst.again s
      rcases hf : f s with ⟨s₁, e | e⟩
      all_goals rw [hf] at hrel hagain
    · rw [inTurn_cons_none hf]
      exact htrans hrel (ih.rel s₁)
    · rwa [inTurn_cons_some hf]
    · rw [inTurn_cons_none hf] at hs' ⊢
      -- what the rest leaves still respects what the first left
      rw [inTurn_cons_none (hagain s' (htrans (ih.rel s₁) hs'))]
      exact ih.again s₁ s' hs'
    · rw [inTurn_cons_some hf] at hs' ⊢
      exact inTurn_cons_some (hagain s' hs')

end Rules

end Inim.Lib
