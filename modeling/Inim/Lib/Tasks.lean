import Mathlib

/-!
# Tasks over a shared state

A task is a computation that acts on a state others act on too: it is taken apart into atomic
steps, between which the state may change. Every task ends: a step that does not end it lowers its
cost. `Finishes` is a task that runs alone.

Tasks do not disturb each other where every task has a part of the state of its own: what it does
depends on that part, and no other task sees it (`Owns`). A task then goes from any state that agrees
with its own as it would go alone (`Finishes.of_same`).
-/

namespace Inim.Lib

/-- What a step of a task leads to: a point to go on from, or the task's answer. -/
inductive Move (π ο : Type*) where
  | next (p : π)
  | done (o : ο)

structure Task (σ ι π ο : Type*) where
  start : ι → π
  step : σ → π → σ × Move π ο
  cost : π → Nat
  cost_lt : ∀ {w w' p p'}, step w p = (w', .next p') → cost p' < cost p

namespace Task

variable {σ ι π ο : Type*}

/-- From `p` with nobody else acting, the task leaves `w'` and answers `o`. -/
inductive Finishes (t : Task σ ι π ο) : σ → π → σ → ο → Prop
  | done {w p w' o} (h : t.step w p = (w', .done o)) : Finishes t w p w' o
  | next {w p w₁ p₁ w' o} (h : t.step w p = (w₁, .next p₁)) (rest : Finishes t w₁ p₁ w' o) :
    Finishes t w p w' o

/-- Where it gets on the way. -/
inductive Reaches (t : Task σ ι π ο) (w : σ) (p : π) : σ → π → Prop
  | refl : Reaches t w p w p
  | step {v q v' q'} (h : Reaches t w p v q) (hstep : t.step v q = (v', .next q')) :
    Reaches t w p v' q'

variable {t : Task σ ι π ο} {w v w' : σ} {p q : π} {o : ο}

theorem Reaches.finishes (h : t.Reaches w p v q) (hfin : t.Finishes v q w' o) :
    t.Finishes w p w' o := by
  induction h with
  | refl => exact hfin
  | step _ hstep ih => exact ih (.next hstep hfin)

theorem Finishes.unique {w'' : σ} {o' : ο} (h : t.Finishes w p w' o) (h' : t.Finishes w p w'' o') :
    w' = w'' ∧ o = o' := by
  induction h with
  | done hdone =>
    cases h' with
    | done hdone' =>
      rw [hdone] at hdone'
      cases hdone'
      exact ⟨rfl, rfl⟩
    | next hnext _ =>
      rw [hdone] at hnext
      cases hnext
  | next hnext _ ih =>
    cases h' with
    | done hdone =>
      rw [hnext] at hdone
      cases hdone
    | next hnext' hrest =>
      rw [hnext] at hnext'
      cases hnext'
      exact ih hrest

/-! ## A part of the state of its own -/

section Own
variable {κ : Type*} (t) (Same : κ → σ → σ → Prop)

/-- From states that agree on the part of `i` the step goes the same way, and changes no other part. -/
structure OwnStep (i : κ) (u v : σ) (p : π) : Prop where
  move : (t.step u p).2 = (t.step v p).2
  own : Same i (t.step u p).1 (t.step v p).1
  others : ∀ j, j ≠ i → Same j (t.step u p).1 u

/-- So does every step of the task as it runs alone. -/
def Owns (i : κ) (w : σ) (p : π) : Prop :=
  ∀ v q, t.Reaches w p v q → ∀ u, Same i u v → t.OwnStep Same i u v q

variable {t Same}

section Steps
variable {i : κ} {u u' : σ} {q' : π}

theorem Owns.next (hown : t.Owns Same i w p) (hreach : t.Reaches w p v q) (hsame : Same i u v)
    (hstep : t.step u q = (u', .next q')) :
    (∃ v', t.Reaches w p v' q' ∧ Same i u' v') ∧ ∀ j, j ≠ i → Same j u' u := by
  obtain ⟨hmove, hown', hothers⟩ := hown v q hreach u hsame
  rw [hstep] at hmove hown' hothers
  exact ⟨⟨_, hreach.step (Prod.ext rfl hmove.symm), hown'⟩, hothers⟩

theorem Owns.done (hown : t.Owns Same i w p) (hreach : t.Reaches w p v q) (hsame : Same i u v)
    (hstep : t.step u q = (u', .done o)) :
    (∃ v', t.Finishes w p v' o ∧ Same i u' v') ∧ ∀ j, j ≠ i → Same j u' u := by
  obtain ⟨hmove, hown', hothers⟩ := hown v q hreach u hsame
  rw [hstep] at hmove hown' hothers
  exact ⟨⟨_, hreach.finishes (.done (Prod.ext rfl hmove.symm)), hown'⟩, hothers⟩

theorem Finishes.of_same (hown : t.Owns Same i w p)
    (htrans : ∀ j {x y z}, Same j x y → Same j y z → Same j x z) (hreach : t.Reaches w p v q)
    (hsame : Same i u v) (h : t.Finishes u q u' o) :
    (∃ v', t.Finishes w p v' o ∧ Same i u' v') ∧ ∀ j, j ≠ i → Same j u' u := by
  induction h generalizing v with
  | done hdone => exact hown.done hreach hsame hdone
  | next hnext _ ih =>
    obtain ⟨⟨v', hreach', hsame'⟩, hothers⟩ := hown.next hreach hsame hnext
    obtain ⟨hfin, hrest⟩ := ih hreach' hsame'
    exact ⟨hfin, fun j hj => htrans j (hrest j hj) (hothers j hj)⟩

end Steps

end Own

end Task

/-! ## Sums over workers -/

/-- When one worker moves, the total changes by what that worker contributes. -/
theorem sum_update {κ α : Type*} [Fintype κ] [DecidableEq κ] (f : κ → α) (k : κ) (v : α)
    (g : α → Nat) :
    ∑ j, g (Function.update f k v j) + g (f k) = ∑ j, g (f j) + g v := by
  rw [← Finset.add_sum_erase Finset.univ _ (Finset.mem_univ k),
    ← Finset.add_sum_erase Finset.univ (fun j => g (f j)) (Finset.mem_univ k),
    Function.update_self]
  have hrest : ∑ j ∈ Finset.univ.erase k, g (Function.update f k v j) =
      ∑ j ∈ Finset.univ.erase k, g (f j) :=
    Finset.sum_congr rfl fun j hj => by rw [Function.update_of_ne (Finset.ne_of_mem_erase hj)]
  rw [hrest]
  omega

theorem le_sum_of {κ α : Type*} [Fintype κ] (f : κ → α) (k : κ) (g : α → Nat) :
    g (f k) ≤ ∑ j, g (f j) :=
  Finset.single_le_sum (f := fun j => g (f j)) (fun _ _ => Nat.zero_le _) (Finset.mem_univ k)

theorem add_le_sum_of {κ α : Type*} [Fintype κ] [DecidableEq κ] (f : κ → α) {k k' : κ} (h : k ≠ k')
    (g : α → Nat) : g (f k) + g (f k') ≤ ∑ j, g (f j) := by
  rw [← Finset.add_sum_erase Finset.univ (fun j => g (f j)) (Finset.mem_univ k)]
  refine Nat.add_le_add_left ?_ _
  exact Finset.single_le_sum (f := fun j => g (f j)) (fun _ _ => Nat.zero_le _)
    (Finset.mem_erase.2 ⟨h.symm, Finset.mem_univ k'⟩)

end Inim.Lib
