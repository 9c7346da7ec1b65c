import Mathlib
/-!
# Last-writer-wins tables and gap-free chains

Two small theories for state that is kept per key.

* `Cells`: events that each address one key and set it, clear it, or leave it. `after t l` is the
  table after the events `l`; an event changes the content of its own key only (`step_of_ne`).
* `Links v steps w`: the `(before, after)` pairs of `steps` lead from `v` to `w` without a gap.
  `links_snoc_update` is the rule a run of table updates uses: one recorded update per change of
  the table keeps every key's chain closed.
-/

namespace Inim.Lib

variable {E K V : Type*}

/-- What an event does: `write e = none` leaves the table alone, `some none` clears the cell
`key e`, `some (some v)` sets it. -/
structure Cells (E K V : Type*) where
  key : E → K
  write : E → Option (Option V)

namespace Cells

variable [DecidableEq K] (c : Cells E K V)

def step (t : K → Option V) (e : E) : K → Option V :=
  match c.write e with
  | none => t
  | some v => Function.update t (c.key e) v

def after (t : K → Option V) (l : List E) : K → Option V := l.foldl c.step t

@[simp] theorem after_nil (t : K → Option V) : c.after t [] = t := rfl

@[simp] theorem after_cons (t : K → Option V) (e : E) (l : List E) :
    c.after t (e :: l) = c.after (c.step t e) l := rfl

theorem after_append (t : K → Option V) (l l' : List E) :
    c.after t (l ++ l') = c.after (c.after t l) l' := List.foldl_append

theorem step_of_ne {e : E} {k : K} (t : K → Option V) (h : c.key e ≠ k) : c.step t e k = t k := by
  unfold step
  cases c.write e with
  | none => rfl
  | some v => exact Function.update_of_ne (Ne.symm h) _ _

theorem step_of_eq {e : E} {k : K} (t : K → Option V) (h : c.key e = k) :
    c.step t e k = (c.write e).getD (t k) := by
  subst h
  unfold step
  cases c.write e <;> simp

end Cells

/-! ## Chains of before/after pairs -/

variable {β : Type*}

def Links : β → List (β × β) → β → Prop
  | v, [], w => v = w
  | v, s :: steps, w => s.1 = v ∧ Links s.2 steps w

theorem links_snoc {v : β} {steps : List (β × β)} {w : β} (a : β) (h : Links v steps w) :
    Links v (steps ++ [(w, a)]) a := by
  induction steps generalizing v with
  | nil => exact ⟨h.symm, rfl⟩
  | cons s steps ih => exact ⟨h.1, ih h.2⟩

/-- The recorded updates of key `k`, as before/after pairs. -/
def stepsOf [DecidableEq K] (k : K) (log : List (K × β × β)) : List (β × β) :=
  (log.filter (·.1 = k)).map (·.2)

/-- Recording `(k₀, before, after)` when the table's cell `k₀` goes from `before` to `after`
extends the chain of `k₀` and touches no other. -/
theorem links_snoc_update [DecidableEq K] {t₀ t : K → β} {log : List (K × β × β)}
    (h : ∀ k, Links (t₀ k) (stepsOf k log) (t k)) (k₀ : K) (a : β) (k : K) :
    Links (t₀ k) (stepsOf k (log ++ [(k₀, t k₀, a)])) (Function.update t k₀ a k) := by
  by_cases hk : k₀ = k
  · subst hk
    simpa [stepsOf] using links_snoc a (h k₀)
  · have := h k
    simpa [stepsOf, hk, Function.update_of_ne (Ne.symm hk)] using this

end Inim.Lib
