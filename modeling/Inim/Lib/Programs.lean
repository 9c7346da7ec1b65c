import Inim.Lib.Tasks

/-!
# Programs over the operations of a shared state

A program calls operations and goes on with their answers; `act` says what an operation answers and does
to the state. Run among others it is a task whose steps are its calls (`Prog.task`); alone it runs from
end to end (`Prog.run`), and `finishes_run` says that these agree.

Whether it has a part of the state of its own is then a matter of the operations it calls: each depends
on that part alone and leaves the others as they are (`owns_of_calls`).
-/

namespace Inim.Lib

/-- Each operation has a type of answers. -/
inductive Prog (Op : Type) (Answer : Op → Type) (α : Type) where
  | ret (a : α)
  | call (op : Op) (next : Answer op → Prog Op Answer α)

namespace Prog

variable {Op : Type} {Answer : Op → Type} {α β σ ι κ : Type}

def bind : Prog Op Answer α → (α → Prog Op Answer β) → Prog Op Answer β
  | .ret a, f => f a
  | .call op next, f => .call op fun x => (next x).bind f

/-- At most `n` calls. -/
def Within : Nat → Prog Op Answer α → Prop
  | _, .ret _ => True
  | 0, .call _ _ => False
  | n + 1, .call _ next => ∀ x, Within n (next x)

theorem Within.mono {m n : Nat} {p : Prog Op Answer α} (h : Within m p) (hle : m ≤ n) :
    Within n p := by
  induction p generalizing m n with
  | ret a => cases n <;> trivial
  | call op next ih =>
    cases m with
    | zero => exact h.elim
    | succ m =>
      obtain ⟨n, rfl⟩ : ∃ k, n = k + 1 := ⟨n - 1, by omega⟩
      exact fun x => ih x (h x) (by omega)

theorem Within.bind {m n : Nat} {p : Prog Op Answer α} {f : α → Prog Op Answer β} (hp : Within m p)
    (hf : ∀ a, Within n (f a)) : Within (m + n) (p.bind f) := by
  induction p generalizing m with
  | ret a => exact (hf a).mono (Nat.le_add_left n m)
  | call op next ih =>
    cases m with
    | zero => exact hp.elim
    | succ m =>
      rw [Nat.add_right_comm]
      exact fun x => ih x (hp x)

/-- Whatever the operations answer, `Q` holds of what the program answers. -/
def All (Q : α → Prop) : Prog Op Answer α → Prop
  | .ret a => Q a
  | .call _ next => ∀ x, All Q (next x)

theorem All.bind {P : α → Prop} {Q : β → Prop} {p : Prog Op Answer α} {f : α → Prog Op Answer β}
    (hp : All P p) (hf : ∀ a, P a → All Q (f a)) : All Q (p.bind f) := by
  induction p with
  | ret a => exact hf a hp
  | call op next ih => exact fun x => ih x (hp x)

theorem all_true (p : Prog Op Answer α) : All (fun _ => True) p := by
  induction p with
  | ret a => trivial
  | call op next ih => exact ih

variable (act : σ → (op : Op) → σ × Answer op)

/-- The program alone. -/
def run : σ → Prog Op Answer α → σ × α
  | w, .ret a => (w, a)
  | w, .call op next => run (act w op).1 (next (act w op).2)

/-- The operations it calls then. -/
def calls : σ → Prog Op Answer α → List Op
  | _, .ret _ => []
  | w, .call op next => op :: calls (act w op).1 (next (act w op).2)

section Bind
variable {act} {w : σ} {p : Prog Op Answer α} {f : α → Prog Op Answer β}

theorem run_bind : (p.bind f).run act w = (f (p.run act w).2).run act (p.run act w).1 := by
  induction p generalizing w with
  | ret a => rfl
  | call op next ih => exact ih _

theorem All.run {Q : α → Prop} (h : All Q p) : Q (p.run act w).2 := by
  induction p generalizing w with
  | ret a => exact h
  | call op next ih => exact ih _ (h _)

theorem calls_bind :
    (p.bind f).calls act w = p.calls act w ++ (f (p.run act w).2).calls act (p.run act w).1 := by
  induction p generalizing w with
  | ret a => rfl
  | call op next ih => exact congrArg (op :: ·) (ih _)

end Bind

/-- A program on its way, with a bound for the calls that are left. -/
structure Point (Op : Type) (Answer : Op → Type) (α : Type) where
  prog : Prog Op Answer α
  left : Nat
  within : prog.Within left

def Point.step (w : σ) : Point Op Answer α → σ × Move (Point Op Answer α) α
  | ⟨.ret a, _, _⟩ => (w, .done a)
  | ⟨.call _ _, 0, h⟩ => h.elim
  | ⟨.call op next, n + 1, h⟩ => ((act w op).1, .next ⟨next (act w op).2, n, h _⟩)

theorem Point.step_left {w w' : σ} {p p' : Point Op Answer α}
    (h : Point.step act w p = (w', .next p')) : p'.left < p.left := by
  obtain ⟨prog, left, within⟩ := p
  cases prog with
  | ret a => cases h
  | call op next =>
    cases left with
    | zero => exact within.elim
    | succ n =>
      cases h
      exact Nat.lt_succ_self n

/-- Each call is one step. -/
def task (start : ι → Prog Op Answer α) (n : Nat) (h : ∀ i, (start i).Within n) :
    Task σ ι (Point Op Answer α) α where
  start i := ⟨start i, n, h i⟩
  step := Point.step act
  cost := Point.left
  cost_lt := Point.step_left act

section Task
variable {act} {start : ι → Prog Op Answer α} {n : Nat} {h : ∀ i, (start i).Within n}

theorem finishes_run (w : σ) (p : Point Op Answer α) :
    (task act start n h).Finishes w p (p.prog.run act w).1 (p.prog.run act w).2 := by
  obtain ⟨prog, left, within⟩ := p
  induction prog generalizing w left with
  | ret a => exact .done rfl
  | call op next ih =>
    cases left with
    | zero => exact within.elim
    | succ left => exact .next rfl (ih _ _ left (within _))

/-- Alone it answers what `run` says. -/
theorem finishes_iff {w w' : σ} {p : Point Op Answer α} {a : α} :
    (task act start n h).Finishes w p w' a ↔ p.prog.run act w = (w', a) := by
  constructor
  · intro hfin
    obtain ⟨rfl, rfl⟩ := hfin.unique (finishes_run w p)
    rfl
  · intro hrun
    have hfin : (task act start n h).Finishes w p (p.prog.run act w).1 (p.prog.run act w).2 :=
      finishes_run w p
    rw [hrun] at hfin
    exact hfin

/-- What is left to call alone. -/
theorem calls_of_reaches {w v : σ} {p q : Point Op Answer α}
    (hreach : (task act start n h).Reaches w p v q) :
    ∀ op ∈ q.prog.calls act v, op ∈ p.prog.calls act w := by
  induction hreach with
  | refl => exact fun _ hop => hop
  | @step v q v' q' _ hstep ih =>
    intro op hop
    refine ih op ?_
    obtain ⟨prog, left, within⟩ := q
    cases prog with
    | ret a => cases hstep
    | call op' next =>
      cases left with
      | zero => exact within.elim
      | succ left =>
        cases hstep
        exact List.mem_cons_of_mem _ hop

variable (act) in
/-- The operation depends on the part of `i` and changes no other part. -/
structure OwnCall (Same : κ → σ → σ → Prop) (i : κ) (op : Op) : Prop where
  answer : ∀ {u v}, Same i u v → (act u op).2 = (act v op).2
  own : ∀ {u v}, Same i u v → Same i (act u op).1 (act v op).1
  others : ∀ {j} u, j ≠ i → Same j (act u op).1 u

theorem owns_of_calls {Same : κ → σ → σ → Prop} {i : κ} {w : σ} {p : Point Op Answer α}
    (hrefl : ∀ j v, Same j v v) (hcalls : ∀ op ∈ p.prog.calls act w, OwnCall act Same i op) :
    (task act start n h).Owns Same i w p := by
  intro v q hreach u hsame
  have hown : ∀ op ∈ q.prog.calls act v, OwnCall act Same i op := fun op hop =>
    hcalls op (calls_of_reaches hreach op hop)
  obtain ⟨prog, left, within⟩ := q
  cases prog with
  | ret a => exact ⟨rfl, hsame, fun j _ => hrefl j u⟩
  | call op next =>
    cases left with
    | zero => exact within.elim
    | succ left =>
      have hop := hown op List.mem_cons_self
      refine ⟨?_, hop.own hsame, fun j hj => hop.others u hj⟩
      change Move.next _ = Move.next _
      simp only [hop.answer hsame]

end Task

end Prog

end Inim.Lib
