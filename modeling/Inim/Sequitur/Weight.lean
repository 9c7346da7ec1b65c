import Inim.Sequitur.Grammar

/-!
# Weights of a grammar

The sum of a weight of the symbols over the start sequence and all bodies. With weight 1 it is
the size of the grammar, with weight 1 on the references to one rule it is `count_rule_refs`
(`builder.rs:325-340`). What the three ways of writing a grammar do to a weight is stated as
equations without subtraction.
-/

namespace Inim.Sequitur

variable {α : Type*} (w : Symbol α → Nat)

def weigh (l : List (Symbol α)) : Nat := (l.map w).sum

@[simp] theorem weigh_nil : weigh w ([] : List (Symbol α)) = 0 := rfl

@[simp] theorem weigh_cons (s : Symbol α) (l : List (Symbol α)) :
    weigh w (s :: l) = w s + weigh w l := by
  simp [weigh]

@[simp] theorem weigh_append (l l' : List (Symbol α)) :
    weigh w (l ++ l') = weigh w l + weigh w l' := by
  simp [weigh]

/-- The weight of a sequence that may not be there. -/
def weighSeq (s : Option (List (Symbol α))) : Nat := weigh w (s.getD [])

def weight (g : Grammar α) : Nat :=
  weigh w g.start + ∑ r ∈ Finset.range g.nextRuleId, weighSeq w (g.seq (some r))

variable {w} {g : Grammar α} {rid : Option Nat} {s : List (Symbol α)}

/-- Writing one sequence exchanges its weight. -/
theorem sum_update {f : Option Nat → Option (List (Symbol α))} {n r : Nat}
    (o : Option (List (Symbol α))) (hr : r < n) :
    (∑ x ∈ Finset.range n, weighSeq w (Function.update f (some r) o (some x))) +
        weighSeq w (f (some r)) =
      (∑ x ∈ Finset.range n, weighSeq w (f (some x))) + weighSeq w o := by
  have hmem : r ∈ Finset.range n := Finset.mem_range.2 hr
  have hrest : ∑ x ∈ (Finset.range n).erase r,
        weighSeq w (Function.update f (some r) o (some x)) =
      ∑ x ∈ (Finset.range n).erase r, weighSeq w (f (some x)) := by
    refine Finset.sum_congr rfl fun x hx => ?_
    have hne : (some x : Option Nat) ≠ some r := by simpa using Finset.ne_of_mem_erase hx
    rw [Function.update_of_ne hne]
  rw [← Finset.add_sum_erase _ _ hmem, ← Finset.add_sum_erase _ _ hmem, hrest,
    Function.update_self]
  omega

variable (w) in
theorem weight_setSeq (hs : g.seq rid = some s) (hlt : ∀ r, rid = some r → r < g.nextRuleId)
    (s' : List (Symbol α)) : weight w (g.setSeq rid s') + weigh w s = weight w g + weigh w s' := by
  cases rid with
  | none =>
    cases hs
    simp only [weight, Grammar.setSeq, Grammar.seq]
    omega
  | some r =>
    have hsum := sum_update (w := w) (f := g.seq) (some s') (hlt r rfl)
    have hstart : (g.setSeq (some r) s').start = g.start := rfl
    rw [hs] at hsum
    unfold weight
    rw [Grammar.seq_setSeq, Grammar.setSeq_next, hstart]
    simp only [weighSeq, Option.getD_some] at hsum ⊢
    omega

theorem weight_addRule (s : List (Symbol α)) :
    weight w (g.addRule s) = weight w g + weigh w s := by
  have hrest : ∑ x ∈ Finset.range g.nextRuleId, weighSeq w ((g.addRule s).seq (some x)) =
      ∑ x ∈ Finset.range g.nextRuleId, weighSeq w (g.seq (some x)) := by
    refine Finset.sum_congr rfl fun x hx => ?_
    have hne : (some x : Option Nat) ≠ some g.nextRuleId := by
      simpa using (Finset.mem_range.1 hx).ne
    rw [Grammar.seq_addRule, Function.update_of_ne hne]
  have hself : weighSeq w ((g.addRule s).seq (some g.nextRuleId)) = weigh w s := by
    rw [Grammar.seq_addRule, Function.update_self]
    rfl
  have hstart : (g.addRule s).start = g.start := rfl
  rw [weight, weight, Grammar.addRule_next, Finset.sum_range_succ, hrest, hself, hstart]
  omega

theorem weight_removeRule {r : Nat} (hs : g.seq (some r) = some s) (hlt : r < g.nextRuleId) :
    weight w (g.removeRule r) + weigh w s = weight w g := by
  have hsum := sum_update (w := w) (f := g.seq) none hlt
  have hstart : (g.removeRule r).start = g.start := rfl
  rw [hs] at hsum
  unfold weight
  rw [Grammar.seq_removeRule, Grammar.removeRule_next, hstart]
  simp only [weighSeq, Option.getD_some, Option.getD_none, weigh_nil] at hsum ⊢
  omega

/-- Every sequence is part of the whole. -/
theorem weigh_le_weight (hs : g.seq rid = some s) (hlt : ∀ r, rid = some r → r < g.nextRuleId) :
    weigh w s ≤ weight w g := by
  have := weight_setSeq w hs hlt []
  rw [weigh_nil] at this
  omega

/-! ## References and size -/

def refWeight (target : Nat) (s : Symbol α) : Nat := if s.refersTo target then 1 else 0

/-- The number of references to a rule. -/
def refs (g : Grammar α) (target : Nat) : Nat := weight (refWeight target) g

/-- The number of symbols of the start sequence and all bodies. -/
def size (g : Grammar α) : Nat := weight (fun _ => 1) g

theorem refWeight_self (r : Nat) : refWeight r (.nonTerminal r : Symbol α) = 1 := by
  simp [refWeight]

theorem weigh_refWeight (target : Nat) (l : List (Symbol α)) :
    weigh (refWeight target) l = l.countP (Symbol.refersTo target) := by
  induction l with
  | nil => rfl
  | cons s l ih =>
    rw [weigh_cons, ih, List.countP_cons, refWeight]
    omega

theorem weigh_refWeight_eq_zero {target : Nat} {l : List (Symbol α)} :
    weigh (refWeight target) l = 0 ↔ .nonTerminal target ∉ l := by
  rw [weigh_refWeight, List.countP_eq_zero]
  constructor
  · intro h hmem
    exact h _ hmem (by simp)
  · rintro h s hs hr
    exact h (Symbol.refersTo_iff.1 hr ▸ hs)

/-- A rule that is referred to nowhere. -/
theorem refs_eq_zero (hfresh : ∀ r body, g.seq (some r) = some body → r < g.nextRuleId)
    {target : Nat} :
    refs g target = 0 ↔ ∀ rid s, g.seq rid = some s → .nonTerminal target ∉ s := by
  constructor
  · intro h rid s hs
    have hle := weigh_le_weight (w := refWeight target) hs fun r hr => by
      subst hr
      exact hfresh r s hs
    rw [← weigh_refWeight_eq_zero]
    rw [refs] at h
    omega
  · intro h
    rw [refs, weight, Nat.add_eq_zero_iff, Finset.sum_eq_zero_iff]
    refine ⟨weigh_refWeight_eq_zero.2 (h none g.start rfl), fun r _ => ?_⟩
    unfold weighSeq
    cases hs : g.seq (some r) with
    | none => rfl
    | some s => exact weigh_refWeight_eq_zero.2 (h (some r) s hs)

/-- A weight under which no symbol is lighter than a rule yet to come. -/
def Light (n : Nat) (w : Symbol α → Nat) : Prop := ∀ r, n ≤ r → ∀ s, w (.nonTerminal r) ≤ w s

theorem Light.mono {n m : Nat} (h : Light n w) (hnm : n ≤ m) : Light m w :=
  fun r hr => h r (hnm.trans hr)

theorem light_one (n : Nat) : Light n (fun _ : Symbol α => 1) := fun _ _ _ => le_rfl

theorem light_refWeight {n target : Nat} (h : target < n) :
    Light n (refWeight target : Symbol α → Nat) := by
  intro r hr s
  have hne : r ≠ target := by omega
  simp [refWeight, hne]

end Inim.Sequitur
