import Mathlib.Algebra.BigOperators.Group.Finset.Basic
import Mathlib.Algebra.BigOperators.Intervals
import Mathlib.Data.List.Basic
import Mathlib.Logic.Function.Basic
import Mathlib.Logic.Relation

/-!
# Grammars (`sequitur/grammar.rs`)

| here | there |
| --- | --- |
| `Symbol`, `Grammar`         | `grammar.rs:9-46` |
| `Grammar.seq`, `Grammar.setSeq` | what a `Position`'s rule id names (`builder.rs:38-40`): `none` is the start rule |
| `Grammar.expandSeq`, `Grammar.expand` | `grammar.rs:73-97` |

A rule id is a number, and `rules` a partial function that is empty from `nextRuleId` on, so the
keys of the map are `ruleIds`. The rest of this file is what a grammar means and weighs: a
*valuation* gives every rule the string it stands for (`den` is its extension to sequences),
`rank` orders the rules so that a rule uses smaller ones only, and `weight` adds up a weight of
the symbols over the start sequence and all bodies, which covers both the size of the grammar
and the number of references to a rule.
-/

namespace Inim.Sequitur

inductive Symbol (α : Type*) where
  | terminal (a : α)
  | nonTerminal (r : Nat)
deriving DecidableEq, Repr

/-- `matches!(sym, Symbol::NonTerminal(r) if *r == target)`. -/
def Symbol.refersTo {α : Type*} (target : Nat) : Symbol α → Bool
  | .terminal _ => false
  | .nonTerminal r => r == target

@[simp] theorem Symbol.refersTo_iff {α : Type*} {target : Nat} {s : Symbol α} :
    s.refersTo target = true ↔ s = .nonTerminal target := by
  cases s <;> simp [refersTo]

structure Grammar (α : Type*) where
  start : List (Symbol α)
  rules : Nat → Option (List (Symbol α))
  nextRuleId : Nat

variable {α : Type*}

namespace Grammar

def new : Grammar α := ⟨[], fun _ => none, 0⟩

/-- The keys of `rules`, sorted. -/
def ruleIds (g : Grammar α) : List Nat :=
  (List.range g.nextRuleId).filter fun r => (g.rules r).isSome

def seq (g : Grammar α) : Option Nat → Option (List (Symbol α))
  | none => some g.start
  | some r => g.rules r

def setSeq (g : Grammar α) (rid : Option Nat) (s : List (Symbol α)) : Grammar α :=
  match rid with
  | none => { g with start := s }
  | some r => { g with rules := Function.update g.rules r (some s) }

def removeRule (g : Grammar α) (r : Nat) : Grammar α :=
  { g with rules := Function.update g.rules r none }

/-- `fresh_rule_id`, and the `insert` of a rule under the id it returns. -/
def addRule (g : Grammar α) (body : List (Symbol α)) : Grammar α :=
  { g with
    rules := Function.update g.rules g.nextRuleId (some body)
    nextRuleId := g.nextRuleId + 1 }

/-! ## Expansion -/

theorem mem_ruleIds {g : Grammar α} {r : Nat} :
    r ∈ g.ruleIds ↔ r < g.nextRuleId ∧ (g.rules r).isSome = true := by
  simp [ruleIds]

/-- The rules the stack does not hold yet. -/
def unvisited (g : Grammar α) (stack : List Nat) : Nat :=
  (g.ruleIds.filter fun r => decide (r ∉ stack)).length

theorem unvisited_cons {g : Grammar α} {stack : List Nat} {r : Nat} (hr : r ∈ g.ruleIds)
    (hs : r ∉ stack) : g.unvisited (r :: stack) < g.unvisited stack := by
  have hsub : (g.ruleIds.filter fun s => decide (s ∉ r :: stack)) =
      (g.ruleIds.filter fun s => decide (s ∉ stack)).filter fun s => decide (s ≠ r) := by
    rw [List.filter_filter]
    refine List.filter_congr fun s _ => ?_
    simp
  rw [unvisited, hsub]
  exact List.length_filter_lt_length_iff_exists.2 ⟨r, by simp [hr, hs], by simp⟩

/-- A rule on the stack and one that is not there expand to nothing. -/
def expandSeq (g : Grammar α) (stack : List Nat) : List (Symbol α) → List α
  | [] => []
  | .terminal a :: rest => a :: expandSeq g stack rest
  | .nonTerminal r :: rest =>
    (if _h : r ∈ g.ruleIds ∧ r ∉ stack then
      expandSeq g (r :: stack) ((g.rules r).getD [])
    else []) ++ expandSeq g stack rest
termination_by l => (g.unvisited stack, l.length)
decreasing_by
  · exact Prod.Lex.right _ (Nat.lt_succ_self _)
  · exact Prod.Lex.left _ _ (unvisited_cons _h.1 _h.2)
  · exact Prod.Lex.right _ (Nat.lt_succ_self _)

def expand (g : Grammar α) : List α := g.expandSeq [] g.start

/-! ## Reading and writing a sequence -/

section Seq
variable (g : Grammar α) (rid : Option Nat) (s : List (Symbol α))

@[simp] theorem seq_setSeq : (g.setSeq rid s).seq = Function.update g.seq rid (some s) := by
  funext rid'
  cases rid <;> cases rid' <;> simp [seq, setSeq, Function.update_apply]

@[simp] theorem setSeq_next : (g.setSeq rid s).nextRuleId = g.nextRuleId := by
  cases rid <;> rfl

@[simp] theorem seq_addRule :
    (g.addRule s).seq = Function.update g.seq (some g.nextRuleId) (some s) := by
  funext rid'
  cases rid' <;> simp [seq, addRule, Function.update_apply]

@[simp] theorem addRule_next : (g.addRule s).nextRuleId = g.nextRuleId + 1 := rfl

@[simp] theorem seq_removeRule (r : Nat) :
    (g.removeRule r).seq = Function.update g.seq (some r) none := by
  funext rid'
  cases rid' <;> simp [seq, removeRule, Function.update_apply]

@[simp] theorem removeRule_next (r : Nat) : (g.removeRule r).nextRuleId = g.nextRuleId := rfl

end Seq

end Grammar

/-! ## Valuations -/

section Valuation
variable (v : Nat → List α)

def Symbol.value : Symbol α → List α
  | .terminal a => [a]
  | .nonTerminal r => v r

def den (l : List (Symbol α)) : List α := l.flatMap (Symbol.value v)

@[simp] theorem den_nil : den v ([] : List (Symbol α)) = [] := rfl

@[simp] theorem den_cons (s : Symbol α) (l : List (Symbol α)) :
    den v (s :: l) = s.value v ++ den v l := rfl

@[simp] theorem den_append (l l' : List (Symbol α)) : den v (l ++ l') = den v l ++ den v l' :=
  List.flatMap_append

variable {v}

theorem den_congr {v' : Nat → List α} {l : List (Symbol α)}
    (h : ∀ r, .nonTerminal r ∈ l → v r = v' r) : den v l = den v' l := by
  refine List.flatMap_congr fun s hs => ?_
  cases s with
  | terminal a => rfl
  | nonTerminal r => exact h r hs

end Valuation

/-- The valuation `v` fits the grammar: every rule stands for what its body stands for, every
rule referred to is there, no rule stands for nothing, and a rule that is another name of a rule
has the smaller id. -/
structure Valued (g : Grammar α) (v : Nat → List α) : Prop where
  fresh : ∀ r body, g.seq (some r) = some body → r < g.nextRuleId
  closed : ∀ rid s, g.seq rid = some s → ∀ r, .nonTerminal r ∈ s →
    ∃ body, g.seq (some r) = some body
  value : ∀ r body, g.seq (some r) = some body → den v body = v r
  nonempty : ∀ r body, g.seq (some r) = some body → v r ≠ []
  unit : ∀ r t, g.seq (some r) = some [.nonTerminal t] → r < t

/-- Rule `r` uses rule `s`. -/
def Uses (g : Grammar α) (s r : Nat) : Prop :=
  ∃ body, g.seq (some r) = some body ∧ .nonTerminal s ∈ body

def Acyclic (g : Grammar α) : Prop := ∀ r, ¬Relation.TransGen (Uses g) r r

/-- Every rule referred to is there. -/
def NoDangling (g : Grammar α) : Prop :=
  ∀ rid s, g.seq rid = some s → ∀ r, .nonTerminal r ∈ s → (g.rules r).isSome = true

/-- A rule stands higher the longer its string, and among equals the smaller its id. -/
def rank (g : Grammar α) (v : Nat → List α) (r : Nat) : Nat :=
  (v r).length * (g.nextRuleId + 1) + (g.nextRuleId - r)

namespace Valued

variable {g : Grammar α} {v : Nat → List α}

theorem new (v : Nat → List α) : Valued (Grammar.new : Grammar α) v where
  fresh _ _ h := by cases h
  closed rid s h r hr := by
    cases rid with
    | none =>
      cases h
      cases hr
    | some r' => cases h
  value _ _ h := by cases h
  nonempty _ _ h := by cases h
  unit _ _ h := by cases h

theorem symbol_nonempty (h : Valued g v) {rid : Option Nat} {l : List (Symbol α)}
    (hl : g.seq rid = some l) {s : Symbol α} (hs : s ∈ l) : s.value v ≠ [] := by
  cases s with
  | terminal a => simp [Symbol.value]
  | nonTerminal r =>
    obtain ⟨body, hbody⟩ := h.closed rid l hl r hs
    exact h.nonempty r body hbody

theorem ref_lt (h : Valued g v) {rid : Option Nat} {l : List (Symbol α)}
    (hl : g.seq rid = some l) {r : Nat} (hr : .nonTerminal r ∈ l) : r < g.nextRuleId := by
  obtain ⟨body, hbody⟩ := h.closed rid l hl r hr
  exact h.fresh r body hbody

theorem body_ne_nil (h : Valued g v) {r : Nat} {body : List (Symbol α)}
    (hb : g.seq (some r) = some body) : body ≠ [] := by
  rintro rfl
  exact h.nonempty r [] hb (by simpa using (h.value r [] hb).symm)

/-- The rules a body refers to rank below it. -/
theorem rank_lt (h : Valued g v) {r s : Nat} (hu : Uses g s r) : rank g v s < rank g v r := by
  obtain ⟨body, hbody, hs⟩ := hu
  have hval := h.value r body hbody
  have hlt := h.ref_lt hbody hs
  obtain ⟨l₁, l₂, rfl⟩ := List.append_of_mem hs
  simp only [den_append, den_cons, Symbol.value] at hval
  have hlen : (v r).length = (den v l₁).length + (v s).length + (den v l₂).length := by
    rw [← hval]
    simp only [List.length_append]
    omega
  unfold rank
  by_cases halone : l₁ = [] ∧ l₂ = []
  · -- another name: the strings are the same, and `r < s`
    obtain ⟨rfl, rfl⟩ := halone
    have hrs : r < s := h.unit r s hbody
    have hr := h.fresh r _ hbody
    simp only [den_nil, List.length_nil, Nat.zero_add, Nat.add_zero] at hlen
    rw [hlen]
    omega
  · have hpos : 0 < (den v l₁).length + (den v l₂).length := by
      rcases not_and_or.1 halone with hne | hne
      · obtain ⟨x, l, rfl⟩ := List.exists_cons_of_ne_nil hne
        have := List.length_pos_iff.2 (h.symbol_nonempty hbody
          (List.mem_append_left _ (List.mem_cons_self (a := x) (l := l))))
        simp only [den_cons, List.length_append]
        omega
      · obtain ⟨x, l, rfl⟩ := List.exists_cons_of_ne_nil hne
        have := List.length_pos_iff.2 (h.symbol_nonempty hbody
          (List.mem_append_right l₁ (List.mem_cons_of_mem _ (List.mem_cons_self (a := x) (l := l)))))
        simp only [den_cons, List.length_append]
        omega
    have hmul : ((v s).length + 1) * (g.nextRuleId + 1) ≤ (v r).length * (g.nextRuleId + 1) :=
      Nat.mul_le_mul_right _ (by omega)
    rw [Nat.add_mul] at hmul
    omega

theorem acyclic (h : Valued g v) : Acyclic g := by
  intro r hr
  have hlt : ∀ s, Relation.TransGen (Uses g) s r → rank g v s < rank g v r := by
    intro s hs
    induction hs using Relation.TransGen.head_induction_on with
    | single hu => exact h.rank_lt hu
    | head hu _ ih => exact (h.rank_lt hu).trans ih
  exact (hlt r hr).false

theorem noDangling (h : Valued g v) : NoDangling g := by
  intro rid s hs r hr
  obtain ⟨body, hbody⟩ := h.closed rid s hs r hr
  exact Option.isSome_iff_exists.2 ⟨body, hbody⟩

/-- Expansion gives a sequence what it stands for, on any stack of rules that rank above all it
refers to. -/
theorem expandSeq_eq (h : Valued g v) (stack : List Nat) (l : List (Symbol α))
    (hl : ∀ r, .nonTerminal r ∈ l → ∃ body, g.seq (some r) = some body)
    (hstack : ∀ r, .nonTerminal r ∈ l → ∀ s ∈ stack, rank g v r < rank g v s) :
    g.expandSeq stack l = den v l := by
  fun_induction g.expandSeq stack l with
  | case1 => rfl
  | case2 stack a rest ih =>
    rw [den_cons, Symbol.value, List.singleton_append,
      ih (fun r hr => hl r (by simp [hr])) fun r hr => hstack r (by simp [hr])]
  | case3 stack r rest ihBody ihRest =>
    obtain ⟨body, hbody⟩ := hl r (by simp)
    have hrules : g.rules r = some body := hbody
    -- neither of the two fallbacks happens
    have hr : r ∈ g.ruleIds ∧ r ∉ stack :=
      ⟨Grammar.mem_ruleIds.2 ⟨h.fresh r body hbody, by rw [hrules]; rfl⟩,
        fun hmem => (hstack r (by simp) r hmem).false⟩
    have hbelow : ∀ s, .nonTerminal s ∈ body → ∀ t ∈ r :: stack, rank g v s < rank g v t := by
      intro s hs t ht
      have hsr := h.rank_lt ⟨body, hbody, hs⟩
      rcases List.mem_cons.1 ht with rfl | ht
      · exact hsr
      · exact hsr.trans (hstack r (by simp) t ht)
    rw [hrules, Option.getD_some] at ihBody
    rw [dif_pos hr, hrules, Option.getD_some, den_cons, Symbol.value,
      ihRest (fun s hs => hl s (by simp [hs])) fun s hs => hstack s (by simp [hs]),
      ihBody hr (h.closed _ _ hbody) hbelow, h.value r body hbody]

theorem expand_eq (h : Valued g v) : g.expand = den v g.start :=
  h.expandSeq_eq [] g.start (h.closed none g.start rfl) fun _ _ _ hs => by cases hs

end Valued

end Inim.Sequitur
