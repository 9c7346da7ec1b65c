import Inim.Sequitur.Builder
import Inim.Sequitur.Rewriting
import Inim.Sequitur.Weight
import Mathlib.Tactic.Linarith

/-!
# What the mutators keep

`Good b v`: the valuation `v` fits the grammar of `b`, and the index knows no rule yet to come.
A step `Preserves` if from a good state it leads to a good state with a valuation that agrees on
the old rules, with all old rules still there, the start sequence standing for the same string,
and nothing heavier than before. The index may be stale in every other way: `enforceStep` compares
the digram before it substitutes, and that is all that is needed.

Each mutator is a few steps that preserve around one rewriting of the grammar that does not:
a fresh rule adds the weight of its body, every substitution takes a digram off and adds a
reference, and the expansion of a rule with at most one reference takes a symbol off. With two
or more substitutions the digram is paid for; with fewer the fresh rule has at most one reference
and is expanded again (`enforceStep_preserves`).
-/

namespace Inim.Sequitur

variable {α : Type*} {b b' b'' : Builder α} {v v' : Nat → List α} {w : Symbol α → Nat}

structure Good (b : Builder α) (v : Nat → List α) : Prop extends Valued b.grammar v where
  index : ∀ d, ∀ p ∈ b.digramIndex d, ∀ r, p.1 = some r → r < b.grammar.nextRuleId

/-- The part of it that does not need a valuation. -/
structure InRange (b : Builder α) : Prop where
  rules : ∀ r body, b.grammar.seq (some r) = some body → r < b.grammar.nextRuleId
  index : ∀ d, ∀ p ∈ b.digramIndex d, ∀ r, p.1 = some r → r < b.grammar.nextRuleId

theorem Good.inRange (h : Good b v) : InRange b := ⟨h.fresh, h.index⟩

def Preserves (b b' : Builder α) : Prop :=
  ∀ v, Good b v → ∃ v', Good b' v' ∧ Extends b.grammar.nextRuleId b.grammar b'.grammar v v' ∧
    ∀ w, Light b.grammar.nextRuleId w → weight w b'.grammar ≤ weight w b.grammar

theorem Preserves.refl (b : Builder α) : Preserves b b :=
  fun v h => ⟨v, h, .refl _ _, fun _ _ => le_rfl⟩

theorem Preserves.trans (h : Preserves b b') (h' : Preserves b' b'') : Preserves b b'' := by
  intro v hv
  obtain ⟨v₁, hv₁, hext₁, hw₁⟩ := h v hv
  obtain ⟨v₂, hv₂, hext₂, hw₂⟩ := h' v₁ hv₁
  exact ⟨v₂, hv₂, hext₁.trans hext₂ hext₁.next,
    fun w hlight => (hw₂ w (hlight.mono hext₁.next)).trans (hw₁ w hlight)⟩

theorem Preserves.ite {c : Prop} [Decidable c] (h : Preserves b b') :
    Preserves b (if c then b' else b) := by
  split
  · exact h
  · exact refl b

/-- A loop of steps that preserve. -/
theorem Preserves.foldl {ι : Type} {f : Builder α → ι → Builder α} (l : List ι)
    (hf : ∀ b i, Preserves b (f b i)) (b : Builder α) : Preserves b (l.foldl f b) := by
  induction l generalizing b with
  | nil => exact .refl b
  | cons i l ih => exact (hf b i).trans (ih _)

/-- An enforcement that preserves wherever it is called. -/
def Sound (enforce : Enforce α) : Prop := ∀ b rid pos, Preserves b (enforce b rid pos)

/-! ## The index -/

section Index
variable [DecidableEq α] (b : Builder α) (rid : Option Nat) (pos : Nat)

@[simp] theorem grammar_addDigram : (b.addDigram rid pos).grammar = b.grammar := by
  unfold Builder.addDigram
  split <;> rfl

@[simp] theorem grammar_removeDigram : (b.removeDigram rid pos).grammar = b.grammar := by
  unfold Builder.removeDigram
  split <;> rfl

variable {b rid pos}

theorem InRange.addDigram (h : InRange b) : InRange (b.addDigram rid pos) := by
  refine ⟨by rw [grammar_addDigram]; exact h.rules, ?_⟩
  rw [grammar_addDigram]
  unfold Builder.addDigram
  split
  · next d hd =>
    intro d' p hp r hr
    simp only [Function.update_apply] at hp
    split at hp
    · rcases List.mem_append.1 hp with hp | hp
      · exact h.index d p hp r hr
      · -- the new position is one of the grammar
        obtain rfl := List.mem_singleton.1 hp
        obtain rfl : rid = some r := hr
        simp only [Builder.digramAt, bind, Option.bind_eq_some_iff] at hd
        obtain ⟨s, hs, -⟩ := hd
        exact h.rules r s hs
    · exact h.index d' p hp r hr
  · exact h.index

theorem InRange.removeDigram (h : InRange b) : InRange (b.removeDigram rid pos) := by
  refine ⟨by rw [grammar_removeDigram]; exact h.rules, ?_⟩
  rw [grammar_removeDigram]
  unfold Builder.removeDigram
  split
  · next d hd =>
    intro d' p hp r hr
    simp only [Function.update_apply] at hp
    split at hp
    · exact h.index d p (List.mem_of_mem_filter hp) r hr
    · exact h.index d' p hp r hr
  · exact h.index

/-- Only the index differs. -/
structure SameGrammar (b b' : Builder α) : Prop where
  grammar : b'.grammar = b.grammar
  inRange : InRange b → InRange b'

namespace SameGrammar

omit [DecidableEq α] in
theorem refl (b : Builder α) : SameGrammar b b := ⟨rfl, id⟩

omit [DecidableEq α] in
theorem trans (h : SameGrammar b b') (h' : SameGrammar b' b'') : SameGrammar b b'' :=
  ⟨h'.grammar.trans h.grammar, fun hb => h'.inRange (h.inRange hb)⟩

theorem addDigram : SameGrammar b (b.addDigram rid pos) :=
  ⟨grammar_addDigram .., .addDigram⟩

theorem removeDigram : SameGrammar b (b.removeDigram rid pos) :=
  ⟨grammar_removeDigram .., .removeDigram⟩

omit [DecidableEq α] in
theorem ite {c : Prop} [Decidable c] (h : SameGrammar b b') :
    SameGrammar b (if c then b' else b) := by
  split
  · exact h
  · exact refl b

omit [DecidableEq α] in
theorem preserves (h : SameGrammar b b') : Preserves b b' := by
  intro v hv
  refine ⟨v, ⟨h.grammar ▸ hv.toValued, (h.inRange hv.inRange).index⟩, ?_, ?_⟩
  · rw [h.grammar]
    exact .refl _ _
  · simp [h.grammar]

end SameGrammar

end Index

/-! ## Sequences -/

section Seq
variable [DecidableEq α] {rid : Option Nat} {pos : Nat} {s : List (Symbol α)}

omit [DecidableEq α] in
theorem digramAt_eq_some {d : Symbol α × Symbol α} (h : b.digramAt rid pos = some d) :
    ∃ pre post, b.grammar.seq rid = some (pre ++ d.1 :: d.2 :: post) ∧ pre.length = pos := by
  simp only [Builder.digramAt, bind, Option.bind_eq_some_iff] at h
  obtain ⟨s, hs, x, hx, y, hy, hd⟩ := h
  cases hd
  obtain ⟨hxlt, rfl⟩ := List.getElem?_eq_some_iff.1 hx
  obtain ⟨hylt, rfl⟩ := List.getElem?_eq_some_iff.1 hy
  refine ⟨s.take pos, s.drop (pos + 1 + 1), ?_, List.length_take_of_le hxlt.le⟩
  rw [hs, ← List.drop_eq_getElem_cons, ← List.drop_eq_getElem_cons, List.take_append_drop]

omit [DecidableEq α] in
theorem modifySeq_of (f : List (Symbol α) → List (Symbol α)) (hs : b.grammar.seq rid = some s) :
    b.modifySeq rid f = { b with grammar := b.grammar.setSeq rid (f s) } := by
  rw [Builder.modifySeq, hs]

omit [DecidableEq α] in
theorem setSeq_setSeq (g : Grammar α) (rid : Option Nat) (s s' : List (Symbol α)) :
    (g.setSeq rid s).setSeq rid s' = g.setSeq rid s' := by
  cases rid with
  | none => rfl
  | some r => simp [Grammar.setSeq]

omit [DecidableEq α] in
/-- Two writings of a sequence are one. -/
theorem modifySeq_modifySeq (f f' : List (Symbol α) → List (Symbol α)) :
    (b.modifySeq rid f).modifySeq rid f' = b.modifySeq rid fun s => f' (f s) := by
  cases hs : b.grammar.seq rid with
  | none => simp [Builder.modifySeq, hs]
  | some s =>
    rw [modifySeq_of f hs, modifySeq_of (fun s => f' (f s)) hs]
    have hs' : (b.grammar.setSeq rid (f s)).seq rid = some (f s) := by simp
    rw [modifySeq_of f' hs', setSeq_setSeq]

omit [DecidableEq α] in
theorem eraseIdx_middle (pre post : List (Symbol α)) (x : Symbol α) :
    (pre ++ x :: post).eraseIdx pre.length = pre ++ post := by
  rw [List.eraseIdx_append_of_length_le le_rfl, Nat.sub_self, List.eraseIdx_cons_zero]

omit [DecidableEq α] in
theorem insertIdx_middle (pre post : List (Symbol α)) (x : Symbol α) :
    (pre ++ post).insertIdx pre.length x = pre ++ x :: post := by
  induction pre with
  | nil => rfl
  | cons y pre ih => simp [List.insertIdx_succ_cons, ih]

variable (b) in
/-- The grammar of `b` with another sequence, and some index that knows no more rules. -/
def WritesSeq (rid : Option Nat) (s : List (Symbol α)) (b' : Builder α) : Prop :=
  b'.grammar = b.grammar.setSeq rid s ∧
    (InRange b → ∀ d, ∀ p ∈ b'.digramIndex d, ∀ r, p.1 = some r → r < b.grammar.nextRuleId)

theorem replaceDigram_writes {pre post : List (Symbol α)} {x y : Symbol α} {R : Nat}
    (hs : b.grammar.seq rid = some (pre ++ x :: y :: post)) :
    WritesSeq b rid (pre ++ .nonTerminal R :: post) (b.replaceDigram rid pre.length R) := by
  unfold Builder.replaceDigram Builder.seqRemove Builder.seqInsert
  simp only [modifySeq_modifySeq]
  generalize hb₁ : (if 0 < pre.length then b.removeDigram rid (pre.length - 1) else b) = b₁
  generalize hb₂ : b₁.removeDigram rid pre.length = b₂
  generalize hb₃ : (if pre.length + 2 < b₂.seqLen rid then b₂.removeDigram rid (pre.length + 1)
    else b₂) = b₃
  have h₁ : SameGrammar b b₁ := hb₁ ▸ SameGrammar.removeDigram.ite
  have h₂ : SameGrammar b b₂ := h₁.trans (hb₂ ▸ .removeDigram)
  have h₃ : SameGrammar b b₃ := h₂.trans (hb₃ ▸ SameGrammar.removeDigram.ite)
  rw [modifySeq_of _ (by rw [h₃.grammar]; exact hs)]
  refine ⟨?_, fun h d p hp r hr => ?_⟩
  · simp only [h₃.grammar, eraseIdx_middle, insertIdx_middle]
  · exact h₃.grammar ▸ (h₃.inRange h).index d p hp r hr

theorem inlineBody_writes {pre post : List (Symbol α)} {R : Nat}
    (hs : b.grammar.seq rid = some (pre ++ .nonTerminal R :: post)) (body : List (Symbol α)) :
    WritesSeq b rid (pre ++ body ++ post) (b.inlineBody rid pre.length body) := by
  unfold Builder.inlineBody
  generalize hb₁ : (if 0 < pre.length then b.removeDigram rid (pre.length - 1) else b) = b₁
  generalize hb₂ : b₁.removeDigram rid pre.length = b₂
  have h₁ : SameGrammar b b₁ := hb₁ ▸ SameGrammar.removeDigram.ite
  have h₂ : SameGrammar b b₂ := h₁.trans (hb₂ ▸ .removeDigram)
  have hs₂ : b₂.grammar.seq rid = some (pre ++ .nonTerminal R :: post) := by rw [h₂.grammar, hs]
  have hremove : b₂.seqRemove rid pre.length =
      { b₂ with grammar := b.grammar.setSeq rid (pre ++ post) } := by
    rw [Builder.seqRemove, modifySeq_of _ hs₂, eraseIdx_middle, h₂.grammar]
  -- the insertions, one symbol after the other
  have hinsert : ∀ (todo done : List (Symbol α)),
      (todo.zipIdx done.length).foldl
        (fun b p => b.seqInsert rid (pre.length + p.2) p.1)
        { b₂ with grammar := b.grammar.setSeq rid (pre ++ done ++ post) } =
      { b₂ with grammar := b.grammar.setSeq rid (pre ++ (done ++ todo) ++ post) } := by
    intro todo
    induction todo with
    | nil =>
      intro done
      simp
    | cons x todo ih =>
      intro done
      have hseq : (b.grammar.setSeq rid (pre ++ done ++ post)).seq rid =
          some (pre ++ done ++ post) := by
        rw [Grammar.seq_setSeq, Function.update_self]
      have hstep : Builder.seqInsert
          { b₂ with grammar := b.grammar.setSeq rid (pre ++ done ++ post) } rid
            (pre.length + done.length) x =
          { b₂ with grammar := b.grammar.setSeq rid (pre ++ (done ++ [x]) ++ post) } := by
        rw [Builder.seqInsert, modifySeq_of _ hseq, setSeq_setSeq, ← List.length_append,
          insertIdx_middle]
        simp
      rw [List.zipIdx_cons, List.foldl_cons, hstep]
      have hlen : done.length + 1 = (done ++ [x]).length := by simp
      rw [hlen, ih]
      simp
  have hbody := hinsert body []
  rw [List.append_nil, List.nil_append, List.length_nil] at hbody
  simp only [hb₂, hremove, hbody]
  exact ⟨rfl, fun h d p hp r hr => h₂.grammar ▸ (h₂.inRange h).index d p hp r hr⟩

end Seq

/-! ## References -/

section Refs
variable [DecidableEq α] {target : Nat}

omit [DecidableEq α] in
theorem countRuleRefs_eq (b : Builder α) (target : Nat) :
    b.countRuleRefs target = refs b.grammar target := by
  have hsum : ∀ l : List Nat,
      ((l.filter fun r => (b.grammar.rules r).isSome).map fun r =>
        ((b.grammar.rules r).getD []).countP (Symbol.refersTo target)).sum =
      (l.map fun r => weighSeq (refWeight target) (b.grammar.seq (some r))).sum := by
    intro l
    induction l with
    | nil => rfl
    | cons r l ih =>
      rw [List.map_cons, List.sum_cons, ← ih, List.filter_cons]
      unfold weighSeq Grammar.seq
      cases hr : b.grammar.rules r with
      | none => simp [hr]
      | some body => simp [weigh_refWeight, hr]
  rw [Builder.countRuleRefs, refs, weight, weigh_refWeight, Grammar.ruleIds, hsum]
  rfl

omit [DecidableEq α] in
theorem findIdx?_refersTo {l : List (Symbol α)} {pos : Nat}
    (h : l.findIdx? (Symbol.refersTo target) = some pos) :
    ∃ pre post, l = pre ++ .nonTerminal target :: post ∧ pre.length = pos := by
  obtain ⟨hlt, hp, -⟩ := List.findIdx?_eq_some_iff_getElem.1 h
  refine ⟨l.take pos, l.drop (pos + 1), ?_, List.length_take_of_le hlt.le⟩
  rw [← Symbol.refersTo_iff.1 hp, ← List.drop_eq_getElem_cons, List.take_append_drop]

omit [DecidableEq α] in
theorem findRuleRef_some {order : MapOrder} {rid : Option Nat} {pos : Nat}
    (h : b.findRuleRef order target = some (rid, pos)) :
    ∃ pre post, b.grammar.seq rid = some (pre ++ .nonTerminal target :: post) ∧
      pre.length = pos := by
  unfold Builder.findRuleRef at h
  split at h
  · next hstart =>
    cases h
    obtain ⟨pre, post, hsplit, hlen⟩ := findIdx?_refersTo hstart
    exact ⟨pre, post, congrArg some hsplit, hlen⟩
  · obtain ⟨r, -, hr⟩ := List.exists_of_findSome?_eq_some h
    obtain ⟨pos', hpos, heq⟩ := Option.map_eq_some_iff.1 hr
    cases heq
    obtain ⟨pre, post, hsplit, hlen⟩ := findIdx?_refersTo hpos
    refine ⟨pre, post, ?_, hlen⟩
    cases hb : b.grammar.rules r with
    | none => simp [hb] at hsplit
    | some body =>
      rw [hb, Option.getD_some] at hsplit
      rw [Grammar.seq, hb, hsplit]

omit [DecidableEq α] in
theorem findRuleRef_none {order : MapOrder} (hv : Valued b.grammar v)
    (h : b.findRuleRef order target = none) :
    ∀ rid s, b.grammar.seq rid = some s → .nonTerminal target ∉ s := by
  unfold Builder.findRuleRef at h
  split at h
  · cases h
  · next hstart =>
    intro rid s hs hmem
    have href : Symbol.refersTo target (.nonTerminal target : Symbol α) = true := by simp
    cases rid with
    | none =>
      cases hs
      have := List.findIdx?_eq_none_iff.1 hstart _ hmem
      rw [href] at this
      cases this
    | some r =>
      have hr : r ∈ order.list b.grammar.ruleIds :=
        (order.perm _).mem_iff.2 (Grammar.mem_ruleIds.2 ⟨hv.fresh r s hs, by
          rw [Option.isSome_iff_exists]
          exact ⟨s, hs⟩⟩)
      have hnone := List.findSome?_eq_none_iff.1 h r hr
      have hrules : b.grammar.rules r = some s := hs
      rw [Option.map_eq_none_iff, hrules, Option.getD_some] at hnone
      have := List.findIdx?_eq_none_iff.1 hnone _ hmem
      rw [href] at this
      cases this

end Refs

/-! ## Substitution -/

section Mutators
variable [DecidableEq α] {enforce : Enforce α} {order : MapOrder} {R : Nat}

omit [DecidableEq α] in
theorem WritesSeq.good {rid : Option Nat} {s : List (Symbol α)} (hw : WritesSeq b rid s b')
    (h : Good b v) (hv : Valued (b.grammar.setSeq rid s) v) : Good b' v := by
  refine ⟨hw.1 ▸ hv, fun d p hp r hr => ?_⟩
  rw [hw.1, Grammar.setSeq_next]
  exact hw.2 h.inRange d p hp r hr

/-- The digram `d` of a position made one symbol, by a later rule that stands for the same. -/
theorem replaceDigram_step {rid : Option Nat} {pos : Nat} {d : Symbol α × Symbol α} (h : Good b v)
    (hd : b.digramAt rid pos = some d) (hR : ∃ body, b.grammar.seq (some R) = some body)
    (hval : v R = den v [d.1, d.2]) (hlt : ∀ r, rid = some r → r < R) :
    Good (b.replaceDigram rid pos R) v ∧
      Extends b.grammar.nextRuleId b.grammar (b.replaceDigram rid pos R).grammar v v ∧
      ∀ w, weight w (b.replaceDigram rid pos R).grammar + weigh w [d.1, d.2] =
        weight w b.grammar + w (.nonTerminal R) := by
  obtain ⟨pre, post, hs, rfl⟩ := digramAt_eq_some hd
  have hden : den v (pre ++ .nonTerminal R :: post) = den v (pre ++ d.1 :: d.2 :: post) := by
    simp [Symbol.value, hval]
  have hvalued : Valued (b.grammar.setSeq rid (pre ++ .nonTerminal R :: post)) v := by
    refine h.toValued.setSeq hs ?_ ?_ ?_
    · rintro r rfl
      rw [hden, h.value r _ hs]
    · intro r hr
      rcases List.mem_append.1 hr with hr | hr
      · exact h.closed rid _ hs r (by simp [hr])
      · rcases List.mem_cons.1 hr with heq | hr
        · cases heq
          exact hR
        · exact h.closed rid _ hs r (by simp [hr])
    · -- a body that is left as another name: of `R`, which is the later rule
      intro r t hrid ht
      have hpre : pre = [] := by
        cases pre with
        | nil => rfl
        | cons x pre => simp at ht
      subst hpre
      simp only [List.nil_append, List.cons.injEq, Symbol.nonTerminal.injEq] at ht
      exact ht.1 ▸ hlt r hrid
  have hwrites := replaceDigram_writes (R := R) hs
  refine ⟨hwrites.good h hvalued, hwrites.1 ▸ Valued.setSeq_extends hs hden, fun w => ?_⟩
  have := weight_setSeq w hs (h.toValued.seq_lt hs) (pre ++ .nonTerminal R :: post)
  rw [← hwrites.1] at this
  simp only [weigh_append, weigh_cons, weigh_nil] at this ⊢
  omega

/-- What a substitution of digram `d` by `R` takes off and adds. -/
theorem substituteDigram_step (he : Sound enforce) {rid : Option Nat} {pos : Nat}
    {d : Symbol α × Symbol α} (h : Good b v) (hd : b.digramAt rid pos = some d)
    (hR : ∃ body, b.grammar.seq (some R) = some body) (hval : v R = den v [d.1, d.2])
    (hlt : ∀ r, rid = some r → r < R) :
    ∃ v', Good (b.substituteDigram enforce rid pos R) v' ∧
      Extends b.grammar.nextRuleId b.grammar (b.substituteDigram enforce rid pos R).grammar v v' ∧
      ∀ w, Light b.grammar.nextRuleId w →
        weight w (b.substituteDigram enforce rid pos R).grammar + weigh w [d.1, d.2] ≤
          weight w b.grammar + w (.nonTerminal R) := by
  obtain ⟨hgood, hext, hweight⟩ := replaceDigram_step h hd hR hval hlt
  have hpres : Preserves (b.replaceDigram rid pos R) (b.substituteDigram enforce rid pos R) := by
    dsimp only [Builder.substituteDigram]
    generalize hb₁ : (if 0 < pos then
      enforce ((b.replaceDigram rid pos R).addDigram rid (pos - 1)) rid (pos - 1)
      else b.replaceDigram rid pos R) = b₁
    have h₁ : Preserves (b.replaceDigram rid pos R) b₁ :=
      hb₁ ▸ (SameGrammar.addDigram.preserves.trans (he _ _ _)).ite
    exact (h₁.trans SameGrammar.addDigram.preserves).trans (he _ _ _).ite
  obtain ⟨v', hgood', hext', hw'⟩ := hpres v hgood
  refine ⟨v', hgood', hext.trans hext' hext.next, fun w hlight => ?_⟩
  have := hw' w (hlight.mono hext.next)
  have := hweight w
  omega

/-! ## Expansion of a rule -/

omit [DecidableEq α] in
/-- No rule refers to itself. -/
theorem body_not_self (h : Valued b.grammar v) {body : List (Symbol α)}
    (hbody : b.grammar.seq (some R) = some body) : .nonTerminal R ∉ body :=
  fun hmem => (h.rank_lt ⟨body, hbody, hmem⟩).false

omit [DecidableEq α] in
theorem setSeq_removeRule (g : Grammar α) {rid : Option Nat} (s : List (Symbol α))
    (hne : rid ≠ some R) : (g.removeRule R).setSeq rid s = (g.setSeq rid s).removeRule R := by
  cases rid with
  | none => rfl
  | some r =>
    have hr : R ≠ r := fun heq => hne (heq ▸ rfl)
    simp only [Grammar.setSeq, Grammar.removeRule, Function.update_comm hr]

omit [DecidableEq α] in
/-- The only reference of a rule replaced by its body, and the rule removed. -/
theorem inlined (h : Good b v) {body pre post : List (Symbol α)} {rid : Option Nat}
    (hbody : b.grammar.seq (some R) = some body) (hrefs : refs b.grammar R ≤ 1)
    (hs : b.grammar.seq rid = some (pre ++ .nonTerminal R :: post)) :
    Valued ((b.grammar.setSeq rid (pre ++ body ++ post)).removeRule R) v ∧
      Extends R b.grammar ((b.grammar.setSeq rid (pre ++ body ++ post)).removeRule R) v v ∧
      ∀ w, weight w ((b.grammar.setSeq rid (pre ++ body ++ post)).removeRule R) +
        w (.nonTerminal R) = weight w b.grammar := by
  have hself := body_not_self h.toValued hbody
  have hne : rid ≠ some R := by
    rintro rfl
    rw [hbody] at hs
    cases hs
    exact hself (by simp)
  have hden : den v (pre ++ body ++ post) = den v (pre ++ .nonTerminal R :: post) := by
    simp [Symbol.value, h.value R body hbody]
  have hvalued : Valued (b.grammar.setSeq rid (pre ++ body ++ post)) v := by
    refine h.toValued.setSeq hs ?_ ?_ ?_
    · rintro r rfl
      rw [hden, h.value r _ hs]
    · intro r hr
      rcases List.mem_append.1 hr with hr | hr
      · rcases List.mem_append.1 hr with hr | hr
        · exact h.closed rid _ hs r (by simp [hr])
        · exact h.closed (some R) _ hbody r hr
      · exact h.closed rid _ hs r (by simp [hr])
    · -- another name stays one only if `R` was another name, of a later rule still
      rintro r t rfl ht
      obtain ⟨x, body', rfl⟩ := List.exists_cons_of_ne_nil (h.toValued.body_ne_nil hbody)
      have hlen := congrArg List.length ht
      simp only [List.length_append, List.length_cons, List.length_nil] at hlen
      obtain rfl : pre = [] := List.length_eq_zero_iff.1 (by omega)
      obtain rfl : post = [] := List.length_eq_zero_iff.1 (by omega)
      obtain rfl : body' = [] := List.length_eq_zero_iff.1 (by omega)
      simp only [List.nil_append, List.append_nil, List.cons.injEq, and_true] at ht
      subst ht
      exact (h.unit r R hs).trans (h.unit R t hbody)
  have hweight : ∀ w, weight w (b.grammar.setSeq rid (pre ++ body ++ post)) + w (.nonTerminal R) =
      weight w b.grammar + weigh w body := by
    intro w
    have := weight_setSeq w hs (h.toValued.seq_lt hs) (pre ++ body ++ post)
    simp only [weigh_append, weigh_cons] at this
    omega
  -- the reference is gone, and the body brings none
  have hgone : refs (b.grammar.setSeq rid (pre ++ body ++ post)) R = 0 := by
    have := hweight (refWeight R)
    rw [refWeight_self, weigh_refWeight_eq_zero.2 hself] at this
    unfold refs at hrefs ⊢
    omega
  have hbody' : (b.grammar.setSeq rid (pre ++ body ++ post)).seq (some R) = some body := by
    rw [Grammar.seq_setSeq, Function.update_of_ne (Ne.symm hne), hbody]
  refine ⟨hvalued.removeRule ((refs_eq_zero hvalued.fresh).1 hgone),
    (Valued.setSeq_extends hs hden).trans Valued.removeRule_extends le_rfl, fun w => ?_⟩
  have := hweight w
  have := weight_removeRule (w := w) hbody' (hvalued.fresh R body hbody')
  omega

omit [DecidableEq α] in
/-- A reference to `R` is never in the body of `R`, so its sequence outlives the rule. -/
theorem seq_removeRule_of_ref (h : Good b v) {body pre post : List (Symbol α)} {rid : Option Nat}
    (hbody : b.grammar.seq (some R) = some body)
    (hs : b.grammar.seq rid = some (pre ++ .nonTerminal R :: post)) :
    rid ≠ some R ∧ (b.grammar.removeRule R).seq rid = some (pre ++ .nonTerminal R :: post) := by
  have hne : rid ≠ some R := by
    rintro rfl
    rw [hbody] at hs
    cases hs
    exact body_not_self h.toValued hbody (by simp)
  exact ⟨hne, by rw [Grammar.seq_removeRule, Function.update_of_ne hne, hs]⟩

/-- The builder with rule `R` removed and its body in the place of its only reference. -/
theorem inlineBody_step (h : Good b v) {body pre post : List (Symbol α)} {rid : Option Nat}
    (hbody : b.grammar.seq (some R) = some body) (hrefs : refs b.grammar R ≤ 1)
    (hs : b.grammar.seq rid = some (pre ++ .nonTerminal R :: post)) {b₁ : Builder α}
    (hb₁ : Builder.inlineBody { b with grammar := b.grammar.removeRule R } rid pre.length body = b₁) :
    Good b₁ v ∧ Extends R b.grammar b₁.grammar v v ∧
      ∀ w, weight w b₁.grammar + w (.nonTerminal R) = weight w b.grammar := by
  obtain ⟨hvalued, hext, hweight⟩ := inlined h hbody hrefs hs
  obtain ⟨hne, hs'⟩ := seq_removeRule_of_ref h hbody hs
  have hwrites := inlineBody_writes (b := { b with grammar := b.grammar.removeRule R }) hs' body
  rw [hb₁] at hwrites
  have hgrammar : b₁.grammar = (b.grammar.setSeq rid (pre ++ body ++ post)).removeRule R :=
    hwrites.1.trans (setSeq_removeRule b.grammar _ hne)
  refine ⟨⟨hgrammar ▸ hvalued, fun d p hp r hr => ?_⟩, hgrammar ▸ hext, hgrammar ▸ hweight⟩
  have hrange : InRange { b with grammar := b.grammar.removeRule R } := by
    refine ⟨fun r body hb => ?_, h.index⟩
    rw [Grammar.seq_removeRule, Function.update_apply] at hb
    split at hb
    · cases hb
    · exact h.fresh r body hb
  have := hwrites.2 hrange d p hp r hr
  rw [hgrammar]
  exact (Grammar.setSeq_next ..).symm ▸ this

theorem recheck_preserves (he : Sound enforce) (rid : Option Nat) (area : List Nat) :
    Preserves b (b.recheck enforce rid area) :=
  (Preserves.foldl area (fun _ _ => SameGrammar.addDigram.preserves.ite) b).trans
    (Preserves.foldl area (fun _ _ => (he _ _ _).ite) _)

variable (order) in
/-- What the expansion of a rule with at most one reference takes off. -/
theorem expandRule_step (he : Sound enforce) (h : Good b v) {body : List (Symbol α)}
    (hbody : b.grammar.seq (some R) = some body) (hrefs : refs b.grammar R ≤ 1) :
    ∃ v', Good (b.expandRule order enforce R) v' ∧
      Extends R b.grammar (b.expandRule order enforce R).grammar v v' ∧
      ∀ w, Light b.grammar.nextRuleId w →
        weight w (b.expandRule order enforce R).grammar +
            (if refs b.grammar R = 0 then weigh w body else w (.nonTerminal R)) ≤
          weight w b.grammar := by
  have hrules : b.grammar.rules R = some body := hbody
  unfold Builder.expandRule
  cases hfind : b.findRuleRef order R with
  | none =>
    simp only [hrules]
    have hnone := findRuleRef_none h.toValued hfind
    refine ⟨v, ⟨h.toValued.removeRule hnone, h.index⟩, Valued.removeRule_extends, fun w _ => ?_⟩
    rw [if_pos ((refs_eq_zero h.fresh).2 hnone)]
    exact (weight_removeRule hbody (h.fresh R body hbody)).le
  | some p =>
    obtain ⟨rid, pos⟩ := p
    simp only [hrules]
    obtain ⟨pre, post, hs, rfl⟩ := findRuleRef_some hfind
    generalize hb₁ : Builder.inlineBody { b with grammar := b.grammar.removeRule R } rid pre.length
      body = b₁
    obtain ⟨hgood, hext, hweight⟩ := inlineBody_step h hbody hrefs hs hb₁
    have hrefs' : refs b.grammar R ≠ 0 := by
      intro hzero
      exact (refs_eq_zero h.fresh).1 hzero rid _ hs (by simp)
    obtain ⟨v', hgood', hext', hw'⟩ := recheck_preserves he rid _ v hgood
    refine ⟨v', hgood', hext.trans hext' ?_, fun w hlight => ?_⟩
    · exact (h.fresh R body hbody).le.trans hext.next
    · have h₁ := hw' w (hlight.mono hext.next)
      have h₂ := hweight w
      rw [if_neg hrefs']
      omega

/-! ## Enforcement -/

/-- Rule `R` is there and stands for the digram `d`, made of older rules. -/
structure StandsFor (b : Builder α) (v : Nat → List α) (d : Symbol α × Symbol α) (R : Nat) : Prop
    extends Good b v where
  rule : ∃ body, b.grammar.seq (some R) = some body
  stands : v R = den v [d.1, d.2]
  older : ∀ r, .nonTerminal r ∈ [d.1, d.2] → r < b.grammar.nextRuleId

omit [DecidableEq α] in
theorem StandsFor.of_extends {d : Symbol α × Symbol α} (h : StandsFor b v d R) (h' : Good b' v')
    (hext : Extends b.grammar.nextRuleId b.grammar b'.grammar v v') : StandsFor b' v' d R := by
  obtain ⟨body, hbody⟩ := h.rule
  have hlt := h.fresh R body hbody
  refine ⟨h', hext.rules R hlt body hbody, ?_, fun r hr => (h.older r hr).trans_le hext.next⟩
  rw [hext.value R hlt, h.stands]
  exact (den_congr fun r hr => hext.value r (h.older r hr)).symm

omit [DecidableEq α] in
/-- The fresh rule for a digram of the grammar. -/
theorem standsFor_addRule {rid : Option Nat} {pos : Nat} {d : Symbol α × Symbol α} (h : Good b v)
    (hd : b.digramAt rid pos = some d) :
    StandsFor { b with grammar := b.grammar.addRule [d.1, d.2] }
        (Function.update v b.grammar.nextRuleId (den v [d.1, d.2])) d b.grammar.nextRuleId ∧
      Extends b.grammar.nextRuleId b.grammar (b.grammar.addRule [d.1, d.2]) v
        (Function.update v b.grammar.nextRuleId (den v [d.1, d.2])) ∧
      ∀ r, .nonTerminal r ∈ [d.1, d.2] → r < b.grammar.nextRuleId := by
  obtain ⟨pre, post, hs, -⟩ := digramAt_eq_some hd
  obtain ⟨hvalued, hext⟩ := h.toValued.addRule hs (x := d.1) (y := d.2) (by simp) (by simp)
  have hlt : ∀ r, .nonTerminal r ∈ [d.1, d.2] → r < b.grammar.nextRuleId := by
    intro r hr
    refine h.toValued.ref_lt hs ?_
    rcases List.mem_cons.1 hr with heq | hr
    · simp [heq]
    · simp [List.mem_singleton.1 hr]
  have hbody : (b.grammar.addRule [d.1, d.2]).seq (some b.grammar.nextRuleId) = some [d.1, d.2] := by
    rw [Grammar.seq_addRule, Function.update_self]
  refine ⟨⟨⟨hvalued, fun d p hp r hr => ?_⟩, ⟨_, hbody⟩, (hvalued.value _ _ hbody).symm,
    fun r hr => (hlt r hr).trans (Nat.lt_succ_self _)⟩, hext, hlt⟩
  exact (h.index d p hp r hr).trans (Nat.lt_succ_self _)

/-- The loop over the occurrences: `s` of them are substituted. -/
theorem substituteAll_step (he : Sound enforce) {d : Symbol α × Symbol α} (occ : List Position)
    (hocc : ∀ p ∈ occ, ∀ r, p.1 = some r → r < R) (h : StandsFor b v d R) :
    ∃ b' v' s, b' = occ.foldl (fun b p => if b.digramAt p.1 p.2 = some d then
        b.substituteDigram enforce p.1 p.2 R else b) b ∧ Good b' v' ∧
      Extends b.grammar.nextRuleId b.grammar b'.grammar v v' ∧ (s = 0 → b' = b) ∧
      ∀ w, Light b.grammar.nextRuleId w →
        weight w b'.grammar + s * weigh w [d.1, d.2] ≤ weight w b.grammar + s * w (.nonTerminal R) := by
  induction occ generalizing b v with
  | nil => exact ⟨b, v, 0, rfl, h.toGood, .refl _ _, fun _ => rfl, fun w _ => by omega⟩
  | cons p occ ih =>
    have hocc' : ∀ p ∈ occ, ∀ r, p.1 = some r → r < R := fun q hq => hocc q (by simp [hq])
    rw [List.foldl_cons]
    by_cases hmatch : b.digramAt p.1 p.2 = some d
    · rw [if_pos hmatch]
      obtain ⟨v₁, hgood, hext, hw⟩ :=
        substituteDigram_step he h.toGood hmatch h.rule h.stands (hocc p (by simp))
      obtain ⟨b', v', s, hb', hgood', hext', -, hw'⟩ := ih hocc' (h.of_extends hgood hext)
      refine ⟨b', v', s + 1, hb', hgood', hext.trans hext' hext.next, fun h => by omega, ?_⟩
      intro w hlight
      have h₁ := hw w hlight
      have h₂ := hw' w (hlight.mono hext.next)
      rw [Nat.add_mul, Nat.add_mul, Nat.one_mul, Nat.one_mul]
      omega
    · rw [if_neg hmatch]
      exact ih hocc' h

/-- Two substitutions pay for the rule. -/
theorem weight_paid {s n W x y : Nat} (hs : 2 ≤ s) (hW : 2 * n ≤ W)
    (h : x + s * W ≤ y + W + s * n) : x ≤ y := by
  obtain ⟨t, rfl⟩ := Nat.exists_eq_add_of_le hs
  have := Nat.mul_le_mul_left (t + 1) hW
  nlinarith

theorem enforceStep_preserves (he : Sound enforce) : Sound (Builder.enforceStep order enforce) := by
  intro b rid pos v h
  unfold Builder.enforceStep
  cases hd : b.digramAt rid pos with
  | none => exact Preserves.refl b v h
  | some d =>
    dsimp only
    split
    swap
    · exact Preserves.refl b v h
    obtain ⟨hstands, hext, hdlt⟩ := standsFor_addRule h hd
    generalize hR : b.grammar.nextRuleId = R at *
    generalize hv₁ : Function.update v R (den v [d.1, d.2]) = v₁ at hstands hext
    have hbody₁ : (b.grammar.addRule [d.1, d.2]).seq (some R) = some [d.1, d.2] := by
      rw [Grammar.seq_addRule, hR, Function.update_self]
    have hw₁ : ∀ w, weight w (b.grammar.addRule [d.1, d.2]) =
        weight w b.grammar + weigh w [d.1, d.2] := fun w => weight_addRule _
    obtain ⟨b₂, v₂, s, hb₂, hgood₂, hext₂, hzero, hw₂⟩ := substituteAll_step (R := R) he
      (b.digramIndex d).reverse
      (fun p hp r hr => hR ▸ h.index d p (List.mem_reverse.1 hp) r hr) hstands
    rw [← hb₂]
    have hnext₁ : (b.grammar.addRule [d.1, d.2]).nextRuleId = R + 1 := by
      rw [Grammar.addRule_next, hR]
    have hRlt : R < (b.grammar.addRule [d.1, d.2]).nextRuleId := by omega
    have hext₁₂ : Extends R b.grammar b₂.grammar v v₂ := hext.trans hext₂ hRlt.le
    have hlight₁ : ∀ {w : Symbol α → Nat}, Light R w →
        Light (b.grammar.addRule [d.1, d.2]).nextRuleId w := fun hl => hl.mono hRlt.le
    obtain ⟨body, hbody₂⟩ := hext₂.rules R hRlt _ hbody₁
    -- the fresh rule has at most one reference for every substitution
    have hrefs : refs b₂.grammar R ≤ s := by
      have hfresh : refs b.grammar R = 0 :=
        (refs_eq_zero h.fresh).2 fun rid s hs hmem => (h.toValued.ref_lt hs hmem).ne hR.symm
      have hdig : weigh (refWeight R) [d.1, d.2] = 0 :=
        weigh_refWeight_eq_zero.2 fun hmem => (hdlt R hmem).false
      have := hw₂ (refWeight R) (light_refWeight hRlt)
      rw [hw₁, refWeight_self, hdig] at this
      unfold refs at hfresh ⊢
      omega
    have hcheap : ∀ {w : Symbol α → Nat}, Light R w → 2 * w (.nonTerminal R) ≤ weigh w [d.1, d.2] := by
      intro w hl
      have := hl R le_rfl d.1
      have := hl R le_rfl d.2
      simp only [weigh_cons, weigh_nil]
      omega
    have htotal : ∀ {w : Symbol α → Nat}, Light R w →
        weight w b₂.grammar + s * weigh w [d.1, d.2] ≤
          weight w b.grammar + weigh w [d.1, d.2] + s * w (.nonTerminal R) := by
      intro w hl
      have := hw₂ w (hlight₁ hl)
      rw [hw₁] at this
      exact this
    rw [countRuleRefs_eq]
    split
    · next hfew =>
      obtain ⟨v₃, hgood₃, hext₃, hw₃⟩ := expandRule_step order he hgood₂ hbody₂ (by omega)
      refine ⟨v₃, hgood₃, hext₁₂.trans hext₃ le_rfl, fun w hl => ?_⟩
      have h₂ := htotal hl
      have h₃ := hw₃ w (hl.mono (hRlt.le.trans hext₂.next))
      rcases Nat.lt_trichotomy s 1 with hs0 | hs1 | hs2
      · -- none: the rule goes as it came
        obtain rfl : s = 0 := by omega
        obtain rfl := hzero rfl
        rw [hbody₁] at hbody₂
        cases hbody₂
        rw [if_pos (by omega)] at h₃
        dsimp only at h₃
        rw [hw₁] at h₃
        omega
      · -- one: its reference, or a body that is no lighter, goes
        subst hs1
        have hheavy : w (.nonTerminal R) ≤ weigh w body := by
          obtain ⟨x, body, rfl⟩ := List.exists_cons_of_ne_nil (hgood₂.toValued.body_ne_nil hbody₂)
          have := hl R le_rfl x
          rw [weigh_cons]
          omega
        split at h₃ <;> omega
      · have := weight_paid hs2 (hcheap hl) h₂
        omega
    · exact ⟨v₂, hgood₂, hext₁₂, fun w hl => weight_paid (by omega) (hcheap hl) (htotal hl)⟩

theorem enforceLevels_preserves (order : MapOrder) (n : Nat) :
    Sound (Builder.enforceLevels order n : Enforce α) := by
  induction n with
  | zero => exact fun b _ _ => .refl b
  | succ n ih => exact enforceStep_preserves ih

/-- The enforcement at any depth keeps what the grammar stands for and adds no weight. -/
theorem enforceDigramUniqueness_preserves (order : MapOrder) (depth : Nat) :
    Sound (Builder.enforceDigramUniqueness order depth : Enforce α) :=
  enforceLevels_preserves order _

end Mutators

end Inim.Sequitur
