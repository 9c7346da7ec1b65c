import Inim.Sequitur.Mutators
import Mathlib.Algebra.Order.BigOperators.Group.List

/-!
# Building a grammar

A builder is `Consistent` with a word if some valuation fits its grammar, gives its start sequence
the word, and its index knows no rule yet to come. The empty builder is consistent with the empty
word, an `append` consumes a symbol, and every mutator keeps the word. From that the theorems
about `build`, for every order of the hash map and every input:

* `build_expand`: the grammar expands to the input, no rule is reached from itself and no
  reference dangles, after every append and every round of the cleanup, and in the result;
* `build_ruleUtility`: the cleanup ends, because every round makes the grammar smaller, and then
  every rule has two references;
* `build_order`: the order of the hash map makes no difference.
-/

namespace Inim.Sequitur

variable {α : Type*} [DecidableEq α] {order : MapOrder} {b b' : Builder α} {v : Nat → List α}
  {word : List α}

def Consistent (b : Builder α) (word : List α) : Prop :=
  ∃ v, Good b v ∧ den v b.grammar.start = word

/-- The grammar expands to the word, with neither of the two fallbacks of `expand`. -/
structure Spells (g : Grammar α) (word : List α) : Prop where
  expand : g.expand = word
  acyclic : Acyclic g
  noDangling : NoDangling g

omit [DecidableEq α] in
theorem Consistent.spells (h : Consistent b word) : Spells b.grammar word := by
  obtain ⟨v, hgood, rfl⟩ := h
  exact ⟨hgood.expand_eq, hgood.acyclic, hgood.noDangling⟩

omit [DecidableEq α] in
theorem Consistent.of_preserves (h : Consistent b word) (hp : Preserves b b') :
    Consistent b' word := by
  obtain ⟨v, hgood, rfl⟩ := h
  obtain ⟨v', hgood', hext, -⟩ := hp v hgood
  exact ⟨v', hgood', hext.start⟩

/-! ## The mutators keep the word -/

theorem Consistent.enforce (h : Consistent b word) (depth : Nat) (rid : Option Nat) (pos : Nat) :
    Consistent (b.enforceDigramUniqueness order depth rid pos) word :=
  h.of_preserves (enforceDigramUniqueness_preserves order depth b rid pos)

/-- The digram of a position may be replaced by a later rule that expands to the same. -/
theorem Consistent.substitute (h : Consistent b word) (depth : Nat) {rid : Option Nat}
    {pos R : Nat} {d : Symbol α × Symbol α} (hd : b.digramAt rid pos = some d)
    (hR : (b.grammar.rules R).isSome = true) (hlt : ∀ r, rid = some r → r < R)
    (hsame : b.grammar.expandSeq [] [.nonTerminal R] = b.grammar.expandSeq [] [d.1, d.2]) :
    Consistent (b.substituteDigramDepth order depth rid pos R) word := by
  obtain ⟨v, hgood, rfl⟩ := h
  obtain ⟨body, hbody⟩ := Option.isSome_iff_exists.1 hR
  obtain ⟨pre, post, hs, -⟩ := digramAt_eq_some hd
  have hclosed : ∀ r, .nonTerminal r ∈ [d.1, d.2] → ∃ body, b.grammar.seq (some r) = some body := by
    intro r hr
    refine hgood.closed rid _ hs r ?_
    rcases List.mem_cons.1 hr with heq | hr
    · simp [heq]
    · simp [List.mem_singleton.1 hr]
  have hval : v R = den v [d.1, d.2] := by
    rw [hgood.expandSeq_eq [] [d.1, d.2] hclosed (by simp),
      hgood.expandSeq_eq [] [.nonTerminal R] (by
        intro r hr
        cases List.mem_singleton.1 hr
        exact ⟨body, hbody⟩) (by simp)] at hsame
    simpa [Symbol.value] using hsame
  obtain ⟨v', hgood', hext, -⟩ := substituteDigram_step
    (enforceDigramUniqueness_preserves order (depth + 1)) hgood hd ⟨body, hbody⟩ hval hlt
  exact ⟨v', hgood', hext.start⟩

/-- The expansion of a rule with fewer than two references: it keeps the word and makes the
grammar smaller. -/
theorem Consistent.expandRule (h : Consistent b word) (depth : Nat) {R : Nat}
    (hR : (b.grammar.rules R).isSome = true) (hrefs : b.countRuleRefs R < 2) :
    Consistent (b.expandRuleDepth order depth R) word ∧
      size (b.expandRuleDepth order depth R).grammar < size b.grammar := by
  obtain ⟨v, hgood, rfl⟩ := h
  obtain ⟨body, hbody⟩ := Option.isSome_iff_exists.1 hR
  rw [countRuleRefs_eq] at hrefs
  obtain ⟨v', hgood', hext, hw⟩ := expandRule_step order
    (enforceDigramUniqueness_preserves order (depth + 1)) hgood hbody (by omega)
  refine ⟨⟨v', hgood', hext.start⟩, ?_⟩
  have hsize := hw (fun _ => 1) (light_one _)
  have hbodyPos : 0 < weigh (fun _ => 1) body := by
    obtain ⟨x, body, rfl⟩ := List.exists_cons_of_ne_nil (hgood.toValued.body_ne_nil hbody)
    rw [weigh_cons]
    omega
  unfold size Builder.expandRuleDepth
  split at hsize <;> omega

/-! ## Appending -/

omit [DecidableEq α] in
theorem consistent_new : Consistent (.new : Builder α) [] := by
  refine ⟨fun _ => [], ⟨.new _, ?_⟩, rfl⟩
  intro d p hp
  cases hp

omit [DecidableEq α] in
/-- The symbol pushed, before any enforcement. -/
theorem Consistent.push (h : Consistent b word) (a : α) :
    Consistent (b.push (.terminal a)) (word ++ [a]) ∧
      size (b.push (.terminal a)).grammar = size b.grammar + 1 := by
  obtain ⟨v, hgood, rfl⟩ := h
  have hstart : b.grammar.seq none = some b.grammar.start := rfl
  refine ⟨⟨v, ⟨hgood.toValued.setSeq hstart (fun r hr => by cases hr) ?_ (fun r t hr => by cases hr),
    hgood.index⟩, ?_⟩, ?_⟩
  · intro r hr
    rcases List.mem_append.1 hr with hr | hr
    · exact hgood.closed none _ hstart r hr
    · cases List.mem_singleton.1 hr
  · simp [Builder.push, Grammar.setSeq, Symbol.value]
  · have := weight_setSeq (fun _ => 1) hstart (fun r hr => by cases hr)
      (b.grammar.start ++ [.terminal a])
    simp only [weigh_append, weigh_cons, weigh_nil] at this
    simp only [size, Builder.push]
    omega

variable (order) in
theorem Consistent.append (h : Consistent b word) (a : α) :
    Consistent (b.append order (.terminal a)) (word ++ [a]) ∧
      size (b.append order (.terminal a)).grammar ≤ size b.grammar + 1 := by
  obtain ⟨hpush, hsize⟩ := h.push a
  unfold Builder.append
  dsimp only
  split
  · have hpres : Preserves (b.push (.terminal a)) (((b.push (.terminal a)).addDigram none
        (b.grammar.start.length - 1)).enforceDigramUniqueness order 0 none
          (b.grammar.start.length - 1)) :=
      SameGrammar.addDigram.preserves.trans (enforceDigramUniqueness_preserves order 0 _ _ _)
    refine ⟨hpush.of_preserves hpres, ?_⟩
    obtain ⟨v, hgood, -⟩ := hpush
    obtain ⟨-, -, -, hw⟩ := hpres v hgood
    exact (hw _ (light_one _)).trans hsize.le
  · exact ⟨hpush, hsize.le⟩

theorem appendAll_consistent (order : MapOrder) (input : List α) :
    Consistent (.appendAll order input) input ∧
      size (Builder.appendAll order input).grammar ≤ input.length := by
  induction input using List.reverseRecOn with
  | nil => exact ⟨consistent_new, le_rfl⟩
  | append_singleton input a ih =>
    have hstep := ih.1.append order a
    rw [Builder.appendAll, List.foldl_append, List.length_append]
    exact ⟨hstep.1, hstep.2.trans (Nat.add_le_add_right ih.2 1)⟩

/-! ## The cleanup -/

omit [DecidableEq α] in
theorem underused_spec {r : Nat} (h : b.underused = some r) :
    (b.grammar.rules r).isSome = true ∧ b.countRuleRefs r < 2 :=
  ⟨(Grammar.mem_ruleIds.1 (List.mem_of_find?_eq_some h)).2, by simpa using List.find?_some h⟩

/-- A round keeps the word, and makes the grammar smaller. -/
theorem Consistent.round (h : Consistent b word) (hround : b.utilityRound order = some b') :
    Consistent b' word ∧ size b'.grammar < size b.grammar := by
  obtain ⟨r, hr, rfl⟩ := Option.map_eq_some_iff.1 hround
  obtain ⟨hsome, hfew⟩ := underused_spec hr
  exact h.expandRule 0 hsome hfew

/-- `b'` is reached from `b` by rounds of the cleanup. -/
def Rounds (order : MapOrder) : Builder α → Builder α → Prop :=
  Relation.ReflTransGen fun b b' => b.utilityRound order = some b'

theorem Consistent.rounds (h : Consistent b word) (hr : Rounds order b b') : Consistent b' word := by
  induction hr with
  | refl => exact h
  | tail _ hround ih => exact (ih.round hround).1

variable (order) in
/-- With more fuel than symbols the loop is left, where no rule is underused. -/
theorem enforceGlobalRuleUtility_ends (h : Consistent b word) :
    ∃ b', (∀ fuel, size b.grammar < fuel → b.enforceGlobalRuleUtility order fuel = some b') ∧
      Rounds order b b' ∧ b'.underused = none := by
  induction hn : size b.grammar using Nat.strong_induction_on generalizing b with
  | _ n ih =>
    subst hn
    cases hround : b.utilityRound order with
    | none =>
      refine ⟨b, fun fuel hfuel => ?_, .refl, Option.map_eq_none_iff.1 hround⟩
      obtain ⟨fuel, rfl⟩ := Nat.exists_eq_add_of_lt hfuel
      rw [Builder.enforceGlobalRuleUtility, hround]
    | some b₁ =>
      obtain ⟨hcons, hsize⟩ := h.round hround
      obtain ⟨b', hb', hrounds, hnone⟩ := ih _ hsize hcons rfl
      refine ⟨b', fun fuel hfuel => ?_, .head hround hrounds, hnone⟩
      obtain ⟨k, rfl⟩ := Nat.exists_eq_add_of_lt hfuel
      rw [Builder.enforceGlobalRuleUtility, hround]
      exact hb' _ (by omega)

/-- One result for all fuels that do. -/
theorem build_eq (order : MapOrder) (input : List α) :
    ∃ b : Builder α, (∀ fuel, input.length < fuel → build order fuel input = some b.grammar) ∧
      Rounds order (.appendAll order input) b ∧ b.underused = none := by
  obtain ⟨hcons, hsize⟩ := appendAll_consistent order input
  obtain ⟨b, hb, hrounds, hnone⟩ := enforceGlobalRuleUtility_ends order hcons
  refine ⟨b, fun fuel hfuel => ?_, hrounds, hnone⟩
  rw [build, hb fuel (hsize.trans_lt hfuel)]
  rfl

/-! ## The two theorems -/

/-- The grammar spells the prefix consumed so far after every append, the input after every
round of the cleanup and in the result; and every mutator keeps the word a builder is consistent
with, at any depth and so also in the midst of another one. -/
theorem build_expand (order : MapOrder) (input : List α) :
    (∀ pre post, input = pre ++ post → Spells (Builder.appendAll order pre).grammar pre) ∧
      (∀ b, Rounds order (.appendAll order input) b → Spells b.grammar input) ∧
      (∃ g, (∀ fuel, input.length < fuel → build order fuel input = some g) ∧ Spells g input) ∧
      ∀ (b : Builder α) (word : List α), Consistent b word → Spells b.grammar word ∧
        ∀ depth,
          (∀ rid pos, Consistent (b.enforceDigramUniqueness order depth rid pos) word) ∧
          (∀ rid pos R d, b.digramAt rid pos = some d → (b.grammar.rules R).isSome = true →
            (∀ r, rid = some r → r < R) →
            b.grammar.expandSeq [] [.nonTerminal R] = b.grammar.expandSeq [] [d.1, d.2] →
            Consistent (b.substituteDigramDepth order depth rid pos R) word) ∧
          ∀ R, (b.grammar.rules R).isSome = true → b.countRuleRefs R < 2 →
            Consistent (b.expandRuleDepth order depth R) word := by
  have hall := appendAll_consistent order input
  refine ⟨fun pre _ _ => (appendAll_consistent order pre).1.spells,
    fun b hb => (hall.1.rounds hb).spells, ?_, fun b word h => ⟨h.spells, fun depth => ?_⟩⟩
  · obtain ⟨b, hb, hrounds, -⟩ := build_eq order input
    exact ⟨b.grammar, hb, (hall.1.rounds hrounds).spells⟩
  · exact ⟨fun rid pos => h.enforce depth rid pos,
      fun rid pos R d hd hR hlt hsame => h.substitute depth hd hR hlt hsame,
      fun R hR hfew => (h.expandRule depth hR hfew).1⟩

/-- The cleanup ends, for every round makes the grammar smaller, and in the result every rule is
referred to twice. -/
theorem build_ruleUtility (order : MapOrder) (input : List α) :
    (∀ b b', Rounds order (.appendAll order input) b → b.utilityRound order = some b' →
        size b'.grammar < size b.grammar) ∧
      ∃ b : Builder α, (∀ fuel, input.length < fuel → build order fuel input = some b.grammar) ∧
        ∀ r ∈ b.grammar.ruleIds, 2 ≤ b.countRuleRefs r := by
  obtain ⟨hcons, -⟩ := appendAll_consistent order input
  refine ⟨fun b b' hb hround => ((hcons.rounds hb).round hround).2, ?_⟩
  obtain ⟨b, hb, -, hnone⟩ := build_eq order input
  refine ⟨b, hb, fun r hr => ?_⟩
  have := List.find?_eq_none.1 hnone r hr
  simpa [Nat.succ_le_iff] using this

/-! ## The order of the map -/

/-- Where the search has at most one answer it does not matter in which order it looks. -/
theorem findSome?_eq_of_perm {ι β : Type*} {f : ι → Option β} {l l' : List ι} (h : l.Perm l')
    (huniq : ∀ i ∈ l, ∀ j ∈ l, (f i).isSome = true → (f j).isSome = true → i = j) :
    l.findSome? f = l'.findSome? f := by
  cases hl : l.findSome? f with
  | none =>
    rw [eq_comm, List.findSome?_eq_none_iff]
    exact fun i hi => List.findSome?_eq_none_iff.1 hl i (h.mem_iff.2 hi)
  | some y =>
    obtain ⟨i, hi, hy⟩ := List.exists_of_findSome?_eq_some hl
    cases hl' : l'.findSome? f with
    | none =>
      rw [List.findSome?_eq_none_iff.1 hl' i (h.mem_iff.1 hi)] at hy
      cases hy
    | some z =>
      obtain ⟨j, hj, hz⟩ := List.exists_of_findSome?_eq_some hl'
      obtain rfl := huniq i hi j (h.mem_iff.2 hj) (by simp [hy]) (by simp [hz])
      rw [← hy, ← hz]

namespace Builder

omit [DecidableEq α] in
/-- A rule with a single reference is found wherever the map puts it. -/
theorem findRuleRef_order (order order' : MapOrder) {target : Nat} (h : b.countRuleRefs target < 2) :
    b.findRuleRef order target = b.findRuleRef order' target := by
  unfold findRuleRef
  split
  · rfl
  · refine findSome?_eq_of_perm ((order.perm _).trans (order'.perm _).symm) ?_
    have hone : ∀ r, (((((b.grammar.rules r).getD []).findIdx? (Symbol.refersTo target)).map
        fun pos => (some r, pos)) : Option Position).isSome = true →
        0 < ((b.grammar.rules r).getD []).countP (Symbol.refersTo target) := by
      intro r hr
      rw [Option.isSome_map, List.findIdx?_isSome, List.any_eq_true] at hr
      exact List.countP_pos_iff.2 hr
    intro r hr s hs hfr hfs
    by_contra hne
    have hr := (order.perm _).mem_iff.1 hr
    have hs := (order.perm _).mem_iff.1 hs
    have hsum := List.sum_map_erase
      (fun r => ((b.grammar.rules r).getD []).countP (Symbol.refersTo target)) hr
    have hrest := List.single_le_sum (fun _ _ => Nat.zero_le _) _ (List.mem_map_of_mem
      (f := fun r => ((b.grammar.rules r).getD []).countP (Symbol.refersTo target))
      ((List.mem_erase_of_ne (Ne.symm hne)).2 hs))
    have hpos := hone r hfr
    have hpos' := hone s hfs
    unfold countRuleRefs at h
    omega

theorem expandRule_order (order order' : MapOrder) (enforce : Enforce α) {ruleId : Nat}
    (h : b.countRuleRefs ruleId < 2) :
    b.expandRule order enforce ruleId = b.expandRule order' enforce ruleId := by
  unfold expandRule
  rw [findRuleRef_order order order' h]

theorem enforceStep_order (order order' : MapOrder) (enforce : Enforce α) :
    enforceStep order enforce = enforceStep order' enforce := by
  funext b rid pos
  unfold enforceStep
  cases b.digramAt rid pos with
  | none => rfl
  | some d =>
    dsimp only
    split
    · split
      · next hfew => exact expandRule_order order order' enforce hfew
      · rfl
    · rfl

theorem enforceDigramUniqueness_order (order order' : MapOrder) (depth : Nat) :
    enforceDigramUniqueness (α := α) order depth = enforceDigramUniqueness order' depth := by
  have hlevels : ∀ n, enforceLevels (α := α) order n = enforceLevels order' n := by
    intro n
    induction n with
    | zero => rfl
    | succ n ih => rw [enforceLevels, enforceLevels, ih, enforceStep_order order order']
  exact hlevels _

theorem appendAll_order (order order' : MapOrder) (input : List α) :
    appendAll order input = appendAll order' input := by
  have happend : ∀ (b : Builder α) (sym : Symbol α), b.append order sym = b.append order' sym := by
    intro b sym
    unfold append
    rw [enforceDigramUniqueness_order order order']
  unfold appendAll
  simp only [happend]

theorem expandRuleDepth_order (order order' : MapOrder) (depth : Nat) {ruleId : Nat}
    (h : b.countRuleRefs ruleId < 2) :
    b.expandRuleDepth order depth ruleId = b.expandRuleDepth order' depth ruleId := by
  have henforce := enforceDigramUniqueness_order (α := α) order order' (depth + 1)
  unfold expandRuleDepth
  rw [henforce]
  exact expandRule_order order order' _ h

theorem utilityRound_order (order order' : MapOrder) (b : Builder α) :
    b.utilityRound order = b.utilityRound order' := by
  unfold utilityRound
  cases hr : b.underused with
  | none => rw [Option.map_none, Option.map_none]
  | some r =>
    have hsame := expandRuleDepth_order order order' 0 (underused_spec hr).2
    rw [Option.map_some, Option.map_some, hsame]

theorem enforceGlobalRuleUtility_order (order order' : MapOrder) (fuel : Nat) (b : Builder α) :
    b.enforceGlobalRuleUtility order fuel = b.enforceGlobalRuleUtility order' fuel := by
  induction fuel generalizing b with
  | zero => rfl
  | succ fuel ih =>
    rw [enforceGlobalRuleUtility, enforceGlobalRuleUtility, utilityRound_order order order']
    split
    · exact ih _
    · rfl

end Builder

/-- **The grammar does not depend on the order of the map**: a rule is only looked for when it has
at most one reference. -/
theorem build_order (order order' : MapOrder) (fuel : Nat) (input : List α) :
    build order fuel input = build order' fuel input := by
  rw [build, build, Builder.enforceGlobalRuleUtility_order order order',
    Builder.appendAll_order order order']

end Inim.Sequitur
