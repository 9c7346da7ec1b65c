import Inim.Sequitur.Grammar

/-!
# Rewriting a grammar

The three ways the builder writes a grammar, and when each keeps a valuation that fits: a sequence
is written over with one that stands for the same, a rule nobody refers to is removed, a rule for
a digram is added. `Extends` is what such steps have in common and what their composition keeps.
-/

namespace Inim.Sequitur

variable {α : Type*} {g g' g'' : Grammar α} {v v' v'' : Nat → List α}

/-- From `g` under `v` to `g'` under `v'`: the rules below `n` are still there, all old rules
stand for what they did, and so does the start sequence. -/
structure Extends (n : Nat) (g g' : Grammar α) (v v' : Nat → List α) : Prop where
  value : ∀ r < g.nextRuleId, v' r = v r
  start : den v' g'.start = den v g.start
  rules : ∀ r < n, ∀ body, g.seq (some r) = some body → ∃ body', g'.seq (some r) = some body'
  next : g.nextRuleId ≤ g'.nextRuleId

theorem Extends.refl {n : Nat} (g : Grammar α) (v : Nat → List α) : Extends n g g v v :=
  ⟨fun _ _ => rfl, rfl, fun _ _ body h => ⟨body, h⟩, le_rfl⟩

theorem Extends.trans {n m : Nat} (h : Extends n g g' v v') (h' : Extends m g' g'' v' v'')
    (hnm : n ≤ m) : Extends n g g'' v v'' where
  value r hr := (h'.value r (hr.trans_le h.next)).trans (h.value r hr)
  start := h'.start.trans h.start
  rules r hr body hb := by
    obtain ⟨body', hb'⟩ := h.rules r hr body hb
    exact h'.rules r (hr.trans_le hnm) body' hb'
  next := h.next.trans h'.next

theorem Extends.mono {n m : Nat} (h : Extends n g g' v v') (hmn : m ≤ n) : Extends m g g' v v' :=
  { h with rules := fun r hr => h.rules r (hr.trans_le hmn) }

/-! ## Rewriting a grammar -/

namespace Valued

variable {rid : Option Nat} {s s' : List (Symbol α)}

theorem seq_lt (h : Valued g v) (hs : g.seq rid = some s) : ∀ r, rid = some r → r < g.nextRuleId := by
  rintro r rfl
  exact h.fresh r s hs

/-- A sequence may be written over with one that stands for the same. -/
theorem setSeq (h : Valued g v) (hs : g.seq rid = some s)
    (hval : ∀ r, rid = some r → den v s' = v r)
    (hrefs : ∀ r, .nonTerminal r ∈ s' → ∃ body, g.seq (some r) = some body)
    (hunit : ∀ r t, rid = some r → s' = [.nonTerminal t] → r < t) :
    Valued (g.setSeq rid s') v := by
  have hkept : ∀ {r : Nat}, (∃ body, g.seq (some r) = some body) →
      ∃ body, (g.setSeq rid s').seq (some r) = some body := by
    rintro r ⟨body, hb⟩
    rw [Grammar.seq_setSeq, Function.update_apply]
    split
    · exact ⟨s', rfl⟩
    · exact ⟨body, hb⟩
  constructor
  · intro r body hb
    rw [Grammar.seq_setSeq, Function.update_apply] at hb
    rw [Grammar.setSeq_next]
    split at hb
    · next heq => exact h.seq_lt hs r heq.symm
    · exact h.fresh r body hb
  · intro rid' t ht r hr
    rw [Grammar.seq_setSeq, Function.update_apply] at ht
    split at ht
    · cases ht
      exact hkept (hrefs r hr)
    · exact hkept (h.closed rid' t ht r hr)
  · intro r body hb
    rw [Grammar.seq_setSeq, Function.update_apply] at hb
    split at hb
    · next heq =>
      cases hb
      exact hval r heq.symm
    · exact h.value r body hb
  · intro r body hb
    rw [Grammar.seq_setSeq, Function.update_apply] at hb
    split at hb
    · next heq =>
      subst heq
      exact h.nonempty r s hs
    · exact h.nonempty r body hb
  · intro r t hb
    rw [Grammar.seq_setSeq, Function.update_apply] at hb
    split at hb
    · next heq => exact hunit r t heq.symm (Option.some.inj hb)
    · exact h.unit r t hb

theorem setSeq_extends {n : Nat} (hs : g.seq rid = some s) (hden : den v s' = den v s) :
    Extends n g (g.setSeq rid s') v v where
  value _ _ := rfl
  start := by
    cases rid with
    | none =>
      cases hs
      exact hden
    | some r => rfl
  rules r _ body hb := by
    rw [Grammar.seq_setSeq, Function.update_apply]
    split
    · exact ⟨s', rfl⟩
    · exact ⟨body, hb⟩
  next := by rw [Grammar.setSeq_next]

/-- A rule nobody refers to may be removed. -/
theorem removeRule (h : Valued g v) {R : Nat}
    (hR : ∀ rid s, g.seq rid = some s → .nonTerminal R ∉ s) : Valued (g.removeRule R) v := by
  have hold : ∀ {rid : Option Nat} {s : List (Symbol α)}, (g.removeRule R).seq rid = some s →
      g.seq rid = some s := by
    intro rid s hs
    rw [Grammar.seq_removeRule, Function.update_apply] at hs
    split at hs
    · cases hs
    · exact hs
  refine ⟨fun r body hb => h.fresh r body (hold hb), ?_, fun r body hb => h.value r body (hold hb),
    fun r body hb => h.nonempty r body (hold hb), fun r t hb => h.unit r t (hold hb)⟩
  intro rid s hs r hr
  have hne : (some r : Option Nat) ≠ some R := by
    rintro heq
    cases heq
    exact hR rid s (hold hs) hr
  obtain ⟨body, hb⟩ := h.closed rid s (hold hs) r hr
  exact ⟨body, by rw [Grammar.seq_removeRule, Function.update_of_ne hne]; exact hb⟩

theorem removeRule_extends {R : Nat} : Extends R g (g.removeRule R) v v where
  value _ _ := rfl
  start := rfl
  rules r hr body hb := by
    have hne : (some r : Option Nat) ≠ some R := by simpa using hr.ne
    exact ⟨body, by rw [Grammar.seq_removeRule, Function.update_of_ne hne]; exact hb⟩
  next := le_rfl

/-- A fresh rule for a digram of the grammar. -/
theorem addRule (h : Valued g v) {x y : Symbol α} (hs : g.seq rid = some s) (hx : x ∈ s)
    (hy : y ∈ s) :
    Valued (g.addRule [x, y]) (Function.update v g.nextRuleId (den v [x, y])) ∧
      Extends g.nextRuleId g (g.addRule [x, y]) v
        (Function.update v g.nextRuleId (den v [x, y])) := by
  have hagree : ∀ r < g.nextRuleId, Function.update v g.nextRuleId (den v [x, y]) r = v r :=
    fun r hr => Function.update_of_ne hr.ne _ _
  have hsub : ∀ t ∈ [x, y], t ∈ s := by
    intro t ht
    rcases List.mem_cons.1 ht with rfl | ht
    · exact hx
    · exact List.mem_singleton.1 ht ▸ hy
  have hbody : den (Function.update v g.nextRuleId (den v [x, y])) [x, y] = den v [x, y] :=
    den_congr fun r hr => hagree r (h.ref_lt hs (hsub _ hr))
  have hden : ∀ {rid : Option Nat} {l : List (Symbol α)}, g.seq rid = some l →
      den (Function.update v g.nextRuleId (den v [x, y])) l = den v l :=
    fun hl => den_congr fun r hr => hagree r (h.ref_lt hl hr)
  have hkept : ∀ {r : Nat} {body : List (Symbol α)}, g.seq (some r) = some body →
      (g.addRule [x, y]).seq (some r) = some body := by
    intro r body hb
    have hne : (some r : Option Nat) ≠ some g.nextRuleId := by simpa using (h.fresh r body hb).ne
    rw [Grammar.seq_addRule, Function.update_of_ne hne, hb]
  refine ⟨⟨?_, ?_, ?_, ?_, ?_⟩, ⟨hagree, hden (show g.seq none = some g.start from rfl),
    fun r _ body hb => ⟨body, hkept hb⟩,
    Nat.le_succ _⟩⟩
  · intro r body hb
    rw [Grammar.seq_addRule, Function.update_apply] at hb
    rw [Grammar.addRule_next]
    split at hb
    · next heq =>
      cases heq
      exact Nat.lt_succ_self _
    · exact (h.fresh r body hb).trans (Nat.lt_succ_self _)
  · intro rid' t ht r hr
    rw [Grammar.seq_addRule, Function.update_apply] at ht
    split at ht
    · cases ht
      obtain ⟨body, hb⟩ := h.closed rid s hs r (hsub _ hr)
      exact ⟨body, hkept hb⟩
    · obtain ⟨body, hb⟩ := h.closed rid' t ht r hr
      exact ⟨body, hkept hb⟩
  · intro r body hb
    rw [Grammar.seq_addRule, Function.update_apply] at hb
    split at hb
    · next heq =>
      cases heq
      cases hb
      rw [hbody, Function.update_self]
    · rw [hden hb, hagree r (h.fresh r body hb), h.value r body hb]
  · intro r body hb
    rw [Grammar.seq_addRule, Function.update_apply] at hb
    split at hb
    · next heq =>
      cases heq
      rw [Function.update_self, den_cons]
      exact List.append_ne_nil_of_left_ne_nil (h.symbol_nonempty hs hx) _
    · rw [hagree r (h.fresh r body hb)]
      exact h.nonempty r body hb
  · intro r t hb
    rw [Grammar.seq_addRule, Function.update_apply] at hb
    split at hb
    · cases hb
    · exact h.unit r t hb

end Valued

end Inim.Sequitur
