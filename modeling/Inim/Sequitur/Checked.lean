import Inim.Sequitur.Build

/-!
# No step of the builder panics (`sequitur/builder.rs:62-357`)

`Builder.lean` lets an access out of range change nothing. Here the builder stands once more, with
every such access a `Fault`, and runs to the same result: no fault ever happens.

| here | there |
| --- | --- |
| `Fault.noRule`     | the panics of `self.grammar.rules[&rid]` and `get_mut(&rid).unwrap()` |
| `Fault.outOfRange` | the panics of `Vec::remove` and `Vec::insert` |
| `Fault.manyRefs`   | no panic: `find_rule_ref` asked for a rule with two references, which it answers in the order of the map |
| `seqLen`, `seqRemove`, `seqInsert`, `findRuleRef` | `builder.rs:109-114`, `302-321`, `342-357` |
| the mutators, `append`, `build` | `builder.rs:43-50`, `72-103`, `158-273` |

A caller up the recursion holds a rule id and a position over the calls it makes. The id stays
valid because a call removes no rule that was there before it (`Preserves.seq`): it only ever
expands the rule it made itself. The position is read again, in the digram or in the length,
before it is used.
-/

namespace Inim.Sequitur

variable {α : Type}

inductive Fault where
  | noRule (rid : Option Nat)
  | outOfRange (rid : Option Nat) (pos : Nat)
  | manyRefs (target : Nat)
deriving DecidableEq, Repr

namespace Checked

/-- A mutator at a position. -/
abbrev Enforce (α : Type) := Builder α → Option Nat → Nat → Except Fault (Builder α)

/-! ## The accesses -/

section
variable (b : Builder α) (rid : Option Nat) (pos : Nat)

def seqLen : Except Fault Nat :=
  match b.grammar.seq rid with
  | some s => .ok s.length
  | none => .error (.noRule rid)

def seqRemove : Except Fault (Builder α) :=
  match b.grammar.seq rid with
  | some s => if pos < s.length then .ok (b.seqRemove rid pos) else .error (.outOfRange rid pos)
  | none => .error (.noRule rid)

/-- `Vec::insert` takes the length too. -/
def seqInsert (sym : Symbol α) : Except Fault (Builder α) :=
  match b.grammar.seq rid with
  | some s => if pos ≤ s.length then .ok (b.seqInsert rid pos sym) else .error (.outOfRange rid pos)
  | none => .error (.noRule rid)

def findRuleRef (order : MapOrder) (target : Nat) : Except Fault (Option Position) :=
  if b.countRuleRefs target < 2 then .ok (b.findRuleRef order target)
  else .error (.manyRefs target)

end

/-! ## The mutators -/

section Mutators
variable [DecidableEq α]

def replaceDigram (b : Builder α) (rid : Option Nat) (pos newRuleId : Nat) :
    Except Fault (Builder α) := do
  let b := if 0 < pos then b.removeDigram rid (pos - 1) else b
  let b := b.removeDigram rid pos
  let len ← seqLen b rid
  let b := if pos + 2 < len then b.removeDigram rid (pos + 1) else b
  let b ← seqRemove b rid pos
  let b ← seqRemove b rid pos
  seqInsert b rid pos (.nonTerminal newRuleId)

def substituteDigram (enforce : Enforce α) (b : Builder α) (rid : Option Nat)
    (pos newRuleId : Nat) : Except Fault (Builder α) := do
  let b ← replaceDigram b rid pos newRuleId
  let b ← (if 0 < pos then enforce (b.addDigram rid (pos - 1)) rid (pos - 1) else .ok b)
  let b := b.addDigram rid pos
  let len ← seqLen b rid
  if pos + 1 < len then enforce b rid pos else .ok b

def inlineBody (b : Builder α) (rid : Option Nat) (pos : Nat) (body : List (Symbol α)) :
    Except Fault (Builder α) := do
  let b := if 0 < pos then b.removeDigram rid (pos - 1) else b
  let b := b.removeDigram rid pos
  let b ← seqRemove b rid pos
  body.zipIdx.foldlM (fun b p => seqInsert b rid (pos + p.2) p.1) b

def recheck (enforce : Enforce α) (b : Builder α) (rid : Option Nat) (area : List Nat) :
    Except Fault (Builder α) := do
  let b ← area.foldlM (fun b i => do
    let len ← seqLen b rid
    if i + 1 < len then .ok (b.addDigram rid i) else .ok b) b
  area.foldlM (fun b i => do
    let len ← seqLen b rid
    if i + 1 < len then enforce b rid i else .ok b) b

def expandRule (order : MapOrder) (enforce : Enforce α) (b : Builder α) (ruleId : Nat) :
    Except Fault (Builder α) := do
  let refPos ← findRuleRef b order ruleId
  match b.grammar.rules ruleId with
  | none => .ok b
  | some body =>
    let b := { b with grammar := b.grammar.removeRule ruleId }
    match refPos with
    | none => .ok b
    | some (rid, pos) =>
      let b ← inlineBody b rid pos body
      let startCheck := if 0 < pos then pos - 1 else 0
      recheck enforce b rid (List.range' startCheck (pos + body.length - startCheck))

def enforceStep (order : MapOrder) (enforce : Enforce α) (b : Builder α) (rid : Option Nat)
    (pos : Nat) : Except Fault (Builder α) :=
  match b.digramAt rid pos with
  | none => .ok b
  | some d =>
    let occurrences := b.digramIndex d
    if 1 < occurrences.length then do
      let newRuleId := b.grammar.nextRuleId
      let b := { b with grammar := b.grammar.addRule [d.1, d.2] }
      let b ← occurrences.reverse.foldlM (fun b p =>
        if b.digramAt p.1 p.2 = some d then substituteDigram enforce b p.1 p.2 newRuleId
        else .ok b) b
      if b.countRuleRefs newRuleId < 2 then expandRule order enforce b newRuleId else .ok b
    else .ok b

def enforceLevels (order : MapOrder) : Nat → Enforce α
  | 0 => fun b _ _ => .ok b
  | n + 1 => enforceStep order (enforceLevels order n)

def enforceDigramUniqueness (order : MapOrder) (depth : Nat) : Enforce α :=
  enforceLevels order ((Builder.maxDepth + 2 - depth) / 2)

def expandRuleDepth (order : MapOrder) (depth : Nat) (b : Builder α) (ruleId : Nat) :
    Except Fault (Builder α) :=
  expandRule order (enforceDigramUniqueness order (depth + 1)) b ruleId

/-! ## Building -/

def append (order : MapOrder) (b : Builder α) (sym : Symbol α) : Except Fault (Builder α) :=
  let pos := b.grammar.start.length
  let b := b.push sym
  if 1 ≤ pos then enforceDigramUniqueness order 0 (b.addDigram none (pos - 1)) none (pos - 1)
  else .ok b

def appendAll (order : MapOrder) (input : List α) : Except Fault (Builder α) :=
  input.foldlM (fun b a => append order b (.terminal a)) .new

/-- The loop, `none` when `fuel` rounds do not do. -/
def enforceGlobalRuleUtility (order : MapOrder) : Nat → Builder α →
    Except Fault (Option (Builder α))
  | 0, _ => .ok none
  | fuel + 1, b =>
    match b.underused with
    | some r => do
      let b ← expandRuleDepth order 0 b r
      enforceGlobalRuleUtility order fuel b
    | none => .ok (some b)

def build (order : MapOrder) (fuel : Nat) (input : List α) : Except Fault (Option (Grammar α)) := do
  let b ← appendAll order input
  let b ← enforceGlobalRuleUtility order fuel b
  return b.map (·.grammar)

end Mutators

end Checked

/-! ## Rules outlive calls -/

variable {b b' : Builder α} {v v' : Nat → List α} {rid : Option Nat} {s : List (Symbol α)}

theorem Extends.seq {n : Nat} {g g' : Grammar α} (hext : Extends n g g' v v')
    (hn : ∀ r, rid = some r → r < n) (hs : g.seq rid = some s) : ∃ s', g'.seq rid = some s' := by
  cases rid with
  | none => exact ⟨g'.start, rfl⟩
  | some r => exact hext.rules r (hn r rfl) s hs

/-- A sequence that was there before a call is there after it. -/
theorem Preserves.seq (hp : Preserves b b') (h : Good b v) (hs : b.grammar.seq rid = some s) :
    ∃ v' s', Good b' v' ∧ b'.grammar.seq rid = some s' := by
  obtain ⟨v', hgood, hext, -⟩ := hp v h
  obtain ⟨s', hs'⟩ := hext.seq (h.toValued.seq_lt hs) hs
  exact ⟨v', s', hgood, hs'⟩

namespace Checked

/-! ## Accesses in range -/

theorem seqLen_ok (hs : b.grammar.seq rid = some s) : seqLen b rid = .ok (b.seqLen rid) := by
  simp [seqLen, Builder.seqLen, hs]

theorem seqRemove_ok {pos : Nat} (hs : b.grammar.seq rid = some s) (hpos : pos < s.length) :
    seqRemove b rid pos = .ok (b.seqRemove rid pos) := by
  simp [seqRemove, hs, hpos]

theorem seqInsert_ok {pos : Nat} (sym : Symbol α) (hs : b.grammar.seq rid = some s)
    (hpos : pos ≤ s.length) : seqInsert b rid pos sym = .ok (b.seqInsert rid pos sym) := by
  simp [seqInsert, hs, hpos]

theorem seq_modifySeq (f : List (Symbol α) → List (Symbol α)) (hs : b.grammar.seq rid = some s) :
    (b.modifySeq rid f).grammar.seq rid = some (f s) := by
  rw [modifySeq_of f hs, Grammar.seq_setSeq, Function.update_self]

theorem seq_seqRemove {pre post : List (Symbol α)} {x : Symbol α}
    (hs : b.grammar.seq rid = some (pre ++ x :: post)) :
    (b.seqRemove rid pre.length).grammar.seq rid = some (pre ++ post) := by
  rw [Builder.seqRemove, seq_modifySeq _ hs, eraseIdx_middle]

/-- A loop of steps without a fault. -/
theorem foldlM_ok {ι : Type*} {f : Builder α → ι → Except Fault (Builder α)}
    {g : Builder α → ι → Builder α} (inv : List ι → Builder α → Prop)
    (hstep : ∀ b i l, inv (i :: l) b → f b i = .ok (g b i) ∧ inv l (g b i)) (l : List ι)
    (hb : inv l b) : l.foldlM f b = .ok (l.foldl g b) ∧ inv [] (l.foldl g b) := by
  induction l generalizing b with
  | nil => exact ⟨rfl, hb⟩
  | cons i l ih =>
    obtain ⟨hi, hinv⟩ := hstep b i l hb
    rw [List.foldlM_cons, hi, List.foldl_cons]
    exact ih hinv

theorem ite_ok {c : Prop} [Decidable c] {x : Except Fault (Builder α)} {y : Builder α}
    (h : x = .ok y) : (if c then x else .ok b) = .ok (if c then y else b) := by
  split
  · exact h
  · rfl

section Mutators
variable [DecidableEq α] {order : MapOrder} {check : Enforce α} {enforce : Sequitur.Enforce α}
  {pre post body : List (Symbol α)} {x y : Symbol α} {R : Nat}

/-- The checked call does from every good state what the total one does. -/
def Simulates (check : Enforce α) (enforce : Sequitur.Enforce α) : Prop :=
  ∀ b v rid pos, Good b v → check b rid pos = .ok (enforce b rid pos)

/-! ## The rewritings -/

theorem replaceDigram_ok (R : Nat) (hs : b.grammar.seq rid = some (pre ++ x :: y :: post)) :
    replaceDigram b rid pre.length R = .ok (b.replaceDigram rid pre.length R) := by
  unfold replaceDigram Builder.replaceDigram
  dsimp only
  generalize hb₁ : (if 0 < pre.length then b.removeDigram rid (pre.length - 1) else b) = b₁
  generalize hb₂ : b₁.removeDigram rid pre.length = b₂
  have h₂ : SameGrammar b b₂ :=
    (hb₁ ▸ SameGrammar.removeDigram.ite : SameGrammar b b₁).trans (hb₂ ▸ .removeDigram)
  have hs₂ : b₂.grammar.seq rid = some (pre ++ x :: y :: post) := by rw [h₂.grammar, hs]
  rw [seqLen_ok hs₂]
  dsimp only [bind, Except.bind]
  generalize hb₃ : (if pre.length + 2 < b₂.seqLen rid then b₂.removeDigram rid (pre.length + 1)
    else b₂) = b₃
  have h₃ : SameGrammar b₂ b₃ := hb₃ ▸ SameGrammar.removeDigram.ite
  have hs₃ : b₃.grammar.seq rid = some (pre ++ x :: y :: post) := by rw [h₃.grammar, hs₂]
  have hs₄ := seq_seqRemove hs₃
  rw [seqRemove_ok hs₃ (by simp)]
  dsimp only
  rw [seqRemove_ok hs₄ (by simp)]
  exact seqInsert_ok _ (seq_seqRemove hs₄) (by simp)

theorem inlineBody_ok (hs : b.grammar.seq rid = some (pre ++ x :: post))
    (body : List (Symbol α)) :
    inlineBody b rid pre.length body = .ok (b.inlineBody rid pre.length body) := by
  unfold inlineBody Builder.inlineBody
  dsimp only
  generalize hb₁ : (if 0 < pre.length then b.removeDigram rid (pre.length - 1) else b) = b₁
  generalize hb₂ : b₁.removeDigram rid pre.length = b₂
  have h₂ : SameGrammar b b₂ :=
    (hb₁ ▸ SameGrammar.removeDigram.ite : SameGrammar b b₁).trans (hb₂ ▸ .removeDigram)
  have hs₂ : b₂.grammar.seq rid = some (pre ++ x :: post) := by rw [h₂.grammar, hs]
  rw [seqRemove_ok hs₂ (by simp)]
  dsimp only [bind, Except.bind]
  have hs₃ := seq_seqRemove hs₂
  -- the `i`-th symbol goes behind the `i` before it
  have hinsert : ∀ (todo : List (Symbol α)) (i : Nat) (b₃ : Builder α),
      (∃ s, b₃.grammar.seq rid = some s ∧ pre.length + i ≤ s.length) →
      (todo.zipIdx i).foldlM (fun b p => seqInsert b rid (pre.length + p.2) p.1) b₃ =
        .ok ((todo.zipIdx i).foldl (fun b p => b.seqInsert rid (pre.length + p.2) p.1) b₃) := by
    intro todo
    induction todo with
    | nil => exact fun _ _ _ => rfl
    | cons sym todo ih =>
      rintro i b₃ ⟨s, hs, hle⟩
      rw [List.zipIdx_cons, List.foldlM_cons, seqInsert_ok sym hs hle, List.foldl_cons]
      refine ih (i + 1) _ ⟨_, seq_modifySeq _ hs, ?_⟩
      rw [List.length_insertIdx, if_pos hle]
      omega
  exact hinsert body 0 _ ⟨_, hs₃, by simp⟩

/-! ## The mutators -/

theorem substituteDigram_ok (he : Sound enforce) (hsim : Simulates check enforce) {pos : Nat}
    {d : Symbol α × Symbol α} (h : StandsFor b v d R) (hd : b.digramAt rid pos = some d)
    (hlt : ∀ r, rid = some r → r < R) :
    substituteDigram check b rid pos R = .ok (b.substituteDigram enforce rid pos R) := by
  obtain ⟨hgood, hext, -⟩ := replaceDigram_step h.toGood hd h.rule h.stands hlt
  obtain ⟨pre, post, hs, rfl⟩ := digramAt_eq_some hd
  obtain ⟨s₁, hs₁⟩ := hext.seq (h.seq_lt hs) hs
  unfold substituteDigram Builder.substituteDigram
  rw [replaceDigram_ok R hs]
  dsimp only [bind, Except.bind]
  generalize b.replaceDigram rid pre.length R = b₁ at *
  have hpres : Preserves b₁ (b₁.addDigram rid (pre.length - 1)) := SameGrammar.addDigram.preserves
  obtain ⟨v₂, hgood₂, -⟩ := hpres v hgood
  rw [ite_ok (hsim _ v₂ rid (pre.length - 1) hgood₂)]
  dsimp only
  -- the rule of the position is still there after the first call
  generalize hb₃ : (if 0 < pre.length then
    enforce (b₁.addDigram rid (pre.length - 1)) rid (pre.length - 1) else b₁) = b₃
  have hpres₃ : Preserves b₁ (b₃.addDigram rid pre.length) :=
    (hb₃ ▸ (hpres.trans (he _ _ _)).ite : Preserves b₁ b₃).trans SameGrammar.addDigram.preserves
  obtain ⟨v₄, s₄, hgood₄, hs₄⟩ := hpres₃.seq hgood hs₁
  rw [seqLen_ok hs₄]
  exact ite_ok (hsim _ v₄ rid pre.length hgood₄)

theorem recheck_ok (he : Sound enforce) (hsim : Simulates check enforce) (h : Good b v)
    (hs : b.grammar.seq rid = some s) (area : List Nat) :
    recheck check b rid area = .ok (b.recheck enforce rid area) := by
  unfold recheck Builder.recheck
  obtain ⟨hadd, v₁, s₁, hgood₁, hs₁⟩ := foldlM_ok (b := b)
    (f := fun b i => do
      let len ← seqLen b rid
      if i + 1 < len then .ok (b.addDigram rid i) else .ok b)
    (g := fun b i => if i + 1 < b.seqLen rid then b.addDigram rid i else b)
    (fun _ b => ∃ v s, Good b v ∧ b.grammar.seq rid = some s)
    (fun b i _ ⟨v, s, hgood, hs⟩ => ⟨by rw [seqLen_ok hs]; exact ite_ok rfl,
      (SameGrammar.addDigram.preserves.ite).seq hgood hs⟩) area ⟨v, s, h, hs⟩
  rw [hadd]
  exact (foldlM_ok (fun _ b => ∃ v s, Good b v ∧ b.grammar.seq rid = some s)
    (fun b i _ ⟨v, s, hgood, hs⟩ => ⟨by rw [seqLen_ok hs]; exact ite_ok (hsim b v rid i hgood),
      (he b rid i).ite.seq hgood hs⟩) area ⟨v₁, s₁, hgood₁, hs₁⟩).1

variable (order) in
theorem expandRule_ok (he : Sound enforce) (hsim : Simulates check enforce) (h : Good b v)
    (hbody : b.grammar.seq (some R) = some body) (hrefs : b.countRuleRefs R < 2) :
    expandRule order check b R = .ok (b.expandRule order enforce R) := by
  have hrules : b.grammar.rules R = some body := hbody
  unfold expandRule Builder.expandRule findRuleRef
  rw [if_pos hrefs]
  dsimp only [bind, Except.bind]
  cases hfind : b.findRuleRef order R with
  | none => simp only [hrules]
  | some p =>
    obtain ⟨rid, pos⟩ := p
    simp only [hrules]
    obtain ⟨pre, post, hs, rfl⟩ := findRuleRef_some hfind
    rw [countRuleRefs_eq] at hrefs
    obtain ⟨hne, hs'⟩ := seq_removeRule_of_ref h hbody hs
    rw [inlineBody_ok (b := { b with grammar := b.grammar.removeRule R }) hs']
    generalize hb₁ : Builder.inlineBody { b with grammar := b.grammar.removeRule R } rid pre.length
      body = b₁
    obtain ⟨hgood, -, -⟩ := inlineBody_step h hbody (by omega) hs hb₁
    obtain ⟨s₁, hs₁⟩ : ∃ s₁, b₁.grammar.seq rid = some s₁ := by
      have hwrites := inlineBody_writes (b := { b with grammar := b.grammar.removeRule R }) hs' body
      rw [← hb₁, hwrites.1, Grammar.seq_setSeq, Function.update_self]
      exact ⟨_, rfl⟩
    exact recheck_ok he hsim hgood hs₁ _

theorem enforceStep_ok (he : Sound enforce) (hsim : Simulates check enforce) :
    Simulates (enforceStep order check) (Builder.enforceStep order enforce) := by
  intro b v rid pos h
  unfold enforceStep Builder.enforceStep
  cases hd : b.digramAt rid pos with
  | none => rfl
  | some d =>
    dsimp only
    split
    swap
    · rfl
    obtain ⟨hstands, -, -⟩ := standsFor_addRule h hd
    have hstep : ∀ (b' : Builder α) (p : Position) (l : List Position),
        ((∀ q ∈ p :: l, ∀ r, q.1 = some r → r < b.grammar.nextRuleId) ∧
          ∃ v, StandsFor b' v d b.grammar.nextRuleId) →
        (if b'.digramAt p.1 p.2 = some d then
            substituteDigram check b' p.1 p.2 b.grammar.nextRuleId else .ok b') =
          .ok (if b'.digramAt p.1 p.2 = some d then
            b'.substituteDigram enforce p.1 p.2 b.grammar.nextRuleId else b') ∧
        (∀ q ∈ l, ∀ r, q.1 = some r → r < b.grammar.nextRuleId) ∧
          ∃ v, StandsFor (if b'.digramAt p.1 p.2 = some d then
            b'.substituteDigram enforce p.1 p.2 b.grammar.nextRuleId else b') v d
              b.grammar.nextRuleId := by
      rintro b' p l ⟨hocc, v', h'⟩
      have hocc' := fun q hq => hocc q (List.mem_cons_of_mem p hq)
      by_cases hmatch : b'.digramAt p.1 p.2 = some d
      · have hlt := hocc p List.mem_cons_self
        obtain ⟨v'', hgood, hext, -⟩ :=
          substituteDigram_step he h'.toGood hmatch h'.rule h'.stands hlt
        simp only [if_pos hmatch]
        exact ⟨substituteDigram_ok he hsim h' hmatch hlt, hocc', v'', h'.of_extends hgood hext⟩
      · simp only [if_neg hmatch]
        exact ⟨trivial, hocc', v', h'⟩
    obtain ⟨hloop, -, v₁, hstands₁⟩ := foldlM_ok
      (fun l b' => (∀ p ∈ l, ∀ r, p.1 = some r → r < b.grammar.nextRuleId) ∧
        ∃ v, StandsFor b' v d b.grammar.nextRuleId) hstep (b.digramIndex d).reverse
      ⟨fun p hp => h.index d p (List.mem_reverse.1 hp), _, hstands⟩
    rw [hloop]
    dsimp only [bind, Except.bind]
    split
    · next hfew =>
      obtain ⟨body, hbody⟩ := hstands₁.rule
      exact expandRule_ok order he hsim hstands₁.toGood hbody hfew
    · rfl

theorem enforceDigramUniqueness_ok (order : MapOrder) (depth : Nat) :
    Simulates (enforceDigramUniqueness order depth : Enforce α)
      (Builder.enforceDigramUniqueness order depth) := by
  have hlevels : ∀ n, Simulates (enforceLevels order n : Enforce α)
      (Builder.enforceLevels order n) := by
    intro n
    induction n with
    | zero => exact fun _ _ _ _ _ => rfl
    | succ n ih => exact enforceStep_ok (enforceLevels_preserves order n) ih
  exact hlevels _

/-! ## Building -/

variable {word : List α}

theorem append_ok (order : MapOrder) (h : Consistent b word) (a : α) :
    append order b (.terminal a) = .ok (b.append order (.terminal a)) := by
  obtain ⟨⟨v, hgood, -⟩, -⟩ := h.push a
  have hsame : SameGrammar (b.push (.terminal a))
      ((b.push (.terminal a)).addDigram none (b.grammar.start.length - 1)) := .addDigram
  obtain ⟨v', hgood', -⟩ := hsame.preserves v hgood
  exact ite_ok (enforceDigramUniqueness_ok order 0 _ v' _ _ hgood')

theorem appendAll_ok (order : MapOrder) (input : List α) :
    appendAll order input = .ok (.appendAll order input) := by
  induction input using List.reverseRecOn with
  | nil => rfl
  | append_singleton input a ih =>
    unfold appendAll Builder.appendAll at *
    rw [List.foldlM_append, ih, List.foldl_append]
    have hstep := append_ok order (appendAll_consistent order input).1 a
    simp only [bind, Except.bind, List.foldlM_cons, List.foldlM_nil, List.foldl_cons,
      List.foldl_nil]
    rw [show input.foldl (fun b a => b.append order (.terminal a)) .new =
      Builder.appendAll order input from rfl, hstep]
    rfl

theorem enforceGlobalRuleUtility_ok (fuel : Nat) (h : Consistent b word) :
    enforceGlobalRuleUtility order fuel b = .ok (b.enforceGlobalRuleUtility order fuel) := by
  induction fuel generalizing b with
  | zero => rfl
  | succ fuel ih =>
    rw [enforceGlobalRuleUtility, Builder.enforceGlobalRuleUtility, Builder.utilityRound]
    cases hr : b.underused with
    | none => rfl
    | some r =>
      obtain ⟨hsome, hfew⟩ := underused_spec hr
      obtain ⟨v, hgood, -⟩ := id h
      obtain ⟨body, hbody⟩ := Option.isSome_iff_exists.1 hsome
      have hexpand : expandRuleDepth order 0 b r = .ok (b.expandRuleDepth order 0 r) :=
        expandRule_ok order (enforceDigramUniqueness_preserves order 1)
          (enforceDigramUniqueness_ok order 1) hgood hbody hfew
      simp only [hexpand, Option.map_some, bind, Except.bind]
      exact ih (h.expandRule 0 hsome hfew).1

end Mutators

end Checked

/-- The checked builder meets no fault: every rule id and every position it uses is there, and a
rule is looked for only while it has at most one reference. It returns one grammar, whatever the
order of the map. -/
theorem build_checked [DecidableEq α] (input : List α) :
    (∀ order fuel, Checked.build order fuel input = .ok (build order fuel input)) ∧
      ∃ g, ∀ order fuel, input.length < fuel → Checked.build order fuel input = .ok (some g) := by
  have hok : ∀ order fuel, Checked.build order fuel input = .ok (build order fuel input) := by
    intro order fuel
    unfold Checked.build build
    rw [Checked.appendAll_ok]
    simp only [bind, Except.bind]
    rw [Checked.enforceGlobalRuleUtility_ok fuel (appendAll_consistent order input).1]
    rfl
  refine ⟨hok, ?_⟩
  obtain ⟨b, hb, -⟩ := build_eq .sorted input
  exact ⟨b.grammar, fun order fuel hfuel => by
    rw [hok, build_order order .sorted, hb fuel hfuel]⟩

end Inim.Sequitur
