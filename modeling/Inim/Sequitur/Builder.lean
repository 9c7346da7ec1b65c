import Inim.Sequitur.Grammar

/-!
# The builder (`sequitur/builder.rs`)

| here | there |
| --- | --- |
| `Position`, `Builder`             | `builder.rs:38-60`; the index is a function, an absent digram has no positions |
| `digramAt`, `seqLen`, `addDigram`, `removeDigram`, `seqRemove`, `seqInsert` | `builder.rs:107-148`, `302-321` |
| `countRuleRefs`, `findRuleRef`    | `builder.rs:325-357` |
| `enforceStep`, `enforceDigramUniqueness` | `builder.rs:153-200` |
| `substituteDigram`, `expandRule`, and with their depth `substituteDigramDepth`, `expandRuleDepth` | `builder.rs:203-273` |
| `append`, `utilityRound`, `enforceGlobalRuleUtility`, `build` | `builder.rs:42-103` |

The three mutators call each other. Here `substituteDigram` and `expandRule` take the enforcement
they call as an argument, and `enforceLevels` ties the knot: every call through one of them is
two levels deeper, so a call at `depth` has `(MAX_DEPTH + 2 - depth) / 2` levels left, the last
of which return at once. `enforceDigramUniqueness_eq` is the recursion as the source has it.

`find_rule_ref` walks the rules in the order of a hash map. `MapOrder` is any such order. A rule
or an index out of range, where the source would panic, changes nothing here; the rule ids of
the index are always in range when they are used (`Good` and `Extends` in `Mutators`).
-/

namespace Inim.Sequitur

variable {α : Type*} [DecidableEq α]

/-- Some order of a map's keys. -/
structure MapOrder where
  list : List Nat → List Nat
  perm : ∀ l, (list l).Perm l

def MapOrder.sorted : MapOrder := ⟨id, .refl⟩

abbrev Position := Option Nat × Nat

structure Builder (α : Type*) where
  grammar : Grammar α
  digramIndex : Symbol α × Symbol α → List Position

/-- A mutator at a position. -/
abbrev Enforce (α : Type*) := Builder α → Option Nat → Nat → Builder α

namespace Builder

def new : Builder α := ⟨.new, fun _ => []⟩

section
variable (b : Builder α) (rid : Option Nat) (pos : Nat)

omit [DecidableEq α] in
def seqLen : Nat := ((b.grammar.seq rid).getD []).length

def digramAt : Option (Symbol α × Symbol α) := do
  let s ← b.grammar.seq rid
  let x ← s[pos]?
  let y ← s[pos + 1]?
  return (x, y)

def addDigram : Builder α :=
  match b.digramAt rid pos with
  | some d => { b with
      digramIndex := Function.update b.digramIndex d (b.digramIndex d ++ [(rid, pos)]) }
  | none => b

def removeDigram : Builder α :=
  match b.digramAt rid pos with
  | some d => { b with
      digramIndex := Function.update b.digramIndex d
        ((b.digramIndex d).filter fun p => decide (p ≠ (rid, pos))) }
  | none => b

def modifySeq (f : List (Symbol α) → List (Symbol α)) : Builder α :=
  match b.grammar.seq rid with
  | some s => { b with grammar := b.grammar.setSeq rid (f s) }
  | none => b

def seqRemove : Builder α := b.modifySeq rid fun s => s.eraseIdx pos

def seqInsert (sym : Symbol α) : Builder α := b.modifySeq rid fun s => s.insertIdx pos sym

end

/-! ## References -/

def countRuleRefs (b : Builder α) (target : Nat) : Nat :=
  b.grammar.start.countP (Symbol.refersTo target) +
    (b.grammar.ruleIds.map fun r =>
      ((b.grammar.rules r).getD []).countP (Symbol.refersTo target)).sum

def findRuleRef (order : MapOrder) (b : Builder α) (target : Nat) : Option Position :=
  match b.grammar.start.findIdx? (Symbol.refersTo target) with
  | some pos => some (none, pos)
  | none => (order.list b.grammar.ruleIds).findSome? fun r =>
      (((b.grammar.rules r).getD []).findIdx? (Symbol.refersTo target)).map fun pos => (some r, pos)

/-! ## The mutators -/

/-- The index forgets the digrams around `pos`, and the two symbols there become one. -/
def replaceDigram (b : Builder α) (rid : Option Nat) (pos newRuleId : Nat) : Builder α :=
  let b := if 0 < pos then b.removeDigram rid (pos - 1) else b
  let b := b.removeDigram rid pos
  let b := if pos + 2 < b.seqLen rid then b.removeDigram rid (pos + 1) else b
  ((b.seqRemove rid pos).seqRemove rid pos).seqInsert rid pos (.nonTerminal newRuleId)

def substituteDigram (enforce : Enforce α) (b : Builder α) (rid : Option Nat)
    (pos newRuleId : Nat) : Builder α :=
  let b := b.replaceDigram rid pos newRuleId
  let b := if 0 < pos then enforce (b.addDigram rid (pos - 1)) rid (pos - 1) else b
  let b := b.addDigram rid pos
  if pos + 1 < b.seqLen rid then enforce b rid pos else b

/-- The body of a removed rule takes the place of the reference at `pos`. -/
def inlineBody (b : Builder α) (rid : Option Nat) (pos : Nat) (body : List (Symbol α)) :
    Builder α :=
  let b := if 0 < pos then b.removeDigram rid (pos - 1) else b
  let b := b.removeDigram rid pos
  let b := b.seqRemove rid pos
  body.zipIdx.foldl (fun b p => b.seqInsert rid (pos + p.2) p.1) b

/-- The digrams of an area are indexed, then enforced. -/
def recheck (enforce : Enforce α) (b : Builder α) (rid : Option Nat) (area : List Nat) :
    Builder α :=
  let b := area.foldl (fun b i => if i + 1 < b.seqLen rid then b.addDigram rid i else b) b
  area.foldl (fun b i => if i + 1 < b.seqLen rid then enforce b rid i else b) b

def expandRule (order : MapOrder) (enforce : Enforce α) (b : Builder α) (ruleId : Nat) :
    Builder α :=
  let refPos := b.findRuleRef order ruleId
  match b.grammar.rules ruleId with
  | none => b
  | some body =>
    let b := { b with grammar := b.grammar.removeRule ruleId }
    match refPos with
    | none => b
    | some (rid, pos) =>
      let b := b.inlineBody rid pos body
      let startCheck := if 0 < pos then pos - 1 else 0
      b.recheck enforce rid (List.range' startCheck (pos + body.length - startCheck))

/-- One call of the enforcement, with what it calls in turn. -/
def enforceStep (order : MapOrder) (enforce : Enforce α) (b : Builder α) (rid : Option Nat)
    (pos : Nat) : Builder α :=
  match b.digramAt rid pos with
  | none => b
  | some d =>
    let occurrences := b.digramIndex d
    if 1 < occurrences.length then
      let newRuleId := b.grammar.nextRuleId
      let b : Builder α := { b with grammar := b.grammar.addRule [d.1, d.2] }
      let b := occurrences.reverse.foldl (fun b p =>
        if b.digramAt p.1 p.2 = some d then b.substituteDigram enforce p.1 p.2 newRuleId
        else b) b
      if b.countRuleRefs newRuleId < 2 then b.expandRule order enforce newRuleId else b
    else b

def enforceLevels (order : MapOrder) : Nat → Enforce α
  | 0 => fun b _ _ => b
  | n + 1 => enforceStep order (enforceLevels order n)

def maxDepth : Nat := 20

def enforceDigramUniqueness (order : MapOrder) (depth : Nat) : Enforce α :=
  enforceLevels order ((maxDepth + 2 - depth) / 2)

/-- The recursion of the source: the mutators are one level deeper, and what they call two. -/
theorem enforceDigramUniqueness_eq (order : MapOrder) (depth : Nat) (b : Builder α)
    (rid : Option Nat) (pos : Nat) :
    enforceDigramUniqueness order depth b rid pos =
      if maxDepth < depth then b
      else enforceStep order (enforceDigramUniqueness order (depth + 1 + 1)) b rid pos := by
  unfold enforceDigramUniqueness
  split
  · next h =>
    have hzero : (maxDepth + 2 - depth) / 2 = 0 := by omega
    rw [hzero]
    rfl
  · next h =>
    have hsucc : (maxDepth + 2 - depth) / 2 = (maxDepth + 2 - (depth + 1 + 1)) / 2 + 1 := by
      omega
    rw [hsucc]
    rfl

def substituteDigramDepth (order : MapOrder) (depth : Nat) (b : Builder α) (rid : Option Nat)
    (pos newRuleId : Nat) : Builder α :=
  b.substituteDigram (enforceDigramUniqueness order (depth + 1)) rid pos newRuleId

def expandRuleDepth (order : MapOrder) (depth : Nat) (b : Builder α) (ruleId : Nat) : Builder α :=
  b.expandRule order (enforceDigramUniqueness order (depth + 1)) ruleId

/-! ## Building -/

/-- `self.grammar.start.push(sym)`. -/
def push (b : Builder α) (sym : Symbol α) : Builder α :=
  { b with grammar := b.grammar.setSeq none (b.grammar.start ++ [sym]) }

def append (order : MapOrder) (b : Builder α) (sym : Symbol α) : Builder α :=
  let pos := b.grammar.start.length
  let b := b.push sym
  if 1 ≤ pos then enforceDigramUniqueness order 0 (b.addDigram none (pos - 1)) none (pos - 1)
  else b

def appendAll (order : MapOrder) (input : List α) : Builder α :=
  input.foldl (fun b a => b.append order (.terminal a)) .new

/-- The first rule, by its id, with fewer than two references. -/
def underused (b : Builder α) : Option Nat :=
  b.grammar.ruleIds.find? fun r => decide (b.countRuleRefs r < 2)

/-- A round of the cleanup loop, `none` when the loop is left. -/
def utilityRound (order : MapOrder) (b : Builder α) : Option (Builder α) :=
  b.underused.map (b.expandRuleDepth order 0)

/-- The loop, `none` when `fuel` rounds do not do. -/
def enforceGlobalRuleUtility (order : MapOrder) : Nat → Builder α → Option (Builder α)
  | 0, _ => none
  | fuel + 1, b =>
    match b.utilityRound order with
    | some b' => enforceGlobalRuleUtility order fuel b'
    | none => some b

end Builder

def build (order : MapOrder) (fuel : Nat) (input : List α) : Option (Grammar α) :=
  (Builder.enforceGlobalRuleUtility order fuel (.appendAll order input)).map (·.grammar)

end Inim.Sequitur
