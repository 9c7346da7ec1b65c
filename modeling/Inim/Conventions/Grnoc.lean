import Inim.Lib.Bytes
import Inim.Lib.Parens
import Inim.Text
/-!
# The GRNOC naming convention (`conventions/grnoc.rs:38-259`)

| here | there |
| --- | --- |
| `NamedEntityType`, `AttachmentQualifier`, `ConventionInterpretation`, `InterpretationConfidence` | `:41-90` |
| `scan`, `findParentheticals` | `find_parentheticals` (`:181-223`): its two loops as one, `inside` being the inner one |
| `entityLabel`, `extractEntity` | `extract_entity` (`:226-259`) |
| `interpret`          | `interpret` (`:100-179`) |

The scanner counts characters, and `interpret` cuts the title at its counts as if they were bytes;
`extract_entity` cuts the title at a byte offset of the lower-cased title. `none` is the panic of a
cut that is not between characters. `toLowercase` is `str::to_lowercase`, and the results hold
whatever it is.

The scanner finds the outermost phrases that are codes, up to the first parenthesis that is never
closed (`mem_findParentheticals`).
-/

namespace Inim.Grnoc

open Inim.Lib
open String (utf8Len)

inductive NamedEntityType where
  | peer
  | participant
  | other
deriving DecidableEq, Repr

structure AttachmentQualifier where
  raw : String
  normalized : String
  charOffset : Nat
deriving DecidableEq, Repr

inductive InterpretationConfidence where
  | clear
  | ambiguous
deriving DecidableEq, Repr

structure ConventionInterpretation where
  rawTitle : String
  namedEntityType : Option NamedEntityType
  namedEntityLabel : Option String
  attachmentQualifier : Option AttachmentQualifier
  redundancyExpected : Option Bool
  provenance : String
  confidence : InterpretationConfidence
  note : Option String
deriving DecidableEq, Repr

/-! ## The scanner -/

/-- `inner.len() >= 2 && inner.len() <= 10 && inner.chars().all(..)`. -/
def isCode (inner : List Char) : Bool :=
  2 ≤ utf8Len inner && utf8Len inner ≤ 10 && inner.all (·.isAlphanum)

inductive Scan where
  | outside
  | inside (start depth : Nat) (inner : List Char)

/-- `results.push((start, end, inner))`, where `inner` is a code. -/
def push (start stop : Nat) (inner : List Char) : List (Nat × Nat × List Char) :=
  if isCode inner then [(start, stop, inner)] else []

def scan (i : Nat) : Scan → List Char → List (Nat × Nat × List Char)
  | _, [] => []
  | .outside, c :: cs => scan (i + 1) (if c = '(' then .inside i 1 [] else .outside) cs
  | .inside start depth inner, c :: cs =>
    if c = '(' then scan (i + 1) (.inside start (depth + 1) (inner ++ [c])) cs
    else if c = ')' then
      if depth = 1 then push start (i + 1) inner ++ scan (i + 1) .outside cs
      else scan (i + 1) (.inside start (depth - 1) (inner ++ [c])) cs
    else scan (i + 1) (.inside start depth (inner ++ [c])) cs

def findParentheticals (title : List Char) : List (Nat × Nat × List Char) := scan 0 .outside title

/-! ## The entity -/

/-- `str::find`: the byte offset of the first occurrence. -/
def find (needle : List Char) : List Char → Option Nat
  | [] => if needle.isEmpty then some 0 else none
  | c :: cs =>
    if needle.isPrefixOf (c :: cs) then some 0 else (find needle cs).map (· + c.utf8Size)

/-- `after.trim().split(..).next()`. -/
def firstWord (after : List Char) : List Char :=
  (trim (String.ofList after)).toList.takeWhile fun c => !(isWhitespace c || c == '(' || c == '-')

/-- `s.trim_end_matches(',')`. -/
def trimEndCommas (s : List Char) : List Char := (s.reverse.dropWhile (· == ',')).reverse

def entityLabel (after : List Char) : Option String :=
  if 1 < utf8Len (firstWord after) then some (String.ofList (trimEndCommas (firstWord after)))
  else none

def extractEntity (toLowercase : String → String) (title : String) :
    Option (Option NamedEntityType × Option String) :=
  let titleLower := (toLowercase title).toList
  match find "participant".toList titleLower with
  | some pos => do
    let after ← dropBytes (pos + 11) title.toList
    return (some .participant, entityLabel after)
  | none =>
    match find "peer".toList titleLower with
    | some pos => do
      let after ← dropBytes (pos + 4) title.toList
      return (some .peer, entityLabel after)
    | none => some (some .other, none)

def interpret (toLowercase : String → String) (title : String) : Option ConventionInterpretation :=
  let provenance :=
    "GRNOC title convention: trailing parenthesized code indicates expected redundancy"
  let title := trim title
  match findParentheticals title.toList with
  | [] => do
    let (entityType, label) ← extractEntity toLowercase title
    return {
      rawTitle := title, namedEntityType := entityType, namedEntityLabel := label
      attachmentQualifier := none, redundancyExpected := some false, provenance
      confidence := .clear, note := none }
  | _ :: _ :: _ => do
    let (entityType, label) ← extractEntity toLowercase title
    return {
      rawTitle := title, namedEntityType := entityType, namedEntityLabel := label
      attachmentQualifier := none, redundancyExpected := none, provenance
      confidence := .ambiguous
      note := some "ambiguous GRNOC title structure: multiple parenthetical phrases" }
  | [(start, stop, code)] => do
    let trailingText ← dropBytes stop title.toList
    if !trimBlank (String.ofList trailingText) then
      let (entityType, label) ← extractEntity toLowercase title
      return {
        rawTitle := title, namedEntityType := entityType, namedEntityLabel := label
        attachmentQualifier := none, redundancyExpected := some false, provenance
        confidence := .clear
        note := some s!"parenthetical '({String.ofList code})' is not trailing — not interpreted as attachment qualifier" }
    else
      let raw ← slice title.toList start stop
      let qualifier := {
        raw := String.ofList raw, normalized := String.ofList (code.map Char.toUpper)
        charOffset := start }
      let (entityType, label) ← extractEntity toLowercase title
      return {
        rawTitle := title, namedEntityType := entityType, namedEntityLabel := label
        attachmentQualifier := some qualifier, redundancyExpected := some true, provenance
        confidence := .clear, note := none }

/-- `str::to_lowercase` of an ASCII text. -/
def asciiLowercase (s : String) : String := String.ofList (s.toList.map Char.toLower)

example : interpret asciiLowercase "Brief Outage - I2 PX Peer RIPE via NYIIX (NEWA)" = some {
    rawTitle := "Brief Outage - I2 PX Peer RIPE via NYIIX (NEWA)"
    namedEntityType := some .peer, namedEntityLabel := some "RIPE"
    attachmentQualifier := some { raw := "(NEWA)", normalized := "NEWA", charOffset := 41 }
    redundancyExpected := some true
    provenance := "GRNOC title convention: trailing parenthesized code indicates expected redundancy"
    confidence := .clear, note := none } := by decide

/-! ## What the scanner finds -/

theorem scan_inside_close {x s : List Char} {i start d : Nat} {acc : List Char}
    (hx : depthAfter d x = some 0) :
    scan i (.inside start (d + 1) acc) (x ++ ')' :: s) =
      push start (i + x.length + 1) (acc ++ x) ++ scan (i + x.length + 1) .outside s := by
  induction x generalizing i d acc with
  | nil =>
    obtain rfl : d = 0 := by simpa [depthAfter] using hx
    simp [scan]
  | cons c x ih =>
    have hlen : i + (c :: x).length + 1 = i + 1 + x.length + 1 := by
      simp only [List.length_cons]
      omega
    have hacc : acc ++ c :: x = acc ++ [c] ++ x := by simp
    rw [hlen, hacc, List.cons_append, scan]
    simp only [depthAfter] at hx
    split at hx
    · rename_i hopen
      rw [if_pos hopen]
      exact ih hx
    · rename_i hopen
      rw [if_neg hopen]
      split at hx
      · rename_i hclose
        cases d with
        | zero => exact absurd hx (by simp)
        | succ d =>
          rw [if_pos hclose, if_neg (by omega)]
          exact ih hx
      · rename_i hclose
        rw [if_neg hclose]
        exact ih hx

/-- The rest of the title is read as the inside of a parenthesis that is never closed. -/
theorem scan_inside_left {cs : List Char} {i start d : Nat} {acc : List Char}
    (h : ∀ x s, cs = x ++ ')' :: s → depthAfter d x ≠ some 0) :
    scan i (.inside start (d + 1) acc) cs = [] := by
  induction cs generalizing i d acc with
  | nil => rfl
  | cons c cs ih =>
    have hrest : ∀ e, (∀ x, depthAfter e x = some 0 → depthAfter d (c :: x) = some 0) →
        ∀ x s, cs = x ++ ')' :: s → depthAfter e x ≠ some 0 :=
      fun e he x s hcs hx => h (c :: x) s (by rw [hcs]; rfl) (he x hx)
    rw [scan]
    by_cases hopen : c = '('
    · rw [if_pos hopen]
      exact ih (hrest (d + 1) fun x hx => by simpa [depthAfter, hopen] using hx)
    rw [if_neg hopen]
    by_cases hclose : c = ')'
    · rw [if_pos hclose]
      cases d with
      | zero => exact absurd rfl (h [] cs (by rw [hclose]; rfl))
      | succ d =>
        rw [if_neg (by omega)]
        exact ih (hrest d fun x hx => by simpa [depthAfter, hclose] using hx)
    · rw [if_neg hclose]
      exact ih (hrest d fun x hx => by simpa [depthAfter, hopen, hclose] using hx)

theorem scan_other {c : Char} (hc : c ≠ '(') (i : Nat) (cs : List Char) :
    scan i .outside (c :: cs) = scan (i + 1) .outside cs := by
  rw [scan, if_neg hc]

theorem scan_group {x : List Char} (hx : Balanced x) (i : Nat) (s : List Char) :
    scan i .outside ('(' :: x ++ ')' :: s) =
      push i (i + x.length + 2) x ++ scan (i + x.length + 2) .outside s := by
  have hlen : i + 1 + x.length + 1 = i + x.length + 2 := by omega
  rw [List.cons_append, scan, if_pos rfl, scan_inside_close hx, hlen, List.nil_append]

theorem scan_left {cs : List Char} (h : ∀ x s, cs = x ++ ')' :: s → ¬ Balanced x) (i : Nat) :
    scan i .outside ('(' :: cs) = [] := by
  rw [scan, if_pos rfl]
  exact scan_inside_left h

/-- An outermost phrase that is a code, behind no parenthesis that is never closed. -/
structure SeenCode (t : List Char) (i : Nat) (x : List Char) : Prop where
  outer : Outer t i x
  code : isCode x = true
  closed : ClosedBefore t i

theorem SeenCode.append_left {p s x : List Char} {i : Nat} (hp : Whole p) :
    SeenCode (p ++ s) (p.length + i) x ↔ SeenCode s i x :=
  ⟨fun h => ⟨(outer_append_left hp).mp h.outer, h.code, (closedBefore_append_left hp).mp h.closed⟩,
    fun h => ⟨(outer_append_left hp).mpr h.outer, h.code, (closedBefore_append_left hp).mpr h.closed⟩⟩

theorem seenCode_other {c : Char} (hc : c ≠ '(') {cs x : List Char} {k : Nat} :
    SeenCode (c :: cs) k x ↔ ∃ m, k = m + 1 ∧ SeenCode cs m x := by
  have hshift : ∀ m, SeenCode (c :: cs) (m + 1) x ↔ SeenCode cs m x := fun m => by
    rw [Nat.add_comm]
    exact SeenCode.append_left (p := [c]) (whole_singleton hc)
  constructor
  · intro h
    cases k with
    | zero => exact absurd h.outer.1.getElem? (by simpa using hc)
    | succ m => exact ⟨m, rfl, (hshift m).mp h⟩
  · rintro ⟨m, rfl, h⟩
    exact (hshift m).mpr h

theorem seenCode_group {x s y : List Char} {k : Nat} (hx : Balanced x) :
    SeenCode ('(' :: x ++ ')' :: s) k y ↔
      (k = 0 ∧ y = x ∧ isCode x = true) ∨ ∃ m, k = x.length + 2 + m ∧ SeenCode s m y := by
  constructor
  · rintro ⟨hout, hcode, hclosed⟩
    rcases (outer_group hx).mp hout with ⟨rfl, rfl⟩ | ⟨m, rfl, hm⟩
    · exact Or.inl ⟨rfl, rfl, hcode⟩
    · exact Or.inr ⟨m, rfl, hm, hcode, (closedBefore_group hx).mp hclosed⟩
  · rintro (⟨rfl, rfl, hcode⟩ | ⟨m, rfl, h⟩)
    · exact ⟨(outer_group hx).mpr (Or.inl ⟨rfl, rfl⟩), hcode, fun k hk => absurd hk (Nat.not_lt_zero k)⟩
    · exact ⟨(outer_group hx).mpr (Or.inr ⟨m, rfl, h.outer⟩), h.code, (closedBefore_group hx).mpr h.closed⟩

theorem not_seenCode_left {cs x : List Char} {k : Nat}
    (h : ∀ x s, cs = x ++ ')' :: s → ¬ Balanced x) : ¬ SeenCode ('(' :: cs) k x := by
  have hno : ∀ y, ¬ Phrase ('(' :: cs) 0 y := by
    rintro y ⟨p, s, hp, hlen, hy⟩
    obtain rfl := List.length_eq_zero_iff.mp hlen
    exact h y s (List.cons.inj hp).2 hy
  rintro ⟨hout, -, hclosed⟩
  rcases Nat.eq_zero_or_pos k with rfl | hpos
  · exact hno x hout.1
  · obtain ⟨y, hy⟩ := hclosed 0 hpos rfl
    exact hno y hy

theorem mem_push {start stop a b : Nat} {inner x : List Char} :
    (a, b, x) ∈ push start stop inner ↔ isCode inner = true ∧ a = start ∧ b = stop ∧ x = inner := by
  unfold push
  split
  · rename_i h
    simp [h]
  · rename_i h
    simp [h]

theorem mem_scan {t x : List Char} {i a b : Nat} :
    (a, b, x) ∈ scan i .outside t ↔
      ∃ k, a = i + k ∧ b = i + k + x.length + 2 ∧ SeenCode t k x := by
  induction t using phrases_induction generalizing i with
  | nil =>
    simp only [scan, List.not_mem_nil, false_iff, not_exists]
    rintro k ⟨-, -, h⟩
    exact absurd h.outer.1.lt_length (by simp)
  | other c cs hc ih =>
    simp only [scan_other hc, ih, seenCode_other hc]
    constructor
    · rintro ⟨k, rfl, rfl, h⟩
      exact ⟨k + 1, by omega, by omega, k, rfl, h⟩
    · rintro ⟨_, rfl, rfl, m, rfl, h⟩
      exact ⟨m, by omega, by omega, h⟩
  | group y s hy ih =>
    rw [scan_group hy, List.mem_append, mem_push, ih]
    simp only [seenCode_group hy]
    constructor
    · rintro (⟨hcode, rfl, rfl, rfl⟩ | ⟨k, rfl, rfl, h⟩)
      · exact ⟨0, rfl, rfl, Or.inl ⟨rfl, rfl, hcode⟩⟩
      · exact ⟨y.length + 2 + k, by omega, by omega, Or.inr ⟨k, rfl, h⟩⟩
    · rintro ⟨k, rfl, rfl, ⟨rfl, rfl, hcode⟩ | ⟨m, rfl, h⟩⟩
      · exact Or.inl ⟨hcode, rfl, rfl, rfl⟩
      · exact Or.inr ⟨m, by omega, by omega, h⟩
  | left cs h =>
    rw [scan_left h]
    simp [not_seenCode_left h]

/-- `find_parentheticals` returns the outermost codes up to the first parenthesis left open. -/
theorem mem_findParentheticals {t x : List Char} {a b : Nat} :
    (a, b, x) ∈ findParentheticals t ↔ SeenCode t a x ∧ b = a + x.length + 2 := by
  rw [findParentheticals, mem_scan]
  constructor
  · rintro ⟨k, rfl, rfl, h⟩
    rw [Nat.zero_add]
    exact ⟨h, rfl⟩
  · rintro ⟨h, rfl⟩
    exact ⟨a, (Nat.zero_add a).symm, by omega, h⟩

/-- In the order of the title. -/
theorem pairwise_scan (t : List Char) (i : Nat) : (scan i .outside t).Pairwise (·.1 < ·.1) := by
  induction t using phrases_induction generalizing i with
  | nil => exact List.Pairwise.nil
  | other c cs hc ih =>
    rw [scan_other hc]
    exact ih (i + 1)
  | group x s hx ih =>
    rw [scan_group hx, List.pairwise_append]
    refine ⟨?_, ih _, ?_⟩
    · unfold push
      split <;> simp
    · rintro ⟨a, b, y⟩ hfirst ⟨a', b', z⟩ hlater
      obtain ⟨-, rfl, -, -⟩ := mem_push.mp hfirst
      obtain ⟨k, rfl, -, -⟩ := mem_scan.mp hlater
      simp only
      omega
  | left cs h =>
    rw [scan_left h]
    exact List.Pairwise.nil

theorem pairwise_findParentheticals (t : List Char) :
    (findParentheticals t).Pairwise (·.1 < ·.1) := pairwise_scan t 0

end Inim.Grnoc
