import Inim.Lib.Codes
import Inim.Lifecycle.Instances
/-!
# The text of a fingerprint (`lifecycle.rs:101-153`)

`semantic_fingerprint` writes eight renderings one after the other, with a `|` between them. A
string field may contain that separator, the quotes around it and the brackets of a list; the texts
are still those of different fields because `{:?}` escapes what ends a string: every rendering but
the last is a prefix code together with its separator.

**Bug**: `route_semantically_equivalent` documents that "communities compare as sets", and both
functions sort the communities, but neither drops the repeated ones.

| here | there |
| --- | --- |
| `escapeDebug`, `debugStr` | `impl Debug for str`; `unprintable` is the standard library's table of the characters that are written `\u{..}` |
| `debugOption`, `debugVec` | the derived `Debug` of `Option`, `Debug` of `Vec` |
| `SemanticFingerprint.text` | the `format!` of `semantic_fingerprint` (`lifecycle.rs:136`) |
-/

namespace Inim

open Inim.Lib

/-! ## `{:?}` -/

/-- A character as it stands in a quoted string; `'` is not escaped there. -/
def escapeDebug (unprintable : Char → Bool) (c : Char) : List Char :=
  if c = '\x00' then ['\\', '0']
  else if c = '\t' then ['\\', 't']
  else if c = '\r' then ['\\', 'r']
  else if c = '\n' then ['\\', 'n']
  else if c = '"' then ['\\', '"']
  else if c = '\\' then ['\\', '\\']
  else if unprintable c then ['\\', 'u', '\x7b'] ++ (Nat.toDigits 16 c.toNat ++ ['\x7d'])
  else [c]

def debugStr (unprintable : Char → Bool) (s : String) : String :=
  "\"" ++ String.ofList (s.toList.flatMap (escapeDebug unprintable)) ++ "\""

def debugOption {α : Type} (debug : α → String) (o : Option α) : String :=
  o.elim "None" fun a => "Some(" ++ debug a ++ ")"

def debugVec {α : Type} (debug : α → String) (l : List α) : String :=
  "[" ++ ", ".intercalate (l.map debug) ++ "]"

/-- The text `semantic_fingerprint` returns. -/
def SemanticFingerprint.text (unprintable : Char → Bool) (p : SemanticFingerprint) : String :=
  ",".intercalate (p.asPath.map fun n => toString n.toNat) ++ "|" ++
    debugVec (fun n => toString n.toNat) p.originAsns ++ "|" ++
    debugOption (debugStr unprintable) p.origin ++ "|" ++
    debugOption (debugStr unprintable) p.nextHop ++ "|" ++
    debugOption (fun n => toString n.toNat) p.med ++ "|" ++
    debugOption (fun n => toString n.toNat) p.localPref ++ "|" ++
    toString p.atomicAggregate ++ "|" ++
    debugVec (debugStr unprintable) p.communities

/-! ## Escapes -/

section
variable (unprintable : Char → Bool)

/-- The character a one-letter escape stands for. -/
def unescape (k : Char) : Char :=
  if k = '0' then '\x00' else if k = 't' then '\t' else if k = 'r' then '\r'
  else if k = 'n' then '\n' else k

/-- The `u` of an escaped number, and the number. -/
def debugNumber (c : Char) : List Char := '\x7b' :: (Nat.toDigits 16 c.toNat ++ ['\x7d'])

theorem debugNumber_code : PrefixCode debugNumber := by
  have hdigits : CodeBefore (· = '\x7d') fun c : Char => Nat.toDigits 16 c.toNat := by
    refine CodeBefore.of_free
      (fun a b h => Char.toNat_inj.1 (toDigits_injective (by decide) (by decide) h)) ?_
    rintro a c hm rfl
    obtain ⟨d, hd, hc⟩ := mem_toDigits (by decide) hm
    have hall : ∀ d : Fin 16, '\x7d' ≠ d.val.digitChar := by decide
    exact hall ⟨d, hd⟩ hc
  exact (hdigits.ended rfl).lit_append ['\x7b']

/-- Plain, escaped by a letter, or by its number. -/
theorem escapeDebug_escapes :
    Escapes (escapeDebug unprintable) '\\' '"' 'u' unescape debugNumber where
  cases c := by
    unfold escapeDebug
    split
    · next h => exact Or.inr (Or.inl ⟨'0', rfl, by rw [h]; decide, by decide⟩)
    split
    · next h => exact Or.inr (Or.inl ⟨'t', rfl, by rw [h]; decide, by decide⟩)
    split
    · next h => exact Or.inr (Or.inl ⟨'r', rfl, by rw [h]; decide, by decide⟩)
    split
    · next h => exact Or.inr (Or.inl ⟨'n', rfl, by rw [h]; decide, by decide⟩)
    split
    · next h => exact Or.inr (Or.inl ⟨'"', rfl, by rw [h]; decide, by decide⟩)
    split
    · next h => exact Or.inr (Or.inl ⟨'\\', rfl, by rw [h]; decide, by decide⟩)
    split
    · exact Or.inr (Or.inr rfl)
    · next hquote hslash _ => exact Or.inl ⟨rfl, hslash, hquote⟩
  num_code _ _ _ _ _ _ h := debugNumber_code h
  quote_ne := by decide

theorem debugStr_code : PrefixCode fun s => (debugStr unprintable s).toList := by
  intro a b r s h
  simp only [debugStr, String.toList_append, String.toList_ofList, List.append_assoc] at h
  have hcode := (escapeDebug_escapes unprintable).quoted
  obtain ⟨hab, hrs⟩ := @hcode a.toList b.toList r s (by simpa using h)
  exact ⟨String.toList_inj.1 hab, hrs⟩

/-! ## The pieces -/

/-- A number ends where something that is no digit follows. -/
theorem number_code : CodeBefore (fun c => ∀ d : Fin 10, c ≠ d.val.digitChar)
    fun n : UInt32 => (toString n.toNat).toList := by
  refine CodeBefore.of_free (fun m n h => ?_) fun n c hm hc => ?_
  · simp only [Nat.toString_eq_repr, String.toList_inj, Nat.repr_inj] at h
    exact UInt32.toNat_inj.1 h
  · exact IpAddr.not_mem_toString hc _ hm

theorem number_start {stop : Char} (hstop : ∀ d : Fin 10, stop ≠ d.val.digitChar) (n : UInt32)
    (r s : List Char) : (toString n.toNat).toList ++ r ≠ stop :: s := by
  intro h
  have hmem := IpAddr.not_mem_toString hstop n.toNat
  rw [Nat.toString_eq_ofList_toDigits, String.toList_ofList] at h hmem
  cases hd : Nat.toDigits 10 n.toNat with
  | nil => exact absurd (congrArg List.length hd) (Nat.length_toDigits_pos).ne'
  | cons d ds =>
    rw [hd] at h hmem
    exact hmem (by rw [(List.cons.inj h).1]; simp)

theorem debugStr_start {stop : Char} (hstop : '"' ≠ stop) (t : String) (r s : List Char) :
    (debugStr unprintable t).toList ++ r ≠ stop :: s := by
  intro h
  simp only [debugStr, String.toList_append, List.append_assoc] at h
  exact hstop (List.cons.inj h).1

theorem debugOption_code {α : Type} {debug : α → String} {P : Char → Prop}
    (hf : CodeBefore P fun a => (debug a).toList) (hP : P ')') :
    PrefixCode fun o => (debugOption debug o).toList := by
  have hsome : PrefixCode fun a => ['S', 'o', 'm', 'e', '('] ++ ((debug a).toList ++ [')']) :=
    (hf.ended hP).lit_append _
  have hcode := PrefixCode.option (n := "None".toList) hsome rfl (fun a => ⟨_, rfl⟩) (by decide)
  have htext : ∀ o, (debugOption debug o).toList = o.elim "None".toList
      fun a => ['S', 'o', 'm', 'e', '('] ++ ((debug a).toList ++ [')']) := by
    intro o
    cases o <;> simp [debugOption]
  simpa only [htext] using hcode

theorem debugVec_code {α : Type} {debug : α → String} {P : Char → Prop}
    (hf : CodeBefore P fun a => (debug a).toList) (hcomma : P ',') (hend : P ']')
    (hstart : ∀ a r s, (debug a).toList ++ r ≠ ']' :: s) :
    PrefixCode fun l => (debugVec debug l).toList := by
  have hcode := (CodeBefore.sepBy (w := [' ']) hf hcomma hend (by decide) hstart).lit_append ['[']
  refine fun l m r s h => @hcode l m r s ?_
  simpa [debugVec, Function.comp_def] using h

theorem toString_bool_code : PrefixCode fun b : Bool => (toString b).toList := by
  intro a b r s h
  cases a with
  | true =>
    cases b with
    | true => exact ⟨rfl, List.append_cancel_left h⟩
    | false => exact absurd (List.cons.inj h).1 (by decide)
  | false =>
    cases b with
    | true => exact absurd (List.cons.inj h).1 (by decide)
    | false => exact ⟨rfl, List.append_cancel_left h⟩

/-- The path: numbers up to the first `|`. -/
theorem path_code : PrefixCode fun p : List UInt32 =>
    (",".intercalate (p.map fun n => toString n.toNat)).toList ++ "|".toList := by
  have hcode := CodeBefore.sepBy (d := '|') (c := ',') (w := []) number_code (by decide)
    (by decide) (by decide) (number_start (by decide))
  refine fun l m r s h => @hcode l m r s ?_
  simpa [Function.comp_def] using h

end

/-! ## The whole text -/

/-- Fingerprints with the same text have the same fields, whatever their strings contain. -/
theorem SemanticFingerprint.text_injective (unprintable : Char → Bool) :
    Function.Injective (SemanticFingerprint.text unprintable) := by
  rintro ⟨p, o, g, n, m, l, x, c⟩ ⟨p', o', g', n', m', l', x', c'⟩ h
  have hnumbers := debugVec_code number_code (by decide) (by decide) (number_start (by decide))
  have hstring := debugOption_code (P := fun _ => True)
    (debugStr_code unprintable).codeBefore trivial
  have hstrings := debugVec_code (P := fun _ => True)
    (debugStr_code unprintable).codeBefore trivial trivial
    (debugStr_start unprintable (by decide))
  have hnumber := debugOption_code number_code (by decide)
  have hl := congrArg String.toList h
  simp only [SemanticFingerprint.text, String.toList_append, List.append_assoc] at hl
  -- one rendering after the other is read off the front, with its separator
  obtain ⟨hpath, hl⟩ := path_code (by simpa only [List.append_assoc] using hl)
  obtain ⟨horigins, hl⟩ := hnumbers hl
  obtain ⟨horigin, hl⟩ := hstring (List.append_cancel_left hl)
  obtain ⟨hhop, hl⟩ := hstring (List.append_cancel_left hl)
  obtain ⟨hmed, hl⟩ := hnumber (List.append_cancel_left hl)
  obtain ⟨hpref, hl⟩ := hnumber (List.append_cancel_left hl)
  obtain ⟨hatomic, hl⟩ := toString_bool_code (List.append_cancel_left hl)
  obtain ⟨hcommunities, -⟩ := hstrings (r := []) (s := [])
    (by simpa using List.append_cancel_left hl)
  rw [hpath, horigins, horigin, hhop, hmed, hpref, hatomic, hcommunities]

theorem semanticFingerprint_text_inj {unprintable : Char → Bool} (a b : RouteAttributes) :
    (semanticFingerprint a).text unprintable = (semanticFingerprint b).text unprintable ↔
      routeSemanticallyEquivalent a b = true := by
  rw [(SemanticFingerprint.text_injective unprintable).eq_iff, semanticFingerprint_eq,
    semanticFingerprint_eq, fields_injective.eq_iff, routeSemanticallyEquivalent_iff]

/-- `baseline_set` compares the sorted texts of the two sides (`lifecycle.rs:1370-1380`). -/
theorem baselineSet_texts (unprintable : Char → Bool) (l l' : List SemanticFingerprint) :
    sortBy compare (l.map (·.text unprintable)) = sortBy compare (l'.map (·.text unprintable)) ↔
      l.isPerm l' = true := by
  rw [List.isPerm_iff, ← List.map_perm_map_iff (SemanticFingerprint.text_injective unprintable)]
  exact sortBy_eq_iff_perm

/-! ## Communities as sets -/

/-- The documented comparison: communities without order and repetition. -/
structure RouteAttributes.SameRoute (a b : RouteAttributes) : Prop where
  fields : { a with communities := [] } = { b with communities := [] }
  communities : ∀ c, c ∈ a.communities ↔ c ∈ b.communities

/-- Both functions decide `SameRoute`. -/
def ComparesAsSets (unprintable : Char → Bool) (a b : RouteAttributes) : Prop :=
  ((semanticFingerprint a).text unprintable = (semanticFingerprint b).text unprintable ↔
    routeSemanticallyEquivalent a b = true) ∧
  (routeSemanticallyEquivalent a b = true ↔ a.SameRoute b)

/-- One route, but some community stands more often in one list than in the other. -/
def DifferInRepeats (a b : RouteAttributes) : Prop :=
  a.SameRoute b ∧ ∃ c, a.communities.count c ≠ b.communities.count c

/-- The code compares the other fields, and the communities with their multiplicities. -/
theorem routeSemanticallyEquivalent_perm (a b : RouteAttributes) :
    routeSemanticallyEquivalent a b = true ↔
      { a with communities := [] } = { b with communities := [] } ∧
        a.communities.Perm b.communities := by
  have hperm : sortBy compare a.communities = sortBy compare b.communities ↔
      a.communities.Perm b.communities := sortBy_eq_iff_perm
  rw [routeSemanticallyEquivalent_iff, ← hperm]
  obtain ⟨p, o, n, g, m, l, x, c⟩ := a
  obtain ⟨p', o', n', g', m', l', x', c'⟩ := b
  simp only [RouteAttributes.semantics, RouteAttributes.mk.injEq]
  tauto

/-- The two functions always agree; communities are compared as sets exactly on the routes that do
not differ in repeated communities alone. -/
theorem comparesAsSets_iff (unprintable : Char → Bool) (a b : RouteAttributes) :
    ComparesAsSets unprintable a b ↔ ¬ DifferInRepeats a b := by
  have hperm := routeSemanticallyEquivalent_perm a b
  constructor
  · rintro ⟨-, hsame⟩ ⟨hroute, c, hc⟩
    exact hc (List.perm_iff_count.1 (hperm.1 (hsame.2 hroute)).2 c)
  · intro hno
    refine ⟨semanticFingerprint_text_inj a b, fun h => ?_, fun hroute => ?_⟩
    · obtain ⟨hfields, hp⟩ := hperm.1 h
      exact ⟨hfields, fun c => hp.mem_iff⟩
    · refine hperm.2 ⟨hroute.fields, List.perm_iff_count.2 fun c => ?_⟩
      by_contra hc
      exact hno ⟨hroute, c, hc⟩

/-- **Bug**: a community sent twice makes another route of it. -/
theorem repeated_community_is_another_route :
    ¬ ∀ (unprintable : Char → Bool) (a b : RouteAttributes), ComparesAsSets unprintable a b := by
  intro h
  let a : RouteAttributes := { RouteAttributes.empty with communities := ["64500:1"] }
  let b : RouteAttributes := { RouteAttributes.empty with communities := ["64500:1", "64500:1"] }
  have hroute : a.SameRoute b := ⟨rfl, fun c => by simp [a, b]⟩
  have hno : routeSemanticallyEquivalent a b = false := by decide +kernel
  rw [(h (fun _ => false) a b).2.2 hroute] at hno
  cases hno

/-- Order alone makes no difference. -/
example (a : RouteAttributes) (l : List String) (h : l.Perm a.communities) :
    routeSemanticallyEquivalent a { a with communities := l } = true :=
  (routeSemanticallyEquivalent_perm _ _).2 ⟨rfl, h.symm⟩

end Inim
