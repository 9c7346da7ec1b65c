import Inim.Lib.Bytes
import Inim.Lib.Guards
import Inim.Text

/-!
# Ticket identifiers in a text (`catalog/relationships.rs:29-80`, `catalog/discovery.rs:26-55`)

| here | there |
| --- | --- |
| `WordClass`, `Boundary`              | `\w` and `\b` of the regex crate |
| `matchIdentifier`, `findIdentifiers` | `ticket_identifier_regex().find_iter` |
| `extractTicketReferences`            | `extract_ticket_references` |
| `classifyRelationship`               | `classify_relationship` |
| `extractWithKind`                    | `extract_with_kind` |

An identifier is found exactly where it stands between characters that are not of words
(`mem_extractTicketReferences`), with its span in bytes.

**Bug** (`extract_with_kind_panics`): `context_chars` is documented as a number of characters, but it is
taken from a byte offset, and the text is sliced there. Within a character of several bytes this panics.
`extractWithKind_iff` gives the exact condition; where it holds, the context lies within the last
`context_chars` characters.
-/

namespace Inim

open Std Inim.Lib
open String (utf8Len)

/-! ## Identifiers -/

/-- The characters of words as the regex crate has them, the ASCII letters and digits among them. -/
structure WordClass where
  isWord : Char → Bool
  ascii : ∀ c : Char, c.isAlphanum → isWord c = true

/-- `(INC|CHG|TASK)` -/
def ticketFamilies : List String := ["INC", "CHG", "TASK"]

structure TicketReference where
  externalId : String
  start : Nat
  stop : Nat
deriving DecidableEq, Repr

section Find
variable (w : WordClass)

/-- `\b` between two characters; `none` stands for an end of the text. -/
def Boundary (prev next : Option Char) : Bool := prev.any w.isWord != next.any w.isWord

/-- The regular expression at one place: the digits are taken greedily and given back one by one. -/
def matchFamily (cs : List Char) (family : String) : Option (List Char) :=
  if family.toList.isPrefixOf cs then
    let rest := cs.drop family.toList.length
    let digits := rest.takeWhile Char.isDigit
    ((List.range (digits.length + 1)).reverse.find? fun n =>
        5 ≤ n && Boundary w (digits.take n).getLast? (rest.drop n).head?).map
      fun n => family.toList ++ digits.take n
  else none

def matchIdentifier (prev : Option Char) (cs : List Char) : Option (List Char) :=
  if Boundary w prev cs.head? then ticketFamilies.findSome? (matchFamily w cs) else none

/-- `find_iter` from byte `offset` on, behind the character `prev`; the next `skip` characters belong to
the match before. -/
def findIdentifiers (offset : Nat) (prev : Option Char) (skip : Nat) : List Char → List TicketReference
  | [] => []
  | c :: cs =>
    match skip with
    | skip + 1 => findIdentifiers (offset + c.utf8Size) (some c) skip cs
    | 0 =>
      match matchIdentifier w prev (c :: cs) with
      | some id =>
        ⟨String.ofList id, offset, offset + utf8Len id⟩ ::
          findIdentifiers (offset + c.utf8Size) (some c) (id.length - 1) cs
      | none => findIdentifiers (offset + c.utf8Size) (some c) 0 cs

def extractTicketReferences (text : String) : List TicketReference :=
  findIdentifiers w 0 none 0 text.toList

end Find

/-! ## Kinds -/

def classifyRelationship (contextBefore externalId : String) : String :=
  let window := contextBefore.map Char.toLower
  if textContains window "tracked in" || textContains window "tracking in"
      || textContains window "being tracked" then "TracksRemainingImpactIn"
  else if textContains window "supersed" then "SupersededBy"
  else
    let lowerId := (externalId.map Char.toLower).toList
    if textContains window "related change" && "chg".toList.isPrefixOf lowerId then "RelatedChange"
    else if textContains window "related incident" && "inc".toList.isPrefixOf lowerId then
      "RelatedIncident"
    else if textContains window "related task" && "task".toList.isPrefixOf lowerId then "RelatedTask"
    else "References"

structure ExtractedReference where
  externalId : String
  start : Nat
  stop : Nat
  relationshipKind : String
deriving DecidableEq, Repr

/-- One reference with its kind: `none` where the slice panics. -/
def withKind (text : String) (contextChars : Nat) (r : TicketReference) : Option ExtractedReference :=
  let start := r.start - contextChars
  (slice text.toList start r.start).map fun contextBefore =>
    { externalId := r.externalId
      start := r.start
      stop := r.stop
      relationshipKind := classifyRelationship (String.ofList contextBefore) r.externalId }

def extractWithKind (w : WordClass) (text : String) (contextChars : Nat) :
    Option (List ExtractedReference) :=
  (extractTicketReferences w text).mapM (withKind text contextChars)

/-! ## What the regular expression matches -/

/-- A family and at least five digits. -/
def IsIdentifier (id : List Char) : Prop :=
  ∃ family ∈ ticketFamilies, ∃ digits : List Char, id = family.toList ++ digits ∧ 5 ≤ digits.length ∧
    ∀ c ∈ digits, c.isDigit

/-- An identifier stands between `before` and `after`, and no character of a word next to it. -/
def Occurs (w : WordClass) (before id after : List Char) : Prop :=
  IsIdentifier id ∧ before.getLast?.any w.isWord = false ∧ after.head?.any w.isWord = false

section Match
variable {w : WordClass}

theorem WordClass.digit (w : WordClass) {c : Char} (h : c.isDigit) : w.isWord c = true :=
  w.ascii c (by simp [Char.isAlphanum, h])

theorem isWord_of_family {family : String} (h : family ∈ ticketFamilies) :
    ∀ c ∈ family.toList, w.isWord c = true := by
  have hall : ∀ family ∈ ticketFamilies, ∀ c ∈ family.toList, c.isAlphanum := by
    simp [ticketFamilies]
  exact fun c hc => w.ascii c (hall family h c hc)

theorem IsIdentifier.isWord {id : List Char} (h : IsIdentifier id) : ∀ c ∈ id, w.isWord c = true := by
  obtain ⟨family, hf, digits, rfl, -, hd⟩ := h
  intro c hc
  rcases List.mem_append.mp hc with hc | hc
  · exact isWord_of_family hf c hc
  · exact w.digit (hd c hc)

theorem IsIdentifier.ne_nil {id : List Char} (h : IsIdentifier id) : id ≠ [] := by
  obtain ⟨family, hf, digits, rfl, hlen, -⟩ := h
  rintro hnil
  obtain ⟨-, rfl⟩ := List.append_eq_nil_iff.mp hnil
  simp at hlen

/-- A boundary behind a digit: no character of a word follows. -/
theorem boundary_after_digits {digits : List Char} (hne : digits ≠ []) (hd : ∀ c ∈ digits, c.isDigit)
    (next : Option Char) : Boundary w digits.getLast? next = true ↔ next.any w.isWord = false := by
  obtain ⟨c, hc⟩ := Option.isSome_iff_exists.mp (List.getLast?_isSome.mpr hne)
  have hword : w.isWord c = true := w.digit (hd c (List.mem_of_getLast? hc))
  simp [Boundary, hc, hword]

theorem takeWhile_digits {digits t : List Char} (hd : ∀ c ∈ digits, c.isDigit)
    (ht : t.head?.any w.isWord = false) : (digits ++ t).takeWhile Char.isDigit = digits := by
  have htail : t.takeWhile Char.isDigit = [] := by
    cases t with
    | nil => rfl
    | cons c t =>
      have hc : c.isDigit = false := by
        by_contra h
        exact absurd (w.digit (by simpa using h)) (by simpa using ht)
      simp [hc]
  rw [List.takeWhile_append_of_pos hd, htail, List.append_nil]

/-- The digits are all the digits there are: a boundary does not stand between two of them. -/
theorem matchFamily_eq_some {cs id : List Char} {family : String} :
    matchFamily w cs family = some id ↔
      ∃ digits t, cs = family.toList ++ digits ++ t ∧ id = family.toList ++ digits ∧
        5 ≤ digits.length ∧ (∀ c ∈ digits, c.isDigit) ∧ t.head?.any w.isWord = false := by
  rw [matchFamily]
  constructor
  · intro h
    split at h
    · rename_i hpre
      obtain ⟨rest, rfl⟩ := List.isPrefixOf_iff_prefix.mp hpre
      rw [List.drop_left] at h
      obtain ⟨n, hn, rfl⟩ := Option.map_eq_some_iff.mp h
      obtain ⟨h5, hb⟩ : 5 ≤ n ∧
          Boundary w ((rest.takeWhile Char.isDigit).take n).getLast? (rest.drop n).head? = true := by
        simpa using List.find?_some hn
      have hlen : n ≤ (rest.takeWhile Char.isDigit).length := by
        have hmem := List.mem_of_find?_eq_some hn
        simp only [List.mem_reverse, List.mem_range] at hmem
        omega
      have hdigits : ∀ c ∈ (rest.takeWhile Char.isDigit).take n, c.isDigit :=
        fun c hc => List.mem_takeWhile_imp (List.mem_of_mem_take hc)
      have hcount : ((rest.takeWhile Char.isDigit).take n).length = n := by
        rw [List.length_take]
        omega
      have hne : (rest.takeWhile Char.isDigit).take n ≠ [] := by
        intro hnil
        rw [hnil, List.length_nil] at hcount
        omega
      have htake : (rest.takeWhile Char.isDigit).take n = rest.take n := by
        have hp := List.takeWhile_prefix Char.isDigit (l := rest)
        exact (hp.take n).eq_of_length (by rw [hcount, List.length_take]; have := hp.length_le; omega)
      refine ⟨_, rest.drop n, ?_, rfl, by omega, hdigits, (boundary_after_digits hne hdigits _).mp hb⟩
      rw [htake, List.append_assoc, List.take_append_drop]
    · exact absurd h (by simp)
  · rintro ⟨digits, t, rfl, rfl, h5, hd, ht⟩
    have hne : digits ≠ [] := by
      rintro rfl
      simp at h5
    rw [if_pos (List.isPrefixOf_iff_prefix.mpr ⟨digits ++ t, by simp⟩), List.append_assoc,
      List.drop_left]
    simp only [takeWhile_digits hd ht, List.range_succ, List.reverse_append, List.reverse_singleton,
      List.singleton_append]
    rw [List.find?_cons_of_pos]
    · simp
    · simpa [h5] using (boundary_after_digits hne hd _).mpr ht

/-- The families start with different letters, so at most one of them matches. -/
theorem family_unique {f g : String} (hf : f ∈ ticketFamilies) (hg : g ∈ ticketFamilies) {s t : List Char}
    (h : f.toList ++ s = g.toList ++ t) : f = g := by
  have hhead : f.toList.head? = g.toList.head? := by
    have hne : ∀ f ∈ ticketFamilies, f.toList ≠ [] := by decide
    have hh := congrArg List.head? h
    rwa [List.head?_append_of_ne_nil _ (hne f hf), List.head?_append_of_ne_nil _ (hne g hg)] at hh
  have hall : ∀ f ∈ ticketFamilies, ∀ g ∈ ticketFamilies, f.toList.head? = g.toList.head? → f = g := by
    decide
  exact hall f hf g hg hhead

theorem matchIdentifier_eq_some {prev : Option Char} {cs id : List Char} :
    matchIdentifier w prev cs = some id ↔
      IsIdentifier id ∧ prev.any w.isWord = false ∧ ∃ t, cs = id ++ t ∧ t.head?.any w.isWord = false := by
  have hstart : ∀ {id t : List Char}, IsIdentifier id →
      (Boundary w prev (id ++ t).head? = true ↔ prev.any w.isWord = false) := by
    intro id t hid
    obtain ⟨c, id, rfl⟩ := List.exists_cons_of_ne_nil hid.ne_nil
    have hc : w.isWord c = true := hid.isWord c (List.mem_cons_self ..)
    simp [Boundary, hc]
  rw [matchIdentifier]
  constructor
  · intro h
    split at h
    · rename_i hb
      obtain ⟨family, hf, hm⟩ := List.exists_of_findSome?_eq_some h
      obtain ⟨digits, t, rfl, rfl, h5, hd, ht⟩ := matchFamily_eq_some.mp hm
      have hid : IsIdentifier (family.toList ++ digits) := ⟨family, hf, digits, rfl, h5, hd⟩
      exact ⟨hid, (hstart hid).mp hb, t, rfl, ht⟩
    · exact absurd h (by simp)
  · rintro ⟨hid, hprev, t, rfl, ht⟩
    rw [if_pos ((hstart hid).mpr hprev)]
    obtain ⟨family, hf, digits, rfl, h5, hd⟩ := hid
    have hm : matchFamily w (family.toList ++ digits ++ t) family = some (family.toList ++ digits) :=
      matchFamily_eq_some.mpr ⟨digits, t, rfl, rfl, h5, hd, ht⟩
    -- Whatever family matches first, it is this one.
    obtain ⟨id', hid'⟩ : ∃ id', ticketFamilies.findSome? (matchFamily w (family.toList ++ digits ++ t))
        = some id' := by
      apply Option.isSome_iff_exists.mp
      rw [List.findSome?_isSome_iff]
      exact ⟨family, hf, by rw [hm]; rfl⟩
    obtain ⟨g, hg, hmg⟩ := List.exists_of_findSome?_eq_some hid'
    obtain ⟨digits', t', heq, -⟩ := matchFamily_eq_some.mp hmg
    rw [List.append_assoc, List.append_assoc] at heq
    obtain rfl := family_unique hf hg heq
    rw [hid', ← hmg, hm]

/-! ## Which identifiers are found -/

/-- `findIdentifiers` gives nothing before the characters that it skips. -/
theorem start_of_mem_findIdentifiers {offset skip : Nat} {prev : Option Char} {cs : List Char}
    {r : TicketReference} (h : r ∈ findIdentifiers w offset prev skip cs) :
    offset + utf8Len (cs.take skip) ≤ r.start := by
  induction cs generalizing offset prev skip with
  | nil => simp [findIdentifiers] at h
  | cons c cs ih =>
    cases skip with
    | succ skip =>
      have hr := ih (by simpa [findIdentifiers] using h)
      simp only [List.take_succ_cons, String.utf8Len_cons]
      omega
    | zero =>
      simp only [findIdentifiers] at h
      simp only [List.take_zero, String.utf8Len_nil]
      split at h
      · rcases List.mem_cons.mp h with rfl | h
        · exact Nat.le_refl _
        · have hr := ih h
          omega
      · have hr := ih h
        omega

/-- The references come in order, and do not overlap. -/
theorem findIdentifiers_pairwise (offset skip : Nat) (prev : Option Char) (cs : List Char) :
    (findIdentifiers w offset prev skip cs).Pairwise fun r s => r.stop ≤ s.start := by
  induction cs generalizing offset prev skip with
  | nil => exact List.Pairwise.nil
  | cons c cs ih =>
    cases skip with
    | succ skip => exact ih _ _ _
    | zero =>
      simp only [findIdentifiers]
      split
      · rename_i id hm
        refine List.pairwise_cons.mpr ⟨fun r hr => ?_, ih _ _ _⟩
        obtain ⟨hid, -, t, heq, -⟩ := matchIdentifier_eq_some.mp hm
        obtain ⟨d, id, rfl⟩ := List.exists_cons_of_ne_nil hid.ne_nil
        rw [List.cons_append] at heq
        obtain ⟨rfl, rfl⟩ := List.cons_eq_cons.mp heq
        have hstart := start_of_mem_findIdentifiers hr
        simp only [List.length_cons, Nat.add_sub_cancel, List.take_left, String.utf8Len_cons] at hstart ⊢
        omega
      · exact ih _ _ _

/-- An identifier that stands at the front is the one that is matched there. -/
theorem occurs_front_iff {offset : Nat} {prev : Option Char} {cs : List Char} {r : TicketReference} :
    (∃ id after, cs = id ++ after ∧ Occurs w prev.toList id after ∧
        r = ⟨String.ofList id, offset, offset + utf8Len id⟩) ↔
      ∃ id, matchIdentifier w prev cs = some id ∧
        r = ⟨String.ofList id, offset, offset + utf8Len id⟩ := by
  have hprev : prev.toList.getLast? = prev := by cases prev <;> rfl
  constructor
  · rintro ⟨id, after, heq, ⟨hid, hp, ha⟩, hr⟩
    rw [hprev] at hp
    exact ⟨id, matchIdentifier_eq_some.mpr ⟨hid, hp, after, heq, ha⟩, hr⟩
  · rintro ⟨id, hm, hr⟩
    obtain ⟨hid, hp, t, heq, ht⟩ := matchIdentifier_eq_some.mp hm
    exact ⟨id, t, heq, ⟨hid, by rwa [hprev], ht⟩, hr⟩

/-- An identifier stands at the front, or behind the first character. -/
theorem occurs_cons_iff {offset : Nat} {prev : Option Char} {c : Char} {cs : List Char}
    {r : TicketReference} :
    (∃ before id after, c :: cs = before ++ id ++ after ∧ Occurs w (prev.toList ++ before) id after ∧
        r = ⟨String.ofList id, offset + utf8Len before, offset + utf8Len (before ++ id)⟩) ↔
      (∃ id, matchIdentifier w prev (c :: cs) = some id ∧
        r = ⟨String.ofList id, offset, offset + utf8Len id⟩) ∨
      ∃ before id after, cs = before ++ id ++ after ∧ Occurs w ((some c).toList ++ before) id after ∧
        r = ⟨String.ofList id, offset + c.utf8Size + utf8Len before,
          offset + c.utf8Size + utf8Len (before ++ id)⟩ := by
  have hlast : ∀ before,
      (prev.toList ++ c :: before).getLast? = ((some c).toList ++ before).getLast? := by
    intro before
    simp [List.getLast?_append, List.getLast?_cons]
  have hoff : ∀ n, offset + (n + c.utf8Size) = offset + c.utf8Size + n := by
    intro n
    omega
  rw [← occurs_front_iff]
  constructor
  · rintro ⟨before, id, after, heq, ho, hr⟩
    cases before with
    | nil => exact .inl ⟨id, after, by simpa using heq, by simpa using ho, by simpa using hr⟩
    | cons d before =>
      obtain ⟨rfl, hcs⟩ := List.cons_eq_cons.mp heq
      refine .inr ⟨before, id, after, hcs, ?_, ?_⟩
      · simpa only [Occurs, hlast] using ho
      · simpa only [List.cons_append, String.utf8Len_cons, hoff] using hr
  · rintro (⟨id, after, heq, ho, hr⟩ | ⟨before, id, after, rfl, ho, hr⟩)
    · exact ⟨[], id, after, by simpa using heq, by simpa using ho, by simpa using hr⟩
    · refine ⟨c :: before, id, after, rfl, ?_, ?_⟩
      · simpa only [Occurs, hlast] using ho
      · simpa only [List.cons_append, String.utf8Len_cons, hoff] using hr

/-- What is found are the identifiers between other characters. `prev` stands before the text; where
characters are skipped they are of a word, as those of the match before them are. -/
theorem mem_findIdentifiers {offset skip : Nat} {prev : Option Char} {cs : List Char}
    {r : TicketReference}
    (hskip : 0 < skip → prev.any w.isWord = true ∧ ∀ c ∈ cs.take skip, w.isWord c = true) :
    r ∈ findIdentifiers w offset prev skip cs ↔
      ∃ before id after, cs = before ++ id ++ after ∧ Occurs w (prev.toList ++ before) id after ∧
        r = ⟨String.ofList id, offset + utf8Len before, offset + utf8Len (before ++ id)⟩ := by
  induction cs generalizing offset prev skip with
  | nil =>
    simp only [findIdentifiers, List.not_mem_nil, false_iff]
    rintro ⟨before, id, after, heq, ⟨hid, -⟩, -⟩
    have hnil := (List.append_eq_nil_iff.mp heq.symm).1
    exact hid.ne_nil (List.append_eq_nil_iff.mp hnil).2
  | cons c cs ih =>
    rw [occurs_cons_iff]
    cases skip with
    | succ skip =>
      -- The character before is of a word, so nothing is matched here.
      obtain ⟨hword, hall⟩ := hskip (Nat.succ_pos skip)
      have hnone : ¬ ∃ id, matchIdentifier w prev (c :: cs) = some id ∧
          r = ⟨String.ofList id, offset, offset + utf8Len id⟩ := by
        rintro ⟨id, hm, -⟩
        obtain ⟨-, hno, -⟩ := matchIdentifier_eq_some.mp hm
        rw [hword] at hno
        exact absurd hno (by simp)
      rw [or_iff_right hnone, findIdentifiers]
      apply ih
      intro _
      exact ⟨hall c (by simp), fun d hd => hall d (by simp [hd])⟩
    | zero =>
      rw [findIdentifiers]
      cases hm : matchIdentifier w prev (c :: cs) with
      | none =>
        simp only [reduceCtorEq, false_and, exists_false, false_or]
        exact ih fun h => absurd h (by simp)
      | some id =>
        simp only [Option.some.injEq, exists_eq_left', List.mem_cons]
        refine or_congr Iff.rfl (ih fun _ => ?_)
        obtain ⟨hid, -, t, heq, -⟩ := matchIdentifier_eq_some.mp hm
        have hword : ∀ d ∈ id, w.isWord d = true := hid.isWord
        obtain ⟨d, id, rfl⟩ := List.exists_cons_of_ne_nil hid.ne_nil
        rw [List.cons_append] at heq
        obtain ⟨rfl, rfl⟩ := List.cons_eq_cons.mp heq
        refine ⟨hword c (by simp), fun d hd => hword d ?_⟩
        simp only [List.length_cons, Nat.add_sub_cancel, List.take_left] at hd
        exact List.mem_cons_of_mem _ hd

/-- The references of a text: its identifiers with their spans. -/
theorem mem_extractTicketReferences {text : String} {r : TicketReference} :
    r ∈ extractTicketReferences w text ↔
      ∃ before id after, text.toList = before ++ id ++ after ∧ Occurs w before id after ∧
        r = ⟨String.ofList id, utf8Len before, utf8Len (before ++ id)⟩ := by
  rw [extractTicketReferences, mem_findIdentifiers fun h => absurd h (by simp)]
  simp

end Match

/-! ## The extraction -/

/-- The kind, from the characters within the context alone. -/
def kindWithin (contextChars : Nat) (chars : List Char) (externalId : String) : String :=
  let contextBefore := (dropBytes (utf8Len chars - contextChars) chars).getD []
  classifyRelationship (String.ofList contextBefore) externalId

/-- What an extraction is meant to return. -/
structure Extracts (w : WordClass) (text : String) (contextChars : Nat)
    (refs : List ExtractedReference) : Prop where
  identifiers : ∀ id start stop,
    (∃ r ∈ refs, r.externalId = id ∧ r.start = start ∧ r.stop = stop) ↔
      ∃ before after, text.toList = before ++ id.toList ++ after ∧ Occurs w before id.toList after ∧
        start = utf8Len before ∧ stop = utf8Len (before ++ id.toList)
  order : refs.Pairwise fun r s => r.stop ≤ s.start
  spans : ∀ r ∈ refs, slice text.toList r.start r.stop = some r.externalId.toList
  kind : ∀ r ∈ refs, ∀ before rest, text.toList = before ++ rest → utf8Len before = r.start →
    r.relationshipKind = kindWithin contextChars (before.rtake contextChars) r.externalId

/-- In front of each identifier the context starts between characters. -/
def CutsBetweenChars (w : WordClass) (text : String) (contextChars : Nat) : Prop :=
  ∀ before id after, text.toList = before ++ id ++ after → Occurs w before id after →
    IsCharBoundary text.toList (utf8Len before - contextChars)

/-- A context that can be sliced lies within the last `context_chars` characters. -/
theorem slice_context {before rest m : List Char} {n : Nat}
    (h : slice (before ++ rest) (utf8Len before - n) (utf8Len before) = some m) :
    dropBytes (utf8Len (before.rtake n) - n) (before.rtake n) = some m := by
  obtain ⟨p, t, heq, hp, hpm⟩ := slice_eq_some.mp h
  obtain ⟨rfl, -⟩ := append_inj_of_utf8Len heq hpm
  rw [String.utf8Len_append] at hp
  have hlen := length_le_utf8Len m
  have hsuffix : m <:+ (p ++ m).rtake n := by
    refine List.suffix_of_suffix_length_le (List.suffix_append p m) (List.drop_suffix _ _) ?_
    rw [List.rtake, List.length_drop, List.length_append]
    omega
  obtain ⟨q, hq⟩ := hsuffix
  have hqp : utf8Len (q ++ m) ≤ utf8Len (p ++ m) := by
    rw [hq]
    exact String.utf8Len_le_of_suffix (List.drop_suffix _ _)
  rw [← hq]
  refine dropBytes_eq_some.mpr ⟨q, rfl, ?_⟩
  simp only [String.utf8Len_append] at hqp ⊢
  omega

section Extract
variable {w : WordClass} {text : String} {contextChars : Nat}

theorem withKind_isSome_iff {before rest : List Char} {r : TicketReference}
    (htext : text.toList = before ++ rest) (hstart : r.start = utf8Len before) :
    withKind text contextChars r ≠ none ↔ IsCharBoundary text.toList (utf8Len before - contextChars) := by
  rw [withKind, ← Option.isSome_iff_ne_none, Option.isSome_map, htext, hstart]
  exact slice_isSome_iff (Nat.sub_le ..)

/-- Each reference that is found keeps its span, and gets its kind from the context. -/
theorem extracts_of_all (h : ∀ r ∈ extractTicketReferences w text, withKind text contextChars r ≠ none) :
    Extracts w text contextChars
      ((extractTicketReferences w text).filterMap (withKind text contextChars)) := by
  have hmem : ∀ e, e ∈ (extractTicketReferences w text).filterMap (withKind text contextChars) ↔
      ∃ r ∈ extractTicketReferences w text, withKind text contextChars r = some e := by
    intro e
    rw [List.mem_filterMap]
  have hfields : ∀ {r e}, withKind text contextChars r = some e →
      e.externalId = r.externalId ∧ e.start = r.start ∧ e.stop = r.stop := by
    intro r e he
    obtain ⟨m, -, rfl⟩ := Option.map_eq_some_iff.mp he
    exact ⟨rfl, rfl, rfl⟩
  refine ⟨fun id start stop => ?_, ?_, fun e he => ?_, fun e he before rest htext hstart => ?_⟩
  · constructor
    · rintro ⟨e, he, rfl, rfl, rfl⟩
      obtain ⟨r, hr, hk⟩ := (hmem e).mp he
      obtain ⟨h1, h2, h3⟩ := hfields hk
      obtain ⟨before, id, after, htext, ho, rfl⟩ := mem_extractTicketReferences.mp hr
      rw [h1, h2, h3, String.toList_ofList]
      exact ⟨before, after, htext, ho, rfl, rfl⟩
    · rintro ⟨before, after, htext, ho, rfl, rfl⟩
      have hr := mem_extractTicketReferences.mpr ⟨before, id.toList, after, htext, ho, rfl⟩
      obtain ⟨e, he⟩ := Option.ne_none_iff_exists'.mp (h _ hr)
      obtain ⟨h1, h2, h3⟩ := hfields he
      exact ⟨e, (hmem e).mpr ⟨_, hr, he⟩, by rw [h1, String.ofList_toList], h2, h3⟩
  · rw [List.pairwise_filterMap]
    refine (findIdentifiers_pairwise 0 0 none text.toList).imp fun {r s} hrs => ?_
    intro e he f hf
    rw [(hfields he).2.2, (hfields hf).2.1]
    exact hrs
  · obtain ⟨r, hr, hk⟩ := (hmem e).mp he
    obtain ⟨h1, h2, h3⟩ := hfields hk
    obtain ⟨before, id, after, htext, -, rfl⟩ := mem_extractTicketReferences.mp hr
    rw [h1, h2, h3, String.toList_ofList]
    exact slice_eq_some.mpr ⟨before, after, htext.symm, rfl, rfl⟩
  · obtain ⟨r, hr, hk⟩ := (hmem e).mp he
    obtain ⟨-, h2, -⟩ := hfields hk
    obtain ⟨m, hm, rfl⟩ := Option.map_eq_some_iff.mp hk
    rw [← h2, ← hstart, htext] at hm
    rw [kindWithin, slice_context hm]
    rfl

end Extract

/-- The extraction returns the identifiers with their spans, and kinds from within the context, exactly
if no context starts within a character; otherwise it panics. -/
theorem extractWithKind_iff (w : WordClass) (text : String) (contextChars : Nat) :
    (∃ refs, extractWithKind w text contextChars = some refs ∧ Extracts w text contextChars refs) ↔
      CutsBetweenChars w text contextChars := by
  have hcut : (∀ r ∈ extractTicketReferences w text, withKind text contextChars r ≠ none) ↔
      CutsBetweenChars w text contextChars := by
    constructor
    · intro h before id after htext ho
      have hr := mem_extractTicketReferences.mpr ⟨before, id, after, htext, ho, rfl⟩
      exact (withKind_isSome_iff (by rw [htext, List.append_assoc]) rfl).mp (h _ hr)
    · intro h r hr
      obtain ⟨before, id, after, htext, ho, rfl⟩ := mem_extractTicketReferences.mp hr
      exact (withKind_isSome_iff (by rw [htext, List.append_assoc]) rfl).mpr (h before id after htext ho)
  rw [← hcut]
  constructor
  · rintro ⟨refs, hrun, -⟩
    rw [← mapM_isSome]
    exact Option.isSome_iff_exists.mpr ⟨refs, hrun⟩
  · exact fun hall => ⟨_, mapM_eq_filterMap hall, extracts_of_all hall⟩

namespace AccentSample

/-- The ASCII part of the class, with the letter of the sample. -/
def words : WordClass where
  isWord c := c.isAlphanum || c = '_' || c = 'é'
  ascii c h := by simp [h]

/-- The identifier at byte 121, and a context that would start at byte 1, within the letter. -/
def text : String := String.ofList ('é' :: List.replicate 119 ' ' ++ "INC0040257".toList)

end AccentSample

open AccentSample in
/-- **Bug.** A letter of two bytes, 121 bytes before the identifier: the slice panics. -/
theorem extract_with_kind_panics :
    ¬ ∀ (w : WordClass) (text : String) (contextChars : Nat),
      ∃ refs, extractWithKind w text contextChars = some refs ∧ Extracts w text contextChars refs := by
  intro h
  obtain ⟨refs, hrun, -⟩ := h words text 120
  have hpanic : extractWithKind words text 120 = none := by decide +kernel
  exact absurd (hpanic.symm.trans hrun) (by simp)

end Inim
