import Inim.Conventions.Grnoc
/-!
# The documented reading of a title (`conventions/grnoc.rs:1-36`, `:92-99`)

A trailing code is read as one only if it is the title's only parenthetical phrase (`Documented`).
The scanner counts codes instead of phrases and takes character counts for byte offsets, so the
reading is the documented one on some titles only (`documented_iff`): a phrase that is no code does
not make a title ambiguous (`not_documented_two_phrases`), and a title that is not ASCII may have
its code overlooked, or be cut inside a character.

The title is the one without the white space around it, as `interpret` keeps it.
-/

namespace Inim.Grnoc

open Inim.Lib
open String (utf8Len)

/-- 2 to 10 alphanumeric characters. -/
def IsCode (x : List Char) : Prop := 2 ≤ x.length ∧ x.length ≤ 10 ∧ ∀ c ∈ x, c.isAlphanum = true

def OnlyPhrase (t : List Char) (i : Nat) (x : List Char) : Prop :=
  Outer t i x ∧ ∀ k y, Outer t k y → k = i

def ManyPhrases (t : List Char) : Prop := ∃ i x k y, Outer t i x ∧ Outer t k y ∧ i ≠ k

/-- The only phrase of the title is a code, and the title ends with it. -/
def TrailingCode (t : List Char) : Prop :=
  ∃ i x, OnlyPhrase t i x ∧ IsCode x ∧ i + x.length + 2 = t.length

def NamedEntityType.keyword : NamedEntityType → Option String
  | .participant => some "participant"
  | .peer => some "peer"
  | .other => none

/-- The label is a part of what follows the keyword, in whatever case it is written. -/
def FollowsKeyword (toLowercase : String → String) (t : List Char) (e : NamedEntityType)
    (label : List Char) : Prop :=
  ∃ before k after, t = before ++ k ++ after ∧ e.keyword = some (toLowercase (String.ofList k)) ∧
    label <:+: after

structure Documented (toLowercase : String → String) (t : List Char)
    (r : ConventionInterpretation) : Prop where
  redundancy : r.redundancyExpected = some true ↔ TrailingCode t
  ambiguous : ManyPhrases t → r.confidence = .ambiguous ∧ r.redundancyExpected = none
  raw : ∀ q, r.attachmentQualifier = some q →
    ∃ x, Outer t q.charOffset x ∧ q.raw.toList = '(' :: x ++ [')']
  label : ∀ l, r.namedEntityLabel = some l →
    ∃ e, r.namedEntityType = some e ∧ FollowsKeyword toLowercase t e l.toList

/-! ## When the code reads a title so -/

/-- The keyword that is found, and the byte offset of its end in the lower-cased title. -/
def keywordEnd (toLowercase : String → String) (title : String) : Option (NamedEntityType × Nat) :=
  let titleLower := (toLowercase title).toList
  match find "participant".toList titleLower with
  | some pos => some (.participant, pos + 11)
  | none => (find "peer".toList titleLower).map fun pos => (.peer, pos + 4)

/-- The offset stands between two characters of the title itself, and behind a keyword there;
otherwise the word that it points to is a byte at most, or stands behind a keyword as well. -/
def LabelInPlace (toLowercase : String → String) (title : String) : Prop :=
  ∀ e n, keywordEnd toLowercase title = some (e, n) →
    ∃ before after, title.toList = before ++ after ∧ utf8Len before = n ∧
      ((∃ u k w, before = u ++ k ++ w ∧ e.keyword = some (toLowercase (String.ofList k))) ∨
        utf8Len (firstWord after) ≤ 1 ∨
        FollowsKeyword toLowercase title.toList e (trimEndCommas (firstWord after)))

def IsAscii (t : List Char) : Prop := ∀ c ∈ t, c.val ≤ 0x7f

structure ReadInPlace (toLowercase : String → String) (title : String) : Prop where
  many : ManyPhrases title.toList →
    ∃ i x k y, SeenCode title.toList i x ∧ SeenCode title.toList k y ∧ i ≠ k
  trailing : ∀ i x, OnlyPhrase title.toList i x → IsCode x → i + x.length + 2 = title.toList.length →
    ClosedBefore title.toList i ∧ IsAscii title.toList
  internal : ∀ i x, OnlyPhrase title.toList i x → IsCode x → i + x.length + 2 < title.toList.length →
    ClosedBefore title.toList i → IsCharBoundary title.toList (i + x.length + 2)
  label : LabelInPlace toLowercase title

/-! ## Codes and characters -/

theorem utf8Len_eq_length_iff {t : List Char} : utf8Len t = t.length ↔ IsAscii t :=
  utf8Len_ascii_iff.trans (forall₂_congr fun _ _ => Char.utf8Size_eq_one_iff)

theorem isCode_iff {x : List Char} : isCode x = true ↔ IsCode x := by
  have hlen : (∀ c ∈ x, c.isAlphanum = true) → utf8Len x = x.length := fun h =>
    utf8Len_eq_length_iff.mpr fun c hc => by
      have := h c hc
      simp only [Char.isAlphanum, Char.isAlpha, Char.isUpper, Char.isLower, Char.isDigit,
        Bool.or_eq_true, Bool.and_eq_true, decide_eq_true_eq, UInt32.le_iff_toNat_le] at this ⊢
      simp at this ⊢
      omega
  simp only [isCode, IsCode, Bool.and_eq_true, decide_eq_true_eq, List.all_eq_true, and_assoc]
  constructor
  · rintro ⟨h2, h10, hx⟩
    rw [hlen hx] at h2 h10
    exact ⟨h2, h10, hx⟩
  · rintro ⟨h2, h10, hx⟩
    rw [hlen hx]
    exact ⟨h2, h10, hx⟩

/-- A trimmed text does not end with white space. -/
theorem eq_nil_of_trim {s : String} {p rest : List Char} (h : (trim s).toList = p ++ rest)
    (hrest : ∀ c ∈ rest, isWhitespace c = true) : rest = [] := by
  rcases List.eq_nil_or_concat' rest with rfl | ⟨r, c, rfl⟩
  · rfl
  · have hrev : List.dropWhile isWhitespace (s.toList.dropWhile isWhitespace).reverse =
        c :: (p ++ r).reverse := by
      rw [trim, String.toList_ofList] at h
      rw [← List.reverse_reverse (List.dropWhile isWhitespace _), h]
      simp
    have hhead := List.head?_dropWhile_not isWhitespace (s.toList.dropWhile isWhitespace).reverse
    rw [hrev] at hhead
    simp [hrest c (by simp)] at hhead

/-! ## The label -/

theorem entityLabel_eq_some {after : List Char} {l : String} :
    entityLabel after = some l ↔
      1 < utf8Len (firstWord after) ∧ l = String.ofList (trimEndCommas (firstWord after)) := by
  unfold entityLabel
  split
  · rename_i h
    simp [h, eq_comm]
  · rename_i h
    simp [h]

/-- `extract_entity` cuts the title at the offset of the keyword's end in the lower-cased one. -/
theorem extractEntity_eq (L : String → String) (title : String) :
    extractEntity L title =
      match keywordEnd L title with
      | none => some (some .other, none)
      | some (e, n) => (dropBytes n title.toList).map fun after => (some e, entityLabel after) := by
  unfold extractEntity keywordEnd
  dsimp only
  rcases find "participant".toList (L title).toList with - | pos
  · rcases find "peer".toList (L title).toList with - | pos
    · rfl
    · dsimp only [Option.map_some]
      cases dropBytes (pos + 4) title.toList <;> rfl
  · dsimp only
    cases dropBytes (pos + 11) title.toList <;> rfl

theorem infix_of_suffix_word (after : List Char) : trimEndCommas (firstWord after) <:+: after := by
  have htrim : (trim (String.ofList after)).toList <:+: after := by
    have h1 : after.dropWhile isWhitespace <:+ after := List.dropWhile_suffix _
    have h2 : ((after.dropWhile isWhitespace).reverse.dropWhile isWhitespace).reverse <+:
        after.dropWhile isWhitespace := by
      rw [← List.reverse_suffix, List.reverse_reverse]
      exact List.dropWhile_suffix _
    rw [trim, String.toList_ofList, String.toList_ofList]
    exact h2.isInfix.trans h1.isInfix
  have hcommas : trimEndCommas (firstWord after) <+: firstWord after := by
    rw [trimEndCommas, ← List.reverse_suffix, List.reverse_reverse]
    exact List.dropWhile_suffix _
  exact (hcommas.trans (List.takeWhile_prefix _)).isInfix.trans htrim

def LabelDocumented (L : String → String) (t : List Char)
    (p : Option NamedEntityType × Option String) : Prop :=
  ∀ l, p.2 = some l → ∃ e, p.1 = some e ∧ FollowsKeyword L t e l.toList

theorem labelDocumented_iff {L : String → String} {title : String} :
    (∃ p, extractEntity L title = some p ∧ LabelDocumented L title.toList p) ↔
      LabelInPlace L title := by
  rw [extractEntity_eq, LabelInPlace]
  rcases keywordEnd L title with - | ⟨e, n⟩
  · simp [LabelDocumented]
  simp only [Option.map_eq_some_iff, Option.some.injEq, Prod.mk.injEq, and_imp]
  constructor
  · rintro ⟨_, ⟨after, hdrop, rfl⟩, hlabel⟩ _ _ rfl rfl
    obtain ⟨before, hsplit, hlen⟩ := dropBytes_eq_some.mp hdrop
    refine ⟨before, after, hsplit.symm, hlen, Or.inr ?_⟩
    rcases Nat.lt_or_ge 1 (utf8Len (firstWord after)) with hlong | hshort
    · have hl : entityLabel after = some (String.ofList (trimEndCommas (firstWord after))) :=
        entityLabel_eq_some.mpr ⟨hlong, rfl⟩
      dsimp only [LabelDocumented] at hlabel
      obtain ⟨e', he', hfollows⟩ := hlabel _ hl
      obtain rfl := Option.some.inj he'
      rw [String.toList_ofList] at hfollows
      exact Or.inr hfollows
    · exact Or.inl hshort
  · intro h
    obtain ⟨before, after, hsplit, hlen, hplace⟩ := h e n rfl rfl
    have hdrop : dropBytes n title.toList = some after :=
      dropBytes_eq_some.mpr ⟨before, hsplit.symm, hlen⟩
    refine ⟨(some e, entityLabel after), ⟨after, hdrop, rfl⟩, ?_⟩
    dsimp only [LabelDocumented]
    intro l hl
    refine ⟨e, rfl, ?_⟩
    obtain ⟨hlong, hl⟩ := entityLabel_eq_some.mp hl
    rw [hl, String.toList_ofList]
    rcases hplace with ⟨u, k, w, rfl, hk⟩ | hshort | hfollows
    · -- the offset is behind the keyword, and so is every word from there on
      exact ⟨u, k, w ++ after, by simpa using hsplit, hk,
        (infix_of_suffix_word after).trans (List.suffix_append w after).isInfix⟩
    · omega
    · exact hfollows

/-! ## The reading -/

/-- What a branch of `interpret` returns, but for its entity. -/
structure Branch where
  qualifier : Option AttachmentQualifier
  redundancy : Option Bool
  confidence : InterpretationConfidence
  note : Option String

def Branch.reading (b : Branch) (title : String) (p : Option NamedEntityType × Option String) :
    ConventionInterpretation where
  rawTitle := title
  namedEntityType := p.1
  namedEntityLabel := p.2
  attachmentQualifier := b.qualifier
  redundancyExpected := b.redundancy
  provenance := "GRNOC title convention: trailing parenthesized code indicates expected redundancy"
  confidence := b.confidence
  note := b.note

structure Branch.Documented (b : Branch) (t : List Char) : Prop where
  redundancy : b.redundancy = some true ↔ TrailingCode t
  ambiguous : ManyPhrases t → b.confidence = .ambiguous ∧ b.redundancy = none
  raw : ∀ q, b.qualifier = some q → ∃ x, Outer t q.charOffset x ∧ q.raw.toList = '(' :: x ++ [')']

/-- The branch a title takes; `none` where a cut of the title panics. -/
def branchOf (title : String) : Option Branch :=
  match findParentheticals title.toList with
  | [] => some ⟨none, some false, .clear, none⟩
  | _ :: _ :: _ =>
    some ⟨none, none, .ambiguous, some "ambiguous GRNOC title structure: multiple parenthetical phrases"⟩
  | [(start, stop, code)] => (dropBytes stop title.toList).bind fun trailingText =>
    if !trimBlank (String.ofList trailingText) then
      some ⟨none, some false, .clear,
        some s!"parenthetical '({String.ofList code})' is not trailing — not interpreted as attachment qualifier"⟩
    else (slice title.toList start stop).map fun raw =>
      ⟨some ⟨String.ofList raw, String.ofList (code.map Char.toUpper), start⟩, some true, .clear, none⟩

theorem interpret_eq (L : String → String) (title : String) :
    interpret L title = (branchOf (trim title)).bind fun b =>
      (extractEntity L (trim title)).map (b.reading (trim title)) := by
  unfold interpret branchOf
  dsimp only
  rcases findParentheticals (trim title).toList with - | ⟨⟨i, j, x⟩, - | ⟨⟨k, l, y⟩, rest⟩⟩
  · cases extractEntity L (trim title) <;> rfl
  · dsimp only
    rcases dropBytes j (trim title).toList with - | rest
    · rfl
    dsimp only [bind, Option.bind]
    split
    · cases extractEntity L (trim title) <;> rfl
    · rcases slice (trim title).toList i j with - | raw
      · rfl
      · cases extractEntity L (trim title) <;> rfl
  · cases extractEntity L (trim title) <;> rfl

theorem exists_documented_iff {L : String → String} {title : String} {b : Branch} :
    (∃ r, (extractEntity L title).map (b.reading title) = some r ∧ Documented L title.toList r) ↔
      b.Documented title.toList ∧ LabelInPlace L title := by
  rw [← labelDocumented_iff]
  constructor
  · rintro ⟨r, hr, hdoc⟩
    obtain ⟨p, hp, rfl⟩ := Option.map_eq_some_iff.mp hr
    exact ⟨⟨hdoc.redundancy, hdoc.ambiguous, hdoc.raw⟩, p, hp, hdoc.label⟩
  · rintro ⟨hb, p, hp, hlabel⟩
    exact ⟨b.reading title p, by rw [hp]; rfl, hb.redundancy, hb.ambiguous, hb.raw, hlabel⟩

theorem OnlyPhrase.not_many {t x : List Char} {i : Nat} (h : OnlyPhrase t i x) : ¬ ManyPhrases t := by
  rintro ⟨a, y, b, z, ha, hb, hne⟩
  exact hne ((h.2 a y ha).trans (h.2 b z hb).symm)

theorem OnlyPhrase.eq {t x y : List Char} {i k : Nat} (h : OnlyPhrase t i x) (hk : Outer t k y) :
    k = i ∧ y = x := by
  obtain rfl := h.2 k y hk
  exact ⟨rfl, hk.1.unique h.1.1⟩

theorem SeenCode.isCode' {t x : List Char} {i : Nat} (h : SeenCode t i x) : IsCode x := isCode_iff.mp h.code

section Branches

variable {L : String → String} {title : String}

theorem not_seenCode (h : findParentheticals title.toList = []) (i : Nat) (x : List Char) :
    ¬ SeenCode title.toList i x := fun hseen => by
  have := mem_findParentheticals.mpr ⟨hseen, rfl⟩
  rw [h] at this
  exact absurd this (by simp)

/-- No code is seen: the reading is "not redundant". -/
theorem readInPlace_of_nil (h : findParentheticals title.toList = []) :
    Branch.Documented ⟨none, some false, .clear, none⟩ title.toList ∧ LabelInPlace L title ↔
      ReadInPlace L title := by
  have hno := not_seenCode h
  constructor
  · rintro ⟨hb, hlabel⟩
    refine ⟨fun hmany => absurd (hb.ambiguous hmany).2 (by simp), fun i x honly hcode hend => ?_,
      fun i x honly hcode _ hclosed => absurd ⟨honly.1, isCode_iff.mpr hcode, hclosed⟩ (hno i x), hlabel⟩
    exact absurd (hb.redundancy.mpr ⟨i, x, honly, hcode, hend⟩) (by simp)
  · intro hread
    refine ⟨⟨⟨fun hf => absurd hf (by simp), ?_⟩, fun hmany => ?_, fun q hq => absurd hq (by simp)⟩,
      hread.label⟩
    · rintro ⟨i, x, honly, hcode, hend⟩
      exact absurd ⟨honly.1, isCode_iff.mpr hcode, (hread.trailing i x honly hcode hend).1⟩ (hno i x)
    · obtain ⟨i, x, -, -, hi, -⟩ := hread.many hmany
      exact absurd hi (hno i x)

/-- Two codes are seen: the title is ambiguous. -/
theorem readInPlace_of_two {note : Option String} {i j k l : Nat} {x y : List Char}
    {rest : List (Nat × Nat × List Char)}
    (h : findParentheticals title.toList = (i, j, x) :: (k, l, y) :: rest) :
    Branch.Documented ⟨none, none, .ambiguous, note⟩ title.toList ∧ LabelInPlace L title ↔
      ReadInPlace L title := by
  have hi : SeenCode title.toList i x := ((mem_findParentheticals (b := j)).mp (by simp [h])).1
  have hk : SeenCode title.toList k y := ((mem_findParentheticals (b := l)).mp (by simp [h])).1
  have hne : i ≠ k := by
    have := pairwise_findParentheticals title.toList
    rw [h] at this
    exact Nat.ne_of_lt ((List.pairwise_cons.mp this).1 (k, l, y) (by simp))
  have hmany : ManyPhrases title.toList := ⟨i, x, k, y, hi.outer, hk.outer, hne⟩
  constructor
  · rintro ⟨-, hlabel⟩
    exact ⟨fun _ => ⟨i, x, k, y, hi, hk, hne⟩, fun _ _ honly => absurd hmany honly.not_many,
      fun _ _ honly => absurd hmany honly.not_many, hlabel⟩
  · intro hread
    refine ⟨⟨⟨fun hf => absurd hf (by simp), ?_⟩, fun _ => ⟨rfl, rfl⟩, fun q hq => absurd hq (by simp)⟩,
      hread.label⟩
    rintro ⟨_, _, honly, -⟩
    exact absurd hmany honly.not_many

variable {i j : Nat} {x : List Char}

theorem seenCode_of_one (h : findParentheticals title.toList = [(i, j, x)]) :
    SeenCode title.toList i x ∧ j = i + x.length + 2 ∧
      ∀ k y, SeenCode title.toList k y → k = i := by
  have hmem : (i, j, x) ∈ findParentheticals title.toList := by simp [h]
  obtain ⟨hseen, hj⟩ := mem_findParentheticals.mp hmem
  refine ⟨hseen, hj, fun k y hk => ?_⟩
  have := mem_findParentheticals.mpr ⟨hk, rfl⟩
  rw [h, List.mem_singleton] at this
  exact congrArg Prod.fst this

theorem not_many_of_one (h : findParentheticals title.toList = [(i, j, x)]) (hread : ReadInPlace L title) :
    ¬ ManyPhrases title.toList := fun hmany => by
  obtain ⟨-, -, huniq⟩ := seenCode_of_one h
  obtain ⟨a, y, b, z, ha, hb, hne⟩ := hread.many hmany
  exact hne ((huniq a y ha).trans (huniq b z hb).symm)

theorem onlyPhrase_of_one (h : findParentheticals title.toList = [(i, j, x)])
    (hmany : ¬ ManyPhrases title.toList) : OnlyPhrase title.toList i x := by
  refine ⟨(seenCode_of_one h).1.outer, fun k y hk => ?_⟩
  by_contra hne
  exact hmany ⟨k, y, i, x, hk, (seenCode_of_one h).1.outer, hne⟩

/-- One code is seen, and its end is no byte offset: `interpret` panics. -/
theorem not_readInPlace_of_drop (h : findParentheticals title.toList = [(i, j, x)])
    (hdrop : dropBytes j title.toList = none) : ¬ ReadInPlace L title := fun hread => by
  obtain ⟨hseen, hj, -⟩ := seenCode_of_one h
  have honly := onlyPhrase_of_one h (not_many_of_one h hread)
  have hle := hseen.outer.1.lt_length
  have hbound : IsCharBoundary title.toList j := by
    rcases Nat.lt_or_eq_of_le hle with hlt | heq
    · rw [hj]
      exact hread.internal i x honly hseen.isCode' hlt hseen.closed
    · have hascii := (hread.trailing i x honly hseen.isCode' heq).2
      exact ⟨title.toList, [], by simp, by rw [utf8Len_eq_length_iff.mpr hascii, ← heq, hj]⟩
  obtain ⟨p, t, hpt, hlen⟩ := hbound
  rw [dropBytes_eq_some.mpr ⟨p, hpt, hlen⟩] at hdrop
  exact absurd hdrop (by simp)

/-- The code is cut off as the end of the title only if the title is ASCII. -/
theorem rest_eq_nil_iff {rest : List Char} (h : findParentheticals title.toList = [(i, j, x)])
    (hdrop : dropBytes j title.toList = some rest) :
    rest = [] ↔ i + x.length + 2 = title.toList.length ∧ IsAscii title.toList := by
  obtain ⟨hseen, rfl, -⟩ := seenCode_of_one h
  obtain ⟨p, hp, hlen⟩ := dropBytes_eq_some.mp hdrop
  have hle := hseen.outer.1.lt_length
  have hbytes := length_le_utf8Len title.toList
  constructor
  · rintro rfl
    rw [List.append_nil] at hp
    rw [hp] at hlen
    exact ⟨by omega, utf8Len_eq_length_iff.mp (by omega)⟩
  · rintro ⟨hend, hascii⟩
    -- the whole title is before the offset
    have hfull := utf8Len_eq_length_iff.mpr hascii
    rw [← hend, ← hp, String.utf8Len_append, hlen] at hfull
    exact String.utf8Len_eq_zero.mp (by omega)

/-- One code is seen, with text behind it: the reading is "not redundant". -/
theorem readInPlace_of_internal {note : Option String} {rest : List Char}
    (h : findParentheticals title.toList = [(i, j, x)]) (hdrop : dropBytes j title.toList = some rest)
    (hrest : rest ≠ []) :
    Branch.Documented ⟨none, some false, .clear, note⟩ title.toList ∧ LabelInPlace L title ↔
      ReadInPlace L title := by
  obtain ⟨hseen, hj, -⟩ := seenCode_of_one h
  obtain ⟨p, hp, hlen⟩ := dropBytes_eq_some.mp hdrop
  constructor
  · rintro ⟨hb, hlabel⟩
    refine ⟨fun hmany => absurd (hb.ambiguous hmany).2 (by simp), fun k y honly hcode hend => ?_,
      fun k y honly hcode _ _ => ?_, hlabel⟩
    · exact absurd (hb.redundancy.mpr ⟨k, y, honly, hcode, hend⟩) (by simp)
    · obtain ⟨rfl, rfl⟩ := honly.eq hseen.outer
      exact ⟨p, rest, hp, hlen.trans hj⟩
  · intro hread
    refine ⟨⟨⟨fun hf => absurd hf (by simp), ?_⟩,
      fun hmany => absurd hmany (not_many_of_one h hread), fun q hq => absurd hq (by simp)⟩, hread.label⟩
    rintro ⟨k, y, honly, hcode, hend⟩
    have hascii := (hread.trailing k y honly hcode hend).2
    obtain ⟨rfl, rfl⟩ := honly.eq hseen.outer
    exact absurd ((rest_eq_nil_iff h hdrop).mpr ⟨hend, hascii⟩) hrest

theorem Outer.split {t : List Char} (h : Outer t i x) :
    ∃ p s, t = p ++ ('(' :: x ++ [')']) ++ s ∧ p.length = i := by
  obtain ⟨p, s, rfl, hp, -⟩ := h.1
  exact ⟨p, s, by simp, hp⟩

theorem IsAscii.utf8Len {p t : List Char} (h : IsAscii t) (hp : ∀ c ∈ p, c ∈ t) : utf8Len p = p.length :=
  utf8Len_eq_length_iff.mpr fun c hc => h c (hp c hc)

theorem slice_of_ascii {t : List Char} (hascii : IsAscii t) (h : Outer t i x) :
    slice t i (i + x.length + 2) = some ('(' :: x ++ [')']) := by
  obtain ⟨p, s, rfl, rfl⟩ := Outer.split h
  refine slice_eq_some.mpr ⟨p, s, rfl, hascii.utf8Len fun c hc => by simp [hc], ?_⟩
  rw [hascii.utf8Len fun c hc => by simp only [List.mem_append] at hc ⊢; exact Or.inl hc]
  simp only [List.length_append, List.length_cons, List.length_nil]
  omega

theorem readInPlace_of_trailing (h : findParentheticals title.toList = [(i, j, x)])
    (hdrop : dropBytes j title.toList = some []) {q : AttachmentQualifier} (hoff : q.charOffset = i)
    (hraw : q.raw.toList = '(' :: x ++ [')']) :
    Branch.Documented ⟨some q, some true, .clear, none⟩ title.toList ∧ LabelInPlace L title ↔
      ReadInPlace L title := by
  obtain ⟨hseen, hj, -⟩ := seenCode_of_one h
  obtain ⟨hend, hascii⟩ := (rest_eq_nil_iff h hdrop).mp rfl
  constructor
  · rintro ⟨hb, hlabel⟩
    refine ⟨fun hmany => absurd (hb.ambiguous hmany).2 (by simp), fun k y honly hcode _ => ?_,
      fun k y honly hcode hlt _ => ?_, hlabel⟩
    · obtain ⟨rfl, rfl⟩ := honly.eq hseen.outer
      exact ⟨hseen.closed, hascii⟩
    · obtain ⟨rfl, rfl⟩ := honly.eq hseen.outer
      omega
  · intro hread
    have hmany := not_many_of_one h hread
    refine ⟨⟨⟨fun _ => ⟨i, x, onlyPhrase_of_one h hmany, hseen.isCode', hend⟩, fun _ => rfl⟩,
      fun hm => absurd hm hmany, fun q' hq' => ?_⟩, hread.label⟩
    obtain rfl := Option.some.inj hq'
    exact ⟨x, hoff ▸ hseen.outer, hraw⟩

end Branches

/-- What the branch of a title with one code is. -/
theorem branchOf_one {s : String} {i j : Nat} {x rest : List Char} (ht : title = trim s)
    (h : findParentheticals title.toList = [(i, j, x)]) (hdrop : dropBytes j title.toList = some rest) :
    branchOf title =
      if rest = [] then
        some ⟨some ⟨String.ofList ('(' :: x ++ [')']), String.ofList (x.map Char.toUpper), i⟩,
          some true, .clear, none⟩
      else some ⟨none, some false, .clear,
        some s!"parenthetical '({String.ofList x})' is not trailing — not interpreted as attachment qualifier"⟩ := by
  unfold branchOf
  simp only [h, hdrop, Option.bind_some]
  have hblank : trimBlank (String.ofList rest) = true ↔ rest = [] := by
    rw [trimBlank, String.toList_ofList, List.all_eq_true]
    constructor
    · intro hall
      obtain ⟨p, hsplit, -⟩ := dropBytes_eq_some.mp hdrop
      exact eq_nil_of_trim (by rw [← ht, ← hsplit]) hall
    · rintro rfl
      simp
  by_cases hrest : rest = []
  · obtain ⟨-, hascii⟩ := (rest_eq_nil_iff h hdrop).mp hrest
    obtain ⟨hseen, rfl, -⟩ := seenCode_of_one h
    simp only [hblank.mpr hrest, slice_of_ascii hascii hseen.outer, if_pos hrest]
    rfl
  · simp [Bool.eq_false_iff.mpr fun hb => hrest (hblank.mp hb), hrest]

/-- The title is read as documented exactly if its phrases and its keyword stand where the code
looks for them. -/
theorem documented_iff (toLowercase : String → String) (title : String) :
    (∃ r, interpret toLowercase title = some r ∧ Documented toLowercase (trim title).toList r) ↔
      ReadInPlace toLowercase (trim title) := by
  rw [interpret_eq]
  rcases h : findParentheticals (trim title).toList with - | ⟨⟨i, j, x⟩, - | ⟨⟨k, l, y⟩, rest⟩⟩
  · simp only [branchOf, h, Option.bind_some]
    exact exists_documented_iff.trans (readInPlace_of_nil h)
  · rcases hdrop : dropBytes j (trim title).toList with - | rest
    · simp [branchOf, h, hdrop, not_readInPlace_of_drop h hdrop]
    rw [branchOf_one rfl h hdrop]
    split
    · rename_i hrest
      rw [Option.bind_some]
      exact exists_documented_iff.trans
        (readInPlace_of_trailing h (by rw [hdrop, hrest]) rfl (String.toList_ofList))
    · rename_i hrest
      rw [Option.bind_some]
      exact exists_documented_iff.trans (readInPlace_of_internal h hdrop hrest)
  · simp only [branchOf, h, Option.bind_some]
    exact exists_documented_iff.trans (readInPlace_of_two h)

/-- Of two phrases only one is a code, and the title is read as if it were the only one. -/
theorem not_documented_two_phrases :
    ¬ ∃ r, interpret asciiLowercase "Outage (unplanned event) - I2 Peer RIPE (NEWA)" = some r ∧
      Documented asciiLowercase (trim "Outage (unplanned event) - I2 Peer RIPE (NEWA)").toList r := by
  rintro ⟨r, hr, hdoc⟩
  have hred : (interpret asciiLowercase "Outage (unplanned event) - I2 Peer RIPE (NEWA)").map
      (·.redundancyExpected) = some (some true) := by decide
  rw [hr] at hred
  have hmany : ManyPhrases (trim "Outage (unplanned event) - I2 Peer RIPE (NEWA)").toList := by
    have hfirst := outer_of_balanced (p := "Outage ".toList) (x := "unplanned event".toList)
      (s := " - I2 Peer RIPE (NEWA)".toList) (by decide) (by decide)
    have hsecond := outer_of_balanced (p := "Outage (unplanned event) - I2 Peer RIPE ".toList)
      (x := "NEWA".toList) (s := []) (by decide) (by decide)
    exact ⟨_, _, _, _, hfirst, hsecond, by decide⟩
  exact absurd ((Option.some.inj hred).symm.trans (hdoc.ambiguous hmany).2) (by decide)

-- the end of the code is character 13, and byte 13 is inside a character
example : interpret asciiLowercase "東京IX障害 (TYO1)" = none := by decide

end Inim.Grnoc
