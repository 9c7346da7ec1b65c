import Inim.Assess
import Inim.Conventions.Titles
import Inim.Sources.Record
/-!
# The expectation of a ticket (`sources/internet2/ticket.rs:49-91`, `profiles/internet2.rs:14-58`)

| here | there |
| --- | --- |
| `ImpactExpectation`, `RedundancyIndicator` | `domain/expectation.rs:8`, `:54` |
| `captures`, `detectRedundancyIndicator` | `\(([A-Z][A-Z0-9-]{2,9})\)` and its caller (`ticket.rs:74`) |
| `deriveExpectation`  | `derive_expectation` (`ticket.rs:57`) |
| `ProfileContext`, `apply` | `profiles/mod.rs:32`, `profiles/internet2.rs:15` |

A ticket file is read by `derive_expectation`, a GRNOC record by `apply`. The first takes any site
code in the title as redundancy and knows only the keyword `Participant`; the second asks the shared
convention for the title's only code, at its end, and knows peers as well. `apply_kind_iff` says for
which titles they find the same kind.
-/

namespace Inim

open Lib Grnoc
open String (utf8Len)

structure RedundancyIndicator where
  hasParenthesizedSite : Bool
  siteCode : Option String
deriving DecidableEq, Repr

structure ImpactExpectation where
  kind : ExpectationKind
  description : String
  provenance : String
deriving DecidableEq, Repr

namespace ImpactExpectation

def redundantOf (siteCode : Option String) (provenance : String) : ImpactExpectation where
  kind := .redundant
  description := match siteCode with
    | some code => s!"Parenthesized site code ({code}) indicates expected redundancy"
    | none => "Redundancy expected"
  provenance := provenance

def nonRedundant (provenance : String) : ImpactExpectation where
  kind := .nonRedundant
  description := "No parenthesized site code — loss of reachability may be expected"
  provenance := provenance

def participantUnavailable (provenance : String) : ImpactExpectation where
  kind := .participantRelationshipUnavailable
  description := "Non-parenthesized participant title — managed-network participant relationship may be unavailable. Impact may include path departure from the reviewed transit predicate, alternate routing, or partial restorations."
  provenance := provenance

def unknownOf (provenance : String) : ImpactExpectation where
  kind := .unknown
  description := "Unable to determine expectation"
  provenance := provenance

def peerRelationshipUnavailable (provenance : String) : ImpactExpectation where
  kind := .peerRelationshipUnavailable
  description := "Non-parenthesized peer title — GRNOC peer relationship may be unavailable. No attachment qualifier indicates expected peer unavailability."
  provenance := provenance

end ImpactExpectation

namespace Internet2

/-! ## The ticket parser -/

/-- `[A-Z0-9-]`. -/
def isSiteChar (c : Char) : Bool := c.isUpper || c.isDigit || c == '-'

/-- `[A-Z][A-Z0-9-]{2,9}`. -/
def isSite : List Char → Bool
  | [] => false
  | c :: cs => c.isUpper && cs.all isSiteChar && 2 ≤ cs.length && cs.length ≤ 9

/-- The regular expression behind its parenthesis. No site character closes one, so the code is all
the site characters there are. -/
def siteAt (cs : List Char) : Option (List Char) :=
  match cs.dropWhile isSiteChar with
  | ')' :: _ => if isSite (cs.takeWhile isSiteChar) then some (cs.takeWhile isSiteChar) else none
  | _ => none

/-- `re.captures(title)`, its first group. -/
def captures : List Char → Option (List Char)
  | [] => none
  | c :: cs => if c = '(' then (siteAt cs).or (captures cs) else captures cs

def detectRedundancyIndicator (title : String) : RedundancyIndicator :=
  match captures title.toList with
  | some code => { hasParenthesizedSite := true, siteCode := some (String.ofList code) }
  | none => { hasParenthesizedSite := false, siteCode := none }

def deriveExpectation (ticket : Internet2Ticket) : ImpactExpectation :=
  let indicator := detectRedundancyIndicator ticket.title
  let provenance := "Internet2 title convention: parenthesized site code indicates expected redundancy"
  if indicator.hasParenthesizedSite then .redundantOf indicator.siteCode provenance
  else if textContains ticket.title "Participant" then .participantUnavailable provenance
  else .nonRedundant provenance

/-! ## The profile -/

structure ProfileContext where
  expectation : ImpactExpectation
  originAsns : List UInt32
  transitAsn : UInt32
  warmupMinutes : Int
  cooldownMinutes : Int
  collectors : List String
deriving DecidableEq, Repr

/-- `none` is the panic of `interpret`. -/
def apply (toLowercase : String → String) (record : GrnocRecord) : Option ProfileContext := do
  let interp ← interpret toLowercase record.shortDescription
  let provenance := "Internet2 (GRNOC): trailing parenthesized site code indicates expected redundancy"
  let expectation : ImpactExpectation := match interp.redundancyExpected with
    | some true => .redundantOf (interp.attachmentQualifier.map (·.normalized)) provenance
    | some false => match interp.namedEntityType with
      | some .participant => .participantUnavailable provenance
      | some .peer => .peerRelationshipUnavailable provenance
      | _ => .nonRedundant provenance
    | none => .unknownOf provenance
  return {
    expectation
    originAsns := []
    transitAsn := 11537
    warmupMinutes := 60
    cooldownMinutes := 60
    collectors := ["route-views2", "route-views6"] }

/-! ## Where they agree -/

/-- The title has a site code in parentheses. -/
def HasSite (t : List Char) : Prop :=
  ∃ p code s, t = p ++ '(' :: code ++ ')' :: s ∧ isSite code = true

/-- The only code that the scanner sees, at the end of an ASCII title. -/
def EndsWithCode (t : List Char) : Prop :=
  ∃ i x, SeenCode t i x ∧ (∀ k y, SeenCode t k y → k = i) ∧ i + x.length + 2 = t.length ∧ IsAscii t

/-- There is one code at most, not at the end of an ASCII title, and its end in characters is a byte
offset of the title. -/
structure NoCodeAtEnd (t : List Char) : Prop where
  one : ∀ i x k y, SeenCode t i x → SeenCode t k y → k = i
  internal : ∀ i x, SeenCode t i x →
    IsCharBoundary t (i + x.length + 2) ∧ ¬ (i + x.length + 2 = t.length ∧ IsAscii t)

/-- The keyword that each path finds. -/
def SameKeyword (toLowercase : String → String) (title : String) : Prop :=
  if textContains title "Participant" then ∃ n, keywordEnd toLowercase (trim title) = some (.participant, n)
  else keywordEnd toLowercase (trim title) = none

structure SameReading (toLowercase : String → String) (title : String) : Prop where
  keyword : ∀ e n, keywordEnd toLowercase (trim title) = some (e, n) →
    IsCharBoundary (trim title).toList n
  site : HasSite title.toList → EndsWithCode (trim title).toList
  noSite : ¬ HasSite title.toList →
    NoCodeAtEnd (trim title).toList ∧ SameKeyword toLowercase title

theorem isSite_chars {code : List Char} (h : isSite code = true) : ∀ c ∈ code, isSiteChar c = true := by
  cases code with
  | nil => simp
  | cons c cs =>
    simp only [isSite, Bool.and_eq_true, decide_eq_true_eq] at h
    obtain ⟨⟨⟨hc, hcs⟩, -⟩, -⟩ := h
    rintro a (_ | ⟨_, ha⟩)
    · simp [isSiteChar, hc]
    · exact List.all_eq_true.mp hcs a ha

theorem siteAt_eq_some {cs code : List Char} :
    siteAt cs = some code ↔ isSite code = true ∧ ∃ s, cs = code ++ ')' :: s := by
  constructor
  · intro h
    have hsplit := List.takeWhile_append_dropWhile (p := isSiteChar) (l := cs)
    unfold siteAt at h
    split at h
    · rename_i s hdrop
      split at h
      · rename_i hsite
        rw [hdrop] at hsplit
        obtain rfl := Option.some.inj h
        exact ⟨hsite, s, hsplit.symm⟩
      · exact absurd h (by simp)
    · exact absurd h (by simp)
  · rintro ⟨hcode, s, rfl⟩
    have hstop : isSiteChar ')' = false := by decide
    have htake : (code ++ ')' :: s).takeWhile isSiteChar = code := by
      rw [List.takeWhile_append_of_pos (isSite_chars hcode)]
      simp [hstop]
    have hdrop : (code ++ ')' :: s).dropWhile isSiteChar = ')' :: s := by
      rw [List.dropWhile_append_of_pos (isSite_chars hcode)]
      simp [hstop]
    unfold siteAt
    rw [hdrop, htake, if_pos hcode]
    rfl

theorem captures_isSome_iff {t : List Char} : (captures t).isSome ↔ HasSite t := by
  induction t with
  | nil =>
    simp only [captures, Option.isSome_none, Bool.false_eq_true, false_iff]
    rintro ⟨p, code, s, h, -⟩
    exact absurd (congrArg List.length h) (by simp)
  | cons c cs ih =>
    have hcons : HasSite (c :: cs) ↔ (c = '(' ∧ (siteAt cs).isSome) ∨ HasSite cs := by
      constructor
      · rintro ⟨p, code, s, h, hcode⟩
        cases p with
        | nil =>
          obtain ⟨rfl, rfl⟩ := List.cons.inj h
          exact Or.inl ⟨rfl, Option.isSome_iff_exists.mpr ⟨code, siteAt_eq_some.mpr ⟨hcode, s, rfl⟩⟩⟩
        | cons a p => exact Or.inr ⟨p, code, s, (List.cons.inj h).2, hcode⟩
      · rintro (⟨rfl, h⟩ | ⟨p, code, s, rfl, hcode⟩)
        · obtain ⟨code, h⟩ := Option.isSome_iff_exists.mp h
          obtain ⟨hcode, s, rfl⟩ := siteAt_eq_some.mp h
          exact ⟨[], code, s, rfl, hcode⟩
        · exact ⟨c :: p, code, s, rfl, hcode⟩
    rw [hcons, ← ih, captures]
    split
    · rename_i hc
      simp [hc]
    · rename_i hc
      simp [hc]

theorem kind_deriveExpectation (ticket : Internet2Ticket) :
    (HasSite ticket.title.toList → (deriveExpectation ticket).kind = .redundant) ∧
      (¬ HasSite ticket.title.toList → (deriveExpectation ticket).kind =
        if textContains ticket.title "Participant" then .participantRelationshipUnavailable
        else .nonRedundant) := by
  unfold deriveExpectation detectRedundancyIndicator
  rw [← captures_isSome_iff]
  cases captures ticket.title.toList with
  | none =>
    simp only [Option.isSome_none, Bool.false_eq_true, if_false, false_implies, not_false_eq_true,
      true_implies, true_and]
    split <;> rfl
  | some code => simp [ImpactExpectation.redundantOf]

/-! ## The kind that the convention gives -/

/-- The kind that a branch and a keyword give. -/
def kindOf (redundancy : Option Bool) (entity : Option NamedEntityType) : ExpectationKind :=
  match redundancy with
  | some true => .redundant
  | some false => match entity with
    | some .participant => .participantRelationshipUnavailable
    | some .peer => .peerRelationshipUnavailable
    | _ => .nonRedundant
  | none => .unknown

def entityOf (toLowercase : String → String) (title : String) : NamedEntityType :=
  (keywordEnd toLowercase title).elim .other Prod.fst

theorem kind_apply (L : String → String) (record : GrnocRecord) :
    (apply L record).map (·.expectation.kind) =
      (branchOf (trim record.shortDescription)).bind fun b =>
        (extractEntity L (trim record.shortDescription)).map fun p => kindOf b.redundancy p.1 := by
  unfold apply
  rw [interpret_eq]
  rcases branchOf (trim record.shortDescription) with - | b
  · rfl
  rcases extractEntity L (trim record.shortDescription) with - | ⟨e, l⟩
  · rfl
  simp only [Option.bind_eq_bind, Option.bind_some, Option.map_some, Branch.reading]
  unfold kindOf
  rcases b.redundancy with - | - | -
  · rfl
  · rcases e with - | - | - | - <;> rfl
  · rfl

/-- The panic of `extract_entity`, and what it returns otherwise. -/
theorem extractEntity_kind {L : String → String} {title : String} {r : Option Bool} {k : ExpectationKind} :
    (extractEntity L title).map (fun p => kindOf r p.1) = some k ↔
      (∀ e n, keywordEnd L title = some (e, n) → IsCharBoundary title.toList n) ∧
        kindOf r (some (entityOf L title)) = k := by
  rw [extractEntity_eq, entityOf]
  rcases keywordEnd L title with - | ⟨e, n⟩
  · simp
  simp only [Option.map_map, Option.map_eq_some_iff, Option.some.injEq, Prod.mk.injEq, and_imp,
    Function.comp_def, Option.elim]
  constructor
  · rintro ⟨after, hdrop, hk⟩
    refine ⟨?_, hk⟩
    rintro _ _ rfl rfl
    obtain ⟨p, hp, hlen⟩ := dropBytes_eq_some.mp hdrop
    exact ⟨p, after, hp, hlen⟩
  · rintro ⟨hbound, hk⟩
    obtain ⟨p, after, hp, hlen⟩ := hbound e n rfl rfl
    exact ⟨after, dropBytes_eq_some.mpr ⟨p, hp, hlen⟩, hk⟩

section Branches

variable {title s : String}

theorem seenCodes_of_two {i j k l : Nat} {x y : List Char} {rest : List (Nat × Nat × List Char)}
    (h : findParentheticals title.toList = (i, j, x) :: (k, l, y) :: rest) :
    SeenCode title.toList i x ∧ SeenCode title.toList k y ∧ i ≠ k := by
  have hi : (i, j, x) ∈ findParentheticals title.toList := by simp [h]
  have hk : (k, l, y) ∈ findParentheticals title.toList := by simp [h]
  have hlt := pairwise_findParentheticals title.toList
  rw [h] at hlt
  exact ⟨(mem_findParentheticals.mp hi).1, (mem_findParentheticals.mp hk).1,
    Nat.ne_of_lt ((List.pairwise_cons.mp hlt).1 (k, l, y) (by simp))⟩

theorem branchOf_redundant_iff (ht : title = trim s) :
    (∃ b, branchOf title = some b ∧ b.redundancy = some true) ↔ EndsWithCode title.toList := by
  rcases h : findParentheticals title.toList with - | ⟨⟨i, j, x⟩, - | ⟨⟨k, l, y⟩, rest⟩⟩
  · simp only [branchOf, h, Option.some.injEq, exists_eq_left', reduceCtorEq, false_iff]
    rintro ⟨i, x, hseen, -⟩
    exact not_seenCode h i x hseen
  · obtain ⟨hseen, hj, huniq⟩ := seenCode_of_one h
    have hends : EndsWithCode title.toList ↔ i + x.length + 2 = title.toList.length ∧ IsAscii title.toList := by
      constructor
      · rintro ⟨k, y, hk, -, hend, hascii⟩
        obtain rfl := huniq k y hk
        obtain rfl := hk.outer.1.unique hseen.outer.1
        exact ⟨hend, hascii⟩
      · rintro ⟨hend, hascii⟩
        exact ⟨i, x, hseen, huniq, hend, hascii⟩
    rw [hends]
    rcases hdrop : dropBytes j title.toList with - | rest
    · simp only [branchOf, h, hdrop, Option.bind_none, reduceCtorEq, false_and, exists_false, false_iff]
      rintro ⟨hend, hascii⟩
      have hfull : dropBytes j title.toList = some [] :=
        dropBytes_eq_some.mpr ⟨title.toList, by simp, by rw [utf8Len_eq_length_iff.mpr hascii]; omega⟩
      rw [hfull] at hdrop
      exact absurd hdrop (by simp)
    · rw [branchOf_one ht h hdrop, ← rest_eq_nil_iff h hdrop]
      split <;> simp [*]
  · obtain ⟨hi, hk, hne⟩ := seenCodes_of_two h
    simp only [branchOf, h, Option.some.injEq, exists_eq_left', reduceCtorEq, false_iff]
    rintro ⟨a, z, -, huniq, -⟩
    exact hne ((huniq i x hi).trans (huniq k y hk).symm)

theorem branchOf_unavailable_iff (ht : title = trim s) :
    (∃ b, branchOf title = some b ∧ b.redundancy = some false) ↔ NoCodeAtEnd title.toList := by
  rcases h : findParentheticals title.toList with - | ⟨⟨i, j, x⟩, - | ⟨⟨k, l, y⟩, rest⟩⟩
  · simp only [branchOf, h, Option.some.injEq, exists_eq_left', true_iff]
    exact ⟨fun i x _ _ hi => absurd hi (not_seenCode h i x), fun i x hi => absurd hi (not_seenCode h i x)⟩
  · obtain ⟨hseen, hj, huniq⟩ := seenCode_of_one h
    have hno : NoCodeAtEnd title.toList ↔ IsCharBoundary title.toList (i + x.length + 2) ∧
        ¬ (i + x.length + 2 = title.toList.length ∧ IsAscii title.toList) := by
      constructor
      · intro hno
        exact hno.internal i x hseen
      · intro hend
        refine ⟨fun a y b z ha hb => (huniq b z hb).trans (huniq a y ha).symm, fun k y hk => ?_⟩
        obtain rfl := huniq k y hk
        obtain rfl := hk.outer.1.unique hseen.outer.1
        exact hend
    rw [hno, ← hj]
    rcases hdrop : dropBytes j title.toList with - | rest
    · simp only [branchOf, h, hdrop, Option.bind_none, reduceCtorEq, false_and, exists_false, false_iff]
      rintro ⟨⟨p, t, hp, hlen⟩, -⟩
      rw [dropBytes_eq_some.mpr ⟨p, hp, hlen⟩] at hdrop
      exact absurd hdrop (by simp)
    · obtain ⟨p, hp, hlen⟩ := dropBytes_eq_some.mp hdrop
      have hbound : IsCharBoundary title.toList j := ⟨p, rest, hp, hlen⟩
      have hrest := rest_eq_nil_iff h hdrop
      rw [← hj] at hrest
      rw [branchOf_one ht h hdrop, ← hrest]
      split
      · rename_i hr
        simp [hr]
      · rename_i hr
        exact iff_of_true ⟨_, rfl, rfl⟩ ⟨hbound, hr⟩
  · obtain ⟨hi, hk, hne⟩ := seenCodes_of_two h
    simp only [branchOf, h, Option.some.injEq, exists_eq_left', reduceCtorEq, false_iff]
    intro hno
    exact hne (hno.one k y i x hk hi)

end Branches

theorem kindOf_redundant_iff (r : Option Bool) (e : NamedEntityType) :
    kindOf r (some e) = .redundant ↔ r = some true := by
  rcases r with - | - | - <;> cases e <;> simp [kindOf]

theorem kindOf_participant_iff (r : Option Bool) (e : NamedEntityType) :
    kindOf r (some e) = .participantRelationshipUnavailable ↔ r = some false ∧ e = .participant := by
  rcases r with - | - | - <;> cases e <;> simp [kindOf]

theorem kindOf_nonRedundant_iff (r : Option Bool) (e : NamedEntityType) :
    kindOf r (some e) = .nonRedundant ↔ r = some false ∧ e = .other := by
  rcases r with - | - | - <;> cases e <;> simp [kindOf]

theorem entityOf_eq_participant_iff {L : String → String} {title : String} :
    entityOf L title = .participant ↔ ∃ n, keywordEnd L title = some (.participant, n) := by
  unfold entityOf
  rcases keywordEnd L title with - | ⟨e, n⟩
  · simp
  · simp

theorem entityOf_eq_other_iff {L : String → String} {title : String} :
    entityOf L title = .other ↔ keywordEnd L title = none := by
  unfold entityOf keywordEnd
  dsimp only
  split
  · simp
  · cases find "peer".toList (L title).toList <;> simp

/-- The kind of the profile is `kind`: no cut of the title panics, and its branch and its keyword
make that kind. -/
theorem exists_apply_iff (L : String → String) (record : GrnocRecord) (kind : ExpectationKind) :
    (∃ ctx, apply L record = some ctx ∧ ctx.expectation.kind = kind) ↔
      (∀ e n, keywordEnd L (trim record.shortDescription) = some (e, n) →
        IsCharBoundary (trim record.shortDescription).toList n) ∧
      ∃ b, branchOf (trim record.shortDescription) = some b ∧
        kindOf b.redundancy (some (entityOf L (trim record.shortDescription))) = kind := by
  rw [← Option.map_eq_some_iff, kind_apply, Option.bind_eq_some_iff]
  simp only [extractEntity_kind]
  constructor
  · rintro ⟨b, hb, hbound, hkind⟩
    exact ⟨hbound, b, hb, hkind⟩
  · rintro ⟨hbound, b, hb, hkind⟩
    exact ⟨b, hb, hbound, hkind⟩

/-- The ticket parser and the profile find the same kind exactly on these titles. -/
theorem apply_kind_iff (toLowercase : String → String) (ticket : Internet2Ticket) (record : GrnocRecord) :
    (∃ ctx, apply toLowercase { record with shortDescription := ticket.title } = some ctx ∧
        ctx.expectation.kind = (deriveExpectation ticket).kind) ↔
      SameReading toLowercase ticket.title := by
  obtain ⟨hwith, hwithout⟩ := kind_deriveExpectation ticket
  rw [exists_apply_iff]
  by_cases hsite : HasSite ticket.title.toList
  · rw [hwith hsite]
    simp only [kindOf_redundant_iff, branchOf_redundant_iff rfl]
    exact ⟨fun h => ⟨h.1, fun _ => h.2, fun hno => absurd hsite hno⟩, fun h => ⟨h.keyword, h.site hsite⟩⟩
  · have hbranch : (∃ b, branchOf (trim ticket.title) = some b ∧
        kindOf b.redundancy (some (entityOf toLowercase (trim ticket.title))) =
          (deriveExpectation ticket).kind) ↔
        NoCodeAtEnd (trim ticket.title).toList ∧ SameKeyword toLowercase ticket.title := by
      rw [hwithout hsite, ← branchOf_unavailable_iff rfl, SameKeyword]
      split
      · simp only [kindOf_participant_iff, entityOf_eq_participant_iff, ← and_assoc, exists_and_right]
      · simp only [kindOf_nonRedundant_iff, entityOf_eq_other_iff, ← and_assoc, exists_and_right]
    rw [hbranch]
    exact ⟨fun h => ⟨h.1, fun hyes => absurd hyes hsite, fun _ => h.2⟩, fun h => ⟨h.keyword, h.noSite hsite⟩⟩

def peerTicket : Internet2Ticket where
  id := "INC0302574"
  title := "Outage - I2 Peer RIPE"
  window := ⟨0, 60000000000⟩
  raw := .null

def peerRecord : GrnocRecord where
  number := peerTicket.id
  taskType := "Incident"
  shortDescription := peerTicket.title
  category := ""
  start := "1970-01-01 00:00:00"
  stop := some "1970-01-01 00:01:00"
  opened := none
  state := "Closed"
  priority := "High"
  description := ""
  sourceUrl := ""
  timezone := none
  stateCode := none
  priorityCode := none
  plannedStart := none
  plannedEnd := none
  maintenanceType := none
  notificationText := none

/-- Of one title, the profile makes a peer relationship and the ticket parser a loss of reachability. -/
theorem kinds_of_peer_differ :
    ¬ ∃ ctx, apply asciiLowercase peerRecord = some ctx ∧
      ctx.expectation.kind = (deriveExpectation peerTicket).kind := by
  rw [← Option.map_eq_some_iff]
  decide

end Internet2

end Inim
