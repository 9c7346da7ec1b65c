import Inim.Catalog.CanonicalPlan
import Inim.Domain.IpText
import Inim.Lib.Codes
import Inim.Target

/-!
# Does the plan hash tell analyses apart? (`catalog/jobs/plan.rs`, `orchestrate.rs:184-206`)

"The hash covers all execution-relevant fields […] and ignores generated timestamps and display
labels." Its text determines the canonical plan (`canonicalJson_injective`), so two plans share a
hash exactly when they agree in the fields of `SameHashed`. Against what the executor reads:

* **Bug**: the end that is hashed is the cutoff of an open event and the declared end of a closed
  one; `Manifest::event_window` takes the declared end whenever it is not blank, open or not;
* a collector listed twice is analysed twice and hashed once; the legacy fields that
  `Manifest::load` refuses are not hashed;
* **Bug**: `target_label`, a display label, is hashed;
* **Bug**: `normalize_predicate` leaves `Adjacent(a, b)` and `Adjacent(b, a)` apart.

| here | there |
| --- | --- |
| `Manifest.eventStart`, `Manifest.eventEnd` | `Manifest::event_window` (`manifest.rs:187-219`) |
| `SameInputs`  | what `run_inner_impl` and `Manifest::load` read of the manifest |
-/

namespace Inim

open Inim.Lib

/-! ## JSON texts can be read back -/

/-- The character a one-letter JSON escape stands for. -/
def jsonUnescape (k : Char) : Char :=
  if k = 'b' then '\x08' else if k = 't' then '\t' else if k = 'n' then '\n'
  else if k = 'f' then '\x0c' else if k = 'r' then '\r' else k

/-- The four digits of an escaped control character. -/
def jsonNumber (c : Char) : List Char :=
  ['0', '0', hexDigit (c.toNat / 16), hexDigit (c.toNat % 16)]

theorem hexDigit_injective {a b : Nat} (ha : a < 16) (hb : b < 16)
    (h : hexDigit a = hexDigit b) : a = b := by
  have hall : ∀ a b : Fin 16, hexDigit a = hexDigit b → a = b := by decide
  exact congrArg Fin.val (hall ⟨a, ha⟩ ⟨b, hb⟩ h)

/-- Plain, escaped by a letter, or by its number. -/
theorem jsonChar_cases (c : Char) :
    (jsonChar c = [c] ∧ c ≠ '\\' ∧ c ≠ '"') ∨
    (∃ k, jsonChar c = ['\\', k] ∧ jsonUnescape k = c ∧ k ≠ 'u') ∨
    (jsonChar c = '\\' :: 'u' :: jsonNumber c ∧ c.toNat < 32) := by
  have hchar : ∀ d : Char, c.toNat = d.toNat → c = d := fun d h => Char.toNat_inj.1 h
  unfold jsonChar
  split
  · next h => exact Or.inr (Or.inl ⟨'b', rfl, (hchar '\x08' h).symm, by decide⟩)
  · next h => exact Or.inr (Or.inl ⟨'t', rfl, (hchar '\t' h).symm, by decide⟩)
  · next h => exact Or.inr (Or.inl ⟨'n', rfl, (hchar '\n' h).symm, by decide⟩)
  · next h => exact Or.inr (Or.inl ⟨'f', rfl, (hchar '\x0c' h).symm, by decide⟩)
  · next h => exact Or.inr (Or.inl ⟨'r', rfl, (hchar '\r' h).symm, by decide⟩)
  · next h => exact Or.inr (Or.inl ⟨'"', rfl, (hchar '"' h).symm, by decide⟩)
  · next h => exact Or.inr (Or.inl ⟨'\\', rfl, (hchar '\\' h).symm, by decide⟩)
  · next hquote hslash =>
    split
    · next hlow => exact Or.inr (Or.inr ⟨rfl, hlow⟩)
    · refine Or.inl ⟨rfl, ?_, ?_⟩
      · rintro rfl
        exact hslash rfl
      · rintro rfl
        exact hquote rfl

theorem jsonChar_escapes : Escapes jsonChar '\\' '"' 'u' jsonUnescape jsonNumber where
  cases c := by
    rcases jsonChar_cases c with h | h | ⟨h, -⟩
    · exact Or.inl h
    · exact Or.inr (Or.inl h)
    · exact Or.inr (Or.inr h)
  num_code a b r s ha hb h := by
    have hlow : ∀ c, jsonChar c = '\\' :: 'u' :: jsonNumber c → c.toNat < 32 := by
      intro c hc
      rcases jsonChar_cases c with ⟨h, -, -⟩ | ⟨k, h, -, -⟩ | ⟨-, h⟩
      · rw [h] at hc
        exact absurd (congrArg List.length hc) (by simp [jsonNumber])
      · rw [h] at hc
        exact absurd (congrArg List.length hc) (by simp [jsonNumber])
      · exact h
    have hal := hlow a ha
    have hbl := hlow b hb
    simp only [jsonNumber, List.cons_append, List.nil_append, List.cons.injEq, true_and] at h
    obtain ⟨hhi, hlo, hrs⟩ := h
    have hhi := hexDigit_injective (by omega) (by omega) hhi
    have hlo := hexDigit_injective (by omega) (by omega) hlo
    exact ⟨Char.toNat_inj.1 (by omega), hrs⟩
  quote_ne := by decide

theorem jsonString_code : PrefixCode fun s => (jsonString s).toList := by
  intro a b r s h
  have hcode := jsonChar_escapes.quoted
  obtain ⟨hab, hrs⟩ := @hcode a.toList b.toList r s (by
    simpa [jsonString, String.toList_append, String.toList_ofList] using h)
  exact ⟨String.toList_inj.1 hab, hrs⟩

/-- What follows a number in a JSON text. -/
def EndsNumber (c : Char) : Prop := c ≠ '-' ∧ ∀ d : Fin 10, c ≠ d.val.digitChar

instance (c : Char) : Decidable (EndsNumber c) := inferInstanceAs (Decidable (_ ∧ _))

/-- A number has no character that ends it. -/
theorem toString_int_free {n : Int} {c : Char} (hm : c ∈ (toString n).toList) : ¬ EndsNumber c := by
  intro hc
  cases n with
  | ofNat n => exact IpAddr.not_mem_toString hc.2 n hm
  | negSucc n =>
    have hrepr : (toString (Int.negSucc n)).toList = '-' :: (toString (n + 1)).toList := by
      change ("-" ++ Nat.repr (n + 1)).toList = _
      simp [Nat.toString_eq_repr]
    rw [hrepr] at hm
    rcases List.mem_cons.1 hm with rfl | hm
    · exact hc.1 rfl
    · exact IpAddr.not_mem_toString hc.2 _ hm

theorem jsonInt_code : CodeBefore EndsNumber fun n : Int => (toString n).toList := by
  refine CodeBefore.of_free (fun m n h => ?_) fun n c hm => toString_int_free hm
  simp only [Int.toString_eq_repr, String.toList_inj, Int.repr_inj] at h
  exact h

theorem jsonStrings_code : PrefixCode fun l : List String => (jsonArray (l.map jsonString)).toList := by
  have hstart : ∀ (t : String) (r s : List Char), (jsonString t).toList ++ r ≠ ']' :: s := by
    intro t r s h
    simp only [jsonString, String.toList_append, List.append_assoc] at h
    exact absurd (List.cons.inj h).1 (by decide)
  have hcode := (CodeBefore.sepBy (P := fun _ => True) (c := ',') (w := [])
    jsonString_code.codeBefore trivial trivial (by decide) hstart).lit_append ['[']
  intro l m r s h
  exact @hcode l m r s (by simpa [jsonArray, Function.comp_def] using h)

/-- `parse` is `DateTime::parse_from_rfc3339`. -/
def Manifest.eventStart (parse : String → Except String DateTime) (m : Manifest) :
    Except String DateTime :=
  (parse m.eventWindowUtc.start).mapError ("invalid event start: " ++ ·)

/-- The end the executor takes: the cutoff only where the declared end is blank. -/
def Manifest.eventEnd (parse : String → Except String DateTime) (m : Manifest) :
    Except String DateTime :=
  if trimBlank m.eventWindowUtc.stop then
    match (m.analysisEndUtc.map trim).filter fun cutoff => !cutoff.isEmpty with
    | some cutoff => (parse cutoff).mapError ("invalid event end: " ++ ·)
    | none => .error (if m.isOpen then
        "invalid event end: open event requires an explicit analysis cutoff"
      else "invalid event end: event end unavailable")
  else (parse m.eventWindowUtc.stop).mapError ("invalid event end: " ++ ·)

/-- The end that is hashed. -/
def Manifest.hashedEnd (m : Manifest) : String :=
  if m.isOpen then m.analysisEndUtc.getD "" else m.eventWindowUtc.stop

/-- The same numbers, in any order and number. -/
def SameNumbers : TransitPredicate → TransitPredicate → Prop
  | .containsAny l, .containsAny l' => ∀ a, a ∈ l ↔ a ∈ l'
  | .containsAll l, .containsAll l' => ∀ a, a ∈ l ↔ a ∈ l'
  | .adjacent a b, .adjacent a' b' => a = a' ∧ b = b'
  | _, _ => False

theorem normalizePredicate_eq_iff {p q : TransitPredicate} :
    normalizePredicate p = normalizePredicate q ↔ SameNumbers p q := by
  cases p <;> cases q <;> simp [normalizePredicate, SameNumbers, sortDedup_eq_iff]

theorem normalizePredicate_evaluate (p : TransitPredicate) (path : List UInt32) :
    (normalizePredicate p).evaluate path = p.evaluate path := by
  cases p with
  | containsAny l =>
    rw [Bool.eq_iff_iff]
    simp [normalizePredicate, TransitPredicate.evaluate, mem_sortDedup]
  | containsAll l =>
    rw [Bool.eq_iff_iff]
    simp [normalizePredicate, TransitPredicate.evaluate, mem_sortDedup]
  | adjacent a b => rfl

/-- Two optional predicates, related. -/
def OnPredicates (R : TransitPredicate → TransitPredicate → Prop) (m m' : Manifest) : Prop :=
  Option.Rel R m.target.transitPredicate.predicate m'.target.transitPredicate.predicate

/-- The manifests agree in what the hash takes from them. -/
structure SameHashed (m m' : Manifest) : Prop where
  eventId : m.eventId = m'.eventId
  schema : m.schemaVersion = m'.schemaVersion
  revision : m.revision = m'.revision
  isOpen : m.isOpen = m'.isOpen
  start : m.eventWindowUtc.start = m'.eventWindowUtc.start
  stop : m.hashedEnd = m'.hashedEnd
  warmup : m.warmupMinutes = m'.warmupMinutes
  cooldown : m.cooldownMinutes = m'.cooldownMinutes
  family : m.sourceFamily = m'.sourceFamily
  collectors : ∀ c, c ∈ m.collectors ↔ c ∈ m'.collectors
  origins : ∀ a, a ∈ m.target.originAsns ↔ a ∈ m'.target.originAsns
  predicate : OnPredicates SameNumbers m m'
  status : m.target.transitPredicate.status = m'.target.transitPredicate.status
  label : m.target.label = m'.target.label
  provenance : (m.target.transitPredicate.provenance.map fun p => p.reviewedBy ++ "|" ++ p.date) =
    m'.target.transitPredicate.provenance.map fun p => p.reviewedBy ++ "|" ++ p.date

/-- A legacy field that `Manifest::load` refuses. -/
def Manifest.legacy (m : Manifest) : Bool :=
  m.target.managedNetworkAsn.isSome || m.target.internet2Asn.isSome

/-- The manifests agree in what an analysis of given archives reads. The collectors come in a loop,
the origins and the predicate are only asked about origins and paths. -/
structure SameInputs (parse : String → Except String DateTime) (m m' : Manifest) : Prop where
  legacy : m.legacy = m'.legacy
  eventId : m.eventId = m'.eventId
  schema : m.schemaVersion = m'.schemaVersion
  revision : m.revision = m'.revision
  isOpen : m.isOpen = m'.isOpen
  start : m.eventStart parse = m'.eventStart parse
  stop : m.eventEnd parse = m'.eventEnd parse
  warmup : m.warmupMinutes = m'.warmupMinutes
  cooldown : m.cooldownMinutes = m'.cooldownMinutes
  family : m.sourceFamily = m'.sourceFamily
  collectors : m.collectors.Perm m'.collectors
  origins : ∀ a, a ∈ m.target.originAsns ↔ a ∈ m'.target.originAsns
  predicate : OnPredicates (fun p q => ∀ path, p.evaluate path = q.evaluate path) m m'
  status : m.target.transitPredicate.status = m'.target.transitPredicate.status
  reviewed : m.target.transitPredicate.provenance.isSome =
    m'.target.transitPredicate.provenance.isSome

theorem SameNumbers.evaluate {p q : TransitPredicate} (h : SameNumbers p q) (path : List UInt32) :
    p.evaluate path = q.evaluate path := by
  rw [← normalizePredicate_evaluate p, ← normalizePredicate_evaluate q,
    normalizePredicate_eq_iff.2 h]

theorem OnPredicates.mono {R S : TransitPredicate → TransitPredicate → Prop} {m m' : Manifest}
    (hRS : ∀ p q, R p q → S p q) (h : OnPredicates R m m') : OnPredicates S m m' := by
  unfold OnPredicates at h ⊢
  generalize m.target.transitPredicate.predicate = o at h ⊢
  generalize m'.target.transitPredicate.predicate = o' at h ⊢
  cases h with
  | none => exact .none
  | some hr => exact .some (hRS _ _ hr)

section
variable {parse : String → Except String DateTime} {m m' : Manifest}

/-- The end that is taken is the one that is hashed. -/
def Manifest.endIsHashed (m : Manifest) : Bool := m.isOpen == trimBlank m.eventWindowUtc.stop

/-- Where both plans hash the end they take, equal hashes mean equal ends. -/
theorem eventEnd_of_hashed (h : SameHashed m m') (hm : m.endIsHashed = true)
    (hm' : m'.endIsHashed = true) : m.eventEnd parse = m'.eventEnd parse := by
  have hstop := h.stop
  simp only [Manifest.endIsHashed, beq_iff_eq] at hm hm'
  simp only [Manifest.hashedEnd, ← h.isOpen] at hstop
  rw [← h.isOpen] at hm'
  unfold Manifest.eventEnd
  cases hopen : m.isOpen with
  | false =>
    rw [hopen] at hm hm' hstop
    simp only [Bool.false_eq_true, if_false] at hstop
    rw [← hm, ← hm', hstop]
    rfl
  | true =>
    have hopen' : m'.isOpen = true := h.isOpen ▸ hopen
    rw [hopen] at hm hm' hstop
    simp only [if_true] at hstop
    have hcutoff : ((m.analysisEndUtc.map trim).filter fun c => !c.isEmpty) =
        (m'.analysisEndUtc.map trim).filter fun c => !c.isEmpty := by
      have hget : ∀ o : Option String, ((o.map trim).filter fun c => !c.isEmpty) =
          (some (trim (o.getD ""))).filter fun c => !c.isEmpty := by
        intro o
        cases o with
        | none => rfl
        | some c => rfl
      rw [hget, hget, hstop]
    simp only [← hm, ← hm', hcutoff, hopen', if_true]

/-- The baseline scan and the cohort see no difference. -/
theorem SameInputs.cohort (h : SameInputs parse m m') {p q : TransitPredicate}
    (hp : m.target.transitPredicate.predicate = some p)
    (hq : m'.target.transitPredicate.predicate = some q) (rib : List RouteObservation) :
    freezeCohort m.target.originAsns p rib = freezeCohort m'.target.originAsns q rib ∧
      scanRibAndFreeze rib m.target.originAsns p = scanRibAndFreeze rib m'.target.originAsns q := by
  have heval : p.evaluate = q.evaluate := by
    have := h.predicate
    rw [OnPredicates, hp, hq, Option.rel_some_some] at this
    exact funext this
  have horigins : ∀ a, m.target.originAsns.contains a = m'.target.originAsns.contains a := by
    intro a
    rw [Bool.eq_iff_iff, List.contains_iff_mem, List.contains_iff_mem]
    exact h.origins a
  have htarget : targetOrigin m.target.originAsns = targetOrigin m'.target.originAsns := by
    funext o
    simp only [targetOrigin, horigins]
  have hmatches : p.matchesObs = q.matchesObs := by
    funext o
    simp only [TransitPredicate.matchesObs, heval]
  have hstream : streamOf m.target.originAsns p = streamOf m'.target.originAsns q := by
    funext o
    simp only [streamOf, horigins, heval]
  constructor
  · have hadmits : admits m.target.originAsns p rib = admits m'.target.originAsns q rib := by
      funext opk
      simp only [admits, targetEntries, htarget, hmatches]
    simp only [freezeCohort, hadmits, targetEntries, htarget]
  · simp only [scanRibAndFreeze, hstream]

end

/-! ## Presentation -/

/-- One predicate, its numbers in another order. -/
inductive Reordered : TransitPredicate → TransitPredicate → Prop
  | containsAny {l l' : List UInt32} (h : l.Perm l') : Reordered (.containsAny l) (.containsAny l')
  | containsAll {l l' : List UInt32} (h : l.Perm l') : Reordered (.containsAll l) (.containsAll l')
  | adjacent (a b : UInt32) : Reordered (.adjacent a b) (.adjacent a b)
  | swapped (a b : UInt32) : Reordered (.adjacent a b) (.adjacent b a)

/-- Either way round, adjacency is adjacency. -/
theorem hasAdjacent_comm (a b : UInt32) (path : List UInt32) :
    hasAdjacent a b path = hasAdjacent b a path := by
  induction path with
  | nil => rfl
  | cons x rest ih =>
    cases rest with
    | nil => rfl
    | cons y rest =>
      simp only [hasAdjacent, ih]
      rw [Bool.or_comm (x == a && y == b)]

theorem Reordered.evaluate {p q : TransitPredicate} (h : Reordered p q) (path : List UInt32) :
    p.evaluate path = q.evaluate path := by
  cases h with
  | @containsAny l l' h =>
    exact SameNumbers.evaluate (p := .containsAny l) (q := .containsAny l') (fun a => h.mem_iff) path
  | @containsAll l l' h =>
    exact SameNumbers.evaluate (p := .containsAll l) (q := .containsAll l') (fun a => h.mem_iff) path
  | adjacent => rfl
  | swapped a b => exact hasAdjacent_comm a b path

section
variable {parse : String → Except String Manifest} {sha256 : String → String} {s s' : String}
  {m m' : Manifest}

end

namespace PlanHashCase

def target (label : String) (predicate : TransitPredicate) : ManifestTarget where
  label := label
  originAsns := [64500]
  managedNetworkAsn := none
  internet2Asn := none
  transitPredicate := ⟨.reviewed, some predicate, some ⟨"reviewed", "local-review", "2026-08-01"⟩⟩

/-- An open event with a cutoff and a declared end. -/
def manifest (stop label : String) (predicate : TransitPredicate) : Manifest where
  eventId := "EVENT-1"
  revision := 1
  schemaVersion := 2
  eventWindowUtc := ⟨"2026-08-01T00:00:00Z", stop⟩
  isOpen := true
  analysisEndUtc := some "2026-08-03T00:00:00Z"
  warmupMinutes := 30
  cooldownMinutes := 15
  target := target label predicate
  collectors := ["route-views2"]
  sourceFamily := "RouteViews"
  analystNotes := []

def base : Manifest := manifest "2026-08-02T00:00:00Z" "Test event" (.adjacent 1 2)
def later : Manifest := manifest "2026-08-02T06:00:00Z" "Test event" (.adjacent 1 2)
def relabelled : Manifest := manifest "2026-08-02T00:00:00Z" "Other label" (.adjacent 1 2)
def swapped : Manifest := manifest "2026-08-02T00:00:00Z" "Test event" (.adjacent 2 1)

/-- The JSON text of a manifest of this shape. -/
def payload (m : Manifest) : String :=
  jsonObject [("event_id", jsonString m.eventId), ("revision", toString m.revision),
    ("schema_version", toString m.schemaVersion),
    ("event_window_utc", jsonObject [("start", jsonString m.eventWindowUtc.start),
      ("end", jsonString m.eventWindowUtc.stop)]),
    ("ticket_window_local", jsonObject [("start", jsonString ""), ("end", jsonString ""),
      ("timezone", jsonString "UTC")]),
    ("open", toString m.isOpen), ("analysis_end_utc", jsonOption jsonString m.analysisEndUtc),
    ("warmup_minutes", toString m.warmupMinutes), ("cooldown_minutes", toString m.cooldownMinutes),
    ("target", jsonObject [("label", jsonString m.target.label),
      ("origin_asns", jsonAsns m.target.originAsns),
      ("transit_predicate", jsonObject [("status", jsonString "Reviewed"),
        ("predicate", jsonOption jsonPredicate m.target.transitPredicate.predicate),
        ("provenance", jsonObject [("statement", jsonString "reviewed"),
          ("reviewed_by", jsonString "local-review"), ("date", jsonString "2026-08-01")])])]),
    ("collectors", jsonArray (m.collectors.map jsonString)),
    ("source_family", jsonString m.sourceFamily)]

/-- serde on these four texts. -/
def parse (s : String) : Except String Manifest :=
  match [base, later, relabelled, swapped].find? fun m => payload m == s with
  | some m => .ok m
  | none => .error "EOF while parsing a value at line 1 column 0"

/-- The hash of the payload, under a digest without collisions. -/
def hash (m : Manifest) : Except String String := canonicalPlanHash parse id (payload m)

end PlanHashCase

end Inim
