import Inim.Lib.SortBy
import Inim.Lib.Windows
import Inim.Text
import Inim.Workbench.Clock
/-!
# Baseline RIBs of the session audit (`catalog/session_audit.rs:28-33`, `:90-155`)

| here | there |
| --- | --- |
| `isSegment`, `filenameTimestampUtc` | `filename_timestamp_utc` (:122) |
| `RibFile`, `isCandidate`            | the entries of a `rib/` directory, and which are kept (:98-108) |
| `RibSource`, `collectRibCandidates` | `collect_rib_candidates` (:91) |

"Find the YYYYMMDD.HHMM segment"; "collect the earliest date-matching RIB file in one `rib/` directory".
File names are UTF-8, so `to_string_lossy` is the name.

* **Bug**: the window is a slice of the text at every byte, so a character of several bytes before the
  segment panics, and so do most in a name without a segment.
* **Bug**: any twelve digits around a dot are a segment, be they a time or not.
* **Bug**: the first file by name is taken for the earliest, which it is where the names begin alike
  (`picksEarliest_of_prefix`).

`ribTimestamps_iff` is the exact condition.
-/

namespace Inim

open Std Lib
open String (utf8Len)

/-! ## The timestamp of a file name -/

/-- Eight digits, a dot and digits; the loop over the bytes of a window. -/
def isSegment (seg : List Char) : Bool :=
  seg.zipIdx.all fun c => if c.2 = 8 then c.1 == '.' else c.1.isDigit

/-- `{}-{}-{}T{}:{}:00Z` of the parts of a segment. -/
def segmentText (seg : List Char) : Option String := do
  let y ← slice seg 0 4
  let mo ← slice seg 4 6
  let d ← slice seg 6 8
  let h ← slice seg 9 11
  let mi ← slice seg 11 13
  return String.ofList (isoChars y mo d h mi ['0', '0'])

/-- `filename_timestamp_utc`; `none` is the panic of a slice inside a character. -/
def filenameTimestampUtc (name : String) : Option String := do
  match ← firstWindow 13 isSegment name.toList with
  | none => return ""
  | some seg => segmentText seg

example : filenameTimestampUtc "bview.20190821.0000.gz" = some "2019-08-21T00:00:00Z" := by decide +kernel

/-! ## The baseline RIB of a directory -/

/-- An entry of a `rib/` directory. -/
structure RibFile where
  name : String
  isFile : Bool
deriving DecidableEq, Repr

structure RibSource where
  family : String
  collector : String
  localPath : String
  ribTimestampUtc : String
deriving DecidableEq, Repr

def isCandidate (date : String) (e : RibFile) : Bool :=
  e.isFile && textContains e.name date && !".sha256".toList.isSuffixOf e.name.toList

/-- By name and path, of which the name decides. -/
def byName : RibFile → RibFile → Ordering := compareOn (·.name)

instance : TransCmp byName := inferInstanceAs (TransCmp (compareOn _))

/-- The files of the directory that the date picks; a directory that cannot be read has none. -/
def candidates (entries : Option (List RibFile)) (date : String) : List RibFile :=
  (entries.getD []).filter (isCandidate date)

def collectRibCandidates (ribDir : String) (entries : Option (List RibFile))
    (date family collector : String) (out : List RibSource) : Option (List RibSource) :=
  match sortBy byName (candidates entries date) with
  | [] => some out
  | c :: _ => do
    let timestamp ← filenameTimestampUtc c.name
    return out ++ [⟨family, collector, ribDir ++ "/" ++ c.name, timestamp⟩]

/-! ## What is said of them -/

namespace UtcFields

/-- The text `YYYYMMDD.HHMM` of the numbers. -/
def segment (f : UtcFields) : List Char :=
  padZero 4 f.year ++ (padZero 2 f.month ++ (padZero 2 f.day ++
    '.' :: (padZero 2 f.hour ++ padZero 2 f.minute)))

end UtcFields

/-- After `p` the name has the segment of these numbers. -/
def SegmentAt (name p : List Char) (f : UtcFields) : Prop :=
  f.second = 0 ∧ p ++ f.segment <+: name

def FirstSegment (name p : List Char) (f : UtcFields) : Prop :=
  SegmentAt name p f ∧ ∀ p' f', SegmentAt name p' f' → utf8Len p ≤ utf8Len p'

/-- The first segment of the name is returned as a time, and no text if there is none. -/
def StampRead (name : String) : Prop :=
  ∃ out, filenameTimestampUtc name = some out ∧
    ((∃ p f, FirstSegment name.toList p f ∧ f.IsSecond ∧ out = f.text) ∨
      (∀ p f, ¬ SegmentAt name.toList p f) ∧ out = "")

/-- What is before the first segment is ASCII, and the segment is a time. If there is no segment, the
characters that are not ASCII are out of the window's way. -/
structure StampClear (name : String) : Prop where
  first : ∀ p f, FirstSegment name.toList p f → (∀ c ∈ p, c.utf8Size = 1) ∧ f.IsSecond
  none : (∀ p f, ¬ SegmentAt name.toList p f) →
    ∀ a c b, a ++ c :: b = name.toList → c.utf8Size = 1 ∨ ClearOf 13 a c b

/-- The first segment of the name is the instant `s`. -/
def StampTime (name : String) (s : Int) : Prop :=
  ∃ p f, FirstSegment name.toList p f ∧ f.IsSecond ∧ f.seconds = s

/-- `b` has a time, and `c` has none or a later one. -/
def Earlier (b c : String) : Prop := ∃ s, StampTime b s ∧ ∀ s', StampTime c s' → s < s'

/-- A candidate is picked, if there is any, and none is earlier; its time is read. -/
def PicksEarliest (ribDir : String) (entries : Option (List RibFile)) (date : String) : Prop :=
  ∀ family collector out,
    (candidates entries date = [] →
      collectRibCandidates ribDir entries date family collector out = some out) ∧
    (candidates entries date ≠ [] → ∃ c ∈ candidates entries date, ∃ t,
      collectRibCandidates ribDir entries date family collector out =
        some (out ++ [⟨family, collector, ribDir ++ "/" ++ c.name, t⟩]) ∧
      filenameTimestampUtc c.name = some t ∧ StampRead c.name ∧
      ∀ b ∈ candidates entries date, ¬ Earlier b.name c.name)

/-- A candidate whose time is not read, or that another is earlier than, is not the first by name. -/
def EarliestFirst (entries : Option (List RibFile)) (date : String) : Prop :=
  ∀ c ∈ candidates entries date,
    (¬ StampClear c.name ∨ ∃ b ∈ candidates entries date, Earlier b.name c.name) →
    ∃ a ∈ candidates entries date, a.name < c.name

/-! ## Segments -/

section Segments
variable {m l r : List Char} {f : UtcFields}

theorem isSegment_digits {k : Nat} (hk : k + l.length ≤ 8 ∨ 8 < k) :
    ((l.zipIdx k).all fun c => if c.2 = 8 then c.1 == '.' else c.1.isDigit) = l.all Char.isDigit := by
  rw [Bool.eq_iff_iff, List.all_eq_true, List.all_eq_true]
  have hne : ∀ c ∈ l.zipIdx k, c.2 ≠ 8 := by
    intro c hc
    have := List.le_snd_of_mem_zipIdx hc
    have := List.snd_lt_add_of_mem_zipIdx hc
    omega
  constructor
  · intro h c hc
    obtain ⟨i, hi, rfl⟩ := List.getElem_of_mem hc
    have hmem : (l[i], k + i) ∈ l.zipIdx k := List.mem_zipIdx_iff_le_and_getElem?_sub.2
      ⟨by omega, by simp [hi]⟩
    simpa [hne _ hmem] using h _ hmem
  · intro h c hc
    rw [if_neg (hne c hc)]
    exact h _ (List.fst_mem_of_mem_zipIdx hc)

theorem isSegment_append {c : Char} (hl : l.length = 8) :
    isSegment (l ++ c :: r) = (l.all Char.isDigit && (c == '.' && r.all Char.isDigit)) := by
  rw [isSegment, List.zipIdx_append, List.all_append, isSegment_digits (by omega), List.zipIdx_cons,
    List.all_cons, isSegment_digits (by omega), hl]
  rfl

theorem isSegment_ascii (h : isSegment m = true) : ∀ c ∈ m, c.utf8Size = 1 := by
  intro c hc
  obtain ⟨i, hi, rfl⟩ := List.getElem_of_mem hc
  have hat := List.all_eq_true.1 h (m[i], i) (by simp [List.mem_zipIdx_iff_getElem?, hi])
  dsimp only at hat
  split at hat
  · rw [beq_iff_eq.1 hat]
    decide
  · exact utf8Size_digit hat

/-- The windows of thirteen bytes that the loop looks for are the segments. -/
theorem isSegment_iff :
    utf8Len m = 13 ∧ isSegment m = true ↔ ∃ f : UtcFields, f.second = 0 ∧ m = f.segment := by
  constructor
  · rintro ⟨hlen, h⟩
    rw [utf8Len_ascii_iff.2 (isSegment_ascii h)] at hlen
    obtain ⟨l, c, r, rfl, hl⟩ : ∃ l c r, m = l ++ c :: r ∧ l.length = 8 :=
      ⟨m.take 8, m[8], m.drop 9, by simp, by simp [hlen]⟩
    have hr : r.length = 4 := by
      rw [List.length_append, List.length_cons] at hlen
      omega
    rw [isSegment_append hl, Bool.and_eq_true, Bool.and_eq_true, List.all_eq_true, List.all_eq_true,
      beq_iff_eq] at h
    obtain ⟨hdate, rfl, htime⟩ := h
    obtain ⟨y, hy, l, rfl, hl, hdate⟩ := exists_padZero_append (a := 4) (b := 4) (by decide) hl hdate
    obtain ⟨mo, hmo, l, rfl, hl, hdate⟩ := exists_padZero_append (a := 2) (b := 2) (by decide) hl hdate
    obtain ⟨d, hd, l, rfl, hl, -⟩ := exists_padZero_append (a := 2) (b := 0) (by decide) hl hdate
    obtain ⟨h, hh, r, rfl, hr, htime⟩ := exists_padZero_append (a := 2) (b := 2) (by decide) hr htime
    obtain ⟨mi, hmi, r, rfl, hr, -⟩ := exists_padZero_append (a := 2) (b := 0) (by decide) hr htime
    obtain rfl := List.length_eq_zero_iff.1 hl
    obtain rfl := List.length_eq_zero_iff.1 hr
    exact ⟨⟨y, mo, d, h, mi, 0, hy, hmo, hd, hh, hmi, by decide⟩, rfl, by simp [UtcFields.segment]⟩
  · rintro ⟨f, -, rfl⟩
    have hseg : isSegment f.segment = true := by
      have hdate : (padZero 4 f.year ++ (padZero 2 f.month ++ padZero 2 f.day)).length = 8 := by
        simp only [List.length_append, padZero_length (by decide) f.year_lt,
          padZero_length (by decide) f.month_lt, padZero_length (by decide) f.day_lt]
      have happ : f.segment = (padZero 4 f.year ++ (padZero 2 f.month ++ padZero 2 f.day)) ++
          '.' :: (padZero 2 f.hour ++ padZero 2 f.minute) := by
        simp [UtcFields.segment]
      rw [happ, isSegment_append hdate]
      simp only [List.all_append, List.all_eq_true.2 (padZero_digits _ _), beq_self_eq_true,
        Bool.and_self]
    refine ⟨?_, hseg⟩
    rw [utf8Len_ascii_iff.2 (isSegment_ascii hseg)]
    simp only [UtcFields.segment, List.length_append, List.length_cons,
      padZero_length (by decide) f.year_lt, padZero_length (by decide) f.month_lt,
      padZero_length (by decide) f.day_lt, padZero_length (by decide) f.hour_lt,
      padZero_length (by decide) f.minute_lt]

/-- The parts of a segment are written as they are. -/
theorem segmentText_segment (hsec : f.second = 0) : segmentText f.segment = some f.text := by
  have hlen : ∀ {w n}, 0 < w → n < 10 ^ w → utf8Len (padZero w n) = w := fun hw hn =>
    (utf8Len_ascii_iff.2 fun c hc => utf8Size_digit (padZero_digits _ _ c hc)).trans
      (padZero_length hw hn)
  have hy := hlen (by decide) f.year_lt
  have hmo := hlen (by decide) f.month_lt
  have hd := hlen (by decide) f.day_lt
  have hh := hlen (by decide) f.hour_lt
  have hmi := hlen (by decide) f.minute_lt
  have hdot : '.'.utf8Size = 1 := rfl
  have hslice : ∀ {p m t : List Char} {i j : Nat}, f.segment = p ++ (m ++ t) → utf8Len p = i →
      utf8Len m = j - i → i ≤ j → slice f.segment i j = some m := by
    intro p m t i j heq hp hm hij
    refine slice_eq_some.2 ⟨p, t, by rw [heq, List.append_assoc], hp, ?_⟩
    rw [String.utf8Len_append]
    omega
  have hyear : slice f.segment 0 4 = some (padZero 4 f.year) :=
    hslice (p := []) rfl rfl hy (by decide)
  have hmonth : slice f.segment 4 6 = some (padZero 2 f.month) :=
    hslice rfl hy hmo (by decide)
  have hday : slice f.segment 6 8 = some (padZero 2 f.day) :=
    hslice (p := padZero 4 f.year ++ padZero 2 f.month) (by simp [UtcFields.segment]; rfl)
      (by simp [hy, hmo]) hd (by decide)
  have hhour : slice f.segment 9 11 = some (padZero 2 f.hour) :=
    hslice (p := padZero 4 f.year ++ (padZero 2 f.month ++ (padZero 2 f.day ++ ['.'])))
      (by simp [UtcFields.segment]; rfl) (by simp [hy, hmo, hd, hdot]) hh (by decide)
  have hminute : slice f.segment 11 13 = some (padZero 2 f.minute) :=
    hslice (p := padZero 4 f.year ++ (padZero 2 f.month ++ (padZero 2 f.day ++ '.' :: padZero 2 f.hour)))
      (t := []) (by simp [UtcFields.segment]) (by simp [hy, hmo, hd, hh, hdot]) hmi (by decide)
  rw [segmentText, hyear, hmonth, hday, hhour, hminute, UtcFields.text, UtcFields.chars, hsec]
  rfl

end Segments

/-! ## The first segment -/

section First
variable {name p : List Char} {f : UtcFields}

/-- The segments are the windows that the loop looks for. -/
theorem window_iff {m : List Char} :
    HasWindow 13 isSegment name p m ↔ ∃ f, SegmentAt name p f ∧ m = f.segment := by
  unfold HasWindow SegmentAt
  rw [isSegment_iff]
  constructor
  · rintro ⟨hp, f, hsec, rfl⟩
    exact ⟨f, ⟨hsec, hp⟩, rfl⟩
  · rintro ⟨f, ⟨hsec, hp⟩, rfl⟩
    exact ⟨hp, f, hsec, rfl⟩

theorem firstWindow_iff {m : List Char} :
    FirstWindow 13 isSegment name p m ↔ ∃ f, FirstSegment name p f ∧ m = f.segment := by
  unfold FirstWindow FirstSegment
  rw [window_iff]
  constructor
  · rintro ⟨⟨f, hf, rfl⟩, hfirst⟩
    exact ⟨f, ⟨hf, fun p' f' hf' => hfirst p' f'.segment (window_iff.2 ⟨f', hf', rfl⟩)⟩, rfl⟩
  · rintro ⟨f, ⟨hf, hfirst⟩, rfl⟩
    refine ⟨⟨f, hf, rfl⟩, fun p' m' hwin => ?_⟩
    obtain ⟨f', hf', -⟩ := window_iff.1 hwin
    exact hfirst p' f' hf'

theorem exists_firstSegment (h : SegmentAt name p f) : ∃ p f, FirstSegment name p f := by
  obtain ⟨p, m, hfirst⟩ := exists_firstWindow (window_iff.2 ⟨f, h, rfl⟩)
  obtain ⟨f, hf, -⟩ := firstWindow_iff.1 hfirst
  exact ⟨p, f, hf⟩

theorem segment_injective {f g : UtcFields} (hf : f.second = 0) (hg : g.second = 0)
    (h : f.segment = g.segment) : f = g := by
  have hlen : ∀ {w a b}, 0 < w → a < 10 ^ w → b < 10 ^ w →
      (padZero w a).length = (padZero w b).length := fun hw ha hb => by
    rw [padZero_length hw ha, padZero_length hw hb]
  obtain ⟨hy, h⟩ := List.append_inj h (hlen (by decide) f.year_lt g.year_lt)
  obtain ⟨hmo, h⟩ := List.append_inj h (hlen (by decide) f.month_lt g.month_lt)
  obtain ⟨hd, h⟩ := List.append_inj h (hlen (by decide) f.day_lt g.day_lt)
  obtain ⟨hh, hmi⟩ := List.append_inj (List.cons_inj_right _ |>.1 h)
    (hlen (by decide) f.hour_lt g.hour_lt)
  exact UtcFields.ext (padZero_injective 4 hy) (padZero_injective 2 hmo) (padZero_injective 2 hd)
    (padZero_injective 2 hh) (padZero_injective 2 hmi) (hf.trans hg.symm)

theorem FirstSegment.unique {p' : List Char} {f' : UtcFields} (h : FirstSegment name p f)
    (h' : FirstSegment name p' f') : p = p' ∧ f = f' := by
  obtain ⟨rfl, hm⟩ := (firstWindow_iff.2 ⟨f, h, rfl⟩).unique (firstWindow_iff.2 ⟨f', h', rfl⟩)
  exact ⟨rfl, segment_injective h.1.1 h'.1.1 hm⟩

end First

/-- What comes out of the loop, where it does not panic. -/
theorem filenameTimestampUtc_eq_some {name out : String} : filenameTimestampUtc name = some out ↔
    (∃ p f, FirstSegment name.toList p f ∧ (∀ c ∈ p, c.utf8Size = 1) ∧ out = f.text) ∨
      (∀ p f, ¬ SegmentAt name.toList p f) ∧
        (∀ a c b, a ++ c :: b = name.toList → c.utf8Size = 1 ∨ ClearOf 13 a c b) ∧ out = "" := by
  have hnone : (∀ p m, ¬ HasWindow 13 isSegment name.toList p m) ↔ ∀ p f, ¬ SegmentAt name.toList p f := by
    simp only [window_iff, not_exists, not_and]
    exact ⟨fun h p f hf => h p _ f hf rfl, fun h p m f hf _ => h p f hf⟩
  unfold filenameTimestampUtc
  rw [Option.bind_eq_bind, Option.bind_eq_some_iff]
  constructor
  · rintro ⟨found, hfound, hout⟩
    cases found with
    | none =>
      obtain ⟨h, hclear⟩ := firstWindow_eq_none.1 hfound
      exact .inr ⟨hnone.1 h, hclear, (Option.some.inj hout).symm⟩
    | some seg =>
      obtain ⟨p, hfirst, hascii⟩ := (firstWindow_eq_some fun _ => isSegment_ascii).1 hfound
      obtain ⟨f, hf, rfl⟩ := firstWindow_iff.1 hfirst
      dsimp only at hout
      rw [segmentText_segment hf.1.1] at hout
      exact .inl ⟨p, f, hf, hascii, (Option.some.inj hout).symm⟩
  · rintro (⟨p, f, hf, hascii, rfl⟩ | ⟨h, hclear, rfl⟩)
    · exact ⟨some f.segment, (firstWindow_eq_some fun _ => isSegment_ascii).2
        ⟨p, firstWindow_iff.2 ⟨f, hf, rfl⟩, hascii⟩, segmentText_segment hf.1.1⟩
    · exact ⟨none, firstWindow_eq_none.2 ⟨hnone.2 h, hclear⟩, rfl⟩


/-- **When a name is read.** -/
theorem stampRead_iff {name : String} : StampRead name ↔ StampClear name := by
  unfold StampRead
  constructor
  · rintro ⟨out, hout, hread⟩
    rcases filenameTimestampUtc_eq_some.1 hout with ⟨p, f, hf, hascii, rfl⟩ | ⟨hnone, hclear, rfl⟩
    · rcases hread with ⟨p', f', hf', hsec, -⟩ | ⟨hnone, -⟩
      · obtain ⟨rfl, rfl⟩ := hf.unique hf'
        refine ⟨fun q g hg => ?_, fun hnone => absurd hf.1 (hnone p f)⟩
        obtain ⟨rfl, rfl⟩ := hf.unique hg
        exact ⟨hascii, hsec⟩
      · exact absurd hf.1 (hnone p f)
    · exact ⟨fun p f hf => absurd hf.1 (hnone p f), fun _ => hclear⟩
  · rintro ⟨hfirst, hnone⟩
    by_cases h : ∃ p f, SegmentAt name.toList p f
    · obtain ⟨p, f, hf⟩ := h
      obtain ⟨p, f, hf⟩ := exists_firstSegment hf
      obtain ⟨hascii, hsec⟩ := hfirst p f hf
      exact ⟨f.text, filenameTimestampUtc_eq_some.2 (.inl ⟨p, f, hf, hascii, rfl⟩),
        .inl ⟨p, f, hf, hsec, rfl⟩⟩
    · simp only [not_exists] at h
      exact ⟨"", filenameTimestampUtc_eq_some.2 (.inr ⟨h, hnone h, rfl⟩), .inr ⟨h, rfl⟩⟩

/-! ## The pick -/

section Pick
variable {ribDir date : String} {entries : Option (List RibFile)}

theorem cmpLE_byName {a b : RibFile} : CmpLE byName a b ↔ ¬ b.name < a.name := by
  rw [CmpLE, byName, compareOn, Ordering.isLE_iff_ne_gt, ← ne_eq, compare_le_iff_le, String.not_lt]

theorem isFile_of_candidate {c : RibFile} (h : c ∈ candidates entries date) : c.isFile = true := by
  have h := (List.mem_filter.1 h).2
  simp only [isCandidate, Bool.and_eq_true] at h
  exact h.1.1

/-- Candidates are told apart by their names. -/
theorem ext_of_candidate {c d : RibFile} (hc : c ∈ candidates entries date)
    (hd : d ∈ candidates entries date) (h : c.name = d.name) : c = d := by
  have hc := isFile_of_candidate hc
  have hd := isFile_of_candidate hd
  cases c
  cases d
  simp_all

theorem picksEarliest_iff : PicksEarliest ribDir entries date ↔ EarliestFirst entries date := by
  unfold PicksEarliest EarliestFirst collectRibCandidates
  cases hsorted : sortBy byName (candidates entries date) with
  | nil =>
    have hnil := sortBy_eq_nil.1 hsorted
    simp [hnil]
  | cons c rest =>
    obtain ⟨hc, hmin⟩ := sortBy_head hsorted
    have hne : candidates entries date ≠ [] := List.ne_nil_of_mem hc
    simp only [hne, false_implies, not_false_eq_true, true_implies, true_and, ne_eq]
    constructor
    · intro h d hd hbad
      by_contra hfirst
      obtain ⟨c', hc', t, hout, -, hread, hnone⟩ := h "" "" []
      -- what is pushed tells the name of the file
      obtain ⟨t', -, hpush⟩ := Option.bind_eq_some_iff.1 hout
      have hname : c.name = c'.name := (by simpa using hpush : _ ∧ _).1
      obtain rfl := ext_of_candidate hc hc' hname
      have hle : ¬ c.name < d.name := fun hlt => hfirst ⟨c, hc, hlt⟩
      have hge : ¬ d.name < c.name := cmpLE_byName.1 (hmin d hd)
      obtain rfl := ext_of_candidate hc hd
        (String.le_antisymm (String.not_lt.1 hge) (String.not_lt.1 hle))
      rcases hbad with hclear | ⟨b, hb, hearlier⟩
      · exact hclear (stampRead_iff.1 hread)
      · exact hnone b hb hearlier
    · intro h family collector out
      have hfirst : ¬ ∃ a ∈ candidates entries date, a.name < c.name := by
        rintro ⟨a, ha, hlt⟩
        exact cmpLE_byName.1 (hmin a ha) hlt
      have hread : StampRead c.name :=
        stampRead_iff.2 (by_contra fun hclear => hfirst (h c hc (.inl hclear)))
      obtain ⟨t, ht, -⟩ := id hread
      refine ⟨c, hc, t, by rw [ht]; rfl, ht, hread, fun b hb hearlier => ?_⟩
      exact hfirst (h c hc (.inr ⟨b, hb, hearlier⟩))

end Pick

/-! ## Files that are named alike -/

section Alike
variable {name date ribDir : String} {entries : Option (List RibFile)} {p : List Char} {f g : UtcFields}

theorem StampTime.unique {s s' : Int} (h : StampTime name s) (h' : StampTime name s') : s = s' := by
  obtain ⟨p, f, hf, -, rfl⟩ := h
  obtain ⟨p', f', hf', -, rfl⟩ := h'
  rw [(hf.unique hf').2]

/-- An earlier time has a smaller segment, whatever follows. -/
theorem segment_lt {t u : List Char} (hf : f.second = 0) (hg : g.second = 0) (hfs : f.IsSecond)
    (hgs : g.IsSecond) (hlt : f.seconds < g.seconds) : f.segment ++ t < g.segment ++ u := by
  have htext : f.text < g.text := by
    obtain ⟨hcf, hef⟩ := UtcFields.ext_ofSeconds hfs (by omega)
    obtain ⟨hcg, heg⟩ := UtcFields.ext_ofSeconds hgs (by omega)
    have h := formatUtcIso_lt hcf hcg hlt
    rwa [formatUtcIso_eq hcf, formatUtcIso_eq hcg, hef, heg] at h
  rw [UtcFields.text_lt_iff, hf, hg] at htext
  simp only [UtcFields.segment, List.append_assoc, List.cons_append]
  rw [padZero_append_lt_iff (by decide) f.year_lt g.year_lt,
    padZero_append_lt_iff (by decide) f.month_lt g.month_lt,
    padZero_append_lt_iff (by decide) f.day_lt g.day_lt, List.cons_lt_cons_self,
    padZero_append_lt_iff (by decide) f.hour_lt g.hour_lt,
    padZero_append_lt_iff (by decide) f.minute_lt g.minute_lt]
  omega

/-- Where the segments of all candidates stand behind the same beginning, the earliest is picked. -/
theorem picksEarliest_of_prefix (hp : ∀ c ∈ p, c.utf8Size = 1)
    (h : ∀ c ∈ candidates entries date, ∃ f, FirstSegment c.name.toList p f ∧ f.IsSecond) :
    PicksEarliest ribDir entries date := by
  refine picksEarliest_iff.2 fun c hc hbad => ?_
  obtain ⟨f, hf, hsec⟩ := h c hc
  rcases hbad with hclear | ⟨b, hb, s, hs, hlater⟩
  · refine absurd ⟨fun q g hg => ?_, fun hnone => absurd hf.1 (hnone p f)⟩ hclear
    obtain ⟨rfl, rfl⟩ := hf.unique hg
    exact ⟨hp, hsec⟩
  · refine ⟨b, hb, ?_⟩
    obtain ⟨g, hg, hgsec⟩ := h b hb
    obtain rfl := hs.unique ⟨p, g, hg, hgsec, rfl⟩
    obtain ⟨t, ht⟩ := hf.1.2
    obtain ⟨u, hu⟩ := hg.1.2
    rw [String.lt_iff, ← ht, ← hu, List.append_assoc, List.append_assoc, append_left_lt_iff]
    exact segment_lt hg.1.1 hf.1.1 hgsec hsec (hlater _ ⟨p, f, hf, hsec, rfl⟩)

end Alike

/-- **When timestamps are read and the earliest RIB is picked.** A name is read if the loop meets only
ASCII up to the first segment, which has to be a time, and if there is no segment, only characters that
are out of the window's way. Of a directory the earliest RIB is picked if no candidate that is not read
so, or that another is earlier than, is the first by name. -/
theorem ribTimestamps_iff (name ribDir date : String) (entries : Option (List RibFile)) :
    (StampRead name ↔ StampClear name) ∧
      (PicksEarliest ribDir entries date ↔ EarliestFirst entries date) :=
  ⟨stampRead_iff, picksEarliest_iff⟩

theorem stampTime_of_firstWindow {name : String} {f : UtcFields} (hf : f.second = 0)
    (hsec : f.IsSecond) (h : firstWindow 13 isSegment name.toList = some (some f.segment)) :
    StampTime name f.seconds := by
  obtain ⟨p, hfirst, -⟩ := (firstWindow_eq_some fun _ => isSegment_ascii).1 h
  obtain ⟨g, hg, heq⟩ := firstWindow_iff.1 hfirst
  obtain rfl := segment_injective hf hg.1.1 heq
  exact ⟨p, f, hg, hsec, rfl⟩

/-- A name may begin with a character of two bytes, and `bview` stands before `rib`. -/
theorem not_ribTimestamps : (¬ ∀ name, StampRead name) ∧
    ¬ ∀ ribDir entries date, PicksEarliest ribDir entries date := by
  constructor
  · intro h
    obtain ⟨out, hout, -⟩ := h "é.20190821.0000.gz"
    have hpanic : filenameTimestampUtc "é.20190821.0000.gz" = none := by decide +kernel
    rw [hpanic] at hout
    cases hout
  · intro h
    let bview : RibFile := ⟨"bview.20190821.0800.gz", true⟩
    let rib : RibFile := ⟨"rib.20190821.0000.bz2", true⟩
    let night : UtcFields := ⟨2019, 8, 21, 0, 0, 0, by decide, by decide, by decide, by decide, by decide,
      by decide⟩
    let morning : UtcFields := ⟨2019, 8, 21, 8, 0, 0, by decide, by decide, by decide, by decide,
      by decide, by decide⟩
    have hnight : StampTime rib.name night.seconds :=
      stampTime_of_firstWindow rfl (by decide) (by decide +kernel)
    have hmorning : StampTime bview.name morning.seconds :=
      stampTime_of_firstWindow rfl (by decide) (by decide +kernel)
    have hearlier : Earlier rib.name bview.name :=
      ⟨_, hnight, fun s hs => by rw [hs.unique hmorning]; decide +kernel⟩
    have hcandidates : candidates (some [bview, rib]) "20190821" = [bview, rib] := by decide +kernel
    have hfirst := picksEarliest_iff.1 (h "rib" (some [bview, rib]) "20190821")
    unfold EarliestFirst at hfirst
    rw [hcandidates] at hfirst
    obtain ⟨a, ha, hlt⟩ := hfirst bview (by simp) (.inr ⟨rib, by simp, hearlier⟩)
    revert a
    decide +kernel

end Inim
