import Inim.Catalog.ArchiveNames
import Inim.Lib.Era

/-!
# Instants as texts (`catalog/workbench.rs:3732-3779`)

The workbench reads and writes instants with calendar arithmetic of its own. What it writes it reads
back, and the texts are in the order of the instants. What it reads need not exist: the day of a month
is compared with 31, so `2019-02-30` is read, as the second of March (`utcTexts_iff`).

| here | there |
| --- | --- |
| `parsedDay`, `parseUtcSeconds`  | `parse_utc_seconds` (:3735) |
| `civilOfDay`, `formatUtcIso`    | `format_utc_iso` (:3758) |
| `UtcFields`                     | a text `YYYY-MM-DDTHH:MM:SSZ` |
-/

namespace Inim

open Lib

/-! ## Reading and writing -/

/-- The day of a date, from its numbers. The day of the month is not compared with the month. -/
def parsedDay (y mo d : Int) : Int :=
  let y2 := if mo ≤ 2 then y - 1 else y
  let era := (if 0 ≤ y2 then y2 else y2 - 399).tdiv 400
  let yoe := y2 - era * 400
  let mp := (mo + 9).tmod 12
  let doy := (153 * mp + 2).tdiv 5 + d - 1
  let doe := yoe * 365 + yoe.tdiv 4 - yoe.tdiv 100 + doy
  era * 146097 + doe - 719468

/-- `ts.get(a..b)?.parse().ok()?`. -/
def fieldAt (ts : List Char) (a b : Nat) : Option Int := (sliceBytes a b ts).bind parseI32

/-- `parse_utc_seconds`. What follows the nineteenth byte is not read, nor what is between the fields. -/
def parseUtcSeconds (ts : String) : Option Int :=
  if byteLength ts.toList < 19 then none
  else do
    let y ← fieldAt ts.toList 0 4
    let mo ← fieldAt ts.toList 5 7
    let d ← fieldAt ts.toList 8 10
    let h ← fieldAt ts.toList 11 13
    let mi ← fieldAt ts.toList 14 16
    let s ← fieldAt ts.toList 17 19
    if ¬ (1 ≤ mo ∧ mo ≤ 12) ∨ ¬ (1 ≤ d ∧ d ≤ 31) ∨ 23 < h ∨ 59 < mi ∨ 60 < s then none
    else some (parsedDay y mo d * 86400 + h * 3600 + mi * 60 + s)

/-- `{n:0w}` of a signed number: the sign counts as a digit. -/
def padSigned (w : Nat) (n : Int) : List Char :=
  if n < 0 then '-' :: padZero (w - 1) n.natAbs else padZero w n.natAbs

/-- Year, month and day of a day. -/
def civilOfDay (days : Int) : Int × Int × Int :=
  let z := days + 719468
  let era := (if 0 ≤ z then z else z - 146096).tdiv 146097
  let doe := z - era * 146097
  let yoe := (doe - doe.tdiv 1460 + doe.tdiv 36524 - doe.tdiv 146096).tdiv 365
  let y := yoe + era * 400
  let doy := doe - (365 * yoe + yoe.tdiv 4 - yoe.tdiv 100)
  let mp := (5 * doy + 2).tdiv 153
  let d := doy - (153 * mp + 2).tdiv 5 + 1
  let m := if mp < 10 then mp + 3 else mp - 9
  (if m ≤ 2 then y + 1 else y, m, d)

/-- `{y:04}-{m:02}-{d:02}T{h:02}:{mi:02}:{s:02}Z`. -/
def isoChars (y mo d h mi s : List Char) : List Char :=
  y ++ '-' :: (mo ++ '-' :: (d ++ 'T' :: (h ++ ':' :: (mi ++ ':' :: (s ++ ['Z'])))))

/-- `format_utc_iso`. -/
def formatUtcIso (secs : Int) : String :=
  let days := secs / 86400
  let rem := secs % 86400
  let (y, m, d) := civilOfDay days
  String.ofList (isoChars (padSigned 4 y) (padSigned 2 m) (padSigned 2 d) (padSigned 2 (rem.tdiv 3600))
    (padSigned 2 ((rem.tmod 3600).tdiv 60)) (padSigned 2 (rem.tmod 60)))

example : parseUtcSeconds "2019-08-21T16:45:25Z" = some 1566405925 := by decide +kernel
example : formatUtcIso 1566405925 = "2019-08-21T16:45:25Z" := by decide +kernel

/-! ## The days -/

/-- For a month of the year, the number is the calendar's. -/
theorem parsedDay_eq {y : Int} {mo d : Nat} (hm : 1 ≤ mo ∧ mo ≤ 12) (hd : 1 ≤ d) :
    parsedDay y mo d = daysFromCivil y mo d := by
  rw [daysFromCivil_eq y mo hd]
  have hyear : (if (mo : Int) ≤ 2 then y - 1 else y) = if mo ≤ 2 then y - 1 else y := by
    split <;> split <;> omega
  unfold parsedDay
  dsimp only
  rw [hyear]
  generalize (if mo ≤ 2 then y - 1 else y) = y2
  have hera : (if 0 ≤ y2 then y2 else y2 - 399).tdiv 400 = y2 / 400 := tdiv_floor (n := 400) (by decide)
  have hyoe : 0 ≤ y2 - y2 / 400 * 400 ∧ y2 - y2 / 400 * 400 < 400 := by omega
  have hdays := @yearDays_era (y2 / 400) _ hyoe.1 hyoe.2
  rw [show y2 / 400 * 400 + (y2 - y2 / 400 * 400) = y2 by omega] at hdays
  rw [hera, hdays, dayOfYear, Int.tdiv_eq_ediv_of_nonneg hyoe.1, Int.tdiv_eq_ediv_of_nonneg hyoe.1,
    Int.tmod_eq_emod_of_nonneg (by omega), Int.tdiv_eq_ediv_of_nonneg (by omega)]
  omega

theorem eraYear_cast (doe : Nat) :
    ((doe : Int) - (doe : Int).tdiv 1460 + (doe : Int).tdiv 36524 - (doe : Int).tdiv 146096).tdiv 365 =
      (eraYear doe : Nat) := by
  have hn : (0 : Int) ≤ doe := by omega
  rw [Int.tdiv_eq_ediv_of_nonneg hn, Int.tdiv_eq_ediv_of_nonneg hn, Int.tdiv_eq_ediv_of_nonneg hn,
    Int.tdiv_eq_ediv_of_nonneg (by omega)]
  unfold eraYear
  omega

/-- The date that is written is the date of the day. -/
theorem civilOfDay_eq (days : Int) :
    civilOfDay days = ((CivilDate.ofDays days).year, ((CivilDate.ofDays days).month : Int),
      ((CivilDate.ofDays days).day : Int)) := by
  have hera : (if 0 ≤ days + 719468 then days + 719468 else days + 719468 - 146096).tdiv 146097 =
      (days + 719468) / 146097 := tdiv_floor (n := 146097) (by decide)
  obtain ⟨hyear, hday⟩ := yearOfDay_era (days + 719468)
  have hdoe : days + 719468 - (days + 719468) / 146097 * 146097 =
      (((days + 719468) % 146097).toNat : Int) := by omega
  have hdoy := dayInYear_lt_366 (days + 719468)
  have hlt : ((days + 719468) % 146097).toNat < 146097 := by omega
  have hspec := eraYear_spec hlt
  generalize (days + 719468) / 146097 = era at *
  generalize ((days + 719468) % 146097).toNat = doe at *
  have hoffset : (doe : Int) - (365 * (eraYear doe : Int) + (eraYear doe : Int).tdiv 4 -
      (eraYear doe : Int).tdiv 100) = (dayInYear (days + 719468) : Nat) := by
    rw [Int.tdiv_eq_ediv_of_nonneg (by omega), Int.tdiv_eq_ediv_of_nonneg (by omega), hday]
    unfold eraDays at hspec ⊢
    omega
  unfold civilOfDay CivilDate.ofDays
  dsimp only
  rw [hera, hdoe, eraYear_cast, hoffset, hyear]
  generalize dayInYear (days + 719468) = doy at *
  rw [Int.tdiv_eq_ediv_of_nonneg (by omega), Int.tdiv_eq_ediv_of_nonneg (by omega)]
  unfold monthOfDay dayOfMonth
  dsimp only
  refine Prod.ext ?_ (Prod.ext ?_ ?_)
  · dsimp only
    split <;> split <;> split <;> omega
  · dsimp only
    split <;> split <;> omega
  · have hle : (153 * ((5 * doy + 2) / 153) + 2) / 5 ≤ doy := by omega
    dsimp only
    push_cast [hle]
    rfl

/-! ## Texts -/

/-- The numbers of a text `YYYY-MM-DDTHH:MM:SSZ`. -/
@[ext]
structure UtcFields where
  year : Nat
  month : Nat
  day : Nat
  hour : Nat
  minute : Nat
  second : Nat
  year_lt : year < 10 ^ 4
  month_lt : month < 10 ^ 2
  day_lt : day < 10 ^ 2
  hour_lt : hour < 10 ^ 2
  minute_lt : minute < 10 ^ 2
  second_lt : second < 10 ^ 2

namespace UtcFields

def chars (f : UtcFields) : List Char :=
  isoChars (padZero 4 f.year) (padZero 2 f.month) (padZero 2 f.day) (padZero 2 f.hour)
    (padZero 2 f.minute) (padZero 2 f.second)

def text (f : UtcFields) : String := String.ofList f.chars

/-- The month has such a day. -/
def DateExists (f : UtcFields) : Prop :=
  (1 ≤ f.month ∧ f.month ≤ 12) ∧ 1 ≤ f.day ∧ f.day ≤ daysInMonth f.year f.month

/-- A second of a day. The last minute of a day may have a leap second. -/
def IsSecond (f : UtcFields) : Prop :=
  f.DateExists ∧ f.hour ≤ 23 ∧ f.minute ≤ 59 ∧
    (f.second ≤ 59 ∨ f.hour = 23 ∧ f.minute = 59 ∧ f.second = 60)

/-- What `parse_utc_seconds` checks. -/
def InRanges (f : UtcFields) : Prop :=
  (1 ≤ f.month ∧ f.month ≤ 12) ∧ (1 ≤ f.day ∧ f.day ≤ 31) ∧ f.hour ≤ 23 ∧ f.minute ≤ 59 ∧
    f.second ≤ 60

instance (f : UtcFields) : Decidable f.DateExists := inferInstanceAs (Decidable (_ ∧ _))
instance (f : UtcFields) : Decidable f.IsSecond := inferInstanceAs (Decidable (_ ∧ _))
instance (f : UtcFields) : Decidable f.InRanges := inferInstanceAs (Decidable (_ ∧ _))

def seconds (f : UtcFields) : Int :=
  daysFromCivil f.year f.month f.day * 86400 + f.hour * 3600 + f.minute * 60 + f.second

theorem daysInMonth_le (y : Int) (m : Nat) : daysInMonth y m ≤ 31 := by
  unfold daysInMonth
  split
  · split <;> omega
  · split <;> omega

theorem IsSecond.inRanges {f : UtcFields} (h : f.IsSecond) : f.InRanges := by
  obtain ⟨⟨hm, hd⟩, hh, hmi, hs⟩ := h
  have hle := daysInMonth_le f.year f.month
  exact ⟨hm, ⟨hd.1, hd.2.trans hle⟩, hh, hmi, by omega⟩

theorem fieldAt_padZero {cs a c : List Char} {i j w n : Nat} (hcs : cs = a ++ (padZero w n ++ c))
    (ha : byteLength a = i) (hb : byteLength (padZero w n) = j - i) :
    fieldAt cs i j = some (n : Int) := by
  rw [fieldAt, hcs, sliceBytes_middle c ha hb, Option.bind_some, parseI32_padZero]

/-- What is read of the text of six numbers. -/
theorem parse_text (f : UtcFields) :
    parseUtcSeconds f.text = if f.InRanges then some (parsedDay f.year f.month f.day * 86400 +
      f.hour * 3600 + f.minute * 60 + f.second) else none := by
  have hy := byteLength_padZero (by decide) f.year_lt
  have hmo := byteLength_padZero (by decide) f.month_lt
  have hd := byteLength_padZero (by decide) f.day_lt
  have hh := byteLength_padZero (by decide) f.hour_lt
  have hmi := byteLength_padZero (by decide) f.minute_lt
  have hs := byteLength_padZero (by decide) f.second_lt
  have hnil : byteLength [] = 0 := rfl
  have hdash : '-'.utf8Size = 1 := rfl
  have ht : 'T'.utf8Size = 1 := rfl
  have hcolon : ':'.utf8Size = 1 := rfl
  have hz : 'Z'.utf8Size = 1 := rfl
  have hlen : ¬ byteLength f.chars < 19 := by
    simp [chars, isoChars, byteLength_append, byteLength_cons, *]
  have hyear : fieldAt f.chars 0 4 = some (f.year : Int) := fieldAt_padZero (a := []) rfl rfl hy
  have hmonth : fieldAt f.chars 5 7 = some (f.month : Int) := by
    refine fieldAt_padZero (a := padZero 4 f.year ++ ['-']) (by simp [chars, isoChars]; rfl) ?_ hmo
    simp [byteLength_append, byteLength_cons, *]
  have hday : fieldAt f.chars 8 10 = some (f.day : Int) := by
    refine fieldAt_padZero (a := padZero 4 f.year ++ '-' :: (padZero 2 f.month ++ ['-']))
      (by simp [chars, isoChars]; rfl) ?_ hd
    simp [byteLength_append, byteLength_cons, *]
  have hhour : fieldAt f.chars 11 13 = some (f.hour : Int) := by
    refine fieldAt_padZero
      (a := padZero 4 f.year ++ '-' :: (padZero 2 f.month ++ '-' :: (padZero 2 f.day ++ ['T'])))
      (by simp [chars, isoChars]; rfl) ?_ hh
    simp [byteLength_append, byteLength_cons, *]
  have hminute : fieldAt f.chars 14 16 = some (f.minute : Int) := by
    refine fieldAt_padZero (a := padZero 4 f.year ++ '-' :: (padZero 2 f.month ++
      '-' :: (padZero 2 f.day ++ 'T' :: (padZero 2 f.hour ++ [':']))))
      (by simp [chars, isoChars]; rfl) ?_ hmi
    simp [byteLength_append, byteLength_cons, *]
  have hsecond : fieldAt f.chars 17 19 = some (f.second : Int) := by
    refine fieldAt_padZero (a := padZero 4 f.year ++ '-' :: (padZero 2 f.month ++
      '-' :: (padZero 2 f.day ++ 'T' :: (padZero 2 f.hour ++ ':' :: (padZero 2 f.minute ++ [':'])))))
      (by simp [chars, isoChars]; rfl) ?_ hs
    simp [byteLength_append, byteLength_cons, *]
  have hguard : (¬ (1 ≤ (f.month : Int) ∧ (f.month : Int) ≤ 12) ∨ ¬ (1 ≤ (f.day : Int) ∧ (f.day : Int) ≤ 31) ∨
      23 < (f.hour : Int) ∨ 59 < (f.minute : Int) ∨ 60 < (f.second : Int)) ↔ ¬ f.InRanges := by
    unfold InRanges
    omega
  unfold parseUtcSeconds
  rw [text, String.toList_ofList, if_neg hlen, hyear, hmonth, hday, hhour, hminute, hsecond]
  simp only [Option.bind_eq_bind, Option.bind_some, hguard, ite_not]

/-- Of a date that exists, the second that it names is read. -/
theorem parse_text_of_exists {f : UtcFields} (hd : f.DateExists) (hr : f.InRanges) :
    parseUtcSeconds f.text = some f.seconds := by
  rw [parse_text, if_pos hr, parsedDay_eq hd.1 hd.2.1, seconds]

end UtcFields

/-! ## The texts that are written -/

/-- The calendar year of the instant is between 0 and 9999. -/
def CivilSecond (s : Int) : Prop :=
  0 ≤ (CivilDate.ofDays (s / 86400)).year ∧ (CivilDate.ofDays (s / 86400)).year ≤ 9999

namespace UtcFields

/-- The numbers of an instant. -/
def ofSeconds (s : Int) (h : CivilSecond s) : UtcFields where
  year := (CivilDate.ofDays (s / 86400)).year.toNat
  month := (CivilDate.ofDays (s / 86400)).month
  day := (CivilDate.ofDays (s / 86400)).day
  hour := (s % 86400 / 3600).toNat
  minute := (s % 86400 % 3600 / 60).toNat
  second := (s % 86400 % 60).toNat
  year_lt := by
    have hle := h.2
    omega
  month_lt := by
    have hm := (CivilDate.ofDays (s / 86400)).month_mem
    omega
  day_lt := by
    have hd := (CivilDate.ofDays (s / 86400)).day_mem
    have hle := daysInMonth_le (CivilDate.ofDays (s / 86400)).year (CivilDate.ofDays (s / 86400)).month
    omega
  hour_lt := by omega
  minute_lt := by omega
  second_lt := by omega

theorem year_ofSeconds {s : Int} (h : CivilSecond s) :
    ((ofSeconds s h).year : Int) = (CivilDate.ofDays (s / 86400)).year :=
  Int.toNat_of_nonneg h.1

theorem dateExists_ofSeconds {s : Int} (h : CivilSecond s) : (ofSeconds s h).DateExists := by
  refine ⟨(CivilDate.ofDays (s / 86400)).month_mem, ?_⟩
  rw [year_ofSeconds]
  exact (CivilDate.ofDays (s / 86400)).day_mem

theorem isSecond_ofSeconds {s : Int} (h : CivilSecond s) : (ofSeconds s h).IsSecond := by
  refine ⟨dateExists_ofSeconds h, ?_, ?_, .inl ?_⟩
  · change (s % 86400 / 3600).toNat ≤ 23
    omega
  · change (s % 86400 % 3600 / 60).toNat ≤ 59
    omega
  · change (s % 86400 % 60).toNat ≤ 59
    omega

theorem seconds_ofSeconds {s : Int} (h : CivilSecond s) : (ofSeconds s h).seconds = s := by
  have hdays := CivilDate.days_ofDays (s / 86400)
  rw [CivilDate.days, ← year_ofSeconds h] at hdays
  change daysFromCivil (ofSeconds s h).year (CivilDate.ofDays (s / 86400)).month
    (CivilDate.ofDays (s / 86400)).day * 86400 + ((s % 86400 / 3600).toNat : Int) * 3600 +
    ((s % 86400 % 3600 / 60).toNat : Int) * 60 + ((s % 86400 % 60).toNat : Int) = s
  omega

end UtcFields

open UtcFields

theorem padSigned_natCast (w n : Nat) : padSigned w n = padZero w n := by
  rw [padSigned, if_neg (by omega), Int.natAbs_natCast]

theorem padSigned_of_nonneg {w : Nat} {n : Int} (h : 0 ≤ n) : padSigned w n = padZero w n.toNat := by
  obtain ⟨m, rfl⟩ := Int.eq_ofNat_of_zero_le h
  exact padSigned_natCast w m

/-- What is written of an instant are its numbers. -/
theorem formatUtcIso_eq {s : Int} (h : CivilSecond s) : formatUtcIso s = (ofSeconds s h).text := by
  have hmod : 0 ≤ s % 86400 := by omega
  unfold formatUtcIso
  dsimp only
  rw [civilOfDay_eq, Int.tdiv_eq_ediv_of_nonneg hmod, Int.tmod_eq_emod_of_nonneg hmod,
    Int.tmod_eq_emod_of_nonneg hmod, Int.tdiv_eq_ediv_of_nonneg (by omega),
    padSigned_of_nonneg h.1, padSigned_natCast, padSigned_natCast,
    padSigned_of_nonneg (by omega), padSigned_of_nonneg (by omega), padSigned_of_nonneg (by omega)]
  rfl

/-- What is written is read back. -/
theorem parse_format {s : Int} (h : CivilSecond s) : parseUtcSeconds (formatUtcIso s) = some s := by
  rw [formatUtcIso_eq h, parse_text_of_exists (dateExists_ofSeconds h) (isSecond_ofSeconds h).inRanges,
    seconds_ofSeconds]

/-! ### Order -/

namespace UtcFields

/-- The texts of numbers are in the order of the numbers. -/
theorem text_lt_iff {f g : UtcFields} : f.text < g.text ↔
    f.year < g.year ∨ f.year = g.year ∧ (f.month < g.month ∨ f.month = g.month ∧
      (f.day < g.day ∨ f.day = g.day ∧ (f.hour < g.hour ∨ f.hour = g.hour ∧
        (f.minute < g.minute ∨ f.minute = g.minute ∧ f.second < g.second)))) := by
  rw [String.lt_iff, text, text, String.toList_ofList, String.toList_ofList, chars, chars, isoChars,
    isoChars, padZero_append_lt_iff (by decide) f.year_lt g.year_lt, List.cons_lt_cons_self,
    padZero_append_lt_iff (by decide) f.month_lt g.month_lt, List.cons_lt_cons_self,
    padZero_append_lt_iff (by decide) f.day_lt g.day_lt, List.cons_lt_cons_self,
    padZero_append_lt_iff (by decide) f.hour_lt g.hour_lt, List.cons_lt_cons_self,
    padZero_append_lt_iff (by decide) f.minute_lt g.minute_lt, List.cons_lt_cons_self,
    padZero_append_lt_iff (by decide) f.second_lt g.second_lt]
  simp

end UtcFields

/-- A later instant has a greater text. -/
theorem formatUtcIso_lt {s t : Int} (hs : CivilSecond s) (ht : CivilSecond t) (hlt : s < t) :
    formatUtcIso s < formatUtcIso t := by
  rw [formatUtcIso_eq hs, formatUtcIso_eq ht, text_lt_iff]
  have hdays : s / 86400 < t / 86400 ∨ s / 86400 = t / 86400 ∧ s % 86400 < t % 86400 := by omega
  have hys := hs.1
  have hyt := ht.1
  rcases hdays with hday | ⟨hday, hrem⟩
  · have hdate : (CivilDate.ofDays (s / 86400)).days < (CivilDate.ofDays (t / 86400)).days := by
      rwa [CivilDate.days_ofDays, CivilDate.days_ofDays]
    rw [CivilDate.days_lt_iff] at hdate
    simp only [ofSeconds]
    omega
  · simp only [ofSeconds, hday, Nat.lt_irrefl, false_or, true_and]
    omega

/-! ## Texts that denote a second, and texts that do not -/

namespace UtcFields

theorem ext_ofSeconds {f : UtcFields} (hf : f.IsSecond) (hs : f.second ≤ 59) :
    ∃ h : CivilSecond f.seconds, ofSeconds f.seconds h = f := by
  obtain ⟨hd, hh, hmi, -⟩ := hf
  let c : CivilDate := ⟨f.year, f.month, f.day, hd.1, hd.2⟩
  have hquot : f.seconds / 86400 = c.days := by
    change (c.days * 86400 + f.hour * 3600 + f.minute * 60 + f.second) / 86400 = c.days
    omega
  have hrem : f.seconds % 86400 = f.hour * 3600 + f.minute * 60 + f.second := by
    change (c.days * 86400 + f.hour * 3600 + f.minute * 60 + f.second) % 86400 = _
    omega
  have hdate : CivilDate.ofDays (f.seconds / 86400) = c := by
    apply CivilDate.days_injective
    rw [CivilDate.days_ofDays, hquot]
  have hyear : (CivilDate.ofDays (f.seconds / 86400)).year = f.year := by rw [hdate]
  have hlt := f.year_lt
  have hciv : CivilSecond f.seconds := by
    unfold CivilSecond
    omega
  refine ⟨hciv, UtcFields.ext ?_ ?_ ?_ ?_ ?_ ?_⟩
  · exact Int.ofNat_inj.1 ((year_ofSeconds hciv).trans hyear)
  · exact congrArg CivilDate.month hdate
  · exact congrArg CivilDate.day hdate
  · change (f.seconds % 86400 / 3600).toNat = f.hour
    omega
  · change (f.seconds % 86400 % 3600 / 60).toNat = f.minute
    omega
  · change (f.seconds % 86400 % 60).toNat = f.second
    omega

/-- No text that is written has a leap second. -/
theorem format_ne_leap {f : UtcFields} (hf : f.second = 60) (s : Int) : formatUtcIso s ≠ f.text := by
  intro h
  have hmod : 0 ≤ s % 86400 := by omega
  have hsplit : ∀ y mo d h mi sec, isoChars y mo d h mi sec =
      (y ++ '-' :: (mo ++ '-' :: (d ++ 'T' :: (h ++ ':' :: (mi ++ [':']))))) ++ (sec ++ ['Z']) := by
    simp [isoChars]
  have hchars := congrArg String.toList h
  unfold formatUtcIso at hchars
  dsimp only at hchars
  rw [text, chars, hf, String.toList_ofList, String.toList_ofList, hsplit, hsplit,
    Int.tmod_eq_emod_of_nonneg hmod, Int.tmod_eq_emod_of_nonneg hmod,
    padSigned_of_nonneg (n := s % 86400 % 60) (by omega)] at hchars
  have hlen : (padZero 2 (s % 86400 % 60).toNat).length = (padZero 2 60).length := by
    rw [padZero_length (by decide) (by omega), padZero_length (by decide) (by decide)]
  have hend := (List.append_inj' hchars (by rw [List.length_append, List.length_append, hlen])).2
  have hsec := padZero_injective 2 (List.append_inj' hend rfl).1
  omega

/-- The text is read as the second that it denotes, and is not read if there is no such date. -/
def ReadRight (f : UtcFields) : Prop :=
  (f.IsSecond → (parseUtcSeconds f.text).map formatUtcIso = some f.text) ∧
    (¬ f.DateExists → parseUtcSeconds f.text = none)

theorem readRight_iff (f : UtcFields) :
    f.ReadRight ↔ (f.IsSecond → f.second ≠ 60) ∧ (f.InRanges → f.DateExists) := by
  refine and_congr ?_ ?_
  · refine forall_congr' fun hf => ?_
    rw [parse_text_of_exists hf.1 hf.inRanges, Option.map_some, Option.some.injEq]
    constructor
    · intro h hleap
      exact format_ne_leap hleap _ h
    · intro hleap
      have hs : f.second ≤ 59 := by
        have h := hf.inRanges.2.2.2.2
        omega
      obtain ⟨hciv, heq⟩ := ext_ofSeconds hf hs
      rw [formatUtcIso_eq hciv, heq]
  · rw [parse_text]
    by_cases hr : f.InRanges
    · simp [hr]
    · simp [hr]

end UtcFields

/-- **Where the texts and the instants agree.** The instants of the years 0 to 9999 are written in their
order and read back. A text of this form is read as what it denotes, and is written so again, unless it
has a leap second; and a date that does not exist is refused, unless its numbers are in the ranges that
are checked. -/
theorem utcTexts_iff (s t : Int) (f : UtcFields) :
    (CivilSecond s → parseUtcSeconds (formatUtcIso s) = some s) ∧
    (CivilSecond s → CivilSecond t → s < t → formatUtcIso s < formatUtcIso t) ∧
    (f.ReadRight ↔ (f.IsSecond → f.second ≠ 60) ∧ (f.InRanges → f.DateExists)) :=
  ⟨parse_format, formatUtcIso_lt, readRight_iff f⟩

/-- `2019-02-30T00:00:00Z`. -/
def february30 : UtcFields where
  year := 2019
  month := 2
  day := 30
  hour := 0
  minute := 0
  second := 0
  year_lt := by decide
  month_lt := by decide
  day_lt := by decide
  hour_lt := by decide
  minute_lt := by decide
  second_lt := by decide

/-- **Bug**: a date that does not exist is read, as a day of the next month. -/
theorem february_30_is_read :
    ¬ february30.ReadRight ∧
      (parseUtcSeconds february30.text).map formatUtcIso = some "2019-03-02T00:00:00Z" := by
  refine ⟨fun h => ?_, by decide +kernel⟩
  have hnone := h.2 (by decide)
  revert hnone
  decide +kernel

end Inim
