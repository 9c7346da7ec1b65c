import Inim.Jobs.TicketInput
/-!
# GRNOC records and their times (`sources/grnoc.rs:11-75`, `:277-350`)

| here | there |
| --- | --- |
| `GrnocRecord`        | `GrnocRecord` (`:14`) |
| `NaiveDateTime.subSeconds` | `NaiveDateTime - Duration` of the chrono crate |
| `parseTimeToUtc`, `timezoneOffsetSecs` | `:307-350` |
| `parseStart`, `parseEnd`, `parseOpened` | `GrnocRecord::parse_start`, `parse_end`, `parse_opened` (`:285-304`) |
| `parseTimeWindow`    | `parse_time_window` (`sources/internet2/ticket.rs:167`), in `Inim.Jobs.TicketInput` |

Both parsers read a clock and a time zone's name. They know different names, and the record parser
reads an unknown one as UTC; it also reads as UTC every clock written with a `T`, since the hyphens of
the date pass for an offset. `readAlike_iff` says which texts and names are read right.

chrono's readers are parameters. `ChronoTexts` is what the results need of them: no text is read
both with an offset and without, and where a format has a `T`, the text has one.
-/

namespace Inim

open Lib

structure GrnocRecord where
  number : String
  taskType : String
  shortDescription : String
  category : String
  start : String
  stop : Option String
  opened : Option String
  state : String
  priority : String
  description : String
  sourceUrl : String
  timezone : Option String
  stateCode : Option String
  priorityCode : Option String
  plannedStart : Option String
  plannedEnd : Option String
  maintenanceType : Option String
  notificationText : Option String
deriving DecidableEq, Repr

/-! ## Times of records -/

/-- A leap second that is left by `d` seconds counts as the second before it on the way forward, and
as the one behind it on the way back. `none` where the date overflows, which panics. -/
def NaiveDateTime.subSeconds (t : NaiveDateTime) (d : Int) : Option DateTime :=
  let leap := 1000000000 ≤ t.nanos
  let secs := (if leap ∧ 0 < d then t.secs + 1 else t.secs) - d
  let nanos := if leap ∧ d ≠ 0 then t.nanos - 1000000000 else t.nanos
  if utcInRange secs then some (secs * 1000000000 + nanos) else none

structure RecordEnv extends TicketEnv where
  /-- Reading with the format `%Y-%m-%dT%H:%M:%S`. -/
  parseFromIsoStr : String → Except String NaiveDateTime

/-- `s.trim_end_matches('Z')`. -/
def trimEndZ (s : String) : String := String.ofList (s.toList.reverse.dropWhile (· == 'Z')).reverse

def timezoneOffsetSecs : Option String → Int
  | some "EDT" => -4 * 3600
  | some "EST" => -5 * 3600
  | some "CDT" => -5 * 3600
  | some "CST" => -6 * 3600
  | some "MDT" => -6 * 3600
  | some "MST" => -7 * 3600
  | some "PDT" => -7 * 3600
  | some "PST" => -8 * 3600
  | _ => 0

/-- The branch for ISO-8601 texts. -/
def looksIso (s : String) : Bool :=
  s.toList.contains 'T' &&
    (s.toList.getLast? == some 'Z' || s.toList.contains '+' || s.toList.contains '-')

section Parser
variable (env : RecordEnv)

/-- `none` is a panic. -/
def parseTimeToUtc (s : String) (tzHint : Option String) : Option (Except String DateTime) :=
  if looksIso s then
    match env.parseFromRfc3339 s with
    | some dt => some (.ok dt.instant)
    | none =>
      match env.parseFromIsoStr (trimEndZ s) with
      | .ok ndt => some (.ok ndt.instant)
      | .error e => some (.error ("cannot parse datetime '" ++ s ++ "': " ++ e))
  else
    match env.parseFromStr s with
    | .ok ndt => (ndt.subSeconds (timezoneOffsetSecs tzHint)).map .ok
    | .error e => some (.error ("cannot parse datetime '" ++ s ++ "': " ++ e))

def parseStart (r : GrnocRecord) : Option (Except String DateTime) :=
  parseTimeToUtc env r.start r.timezone

def parseOptional (s : Option String) (timezone : Option String) :
    Option (Except String (Option DateTime)) :=
  match s with
  | some s => if s.isEmpty then some (.ok none) else (parseTimeToUtc env s timezone).map (·.map some)
  | none => some (.ok none)

def parseEnd (r : GrnocRecord) : Option (Except String (Option DateTime)) :=
  parseOptional env r.stop r.timezone

def parseOpened (r : GrnocRecord) : Option (Except String (Option DateTime)) :=
  parseOptional env r.opened r.timezone

end Parser

/-! ## Two parsers of one clock -/

/-- What is known of chrono's readers. -/
structure ChronoTexts (env : RecordEnv) : Prop where
  space_text : ∀ {s n}, env.parseFromStr s = .ok n → 'T' ∉ s.toList
  iso_text : ∀ {s n}, env.parseFromIsoStr s = .ok n →
    'T' ∈ s.toList ∧ '-' ∈ s.toList ∧ trimEndZ s = s
  offset_text : ∀ {s d}, env.parseFromRfc3339 s = some d →
    (∀ n, env.parseFromStr s ≠ .ok n) ∧ ∀ n, env.parseFromIsoStr s ≠ .ok n

/-- The zones that one of the parsers knows. -/
def zoneOffset : String → Option Int
  | "Eastern Daylight" => some (-4 * 3600)
  | "Eastern Standard" => some (-5 * 3600)
  | z => if timezoneOffsetSecs (some z) = 0 then none else some (timezoneOffsetSecs (some z))

/-- The text shows a clock without an offset. -/
def ShowsClock (env : RecordEnv) (s : String) (n : NaiveDateTime) : Prop :=
  env.parseFromStr s = .ok n ∨ env.parseFromIsoStr s = .ok n

/-- The parsers agree on the text, and use the hint if, and only if, it has no offset. -/
structure ReadAlike (env : RecordEnv) (s : String) (hint : Option String) : Prop where
  agree : ∀ t, parseTimeToUtc env s hint = some (.ok t) →
    (∀ stop w, parseTimeWindow env.toTicketEnv s stop hint = .ok w → w.start = t) ∧
      ∀ start w, parseTimeWindow env.toTicketEnv start s hint = .ok w → w.stop = t
  explicit : ∀ d, env.parseFromRfc3339 s = some d →
    (∀ other, parseTimeToUtc env s other = parseTimeToUtc env s hint) ∧
      ∀ t, parseTimeToUtc env s hint = some (.ok t) → t = d.instant
  utc : ∀ n, ShowsClock env s n → hint = none → parseTimeToUtc env s hint = some (.ok n.instant)
  zoned : ∀ n z offset, ShowsClock env s n → hint = some z → zoneOffset z = some offset →
    (utcInRange (n.secs - offset) = true → ∃ t, parseTimeToUtc env s hint = some (.ok t)) ∧
      ∀ t, parseTimeToUtc env s hint = some (.ok t) → t = n.instant - offset * 1000000000
  window : ∀ n z offset, ShowsClock env s n → hint = some z → zoneOffset z = some offset →
    (∀ stop w, parseTimeWindow env.toTicketEnv s stop hint = .ok w →
        w.start = n.instant - offset * 1000000000) ∧
      ∀ start w, parseTimeWindow env.toTicketEnv start s hint = .ok w →
        w.stop = n.instant - offset * 1000000000
  unknown : ∀ n z, ShowsClock env s n → hint = some z → zoneOffset z = none →
    (∀ t, parseTimeToUtc env s hint ≠ some (.ok t)) ∧
      ∀ start stop w, parseTimeWindow env.toTicketEnv start stop hint ≠ .ok w

/-- Without a hint every text is read right; with one, a clock has to be written with a space, the
record parser has to know the zone, and the clock must not show a leap second (unless its instant is
out of chrono's range). -/
def HintUsed (env : RecordEnv) (s : String) (hint : Option String) : Prop :=
  ∀ n z, ShowsClock env s n → hint = some z →
    env.parseFromStr s = .ok n ∧ timezoneOffsetSecs hint ≠ 0 ∧
      (n.nanos < 1000000000 ∨ utcInRange (n.secs - timezoneOffsetSecs hint) = false)

/-! ### Zones -/

theorem timezoneOffsetSecs_nonpos (hint : Option String) : timezoneOffsetSecs hint ≤ 0 := by
  unfold timezoneOffsetSecs
  split <;> decide

theorem zoneOffset_of_record {z : String} (h : timezoneOffsetSecs (some z) ≠ 0) :
    zoneOffset z = some (timezoneOffsetSecs (some z)) := by
  unfold zoneOffset
  split
  · exact absurd rfl h
  · exact absurd rfl h
  · rw [if_neg h]

theorem zoneOffset_ne_zero {z : String} {o : Int} (h : zoneOffset z = some o) : o ≠ 0 := by
  unfold zoneOffset at h
  split at h
  · rw [← Option.some.inj h]
    decide
  · rw [← Option.some.inj h]
    decide
  · split at h
    · exact absurd h (by simp)
    · rename_i hne
      rwa [← Option.some.inj h]

/-- The zones of the window parser are zones. -/
theorem zoneOffset_of_window {z : String} {o : Int} (h : timezoneOffset (some z) = .ok o) :
    zoneOffset z = some o := by
  unfold timezoneOffset at h
  dsimp only at h
  split at h
  · rename_i hz
    obtain rfl := Except.ok.inj h
    rcases hz with rfl | rfl <;> decide
  · split at h
    · rename_i hz
      obtain rfl := Except.ok.inj h
      rcases hz with rfl | rfl <;> decide
    · exact absurd h (by simp)

/-! ### The record parser -/

section Reading

variable {env : RecordEnv} {s : String} {n : NaiveDateTime} {hint : Option String}

theorem parseTimeToUtc_space (htexts : ChronoTexts env) (h : env.parseFromStr s = .ok n)
    (hint : Option String) :
    parseTimeToUtc env s hint = (n.subSeconds (timezoneOffsetSecs hint)).map .ok := by
  have hiso : looksIso s = false := by
    simp [looksIso, htexts.space_text h]
  rw [parseTimeToUtc, hiso, h]
  rfl

/-- The hyphens of the date are enough for the ISO branch, which has no use for the hint. -/
theorem parseTimeToUtc_iso (htexts : ChronoTexts env) (h : env.parseFromIsoStr s = .ok n)
    (hint : Option String) : parseTimeToUtc env s hint = some (.ok n.instant) := by
  obtain ⟨ht, hdash, htrim⟩ := htexts.iso_text h
  have hiso : looksIso s = true := by simp [looksIso, ht, hdash]
  have hrfc : env.parseFromRfc3339 s = none := by
    rcases hd : env.parseFromRfc3339 s with - | d
    · rfl
    · exact absurd h ((htexts.offset_text hd).2 n)
  rw [parseTimeToUtc, hiso, hrfc, htrim, h]
  rfl

theorem parseTimeToUtc_offset (htexts : ChronoTexts env) {d : FixedDateTime}
    (h : env.parseFromRfc3339 s = some d) :
    (∀ hint, parseTimeToUtc env s hint = some (.ok d.instant)) ∨
      ∃ e, ∀ hint, parseTimeToUtc env s hint = some (.error e) := by
  unfold parseTimeToUtc
  split
  · rw [h]
    exact Or.inl fun _ => rfl
  · rcases hs : env.parseFromStr s with e | n
    · exact Or.inr ⟨_, fun _ => rfl⟩
    · exact absurd hs ((htexts.offset_text h).1 n)

theorem subSeconds_zero (n : NaiveDateTime) : n.subSeconds 0 = some n.instant := by
  simp [NaiveDateTime.subSeconds, NaiveDateTime.instant, n.secs_inRange]

/-- On the way forward the seconds are counted on, but a leap second is not. -/
theorem subSeconds_neg (n : NaiveDateTime) {d : Int} (hd : d < 0) :
    n.subSeconds d = if utcInRange (n.secs - d) then
      some (n.instant - d * 1000000000 - if n.nanos < 1000000000 then 0 else 1000000000) else none := by
  have hback : ¬ 0 < d := by omega
  have hne : d ≠ 0 := by omega
  unfold NaiveDateTime.subSeconds NaiveDateTime.instant
  simp only [hback, and_false, if_false, ne_eq, hne, not_false_eq_true, and_true]
  congr 1
  split <;> split <;> simp only [DateTime, Option.some.injEq] <;> omega

/-! ### The window parser -/

theorem readTime_ok {name : String} {o : Int} {f : FixedDateTime}
    (h : readTime env.toTicketEnv name s hint o = .ok f) :
    ∃ n, env.parseFromStr s = .ok n ∧ f.instant = n.instant - o * 1000000000 := by
  unfold readTime at h
  rcases hs : env.parseFromStr s with e | n
  · rw [hs] at h
    exact absurd h (by simp [Except.mapError, bind, Except.bind])
  · refine ⟨n, rfl, ?_⟩
    rw [hs] at h
    simp only [Except.mapError, bind, Except.bind, NaiveDateTime.andLocalTimezone] at h
    split at h
    · obtain rfl := Except.ok.inj h
      rfl
    · exact absurd h (by simp [okOr])

theorem parseTimeWindow_ok {start stop : String} {w : EventWindow}
    (h : parseTimeWindow env.toTicketEnv start stop hint = .ok w) :
    ∃ o, timezoneOffset hint = .ok o ∧
      (∃ n, env.parseFromStr start = .ok n ∧ w.start = n.instant - o * 1000000000) ∧
      ∃ n, env.parseFromStr stop = .ok n ∧ w.stop = n.instant - o * 1000000000 := by
  unfold parseTimeWindow at h
  obtain ⟨o, ho, h⟩ := bind_ok h
  obtain ⟨f, hf, h⟩ := bind_ok h
  obtain ⟨g, hg, h⟩ := bind_ok h
  obtain rfl := Except.ok.inj h
  exact ⟨o, ho, readTime_ok hf, readTime_ok hg⟩

/-- The window parser reads a clock in the zone of the hint. -/
theorem windowTime {z : String} {o offset : Int} {t : DateTime}
    (htexts : ChronoTexts env) (hn : ShowsClock env s n) (hz : zoneOffset z = some offset)
    (ho : timezoneOffset (some z) = .ok o)
    (ht : ∃ m, env.parseFromStr s = .ok m ∧ t = m.instant - o * 1000000000) :
    env.parseFromStr s = .ok n ∧ t = n.instant - offset * 1000000000 := by
  obtain rfl := Option.some.inj (hz.symm.trans (zoneOffset_of_window ho))
  obtain ⟨m, hm, rfl⟩ := ht
  rcases hn with hn | hn
  · obtain rfl := Except.ok.inj (hm.symm.trans hn)
    exact ⟨hm, rfl⟩
  · exact absurd (htexts.iso_text hn).1 (htexts.space_text hm)

/-- What the record parser makes of a clock with a space, in a zone that it knows. -/
theorem parseTimeToUtc_zoned (htexts : ChronoTexts env) (h : env.parseFromStr s = .ok n)
    (hne : timezoneOffsetSecs hint ≠ 0)
    (hleap : n.nanos < 1000000000 ∨ utcInRange (n.secs - timezoneOffsetSecs hint) = false) :
    parseTimeToUtc env s hint = if utcInRange (n.secs - timezoneOffsetSecs hint) then
      some (.ok (n.instant - timezoneOffsetSecs hint * 1000000000)) else none := by
  have hneg : timezoneOffsetSecs hint < 0 := by
    have := timezoneOffsetSecs_nonpos hint
    omega
  rw [parseTimeToUtc_space htexts h, subSeconds_neg n hneg]
  split
  · rename_i hin
    have hplain : n.nanos < 1000000000 := hleap.resolve_right (by simp [hin])
    rw [if_pos hplain, Int.sub_zero]
    rfl
  · rfl

theorem ReadAlike.hintUsed (htexts : ChronoTexts env) (h : ReadAlike env s hint) :
    HintUsed env s hint := by
  rintro n z hn rfl
  have hknown : ∃ o, zoneOffset z = some o := by
    by_contra hno
    have hz : zoneOffset z = none := Option.eq_none_iff_forall_ne_some.mpr fun o ho => hno ⟨o, ho⟩
    have hzero : timezoneOffsetSecs (some z) = 0 := by
      by_contra hne
      exact hno ⟨_, zoneOffset_of_record hne⟩
    -- an unknown hint is read as UTC, not rejected
    refine (h.unknown n z hn rfl hz).1 n.instant ?_
    rcases hn with hn | hn
    · rw [parseTimeToUtc_space htexts hn, hzero, subSeconds_zero]
      rfl
    · exact parseTimeToUtc_iso htexts hn _
  obtain ⟨o, ho⟩ := hknown
  have ho0 := zoneOffset_ne_zero ho
  have hwrong : parseTimeToUtc env s (some z) ≠ some (.ok n.instant) := fun hrec => by
    have := (h.zoned n z o hn rfl ho).2 _ hrec
    simp only [DateTime] at this
    omega
  rcases hn with hn | hn
  · refine ⟨hn, fun hzero => hwrong ?_, ?_⟩
    · rw [parseTimeToUtc_space htexts hn, hzero, subSeconds_zero]
      rfl
    · by_contra hleap
      rw [not_or, Bool.not_eq_false] at hleap
      obtain ⟨hleap, hin⟩ := hleap
      have hneg : timezoneOffsetSecs (some z) < 0 := by
        have := timezoneOffsetSecs_nonpos (some z)
        have hne : timezoneOffsetSecs (some z) ≠ 0 := fun hzero => hwrong (by
          rw [parseTimeToUtc_space htexts hn, hzero, subSeconds_zero]
          rfl)
        omega
      obtain rfl := Option.some.inj (ho.symm.trans (zoneOffset_of_record (by omega)))
      -- the leap second is lost on the way
      have hrec := parseTimeToUtc_space htexts hn (some z)
      rw [subSeconds_neg n hneg, if_pos hin, if_neg hleap] at hrec
      have := (h.zoned n z _ (Or.inl hn) rfl ho).2 _ hrec
      simp only [DateTime] at this
      omega
  · exact absurd (parseTimeToUtc_iso htexts hn _) hwrong

theorem HintUsed.readAlike (htexts : ChronoTexts env) (h : HintUsed env s hint) :
    ReadAlike env s hint := by
  have hnone : ∀ n, ShowsClock env s n → hint = none →
      parseTimeToUtc env s hint = some (.ok n.instant) := by
    rintro n (hn | hn) rfl
    · rw [parseTimeToUtc_space htexts hn]
      exact congrArg (Option.map _) (subSeconds_zero n)
    · exact parseTimeToUtc_iso htexts hn _
  have hzoned : ∀ n z offset, ShowsClock env s n → hint = some z → zoneOffset z = some offset →
      parseTimeToUtc env s hint = if utcInRange (n.secs - offset) then
        some (.ok (n.instant - offset * 1000000000)) else none := by
    rintro n z offset hn rfl hz
    obtain ⟨hspace, hne, hleap⟩ := h n z hn rfl
    obtain rfl := Option.some.inj (hz.symm.trans (zoneOffset_of_record hne))
    exact parseTimeToUtc_zoned htexts hspace hne hleap
  have hagree : ∀ t, parseTimeToUtc env s hint = some (.ok t) → ∀ u o, timezoneOffset hint = .ok o →
      (∃ m, env.parseFromStr s = .ok m ∧ u = m.instant - o * 1000000000) → u = t := by
    rintro t ht u o ho ⟨m, hm, rfl⟩
    rcases hh : hint with - | z
    · subst hh
      obtain rfl := Except.ok.inj ho
      rw [hnone m (Or.inl hm) rfl] at ht
      obtain rfl := Except.ok.inj (Option.some.inj ht)
      simp
    · subst hh
      have hz := zoneOffset_of_window ho
      rw [hzoned m z o (Or.inl hm) rfl hz] at ht
      split at ht
      · exact Except.ok.inj (Option.some.inj ht)
      · exact absurd ht (by simp)
  constructor
  · intro t ht
    refine ⟨fun stop w hw => ?_, fun start w hw => ?_⟩
    · obtain ⟨o, ho, hstart, -⟩ := parseTimeWindow_ok hw
      exact hagree t ht _ o ho hstart
    · obtain ⟨o, ho, -, hstop⟩ := parseTimeWindow_ok hw
      exact hagree t ht _ o ho hstop
  · intro d hd
    rcases parseTimeToUtc_offset htexts hd with hok | ⟨e, herr⟩
    · refine ⟨fun other => by rw [hok, hok], fun t ht => ?_⟩
      rw [hok] at ht
      exact (Except.ok.inj (Option.some.inj ht)).symm
    · refine ⟨fun other => by rw [herr, herr], fun t ht => ?_⟩
      rw [herr] at ht
      exact absurd ht (by simp)
  · exact hnone
  · intro n z offset hn hh hz
    rw [hzoned n z offset hn hh hz]
    refine ⟨fun hin => ⟨_, if_pos hin⟩, fun t ht => ?_⟩
    split at ht
    · exact (Except.ok.inj (Option.some.inj ht)).symm
    · exact absurd ht (by simp)
  · rintro n z offset hn rfl hz
    refine ⟨fun stop w hw => ?_, fun start w hw => ?_⟩
    · obtain ⟨o, ho, hstart, -⟩ := parseTimeWindow_ok hw
      exact (windowTime htexts hn hz ho hstart).2
    · obtain ⟨o, ho, -, hstop⟩ := parseTimeWindow_ok hw
      exact (windowTime htexts hn hz ho hstop).2
  · rintro n z hn rfl hz
    obtain ⟨-, hne, -⟩ := h n z hn rfl
    exact absurd (zoneOffset_of_record hne) (by simp [hz])

/-- The two parsers read a text alike, and the hint where there is no offset, exactly if the hint is
used. -/
theorem readAlike_iff (htexts : ChronoTexts env) (s : String) (hint : Option String) :
    ReadAlike env s hint ↔ HintUsed env s hint :=
  ⟨fun h => h.hintUsed htexts, fun h => h.readAlike htexts⟩

end Reading

/-! ### A text for which they differ -/

theorem july30_nanos : 0 < 2000000000 := by decide

theorem july30_inRange : utcInRange 1785389100 = true := by decide

def july30 : NaiveDateTime := ⟨1785389100, 0, july30_nanos, july30_inRange⟩

/-- chrono on the text `2026-07-30 05:25:00`. -/
def july30Env : RecordEnv where
  readToString _ := .error "no such file"
  fixtureFromStr _ := .error "no fixture"
  valueFromStr _ := .error "no value"
  parseFromRfc3339 _ := none
  format _ := "2026-07-30 05:25:00"
  parseFromStr s := if s = "2026-07-30 05:25:00" then .ok july30 else .error "premature end of input"
  parseFromIsoStr _ := .error "input contains invalid characters"

theorem july30Env_texts : ChronoTexts july30Env where
  space_text h := by
    simp only [july30Env] at h
    split at h
    · rename_i hs
      rw [hs]
      decide
    · exact absurd h (by simp)
  iso_text h := absurd h (by simp [july30Env])
  offset_text h := absurd h (by simp [july30Env])

theorem readAlike_july30 : ReadAlike july30Env "2026-07-30 05:25:00" (some "EDT") :=
  (readAlike_iff july30Env_texts _ _).mpr fun n z hn hz => by
    obtain rfl := Option.some.inj hz
    rcases hn with hn | hn
    · refine ⟨hn, by decide, Or.inl ?_⟩
      obtain rfl := Except.ok.inj (show Except.ok july30 = Except.ok n from hn)
      decide
    · exact absurd hn (by simp [july30Env])

/-- `Eastern Daylight` is a zone of the window parser only, and UTC for the record parser. -/
theorem not_readAlike_eastern : ¬ ReadAlike july30Env "2026-07-30 05:25:00" (some "Eastern Daylight") := by
  intro h
  have hrec : parseTimeToUtc july30Env "2026-07-30 05:25:00" (some "Eastern Daylight") =
      some (.ok 1785389100000000000) := by
    rw [parseTimeToUtc_space july30Env_texts (n := july30) rfl]
    decide
  have hwin : parseTimeWindow july30Env.toTicketEnv "2026-07-30 05:25:00" "2026-07-30 05:25:00"
      (some "Eastern Daylight") = .ok ⟨1785403500000000000, 1785403500000000000⟩ := by
    rfl
  have := (h.agree _ hrec).1 _ _ hwin
  exact absurd this (by decide)

end Inim
