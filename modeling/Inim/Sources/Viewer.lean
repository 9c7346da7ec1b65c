import Inim.Sources.Record
import Inim.Workbench.Clock
/-!
# Records of the public task viewer (`sources/grnoc.rs:106-275`)

| here | there |
| --- | --- |
| `ViewerRecord`       | `ViewerRecord` (`:114`) |
| `incidentStateLabel`, `changeStateLabel`, `priorityLabel`, `taskTypeForNumber` | `:160-212` |
| `formatRfc3339`      | chrono's `format("%Y-%m-%dT%H:%M:%SZ")` |
| `epochToRfc3339`     | `epoch_to_rfc3339` (`:216`) |
| `toGrnocRecord`      | `ViewerRecord::to_grnoc_record` (`:227`) |

The raw code of a state or a priority is kept beside its label. The five times are not kept: they are
read as numbers and written as texts, so two spellings of one number are one (`toGrnocRecord_eq_iff`),
and what is no number is what is not set. An end that cannot be read makes an open event
(`lossless_iff`, `not_lossless_decimal`).
-/

namespace Inim

open Lib

/-- The raw fields; the times are numbers of seconds, and empty when they are not set. -/
structure ViewerRecord where
  number : String
  shortDescription : String
  description : String
  uOutgoingNotificationText : String
  state : String
  category : String
  workStart : String
  workEnd : String
  openedAt : String
  priority : String
  startDate : String
  endDate : String
  uMaintenanceType : String
deriving DecidableEq, Repr

/-! ## Labels -/

def incidentStateLabel : String → Option String
  | "1" => some "New"
  | "2" => some "In Progress"
  | "3" => some "On Hold"
  | "-1" => some "Review Needed"
  | "-170" => some "Custodian Review"
  | "6" => some "Resolved"
  | "7" => some "Closed"
  | "8" => some "Canceled"
  | _ => none

def changeStateLabel : String → Option String
  | "0" => some "Review"
  | "3" => some "Closed"
  | "4" => some "Canceled"
  | "7" => some "Impact Assessment"
  | "-1" => some "Implement"
  | "-2" => some "Scheduled"
  | "-3" => some "Authorized"
  | "-4" => some "Assess"
  | "-5" => some "New"
  | "-7" => some "Impact Assessment"
  | _ => none

def priorityLabel : String → Option String
  | "1" => some "Critical"
  | "2" => some "High"
  | "3" => some "Moderate"
  | "4" => some "Low"
  | _ => none

/-- `number.to_ascii_lowercase().starts_with(family)`. -/
def numberStartsWith (number family : String) : Bool :=
  family.toList.isPrefixOf (number.toList.map Char.toLower)

def taskTypeForNumber (number : String) : String :=
  if numberStartsWith number "inc" then "Incident"
  else if numberStartsWith number "chg" then "Change Request"
  else if numberStartsWith number "task" then "Task"
  else "Unknown"

def labelOr (label : Option String) (code : String) : String :=
  label.getD (if code.isEmpty then "Unknown" else s!"Unknown (code {code})")

/-! ## Times -/

/-- `s.parse::<i64>()`. -/
def parseI64 (s : String) : Option Int :=
  (parseI32 s.toList).filter fun n => -(2 ^ 63) ≤ n && n < 2 ^ 63

def formatRfc3339 (secs : Int) : String :=
  let date := CivilDate.ofDays (secs / 86400)
  let rem := (secs % 86400).toNat
  String.ofList (isoChars (formatYear date.year) (padZero 2 date.month) (padZero 2 date.day)
    (padZero 2 (rem / 3600)) (padZero 2 (rem % 3600 / 60)) (padZero 2 (rem % 60)))

/-- A number of seconds that chrono can represent. -/
def epochOf (s : String) : Option Int := (parseI64 s).filter utcInRange

def epochToRfc3339 (s : String) : Option String :=
  if s.isEmpty then none else (epochOf s).map formatRfc3339

def nonEmpty (s : String) : Option String := if s.isEmpty then none else some s

def toGrnocRecord (r : ViewerRecord) : GrnocRecord :=
  let isChange := numberStartsWith r.number "chg"
  let stateLabel := if isChange then changeStateLabel r.state else incidentStateLabel r.state
  { number := r.number
    taskType := taskTypeForNumber r.number
    shortDescription := r.shortDescription
    category := r.category
    start := (epochToRfc3339 r.workStart).getD ""
    stop := epochToRfc3339 r.workEnd
    opened := epochToRfc3339 r.openedAt
    state := labelOr stateLabel r.state
    priority := labelOr (priorityLabel r.priority) r.priority
    description := r.description
    sourceUrl := s!"https://ticket-viewer.grnoc.iu.edu/tickets/{r.number}/"
    timezone := none
    stateCode := nonEmpty r.state
    priorityCode := nonEmpty r.priority
    plannedStart := epochToRfc3339 r.startDate
    plannedEnd := epochToRfc3339 r.endDate
    maintenanceType := nonEmpty r.uMaintenanceType
    notificationText := nonEmpty r.uOutgoingNotificationText }

example : epochToRfc3339 "1785389100" = some "2026-07-30T05:25:00Z" := by decide +kernel
example : epochToRfc3339 "253402300800" = some "+10000-01-01T00:00:00Z" := by decide +kernel

/-! ## What the times show -/

theorem isoChars_injective {y mo d h mi s y' mo' d' h' mi' s' : List Char}
    (heq : isoChars y mo d h mi s = isoChars y' mo' d' h' mi' s')
    (hmo : mo.length = mo'.length) (hd : d.length = d'.length) (hh : h.length = h'.length)
    (hmi : mi.length = mi'.length) (hs : s.length = s'.length) :
    y = y' ∧ mo = mo' ∧ d = d' ∧ h = h' ∧ mi = mi' ∧ s = s' := by
  unfold isoChars at heq
  obtain ⟨rfl, h1⟩ := List.append_inj' heq (by simp [*])
  obtain ⟨rfl, h2⟩ := List.append_inj (List.cons.inj h1).2 hmo
  obtain ⟨rfl, h3⟩ := List.append_inj (List.cons.inj h2).2 hd
  obtain ⟨rfl, h4⟩ := List.append_inj (List.cons.inj h3).2 hh
  obtain ⟨rfl, h5⟩ := List.append_inj (List.cons.inj h4).2 hmi
  obtain ⟨rfl, -⟩ := List.append_inj (List.cons.inj h5).2 hs
  exact ⟨rfl, rfl, rfl, rfl, rfl, rfl⟩

theorem formatRfc3339_injective : Function.Injective formatRfc3339 := by
  intro s t h
  have hchars := congrArg String.toList h
  have hlen2 : ∀ {a b : Nat}, a < 10 ^ 2 → b < 10 ^ 2 → (padZero 2 a).length = (padZero 2 b).length :=
    fun ha hb => (padZero_length (by decide) ha).trans (padZero_length (by decide) hb).symm
  have hmonth : ∀ c : CivilDate, c.month < 10 ^ 2 := fun c => by
    have := c.month_mem
    omega
  have hday : ∀ c : CivilDate, c.day < 10 ^ 2 := fun c => by
    have := c.day_mem
    have := UtcFields.daysInMonth_le c.year c.month
    omega
  simp only [formatRfc3339, String.toList_ofList] at hchars
  obtain ⟨hy, hmo, hd, hh, hmi, hs⟩ := isoChars_injective hchars (hlen2 (hmonth _) (hmonth _))
    (hlen2 (hday _) (hday _)) (hlen2 (by omega) (by omega)) (hlen2 (by omega) (by omega))
    (hlen2 (by omega) (by omega))
  have hh := padZero_injective 2 hh
  have hmi := padZero_injective 2 hmi
  have hs := padZero_injective 2 hs
  have hdays : s / 86400 = t / 86400 := by
    rw [← CivilDate.days_ofDays (s / 86400), ← CivilDate.days_ofDays (t / 86400), CivilDate.days,
      CivilDate.days, formatYear_injective hy, padZero_injective 2 hmo, padZero_injective 2 hd]
  omega

theorem epochOf_empty : epochOf "" = none := rfl

theorem epochToRfc3339_eq {s : String} : epochToRfc3339 s = (epochOf s).map formatRfc3339 := by
  unfold epochToRfc3339
  split
  · rename_i h
    rw [String.isEmpty_iff.mp h]
    rfl
  · rfl

theorem formatRfc3339_ne_empty (secs : Int) : formatRfc3339 secs ≠ "" := by
  intro h
  have := congrArg String.toList h
  simp [formatRfc3339, isoChars] at this

theorem epochToRfc3339_eq_iff {s t : String} :
    epochToRfc3339 s = epochToRfc3339 t ↔ epochOf s = epochOf t := by
  rw [epochToRfc3339_eq, epochToRfc3339_eq]
  exact (Option.map_injective formatRfc3339_injective).eq_iff

theorem getD_epochToRfc3339_eq_iff {s t : String} :
    (epochToRfc3339 s).getD "" = (epochToRfc3339 t).getD "" ↔ epochOf s = epochOf t := by
  rw [← epochToRfc3339_eq_iff, epochToRfc3339_eq, epochToRfc3339_eq]
  cases epochOf s with
  | none =>
    cases epochOf t with
    | none => simp
    | some n => simpa using (formatRfc3339_ne_empty n).symm
  | some m =>
    cases epochOf t with
    | none => simpa using formatRfc3339_ne_empty m
    | some n => simp

theorem nonEmpty_injective : Function.Injective nonEmpty := by
  intro s t h
  unfold nonEmpty at h
  split at h <;> split at h
  · rename_i hs ht
    rw [String.isEmpty_iff.mp hs, String.isEmpty_iff.mp ht]
  · exact absurd h (by simp)
  · exact absurd h (by simp)
  · exact Option.some.inj h

/-! ## What is lost -/

/-- The two records have the same texts, and their times are the same numbers. -/
structure SameKept (a b : ViewerRecord) : Prop where
  number : a.number = b.number
  shortDescription : a.shortDescription = b.shortDescription
  description : a.description = b.description
  notification : a.uOutgoingNotificationText = b.uOutgoingNotificationText
  state : a.state = b.state
  category : a.category = b.category
  priority : a.priority = b.priority
  maintenance : a.uMaintenanceType = b.uMaintenanceType
  workStart : epochOf a.workStart = epochOf b.workStart
  workEnd : epochOf a.workEnd = epochOf b.workEnd
  openedAt : epochOf a.openedAt = epochOf b.openedAt
  startDate : epochOf a.startDate = epochOf b.startDate
  endDate : epochOf a.endDate = epochOf b.endDate

/-- Two records are normalised alike exactly if what is kept of them is the same. -/
theorem toGrnocRecord_eq_iff {a b : ViewerRecord} : toGrnocRecord a = toGrnocRecord b ↔ SameKept a b := by
  constructor
  · intro h
    simp only [toGrnocRecord, GrnocRecord.mk.injEq] at h
    obtain ⟨hnum, -, hshort, hcat, hstart, hstop, hopened, -, -, hdesc, -, -, hstate, hprio, hps, hpe,
      hmaint, hnote⟩ := h
    exact ⟨hnum, hshort, hdesc, nonEmpty_injective hnote, nonEmpty_injective hstate, hcat,
      nonEmpty_injective hprio, nonEmpty_injective hmaint, getD_epochToRfc3339_eq_iff.mp hstart,
      epochToRfc3339_eq_iff.mp hstop, epochToRfc3339_eq_iff.mp hopened, epochToRfc3339_eq_iff.mp hps,
      epochToRfc3339_eq_iff.mp hpe⟩
  · intro h
    unfold toGrnocRecord
    rw [h.number, h.shortDescription, h.description, h.notification, h.state, h.category, h.priority,
      h.maintenance, getD_epochToRfc3339_eq_iff.mpr h.workStart, epochToRfc3339_eq_iff.mpr h.workEnd,
      epochToRfc3339_eq_iff.mpr h.openedAt, epochToRfc3339_eq_iff.mpr h.startDate,
      epochToRfc3339_eq_iff.mpr h.endDate]

/-! ## What is read back -/

/-- chrono reads the text of the instant, with its offset or, without the `Z`, as a clock. -/
structure ReadsBack (env : RecordEnv) (secs : Int) : Prop where
  rfc3339 : ∀ d, env.parseFromRfc3339 (formatRfc3339 secs) = some d → d.instant = secs * 1000000000
  clock : env.parseFromRfc3339 (formatRfc3339 secs) = none →
    ∃ n, env.parseFromIsoStr (trimEndZ (formatRfc3339 secs)) = .ok n ∧ n.instant = secs * 1000000000

theorem getLast?_isoChars (y mo d h mi s : List Char) : (isoChars y mo d h mi s).getLast? = some 'Z' := by
  have hsplit : isoChars y mo d h mi s =
      (y ++ '-' :: (mo ++ '-' :: (d ++ 'T' :: (h ++ ':' :: (mi ++ ':' :: s))))) ++ ['Z'] := by
    simp [isoChars]
  rw [hsplit, List.getLast?_append, List.getLast?_singleton]
  rfl

theorem looksIso_formatRfc3339 (secs : Int) : looksIso (formatRfc3339 secs) = true := by
  have hlast : (formatRfc3339 secs).toList.getLast? = some 'Z' := by
    rw [formatRfc3339, String.toList_ofList, getLast?_isoChars]
  have ht : 'T' ∈ (formatRfc3339 secs).toList := by
    simp [formatRfc3339, isoChars]
  simp [looksIso, ht, hlast]

theorem ReadsBack.parseTimeToUtc {env : RecordEnv} {secs : Int} (h : ReadsBack env secs)
    (hint : Option String) :
    parseTimeToUtc env (formatRfc3339 secs) hint = some (.ok (secs * 1000000000)) := by
  rw [Inim.parseTimeToUtc, if_pos (looksIso_formatRfc3339 secs)]
  rcases hd : env.parseFromRfc3339 (formatRfc3339 secs) with - | d
  · obtain ⟨n, hn, hinst⟩ := h.clock hd
    simp only [hn, hinst]
  · simp only [h.rfc3339 d hd]

theorem parseOptional_epoch {env : RecordEnv} {s : String} {secs : Int} (hs : epochOf s = some secs)
    (h : ReadsBack env secs) (hint : Option String) :
    parseOptional env (epochToRfc3339 s) hint = some (.ok (some (secs * 1000000000))) := by
  have hne : (formatRfc3339 secs).isEmpty = false := by
    rw [Bool.eq_false_iff]
    exact fun he => formatRfc3339_ne_empty secs (String.isEmpty_iff.mp he)
  rw [epochToRfc3339_eq, hs, Option.map_some, parseOptional, hne, h.parseTimeToUtc]
  rfl

/-- Nothing is lost of `a`, next to `b`. -/
structure Lossless (env : RecordEnv) (a b : ViewerRecord) : Prop where
  injective : a ≠ b → toGrnocRecord a ≠ toGrnocRecord b
  start : ∀ secs, epochOf a.workStart = some secs →
    parseStart env (toGrnocRecord a) = some (.ok (secs * 1000000000))
  stop : ∀ secs, epochOf a.workEnd = some secs →
    parseEnd env (toGrnocRecord a) = some (.ok (some (secs * 1000000000)))
  opened : ∀ secs, epochOf a.openedAt = some secs →
    parseOpened env (toGrnocRecord a) = some (.ok (some (secs * 1000000000)))
  closed : a.workEnd ≠ "" → epochOf a.workEnd = none →
    (toGrnocRecord a).stop ≠ (toGrnocRecord { a with workEnd := "" }).stop

/-- Nothing is lost of two records exactly if what is kept of them differs, or they do not, and the
end of the first is a number of seconds, or is not set. -/
theorem lossless_iff (env : RecordEnv) (a b : ViewerRecord)
    (hread : ∀ s ∈ [a.workStart, a.workEnd, a.openedAt], ∀ secs, epochOf s = some secs →
      ReadsBack env secs) :
    Lossless env a b ↔ (a = b ∨ ¬ SameKept a b) ∧ (a.workEnd = "" ∨ (epochOf a.workEnd).isSome) := by
  constructor
  · intro h
    refine ⟨?_, ?_⟩
    · by_contra hno
      rw [not_or, not_not] at hno
      exact h.injective hno.1 (toGrnocRecord_eq_iff.mpr hno.2)
    · by_contra hno
      rw [not_or, Bool.not_eq_true, Option.isSome_eq_false_iff, Option.isNone_iff_eq_none] at hno
      exact h.closed hno.1 hno.2 (epochToRfc3339_eq_iff.mpr (hno.2.trans epochOf_empty.symm))
  · rintro ⟨hkept, hclosed⟩
    refine ⟨fun hne heq => ?_, fun secs hs => ?_, fun secs hs => ?_, fun secs hs => ?_, fun hset hnone => ?_⟩
    · rcases hkept with rfl | hkept
      · exact hne rfl
      · exact hkept (toGrnocRecord_eq_iff.mp heq)
    · have hstart : (toGrnocRecord a).start = formatRfc3339 secs := by
        simp [toGrnocRecord, epochToRfc3339_eq, hs]
      rw [parseStart, hstart]
      exact (hread _ (by simp) secs hs).parseTimeToUtc _
    · exact parseOptional_epoch hs (hread _ (by simp) secs hs) _
    · exact parseOptional_epoch hs (hread _ (by simp) secs hs) _
    · rcases hclosed with h | h
      · exact absurd h hset
      · rw [hnone] at h
        exact absurd h (by simp)

/-! ### An end that is lost -/

def openIncident : ViewerRecord where
  number := "INC0302574"
  shortDescription := "Brief Outage - I2 PX Peer RIPE via NYIIX (NEWA)"
  description := ""
  uOutgoingNotificationText := ""
  state := "2"
  category := "Network"
  workStart := "1785389100"
  workEnd := ""
  openedAt := ""
  priority := "3"
  startDate := ""
  endDate := ""
  uMaintenanceType := ""

def closedIncident : ViewerRecord := { openIncident with state := "7", workEnd := "1785390420" }

/-- chrono on the text `2026-07-30T05:25:00Z`. -/
def viewerEnv : RecordEnv where
  toTicketEnv := { july30Env.toTicketEnv with
    parseFromRfc3339 := fun s => if s = "2026-07-30T05:25:00Z" then some ⟨july30, 0⟩ else none }
  parseFromIsoStr _ := .error "input contains invalid characters"

theorem readsBack_july30 : ReadsBack viewerEnv 1785389100 := by
  have htext : formatRfc3339 1785389100 = "2026-07-30T05:25:00Z" := by decide +kernel
  constructor
  · intro d hd
    rw [htext] at hd
    obtain rfl := Option.some.inj (show some (⟨july30, 0⟩ : FixedDateTime) = some d from hd)
    decide
  · intro hnone
    rw [htext] at hnone
    exact absurd hnone (by simp [viewerEnv])

theorem lossless_openIncident : Lossless viewerEnv openIncident closedIncident :=
  (lossless_iff viewerEnv openIncident closedIncident (by
      intro s hs secs hsecs
      simp only [openIncident, List.mem_cons, List.not_mem_nil, or_false] at hs
      rcases hs with rfl | rfl | rfl
      · obtain rfl : 1785389100 = secs := Option.some.inj
          ((by decide +kernel : some 1785389100 = epochOf "1785389100").trans hsecs)
        exact readsBack_july30
      · simp [epochOf_empty] at hsecs
      · simp [epochOf_empty] at hsecs)).mpr
    ⟨Or.inr fun h => absurd h.state (by decide), Or.inl rfl⟩

/-- An end with a decimal point is dropped, and the event is an open one. -/
theorem not_lossless_decimal :
    ¬ Lossless viewerEnv { closedIncident with workEnd := "1785390420.0" } openIncident := fun h =>
  h.closed (by decide) (by decide +kernel) (by decide +kernel)

end Inim
