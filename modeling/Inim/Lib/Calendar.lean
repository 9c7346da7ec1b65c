import Mathlib.Tactic.Common
/-!
# The Gregorian calendar

Days are counted from 1970-01-01 and years from March, so that the leap day is the last one of its
year. A `CivilDate` is a date that exists; `CivilDate.ofDays` inverts the count, and the order of the
dates is the order of the days.
-/

namespace Inim.Lib

def isLeapYear (y : Int) : Bool := y % 4 == 0 && (y % 100 != 0 || y % 400 == 0)

def daysInMonth (y : Int) (m : Nat) : Nat :=
  if m = 2 then if isLeapYear y then 29 else 28
  else if m = 4 ∨ m = 6 ∨ m = 9 ∨ m = 11 then 30
  else 31

/-- Only February asks for the year. -/
theorem daysInMonth_of_ne_two (y y' : Int) {m : Nat} (h : m ≠ 2) :
    daysInMonth y m = daysInMonth y' m := by
  rw [daysInMonth, daysInMonth, if_neg h, if_neg h]

/-- Days since 1970-01-01 in the proleptic Gregorian calendar; a year is counted from March. -/
def daysFromCivil (y : Int) (m d : Nat) : Int :=
  let y := if m ≤ 2 then y - 1 else y
  let monthFromMarch : Int := ((m + 9) % 12 : Nat)
  365 * y + y / 4 - y / 100 + y / 400 + (153 * monthFromMarch + 2) / 5 + (d - 1) - 719468

/-! ## Years from March -/

/-- Days before the first of March of the year `y`. -/
def yearDays (y : Int) : Int := 365 * y + y / 4 - y / 100 + y / 400

/-- A year from March ends with the February of the next one. -/
theorem yearDays_succ (y : Int) :
    yearDays (y + 1) = yearDays y + if isLeapYear (y + 1) then 366 else 365 := by
  unfold yearDays
  split
  · next h =>
    simp [isLeapYear] at h
    omega
  · next h =>
    simp [isLeapYear] at h
    omega

/-- The year whose days include the `n`-th: the estimate from the mean year, corrected by one. -/
def yearOfDay (n : Int) : Int :=
  let y := n * 400 / 146097
  if n < yearDays y then y - 1 else if yearDays (y + 1) ≤ n then y + 1 else y

theorem yearOfDay_spec (n : Int) :
    yearDays (yearOfDay n) ≤ n ∧ n < yearDays (yearOfDay n + 1) := by
  have hest : 146097 * (n * 400 / 146097) ≤ n * 400 ∧
      n * 400 < 146097 * (n * 400 / 146097) + 146097 := by
    omega
  unfold yearOfDay
  dsimp only
  generalize n * 400 / 146097 = y at hest
  -- the mean year has 146097 / 400 days; the leap days are less than two days off it
  have hmean : ∀ y : Int, 400 * yearDays y ≤ 146097 * y + 400 ∧
      146097 * y - 700 ≤ 400 * yearDays y := by
    intro y
    unfold yearDays
    omega
  have hprev := hmean (y - 1)
  have hnext := hmean (y + 1 + 1)
  split
  · rw [Int.sub_add_cancel]
    omega
  · split <;> omega

/-- The day of the year, from March, of the `n`-th day. -/
def dayInYear (n : Int) : Nat := (n - yearDays (yearOfDay n)).toNat

theorem dayInYear_lt (n : Int) :
    dayInYear n < if isLeapYear (yearOfDay n + 1) then 366 else 365 := by
  obtain ⟨hlo, hhi⟩ := yearOfDay_spec n
  rw [yearDays_succ] at hhi
  unfold dayInYear
  cases hleap : isLeapYear (yearOfDay n + 1) <;> simp [hleap] at hhi ⊢ <;> omega

theorem dayInYear_lt_366 (n : Int) : dayInYear n < 366 := by
  have h := dayInYear_lt n
  split at h <;> omega

theorem yearDays_mono {y y' : Int} (h : y ≤ y') : yearDays y ≤ yearDays y' := by
  unfold yearDays
  omega

/-! ## Dates -/

/-- A date that exists. -/
@[ext]
structure CivilDate where
  year : Int
  month : Nat
  day : Nat
  month_mem : 1 ≤ month ∧ month ≤ 12
  day_mem : 1 ≤ day ∧ day ≤ daysInMonth year month
deriving DecidableEq, Repr

/-- The day of the year, from March. -/
def dayOfYear (m d : Nat) : Nat := (153 * ((m + 9) % 12) + 2) / 5 + (d - 1)

def monthOfDay (doy : Nat) : Nat :=
  let fromMarch := (5 * doy + 2) / 153
  if fromMarch < 10 then fromMarch + 3 else fromMarch - 9

def dayOfMonth (doy : Nat) : Nat := doy - (153 * ((5 * doy + 2) / 153) + 2) / 5 + 1

theorem monthOfDay_mem {doy : Nat} (h : doy < 366) : 1 ≤ monthOfDay doy ∧ monthOfDay doy ≤ 12 := by
  unfold monthOfDay
  dsimp only
  split <;> omega

theorem dayOfYear_monthOfDay {doy : Nat} (h : doy < 366) :
    dayOfYear (monthOfDay doy) (dayOfMonth doy) = doy := by
  revert doy
  decide +kernel

/-- The thirtieth day of a month, and the last of February, are there when they should be. -/
theorem dayOfMonth_mem {doy : Nat} {y : Int} (h : doy < if isLeapYear y then 366 else 365) :
    1 ≤ dayOfMonth doy ∧ dayOfMonth doy ≤ daysInMonth y (monthOfDay doy) := by
  have hall : ∀ leap : Bool, ∀ doy < 366, (doy < if leap then 366 else 365) →
      1 ≤ dayOfMonth doy ∧ dayOfMonth doy ≤
        if monthOfDay doy = 2 then if leap then 29 else 28
        else if monthOfDay doy = 4 ∨ monthOfDay doy = 6 ∨ monthOfDay doy = 9 ∨ monthOfDay doy = 11
          then 30 else 31 := by
    decide +kernel
  refine hall (isLeapYear y) doy ?_ h
  split at h <;> omega

theorem daysFromCivil_eq (y : Int) (m : Nat) {d : Nat} (hd : 1 ≤ d) :
    daysFromCivil y m d = yearDays (if m ≤ 2 then y - 1 else y) + dayOfYear m d - 719468 := by
  unfold daysFromCivil yearDays dayOfYear
  dsimp only
  omega

namespace CivilDate

def days (c : CivilDate) : Int := daysFromCivil c.year c.month c.day

/-- The year from March a date is in. -/
def marchYear (c : CivilDate) : Int := if c.month ≤ 2 then c.year - 1 else c.year

theorem days_eq (c : CivilDate) :
    c.days = yearDays c.marchYear + dayOfYear c.month c.day - 719468 :=
  daysFromCivil_eq c.year c.month c.day_mem.1

/-- The date of a day. -/
def ofDays (z : Int) : CivilDate :=
  let y := yearOfDay (z + 719468)
  let doy := dayInYear (z + 719468)
  { year := if monthOfDay doy ≤ 2 then y + 1 else y
    month := monthOfDay doy
    day := dayOfMonth doy
    month_mem := monthOfDay_mem (dayInYear_lt_366 _)
    day_mem := by
      have h := dayOfMonth_mem (dayInYear_lt (z + 719468))
      split
      · exact h
      · next hm =>
        have hfeb : monthOfDay doy ≠ 2 := fun h2 => hm (h2 ▸ Nat.le_refl 2)
        exact ⟨h.1, daysInMonth_of_ne_two (y + 1) y hfeb ▸ h.2⟩ }

theorem days_ofDays (z : Int) : (ofDays z).days = z := by
  have hyear : (ofDays z).marchYear = yearOfDay (z + 719468) := by
    unfold marchYear ofDays
    dsimp only
    split <;> omega
  have hday : dayOfYear (ofDays z).month (ofDays z).day = dayInYear (z + 719468) :=
    dayOfYear_monthOfDay (dayInYear_lt_366 _)
  have hlo := (yearOfDay_spec (z + 719468)).1
  rw [days_eq, hyear, hday, dayInYear]
  omega

/-! ### Order -/

/-- A month ends before the next one begins. -/
theorem dayOfYear_lt (c : CivilDate) :
    dayOfYear c.month c.day < (153 * ((c.month + 9) % 12 + 1) + 2) / 5 := by
  have hall : ∀ leap : Bool, ∀ m < 13, 1 ≤ m →
      (if m = 2 then if leap then 29 else 28 else if m = 4 ∨ m = 6 ∨ m = 9 ∨ m = 11 then 30 else 31)
        + (153 * ((m + 9) % 12) + 2) / 5 ≤ (153 * ((m + 9) % 12 + 1) + 2) / 5 := by
    decide +kernel
  have h := hall (isLeapYear c.year) c.month (by have := c.month_mem; omega) c.month_mem.1
  obtain ⟨hlo, hhi⟩ := c.day_mem
  unfold daysInMonth at hhi
  unfold dayOfYear
  omega

/-- A date is in its year from March. -/
theorem days_mem (c : CivilDate) :
    yearDays c.marchYear ≤ c.days + 719468 ∧ c.days + 719468 < yearDays (c.marchYear + 1) := by
  have hlt := c.dayOfYear_lt
  obtain ⟨hm, hm'⟩ := c.month_mem
  obtain ⟨hd, hd'⟩ := c.day_mem
  rw [days_eq, yearDays_succ]
  refine ⟨by omega, ?_⟩
  by_cases hfeb : c.month = 2
  · -- the last month, in which the length of the year shows
    have hyear : c.marchYear + 1 = c.year := by
      unfold marchYear
      rw [if_pos (by omega)]
      omega
    rw [hyear, hfeb]
    rw [daysInMonth, if_pos hfeb] at hd'
    unfold dayOfYear
    split at hd' <;> simp_all <;> omega
  · have h337 : dayOfYear c.month c.day < 337 := by omega
    split <;> omega

theorem days_lt {a b : CivilDate} (h : a.year < b.year ∨ a.year = b.year ∧
    (a.month < b.month ∨ a.month = b.month ∧ a.day < b.day)) : a.days < b.days := by
  have ha := a.dayOfYear_lt
  have hb := b.day_mem
  obtain ⟨ham, ham'⟩ := a.month_mem
  obtain ⟨hbm, hbm'⟩ := b.month_mem
  have hyear : a.marchYear < b.marchYear ∨ a.marchYear = b.marchYear := by
    unfold marchYear
    split <;> split <;> omega
  rcases hyear with hlt | heq
  · have hmono := yearDays_mono (show a.marchYear + 1 ≤ b.marchYear by omega)
    have := a.days_mem
    have := b.days_mem
    omega
  · -- within a year from March, the months come in their order from March
    rw [days_eq, days_eq, heq]
    have hmonth : (a.month + 9) % 12 < (b.month + 9) % 12 ∨ a.month = b.month ∧ a.day < b.day := by
      unfold marchYear at heq
      split at heq <;> split at heq <;> omega
    have had := a.day_mem
    unfold dayOfYear at ha ⊢
    rcases hmonth with hmonth | ⟨hmonth, hday⟩
    · omega
    · rw [hmonth]
      omega

/-- The order of the days is the order of the dates. -/
theorem days_lt_iff {a b : CivilDate} : a.days < b.days ↔ a.year < b.year ∨ a.year = b.year ∧
    (a.month < b.month ∨ a.month = b.month ∧ a.day < b.day) := by
  refine ⟨fun h => ?_, days_lt⟩
  by_contra hnot
  have hcases : (b.year < a.year ∨ b.year = a.year ∧
      (b.month < a.month ∨ b.month = a.month ∧ b.day < a.day)) ∨
      (a.year = b.year ∧ a.month = b.month ∧ a.day = b.day) := by
    omega
  rcases hcases with hlt | ⟨hy, hm, hd⟩
  · exact absurd (days_lt hlt) (by omega)
  · rw [days, days, hy, hm, hd] at h
    exact Int.lt_irrefl _ h

theorem days_injective : Function.Injective days := by
  intro a b h
  have hlt := mt days_lt (Int.not_lt.2 (Int.le_of_eq h.symm))
  have hgt := mt days_lt (Int.not_lt.2 (Int.le_of_eq h))
  exact CivilDate.ext (by omega) (by omega) (by omega)

end CivilDate

end Inim.Lib
