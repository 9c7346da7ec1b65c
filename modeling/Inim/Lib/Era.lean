import Inim.Lib.Calendar
import Mathlib.Tactic.Linarith

/-!
# Eras of the calendar

The calendar repeats after 400 years of 146097 days. The year of a day within its era is a quotient of
the day (`eraYear_spec`), so year and day of the year are found from a day with divisions alone
(`yearOfDay_era`).
-/

namespace Inim.Lib

/-- The division of a negative number that rounds toward zero, made to round down. -/
theorem tdiv_floor {z n : Int} (hn : 0 < n) : (if 0 ≤ z then z else z - (n - 1)).tdiv n = z / n := by
  split
  · next h => exact Int.tdiv_eq_ediv_of_nonneg h
  · next h =>
    have hneg : (z - (n - 1)).tdiv n = -((n - 1 - z) / n) := by
      rw [← Int.neg_sub (n - 1) z, Int.neg_tdiv, Int.tdiv_eq_ediv_of_nonneg (by omega)]
    have hdiv := Int.mul_ediv_add_emod z n
    have hlo := Int.emod_nonneg z (by omega : n ≠ 0)
    have hhi := Int.emod_lt_of_pos z hn
    rw [hneg, ← Int.neg_inj, Int.neg_neg, Int.ediv_eq_iff_of_pos hn]
    constructor
    · nlinarith
    · nlinarith

theorem yearDays_era {era yoe : Int} (h0 : 0 ≤ yoe) (h1 : yoe < 400) :
    yearDays (era * 400 + yoe) = era * 146097 + (365 * yoe + yoe / 4 - yoe / 100) := by
  unfold yearDays
  omega

/-- The year of an era that its `doe`-th day is in, from March. -/
def eraYear (doe : Nat) : Nat := (doe - doe / 1460 + doe / 36524 - doe / 146096) / 365

/-- The day of an era with which its year `yoe` begins. -/
def eraDays (yoe : Nat) : Nat := 365 * yoe + yoe / 4 - yoe / 100 + yoe / 400

theorem eraYear_mono {a b : Nat} (h : a ≤ b) : eraYear a ≤ eraYear b := by
  induction h with
  | refl => exact Nat.le_refl _
  | step _ ih =>
    refine ih.trans (Nat.div_le_div_right ?_)
    omega

/-- The first day and the last day of a year. -/
theorem eraYear_bounds {yoe : Nat} (h : yoe < 400) :
    eraYear (eraDays yoe) = yoe ∧ eraYear (eraDays (yoe + 1) - 1) = yoe := by
  revert yoe
  decide +kernel

/-- A day of an era is in the year of the quotient. -/
theorem eraYear_spec {doe : Nat} (h : doe < 146097) :
    eraYear doe < 400 ∧ eraDays (eraYear doe) ≤ doe ∧ doe < eraDays (eraYear doe + 1) := by
  have hlt : eraYear doe < 400 := by
    have hle : eraYear doe ≤ eraYear 146096 := eraYear_mono (by omega)
    have hlast : eraYear 146096 = 399 := by decide
    omega
  refine ⟨hlt, ?_, ?_⟩
  · -- the last day of the year before is in an earlier year
    by_contra hbefore
    rcases Nat.eq_zero_or_pos (eraYear doe) with hzero | hpos
    · rw [hzero] at hbefore
      exact hbefore (Nat.zero_le _)
    · obtain ⟨yoe, hyoe⟩ : ∃ yoe, eraYear doe = yoe + 1 := ⟨eraYear doe - 1, by omega⟩
      have hlast := (@eraYear_bounds yoe (by omega)).2
      have hle : eraYear doe ≤ eraYear (eraDays (yoe + 1) - 1) := by
        apply eraYear_mono
        rw [hyoe] at hbefore
        omega
      omega
  · by_contra hafter
    by_cases hend : eraYear doe = 399
    · rw [hend] at hafter
      exact hafter (lt_of_lt_of_le h (by decide))
    · have hfirst := (@eraYear_bounds (eraYear doe + 1) (by omega)).1
      have hle : eraYear (eraDays (eraYear doe + 1)) ≤ eraYear doe := eraYear_mono (by omega)
      omega

theorem yearOfDay_unique {n y : Int} (hlo : yearDays y ≤ n) (hhi : n < yearDays (y + 1)) :
    yearOfDay n = y := by
  obtain ⟨hlo', hhi'⟩ := yearOfDay_spec n
  rcases Int.lt_trichotomy (yearOfDay n) y with hlt | heq | hgt
  · have hmono := yearDays_mono (show yearOfDay n + 1 ≤ y by omega)
    omega
  · exact heq
  · have hmono := yearDays_mono (show y + 1 ≤ yearOfDay n by omega)
    omega

/-- Era and year of the era, of a day. -/
theorem yearOfDay_era (n : Int) :
    yearOfDay n = n / 146097 * 400 + (eraYear (n % 146097).toNat : Nat) ∧
      dayInYear n = (n % 146097).toNat - eraDays (eraYear (n % 146097).toNat) := by
  have hmod : 0 ≤ n % 146097 ∧ n % 146097 < 146097 := by omega
  obtain ⟨doe, hdoe⟩ := Int.eq_ofNat_of_zero_le hmod.1
  rw [hdoe, Int.toNat_natCast]
  obtain ⟨hlt, hlo, hhi⟩ := @eraYear_spec doe (by omega)
  generalize eraYear doe = yoe at *
  have hbegin := @yearDays_era (n / 146097) yoe (by omega) (by omega)
  have hend : yearDays (n / 146097 * 400 + yoe + 1) = n / 146097 * 146097 + eraDays (yoe + 1) := by
    unfold yearDays eraDays
    omega
  unfold eraDays at hlo
  have hyear : yearOfDay n = n / 146097 * 400 + yoe :=
    yearOfDay_unique (by omega) (by omega)
  refine ⟨hyear, ?_⟩
  rw [dayInYear, hyear, hbegin, eraDays]
  omega

end Inim.Lib
