import Stacklab.Lib.Calendar
import Mathlib.Tactic.Ring

/-! The date of a day number grows with the day number. -/
namespace Stacklab.Lib

/-- Days before the given year of an era, in years that start in March. -/
def yearStart (year : ℤ) : ℤ := 365 * year + year / 4 - year / 100 + year / 400

/-- What `dateOfDay` divides by 365 to get the year of an era. -/
def leaplessDay (doe : ℤ) : ℤ := doe - doe / 1460 + doe / 36524 - doe / 146096

variable {a b n m : ℤ}

theorem yearStart_strictMono (h : a < b) : yearStart a < yearStart b := by
  unfold yearStart
  omega

theorem yearStart_add_era (year era : ℤ) :
    yearStart (year + 400 * era) = yearStart year + 146097 * era := by
  have hfour : (year + 400 * era) / 4 = year / 4 + 100 * era := by omega
  have hcentury : (year + 400 * era) / 100 = year / 100 + 4 * era := by omega
  have hera : (year + 400 * era) / 400 = year / 400 + era := by omega
  unfold yearStart
  omega

theorem leaplessDay_mono (h : a ≤ b) : leaplessDay a ≤ leaplessDay b := by
  unfold leaplessDay
  have hyears : a - a / 1460 ≤ b - b / 1460 := by omega
  have hcenturies : a / 36524 - a / 146096 ≤ b / 36524 - b / 146096 := by omega
  omega

/-- The first and the last day of each year of an era. -/
theorem leaplessDay_year : ∀ k : Fin 400,
    365 * (k.val : ℤ) ≤ leaplessDay (yearStart k.val) ∧
      leaplessDay (yearStart (k.val + 1) - 1) < 365 * (k.val + 1) := by
  decide +kernel

theorem leaplessDay_bounds (year : ℤ) (h0 : 0 ≤ year) (h1 : year < 400) :
    365 * year ≤ leaplessDay (yearStart year) ∧
      leaplessDay (yearStart (year + 1) - 1) < 365 * (year + 1) := by
  have hyear : (year.toNat : ℤ) = year := Int.toNat_of_nonneg h0
  have hlt : year.toNat < 400 := by omega
  have h := leaplessDay_year ⟨year.toNat, hlt⟩
  simp only [hyear] at h
  exact h

/-- The year of an era is the one whose days it lies in. -/
theorem yearOfEra_spec {doe year : ℤ} (h0 : 0 ≤ doe) (h1 : doe < 146097)
    (hyear : year = leaplessDay doe / 365) :
    0 ≤ year ∧ year < 400 ∧ yearStart year ≤ doe ∧ doe < yearStart (year + 1) := by
  have hlow : leaplessDay 0 ≤ leaplessDay doe := leaplessDay_mono h0
  have hhigh : leaplessDay doe ≤ leaplessDay 146096 := leaplessDay_mono (by omega)
  have hfirst : leaplessDay 0 = 0 := by decide
  have hlast : leaplessDay 146096 = 145999 := by decide
  have hy0 : 0 ≤ year := by omega
  have hy1 : year < 400 := by omega
  refine ⟨hy0, hy1, ?_, ?_⟩
  · by_contra hbefore
    by_cases hzero : year = 0
    · rw [hzero] at hbefore
      simp only [yearStart] at hbefore
      omega
    · have hprev := (leaplessDay_bounds (year - 1) (by omega) (by omega)).2
      have hmono := leaplessDay_mono (a := doe) (b := yearStart (year - 1 + 1) - 1)
        (by rw [sub_add_cancel]; omega)
      omega
  · by_contra hafter
    by_cases hlastYear : year = 399
    · rw [hlastYear] at hafter
      simp only [yearStart] at hafter
      omega
    · have hnext := (leaplessDay_bounds (year + 1) (by omega) (by omega)).1
      have hmono := leaplessDay_mono (a := yearStart (year + 1)) (b := doe) (by omega)
      omega

/-- A date in terms of a year that starts in March and the day in it. -/
theorem dateOfDay_spec (n : ℤ) : ∃ year doy : ℤ,
    n + 306 = yearStart year + doy ∧ 0 ≤ doy ∧ doy < yearStart (year + 1) - yearStart year ∧
    12 * (dateOfDay n).year + (dateOfDay n).month = 12 * year + (5 * doy + 2) / 153 + 3 ∧
    1 ≤ (dateOfDay n).month ∧ (dateOfDay n).month ≤ 12 ∧
    (dateOfDay n).day = doy - (153 * ((5 * doy + 2) / 153) + 2) / 5 + 1 := by
  have h0 : 0 ≤ (n + 306) % 146097 := Int.emod_nonneg _ (by decide)
  have h1 : (n + 306) % 146097 < 146097 := Int.emod_lt_of_pos _ (by decide)
  have hera : n + 306 = 146097 * ((n + 306) / 146097) + (n + 306) % 146097 := by omega
  generalize hd : dateOfDay n = d
  unfold dateOfDay at hd
  dsimp only at hd
  generalize (n + 306) / 146097 = era at hd hera
  generalize (n + 306) % 146097 = doe at hd hera h0 h1
  obtain ⟨hy0, hy1, hstart, hend⟩ := yearOfEra_spec h0 h1 rfl
  have hyoe : (doe - doe / 1460 + doe / 36524 - doe / 146096) / 365 = leaplessDay doe / 365 := rfl
  rw [hyoe] at hd
  generalize leaplessDay doe / 365 = yoe at hd hy0 hy1 hstart hend
  have hfirst : yearStart yoe = 365 * yoe + yoe / 4 - yoe / 100 := by
    unfold yearStart
    omega
  refine ⟨yoe + 400 * era, doe - (365 * yoe + yoe / 4 - yoe / 100), ?_⟩
  have hnext : yoe + 400 * era + 1 = yoe + 1 + 400 * era := by ring
  rw [hnext, yearStart_add_era, yearStart_add_era]
  rw [← hfirst] at hd ⊢
  have hlength : yearStart (yoe + 1) ≤ yearStart yoe + 366 := by
    unfold yearStart
    omega
  clear hfirst hyoe
  generalize hdoy : doe - yearStart yoe = doy at hd
  have hdoy0 : 0 ≤ doy := by omega
  have hdoy1 : doy ≤ 365 := by omega
  generalize hmp : (5 * doy + 2) / 153 = mp at hd
  have hmp1 : mp ≤ 11 := by omega
  subst hd
  dsimp only
  refine ⟨by omega, hdoy0, by omega, ?_, ?_, ?_, rfl⟩
  · split <;> split <;> omega
  · split <;> omega
  · split <;> omega

theorem yearStart_length (year : ℤ) : yearStart (year + 1) - yearStart year ≤ 366 := by
  unfold yearStart
  omega

/-- The months of two dates, or their days in one month, are ordered as the day numbers. -/
theorem dateOfDay_lt (h : n < m) :
    12 * (dateOfDay n).year + (dateOfDay n).month < 12 * (dateOfDay m).year + (dateOfDay m).month ∨
    12 * (dateOfDay n).year + (dateOfDay n).month = 12 * (dateOfDay m).year + (dateOfDay m).month ∧
      (dateOfDay n).day < (dateOfDay m).day := by
  obtain ⟨year, doy, hn, hdoy0, hdoy1, hmonth, -, -, hday⟩ := dateOfDay_spec n
  obtain ⟨year', doy', hm, hdoy0', hdoy1', hmonth', -, -, hday'⟩ := dateOfDay_spec m
  rw [hmonth, hmonth', hday, hday']
  have hlength := yearStart_length year
  have hlength' := yearStart_length year'
  rcases lt_trichotomy year year' with hyear | rfl | hyear
  · left
    omega
  · have hlt : doy < doy' := by omega
    by_cases hmp : (5 * doy + 2) / 153 = (5 * doy' + 2) / 153
    · right
      rw [hmp]
      omega
    · left
      omega
  · -- a later year starts after all the days of an earlier one
    have hstart : yearStart (year' + 1) ≤ yearStart year := by
      rcases eq_or_lt_of_le (Int.add_one_le_of_lt hyear) with heq | hlt
      · rw [heq]
      · exact (yearStart_strictMono hlt).le
    omega

theorem dateOfDay_bounds (n : ℤ) : 1 ≤ (dateOfDay n).month ∧ (dateOfDay n).month ≤ 12 ∧
    0 ≤ (dateOfDay n).day ∧ (dateOfDay n).day ≤ 31 := by
  obtain ⟨year, doy, -, hdoy0, hdoy1, -, hmonth0, hmonth1, hday⟩ := dateOfDay_spec n
  have hlength := yearStart_length year
  refine ⟨hmonth0, hmonth1, ?_, ?_⟩
  · omega
  · omega

theorem dateOfDay_year_mono (h : n ≤ m) : (dateOfDay n).year ≤ (dateOfDay m).year := by
  rcases eq_or_lt_of_le h with rfl | h
  · exact le_rfl
  · have hlt := dateOfDay_lt h
    obtain ⟨hn0, hn1, -⟩ := dateOfDay_bounds n
    obtain ⟨hm0, hm1, -⟩ := dateOfDay_bounds m
    omega

end Stacklab.Lib
