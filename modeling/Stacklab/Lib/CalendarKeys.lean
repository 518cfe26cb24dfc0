import Stacklab.Lib.DateOrder

/-! The texts of days, ISO weeks and months tell them apart, and time orders them. -/
namespace Stacklab.Lib

variable {t u n m : ℤ} {w : ℕ}

/-- The digits of a padded number. -/
def paddedDigits (w : ℕ) (n : ℤ) : List Char :=
  List.replicate (w - (toString n.natAbs).length) '0' ++ Nat.toDigits 10 n.natAbs

theorem toList_padded (w : ℕ) (n : ℤ) :
    (padded w n).toList = (if n < 0 then ['-'] else []) ++ paddedDigits w n := by
  rw [padded, paddedDigits]
  split <;> simp [String.toList_append, Nat.toString_eq_repr]

theorem ofDigitChars_paddedDigits (w : ℕ) (n : ℤ) :
    Nat.ofDigitChars 10 (paddedDigits w n) 0 = n.natAbs := by
  rw [paddedDigits, Nat.ofDigitChars_append, Nat.ofDigitChars_replicate_zero, mul_zero,
    Nat.ofDigitChars_ten_toDigits]

theorem minus_not_mem_paddedDigits (w : ℕ) (n : ℤ) : '-' ∉ paddedDigits w n := by
  intro h
  rcases List.mem_append.mp h with h | h
  · exact absurd (List.eq_of_mem_replicate h) (by decide)
  · exact absurd (Nat.isDigit_of_mem_toDigits (by decide) (by decide) h) (by decide)

theorem padded_injective (h : padded w n = padded w m) : n = m := by
  have hlist := congrArg String.toList h
  rw [toList_padded, toList_padded] at hlist
  have hminus := minus_not_mem_paddedDigits w
  have hvalue := ofDigitChars_paddedDigits w
  by_cases hn : n < 0
  · by_cases hm : m < 0
    · rw [if_pos hn, if_pos hm, List.append_cancel_left_eq] at hlist
      have habs := (hvalue n).symm.trans (hlist ▸ hvalue m)
      omega
    · rw [if_pos hn, if_neg hm, List.nil_append, List.cons_append] at hlist
      exact absurd (hlist ▸ List.mem_cons_self) (hminus m)
  · by_cases hm : m < 0
    · rw [if_neg hn, if_pos hm, List.nil_append, List.cons_append] at hlist
      exact absurd (hlist ▸ List.mem_cons_self) (hminus n)
    · rw [if_neg hn, if_neg hm, List.append_cancel_left_eq] at hlist
      have habs := (hvalue n).symm.trans (hlist ▸ hvalue m)
      omega

theorem length_padded_two (h0 : 0 ≤ n) (h : n < 100) : (padded 2 n).length = 2 := by
  have hall : ∀ k : Fin 100, (padded 2 (k.val : ℤ)).length = 2 := by decide +kernel
  have hk := hall ⟨n.toNat, by omega⟩
  rwa [Int.toNat_of_nonneg h0] at hk

/-- The parts of a text whose last part has two digits. -/
theorem append_padded_two_inj {a b : String} (hn0 : 0 ≤ n) (hn : n < 100) (hm0 : 0 ≤ m)
    (hm : m < 100) : a ++ "-" ++ padded 2 n = b ++ "-" ++ padded 2 m ↔ a = b ∧ n = m := by
  constructor
  · intro h
    have hlist := congrArg String.toList h
    simp only [String.toList_append] at hlist
    have hlength : (padded 2 n).toList.length = (padded 2 m).toList.length := by
      rw [String.length_toList, String.length_toList, length_padded_two hn0 hn,
        length_padded_two hm0 hm]
    obtain ⟨hfront, hlast⟩ := List.append_inj' hlist hlength
    obtain ⟨hab, -⟩ := List.append_inj' hfront rfl
    exact ⟨String.toList_inj.mp hab, padded_injective (String.toList_inj.mp hlast)⟩
  · rintro ⟨rfl, rfl⟩
    rfl

/-- Months counted from the start of year 0. -/
def monthNumber (t : Instant) : ℤ :=
  12 * (dateOfDay (dayNumber t)).year + (dateOfDay (dayNumber t)).month

/-- Weeks that start on a Monday, counted from the first one of year 1. -/
def weekNumber (t : Instant) : ℤ := dayNumber t / 7

theorem dayNumber_mono (h : t ≤ u) : dayNumber t ≤ dayNumber u :=
  Int.ediv_le_ediv (by decide) h

theorem weekNumber_mono (h : t ≤ u) : weekNumber t ≤ weekNumber u :=
  Int.ediv_le_ediv (by decide) (dayNumber_mono h)

theorem monthNumber_mono (h : t ≤ u) : monthNumber t ≤ monthNumber u := by
  rcases eq_or_lt_of_le (dayNumber_mono h) with heq | hlt
  · rw [monthNumber, monthNumber, heq]
  · rcases dateOfDay_lt hlt with hlt | ⟨heq, -⟩
    · exact hlt.le
    · exact heq.le

theorem monthPeriod_eq_iff : monthPeriod t = monthPeriod u ↔ monthNumber t = monthNumber u := by
  obtain ⟨hn0, hn1, -⟩ := dateOfDay_bounds (dayNumber t)
  obtain ⟨hm0, hm1, -⟩ := dateOfDay_bounds (dayNumber u)
  rw [monthPeriod, monthPeriod,
    append_padded_two_inj (by omega) (by omega) (by omega) (by omega), monthNumber, monthNumber]
  constructor
  · rintro ⟨hyear, hmonth⟩
    rw [padded_injective hyear, hmonth]
  · intro h
    have hyear : (dateOfDay (dayNumber t)).year = (dateOfDay (dayNumber u)).year := by omega
    exact ⟨by rw [hyear], by omega⟩

theorem dateOfDay_injective (h : dateOfDay n = dateOfDay m) : n = m := by
  rcases lt_trichotomy n m with hlt | rfl | hlt
  · have hdate := dateOfDay_lt hlt
    rw [h] at hdate
    omega
  · rfl
  · have hdate := dateOfDay_lt hlt
    rw [h] at hdate
    omega

theorem dayPeriod_eq_iff : dayPeriod t = dayPeriod u ↔ dayNumber t = dayNumber u := by
  obtain ⟨hn0, hn1, hn2, hn3⟩ := dateOfDay_bounds (dayNumber t)
  obtain ⟨hm0, hm1, hm2, hm3⟩ := dateOfDay_bounds (dayNumber u)
  rw [dayPeriod, dayPeriod, append_padded_two_inj hn2 (by omega) hm2 (by omega),
    append_padded_two_inj (by omega) (by omega) (by omega) (by omega)]
  constructor
  · rintro ⟨⟨hyear, hmonth⟩, hday⟩
    apply dateOfDay_injective
    have hyear := padded_injective hyear
    cases hd : dateOfDay (dayNumber t)
    cases hd' : dateOfDay (dayNumber u)
    simp_all
  · intro h
    rw [h]
    exact ⟨⟨rfl, rfl⟩, rfl⟩

theorem le_yearStart_length (year : ℤ) : 365 ≤ yearStart (year + 1) - yearStart year := by
  unfold yearStart
  omega

/-- A day lies in the year of its date. -/
theorem firstDayOfYear_bounds (n : ℤ) : firstDayOfYear (dateOfDay n).year ≤ n ∧
    n ≤ firstDayOfYear (dateOfDay n).year + 365 := by
  obtain ⟨year, doy, hn, hdoy0, hdoy1, hmonth, hmonth0, hmonth1, -⟩ := dateOfDay_spec n
  generalize (dateOfDay n).year = y at *
  generalize (dateOfDay n).month = month at *
  have hfirst : firstDayOfYear y = yearStart (y - 1) := rfl
  rw [hfirst]
  have hlength := yearStart_length year
  -- the days before March belong to the next year
  by_cases hmp : (5 * doy + 2) / 153 < 10
  · obtain rfl : y = year := by omega
    have hlow := le_yearStart_length (y - 1)
    have hhigh := yearStart_length (y - 1)
    rw [sub_add_cancel] at hlow hhigh
    omega
  · obtain rfl : y = year + 1 := by omega
    rw [add_sub_cancel_right]
    omega

theorem isoWeek_bounds (n : ℤ) : 1 ≤ (isoWeek n).2 ∧ (isoWeek n).2 ≤ 53 := by
  have h := firstDayOfYear_bounds (n - n % 7 + 3)
  simp only [isoWeek]
  omega

theorem isoWeek_eq_iff : isoWeek n = isoWeek m ↔ n / 7 = m / 7 := by
  constructor
  · intro h
    simp only [isoWeek, Prod.mk.injEq] at h
    obtain ⟨hyear, hweek⟩ := h
    rw [hyear] at hweek
    omega
  · intro h
    have hthursday : n - n % 7 + 3 = m - m % 7 + 3 := by omega
    simp only [isoWeek, hthursday]

theorem weekPeriod_eq_iff : weekPeriod t = weekPeriod u ↔ weekNumber t = weekNumber u := by
  obtain ⟨hn0, hn1⟩ := isoWeek_bounds (dayNumber t)
  obtain ⟨hm0, hm1⟩ := isoWeek_bounds (dayNumber u)
  rw [weekPeriod, weekPeriod]
  rw [append_padded_two_inj (by omega) (by omega) (by omega) (by omega), weekNumber, weekNumber,
    ← isoWeek_eq_iff, Prod.ext_iff]
  constructor
  · rintro ⟨hyear, hweek⟩
    exact ⟨padded_injective hyear, hweek⟩
  · rintro ⟨hyear, hweek⟩
    exact ⟨by rw [hyear], hweek⟩

end Stacklab.Lib
