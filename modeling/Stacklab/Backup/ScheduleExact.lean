import Stacklab.Lib.Found
import Stacklab.Backup.Schedule
import Mathlib.Data.Int.LeastGreatest

/-! When daily and weekly schedules are exact: the day steps have to meet the dates of the
occurrences in order. -/
namespace Stacklab.Backup

open Lib Location

variable (zones : Zones) (schedule : Schedule)

/-- The calendar date of a time in the zone of the schedule. -/
def localDate (t : Instant) : ℤ := (scheduleLocation zones schedule).dayOf t

/-- The time is the one that the schedule names on its own local date. -/
def Occurs (t : Instant) : Prop :=
  calendarOccurrence zones schedule (localDate zones schedule t) = some t

/-- What `latestDue` and `PreviewSchedule` promise from 1970 on. -/
structure ExactSchedule : Prop where
  latest : ∀ now, unixTime ≤ now → ∀ t,
    latestDue zones schedule now = some t ↔ IsGreatest {e | Occurs zones schedule e ∧ e ≤ now} t
  preview : ∀ from_ n, unixTime ≤ from_ → 1 ≤ n → n ≤ 10 →
    ∃ l, previewSchedule zones schedule from_ n = .ok l ∧
      FirstAfter (Occurs zones schedule) from_ n.toNat l
  monotone : ∀ now later, unixTime ≤ now → now ≤ later → ∀ t,
    latestDue zones schedule now = some t →
      ∃ t', latestDue zones schedule later = some t' ∧ t ≤ t'
  fixed : ∀ from_ n l, unixTime ≤ from_ → 1 ≤ n → n ≤ 10 →
    previewSchedule zones schedule from_ n = .ok l → ∀ t ∈ l, latestDue zones schedule t = some t

/-- What the date that lies `days` steps back holds, unless it is after the time. -/
def dueAt (now : Instant) (days : ℕ) : Option Instant :=
  (calendarOccurrence zones schedule (dateReached zones schedule now (-days))).filter
    fun candidate => candidate ≤ now

/-- What the date that lies `days` steps ahead holds, if it is after the time. -/
def upcomingAt (from_ : Instant) (days : ℕ) : Option Instant :=
  (calendarOccurrence zones schedule (dateReached zones schedule from_ days)).filter
    fun candidate => from_ < candidate

/-- The dates that `AddDate` steps to from a time meet the occurrences around it in order: going
back, the first date met that holds one not after the time leaves none later behind, and fifteen
steps meet one if there is one; going ahead, until ten are met, the dates that hold later ones are
met in the order of the occurrences, none twice and none skipped, and a hundred steps are enough. -/
structure DatesInOrder : Prop where
  back : ∀ now, unixTime ≤ now → ∀ k < 15, ∀ c, dueAt zones schedule now k = some c →
    (∀ j < k, dueAt zones schedule now j = none) →
      Occurs zones schedule c ∧ ∀ e, Occurs zones schedule e → e ≤ now → e ≤ c
  back_enough : ∀ now, unixTime ≤ now → (∀ k < 15, dueAt zones schedule now k = none) →
    ∀ e, Occurs zones schedule e → now < e
  ahead : ∀ from_, unixTime ≤ from_ → ∀ k < 100, ∀ c, upcomingAt zones schedule from_ k = some c →
    (found (upcomingAt zones schedule from_) k).length < 10 →
      (∀ j < k, ∀ b, upcomingAt zones schedule from_ j = some b → b < c) ∧
      Occurs zones schedule c ∧
      ∀ e, Occurs zones schedule e → from_ < e → e < c →
        ∃ j < k, upcomingAt zones schedule from_ j = some e
  ahead_enough : ∀ from_, unixTime ≤ from_ →
    (found (upcomingAt zones schedule from_) 100).length < 10 →
      ∀ e, Occurs zones schedule e → from_ < e →
        ∃ k < 100, upcomingAt zones schedule from_ k = some e

variable {zones schedule} {c now : Instant} {k : ℕ} {P : Instant → Prop}

section Loops

variable (hv : validateSchedule zones schedule = .ok ())
  (hf : schedule.frequency = .daily ∨ schedule.frequency = .weekly)

include hv hf

theorem latestDue_eq (now : Instant) :
    latestDue zones schedule now = (found (dueAt zones schedule now) 15).head? := by
  rw [← findSome?_eq_head?_found]
  rcases hf with hf | hf
  · simp only [latestDue, hv, hf]
    rfl
  · simp only [latestDue, hv, hf]
    rfl

theorem previewSchedule_eq (from_ : Instant) {n : ℤ} (h1 : 1 ≤ n) (h10 : n ≤ 10) :
    previewSchedule zones schedule from_ n =
      .ok ((found (upcomingAt zones schedule from_) 100).take n.toNat) := by
  have hn : ¬(n < 1 ∨ n > 10) := by omega
  rcases hf with hf | hf
  · simp only [previewSchedule, hv, hf, if_neg hn, found, upcomingAt]
    rfl
  · simp only [previewSchedule, hv, hf, if_neg hn, found, upcomingAt]
    rfl

end Loops

theorem lt_of_upcomingAt {from_ : Instant} (h : upcomingAt zones schedule from_ k = some c) :
    from_ < c := by
  have hlt := (Option.filter_eq_some_iff.mp h).2
  simpa using hlt

theorem le_of_dueAt (h : dueAt zones schedule now k = some c) : c ≤ now := by
  have hle := (Option.filter_eq_some_iff.mp h).2
  simpa using hle

/-- A set of times that is bounded and not empty has a greatest member. -/
theorem exists_isGreatest {e : Instant} (he : P e) (hle : e ≤ now) :
    ∃ t, IsGreatest {e | P e ∧ e ≤ now} t := by
  obtain ⟨t, ht, hmax⟩ := Int.exists_greatest_of_bdd
    ⟨now, fun z (hz : P z ∧ z ≤ now) => hz.2⟩ ⟨e, he, hle⟩
  exact ⟨t, ht, fun z hz => hmax z hz⟩

/-- The first value of a search is the greatest member exactly if it leaves none behind. -/
theorem head?_isGreatest_iff {f : ℕ → Option Instant} {steps : ℕ}
    (hle : ∀ k c, f k = some c → c ≤ now) :
    (∀ t, (found f steps).head? = some t ↔ IsGreatest {e | P e ∧ e ≤ now} t) ↔
      (∀ k < steps, ∀ c, f k = some c → (∀ j < k, f j = none) →
        P c ∧ ∀ e, P e → e ≤ now → e ≤ c) ∧
      ((∀ k < steps, f k = none) → ∀ e, P e → now < e) := by
  constructor
  · intro h
    refine ⟨?_, ?_⟩
    · intro k hk c hc hnone
      have hgreatest := (h c).mp (head?_found.mpr ⟨k, hk, hc, hnone⟩)
      exact ⟨hgreatest.1.1, fun e he hen => hgreatest.2 ⟨he, hen⟩⟩
    · intro hnone e he
      by_contra hlt
      obtain ⟨t, ht⟩ := exists_isGreatest he (Int.not_lt.mp hlt)
      have hsome := (h t).mpr ht
      rw [found_eq_nil.mpr hnone] at hsome
      cases hsome
  · rintro ⟨hfirst, hend⟩ t
    have hgreatest : ∀ t, (found f steps).head? = some t → IsGreatest {e | P e ∧ e ≤ now} t := by
      intro t ht
      obtain ⟨k, hk, hc, hnone⟩ := head?_found.mp ht
      obtain ⟨hp, hmax⟩ := hfirst k hk t hc hnone
      exact ⟨⟨hp, hle k t hc⟩, fun e he => hmax e he.1 he.2⟩
    refine ⟨hgreatest t, ?_⟩
    intro ht
    cases hhead : (found f steps).head? with
    | none =>
      have hnone := found_eq_nil.mp (List.head?_eq_none_iff.mp hhead)
      have hlt := hend hnone t ht.1.1
      exact absurd ht.1.2 (Int.not_le.mpr hlt)
    | some c => rw [(hgreatest c hhead).unique ht]

theorem DatesInOrder.latest (h : DatesInOrder zones schedule)
    (hv : validateSchedule zones schedule = .ok ())
    (hf : schedule.frequency = .daily ∨ schedule.frequency = .weekly) (hnow : unixTime ≤ now)
    (t : Instant) : latestDue zones schedule now = some t ↔
      IsGreatest {e | Occurs zones schedule e ∧ e ≤ now} t := by
  have hback := (head?_isGreatest_iff fun k c => le_of_dueAt).mpr
    ⟨h.back now hnow, h.back_enough now hnow⟩
  rw [latestDue_eq hv hf now]
  exact hback t

/-- Ten o'clock every day. -/
def tenDaily (timezone : String) : Schedule := ⟨.daily, "10:00", 0, timezone, 0⟩

section Utc

variable {t : ℤ}

def utcZones : Zones := ⟨fun _ => none, .utc⟩

/-- Ten o'clock in UTC on a date. -/
def tenOn (date : ℤ) : ℤ := date * dayLength + 10 * (60 * minute)

theorem calendarOccurrence_ten (date : ℤ) :
    calendarOccurrence utcZones (tenDaily "") date = some (tenOn date) := by
  have hclock : parseClock "10:00" = some (10, 0) := by decide
  have hdate : utc.date (date * dayLength + (10 : ℕ) * (60 * minute) + (0 : ℕ) * minute) =
      tenOn date := by
    rw [utc, date_fixed]
    simp [tenOn]
  have hwall : utc.wall (tenOn date) = tenOn date := by simp [utc]
  have hfields : hourOf (tenOn date) = (10 : ℕ) ∧ minuteOf (tenOn date) = (0 : ℕ) ∧
      dayNumber (tenOn date) = date := by
    simp only [tenOn, hourOf, minuteOf, dayNumber, dayLength, minute]
    omega
  have hloc : scheduleLocation utcZones (tenDaily "") = utc := rfl
  simp only [calendarOccurrence, tenDaily, hclock] at hloc ⊢
  simp only [hloc, hdate, hwall, hfields]
  simp

theorem dateReached_ten (t days : ℤ) :
    dateReached utcZones (tenDaily "") t days = t / dayLength + days := by
  have hday : dateReached utcZones (tenDaily "") t days = (t + days * dayLength) / dayLength := by
    have hloc : scheduleLocation utcZones (tenDaily "") = .fixed 0 := rfl
    rw [dateReached, hloc, dayOf, addDays, wall_fixed, date_fixed, wall_fixed, Int.sub_add_cancel,
      zero_mul, add_zero]
    rfl
  rw [hday]
  simp only [dayLength, minute]
  omega

theorem tenOn_div (date : ℤ) : tenOn date / dayLength = date := by
  simp only [tenOn, dayLength, minute]
  omega

theorem occurs_ten : Occurs utcZones (tenDaily "") t ↔ ∃ date, t = tenOn date := by
  have hday : localDate utcZones (tenDaily "") t = t / dayLength := by
    have hloc : scheduleLocation utcZones (tenDaily "") = .fixed 0 := rfl
    rw [localDate, hloc, dayOf, wall_fixed, zero_mul, add_zero]
    rfl
  rw [Occurs, hday, calendarOccurrence_ten, Option.some.injEq]
  constructor
  · exact fun h => ⟨_, h.symm⟩
  · rintro ⟨date, rfl⟩
    rw [tenOn_div]

theorem dueAt_ten {c : ℤ} :
    dueAt utcZones (tenDaily "") t k = some c ↔ c = tenOn (t / dayLength - k) ∧ c ≤ t := by
  rw [dueAt, dateReached_ten, calendarOccurrence_ten, Option.filter_eq_some_iff,
    decide_eq_true_eq, Option.some.injEq, ← sub_eq_add_neg, eq_comm (a := c)]

theorem upcomingAt_ten {c : ℤ} :
    upcomingAt utcZones (tenDaily "") t k = some c ↔ c = tenOn (t / dayLength + k) ∧ t < c := by
  rw [upcomingAt, dateReached_ten, calendarOccurrence_ten, Option.filter_eq_some_iff,
    decide_eq_true_eq, Option.some.injEq, eq_comm (a := c)]

/-- Yesterday's time has passed, so the first date that is met is today's or yesterday's. -/
theorem tenOn_first {now date : ℤ} (hlater : ∀ j < k, now < tenOn (now / dayLength - j))
    (hle : tenOn date ≤ now) : tenOn date ≤ tenOn (now / dayLength - k) := by
  have htoday := hlater 0
  have hyesterday := hlater 1
  simp only [tenOn, dayLength, minute] at *
  omega

/-- Tomorrow's time has not passed. -/
theorem tenOn_ahead {now date : ℤ} (h : now < tenOn date) :
    date = now / dayLength + (date - now / dayLength).toNat := by
  simp only [tenOn, dayLength, minute] at *
  omega

theorem tenOn_around (now : ℤ) (n : ℕ) (h : 0 < n) :
    tenOn (now / dayLength - n) ≤ now ∧ now < tenOn (now / dayLength + n) := by
  simp only [tenOn, dayLength, minute]
  omega

theorem tenOn_lt_iff (a b : ℤ) : tenOn a < tenOn b ↔ a < b := by
  simp only [tenOn, dayLength, minute]
  omega

theorem datesInOrder_ten : DatesInOrder utcZones (tenDaily "") := by
  constructor
  · intro now _ k hk c hc hnone
    obtain ⟨rfl, hle⟩ := dueAt_ten.mp hc
    refine ⟨occurs_ten.mpr ⟨_, rfl⟩, fun e he hen => ?_⟩
    obtain ⟨date, rfl⟩ := occurs_ten.mp he
    refine tenOn_first (fun j hj => ?_) hen
    by_contra hnot
    have hsome := dueAt_ten.mpr ⟨rfl, Int.not_lt.mp hnot⟩
    rw [hnone j hj] at hsome
    cases hsome
  · intro now _ hnone
    have hsome := dueAt_ten.mpr ⟨rfl, (tenOn_around now 1 (by decide)).1⟩
    rw [hnone 1 (by decide)] at hsome
    cases hsome
  · intro from_ _ k hk c hc _
    obtain ⟨rfl, hlt⟩ := upcomingAt_ten.mp hc
    refine ⟨fun j hj b hb => ?_, occurs_ten.mpr ⟨_, rfl⟩, fun e he hfrom hec => ?_⟩
    · obtain ⟨rfl, -⟩ := upcomingAt_ten.mp hb
      exact (tenOn_lt_iff _ _).mpr (by omega)
    · obtain ⟨date, rfl⟩ := occurs_ten.mp he
      have hdate := tenOn_ahead hfrom
      have hless := (tenOn_lt_iff _ _).mp hec
      exact ⟨(date - from_ / dayLength).toNat, by omega,
        upcomingAt_ten.mpr ⟨congrArg tenOn hdate, hfrom⟩⟩
  · intro from_ _ hshort
    have hfound : (List.range 10).map (fun i => tenOn (from_ / dayLength + (i + 1 : ℕ))) ⊆
        found (upcomingAt utcZones (tenDaily "") from_) 100 := by
      intro c hc
      obtain ⟨i, hi, rfl⟩ := List.mem_map.mp hc
      have hi := List.mem_range.mp hi
      exact mem_found.mpr ⟨i + 1, by omega,
        upcomingAt_ten.mpr ⟨rfl, (tenOn_around from_ (i + 1) (by omega)).2⟩⟩
    have hnodup : ((List.range 10).map
        fun i => tenOn (from_ / dayLength + (i + 1 : ℕ))).Nodup := by
      apply List.nodup_range.map
      intro i j hij
      simp only [tenOn, dayLength, minute] at hij
      omega
    have hlen := (hnodup.subperm hfound).length_le
    rw [List.length_map, List.length_range] at hlen
    omega

end Utc

/-- Clocks in Havana in 2025 go from midnight to one o'clock on 9 March. -/
def havana : Location :=
  .ofTransitions (-18000) [(1741496400, -14400), (1762059600, -18000)] (by decide)

def havanaZones : Zones :=
  ⟨fun name => if name = "America/Havana" then some havana else none, .utc⟩

/-- A time given in seconds since 1970. -/
def atUnix (sec : ℤ) : Instant := unixTime + sec * second

end Stacklab.Backup
