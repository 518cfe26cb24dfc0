import Stacklab.Lib.Calendar

/-! Locations and civil time, as Go's `time` package computes them. -/
namespace Stacklab.Lib

def second : ℤ := 1000000000

def dayLength : ℤ := 24 * 60 * minute

/-- The start of 1970 in UTC. -/
def unixTime : Instant := 62135596800 * second

def unixSeconds (t : Instant) : ℤ := (t - unixTime) / second

/-- A stretch of time in which a location keeps one offset, in seconds since 1970. -/
structure Period where
  offset : ℤ
  start : Option ℤ
  stop : Option ℤ
  deriving DecidableEq, Repr

def Period.covers (p : Period) (sec : ℤ) : Bool :=
  p.start.all (fun start => decide (start ≤ sec)) && p.stop.all fun stop => decide (sec < stop)

/-- A time zone: every time lies in the one period that `lookup` answers for it. -/
structure Location where
  lookup : ℤ → Period
  covers : ∀ sec, (lookup sec).covers sec = true
  same : ∀ sec other, (lookup sec).covers other = true → lookup other = lookup sec

namespace Location

variable {start : Option ℤ} {offset sec other : ℤ} {transitions : List (ℤ × ℤ)}

/-- The period of a time under transitions that are given with the offsets they bring in. -/
def periodAt (start : Option ℤ) (offset : ℤ) : List (ℤ × ℤ) → ℤ → Period
  | [], _ => ⟨offset, start, none⟩
  | next :: rest, sec =>
    if sec < next.1 then ⟨offset, start, some next.1⟩ else periodAt (some next.1) next.2 rest sec

theorem periodAt_covers (hs : start.all (fun start => decide (start ≤ sec)) = true) :
    (periodAt start offset transitions sec).covers sec = true := by
  induction transitions generalizing start offset with
  | nil => simp [periodAt, Period.covers, hs]
  | cons next rest ih =>
    rw [periodAt]
    split
    next hlt =>
      simp [Period.covers, hs, hlt]
    next hge =>
      apply ih
      simpa using hge

/-- The period starts no earlier than the last transition that was passed. -/
theorem le_of_periodAt_covers {first : ℤ} (ho : (transitions.map Prod.fst).Pairwise (· < ·))
    (hf : ∀ at_ ∈ transitions.map Prod.fst, first < at_)
    (h : (periodAt (some first) offset transitions sec).covers other = true) : first ≤ other := by
  induction transitions generalizing first offset with
  | nil =>
    have hle := (Bool.and_eq_true _ _ ▸ h).1
    simpa [periodAt] using hle
  | cons next rest ih =>
    rw [periodAt] at h
    split at h
    · have hle := (Bool.and_eq_true _ _ ▸ h).1
      simpa using hle
    · have hnext : first < next.1 := hf next.1 (by simp)
      have hrest := List.pairwise_cons.mp (List.map_cons ▸ ho)
      have hle := ih hrest.2 hrest.1 h
      omega

theorem periodAt_same (ho : (transitions.map Prod.fst).Pairwise (· < ·))
    (h : (periodAt start offset transitions sec).covers other = true) :
    periodAt start offset transitions other = periodAt start offset transitions sec := by
  induction transitions generalizing start offset with
  | nil => rfl
  | cons next rest ih =>
    rw [periodAt] at h
    rw [periodAt, periodAt]
    have hrest := List.pairwise_cons.mp (List.map_cons ▸ ho)
    by_cases hsec : sec < next.1
    · rw [if_pos hsec] at h
      have hlt := (Bool.and_eq_true _ _ ▸ h).2
      have hother : other < next.1 := by simpa using hlt
      rw [if_pos hsec, if_pos hother]
    · rw [if_neg hsec] at h
      have hle := le_of_periodAt_covers hrest.2 hrest.1 h
      rw [if_neg hsec, if_neg (by omega)]
      exact ih hrest.2 h

/-- The location of a list of transitions, with the offset that holds before the first. -/
def ofTransitions (initial : ℤ) (transitions : List (ℤ × ℤ))
    (ho : (transitions.map Prod.fst).Pairwise (· < ·)) : Location where
  lookup := periodAt none initial transitions
  covers _ := periodAt_covers rfl
  same _ _ := periodAt_same ho

/-- `time.FixedZone`; `time.UTC` is the one with offset zero. -/
def fixed (offset : ℤ) : Location := ofTransitions offset [] .nil

def utc : Location := fixed 0

variable (loc : Location)

/-- The reading of the location's clock, counted like an instant. -/
def wall (t : Instant) : ℤ := t + (loc.lookup (unixSeconds t)).offset * second

/-- The calendar date of a time, as a day number. -/
def dayOf (t : Instant) : ℤ := dayNumber (loc.wall t)

/-- `time.Date`: the offset is guessed from the reading taken as UTC, then corrected once. -/
def date (wall : ℤ) : Instant :=
  let sec := unixSeconds wall
  let guess := loc.lookup sec
  if guess.offset = 0 then wall
  else if guess.covers (sec - guess.offset) then wall - guess.offset * second
  else wall - (loc.lookup (sec - guess.offset)).offset * second

/-- `AddDate(0, 0, days)`. -/
def addDays (t : Instant) (days : ℤ) : Instant := loc.date (loc.wall t + days * dayLength)

@[simp] theorem wall_fixed (offset : ℤ) (t : Instant) :
    (fixed offset).wall t = t + offset * second := rfl

@[simp] theorem date_fixed (offset wall : ℤ) :
    (fixed offset).date wall = wall - offset * second := by
  by_cases h : offset = 0
  · simp [date, fixed, ofTransitions, periodAt, h]
  · simp [date, fixed, ofTransitions, periodAt, Period.covers, h]

end Location

/-- Hour and minute of a clock reading. -/
def hourOf (wall : ℤ) : ℤ := wall / (60 * minute) % 24

def minuteOf (wall : ℤ) : ℤ := wall / minute % 60

/-- `Weekday()` of a day number; Sunday is 0. -/
def weekdayOf (n : ℤ) : ℤ := (n + 1) % 7

def digitOf (c : Char) : Option ℕ := if c.isDigit then some (c.toNat - '0'.toNat) else none

/-- What follows the hour in `time.Parse("15:04", _)`: exactly two digits. -/
def parseMinute : List Char → Option ℕ
  | [':', tens, ones] => do
    let tens ← digitOf tens
    let ones ← digitOf ones
    if tens * 10 + ones < 60 then some (tens * 10 + ones) else none
  | _ => none

/-- `time.Parse("15:04", _)`: the hour may be a single digit. -/
def parseClock (s : String) : Option (ℕ × ℕ) :=
  match s.toList with
  | tens :: rest => do
    let first ← digitOf tens
    let (hour, rest) :=
      match rest with
      | ones :: rest' =>
        match digitOf ones with
        | some digit => (first * 10 + digit, rest')
        | none => (first, rest)
      | [] => (first, [])
    let minutes ← parseMinute rest
    if hour < 24 then some (hour, minutes) else none
  | [] => none

example : parseClock "02:30" = some (2, 30) := by decide

end Stacklab.Lib
