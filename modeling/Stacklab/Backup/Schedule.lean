import Stacklab.Lib.GoTime
import Stacklab.Backup.Health

/-! When a schedule is due, in the time zone that it names. -/
namespace Stacklab.Backup

open Lib

/-- `time.LoadLocation` on this host, and `time.Local`. -/
structure Zones where
  loadLocation : String → Option Location
  host : Location

variable (zones : Zones)

/-- The error of the package that this text is about. -/
def errInvalid (text : String) : String := "invalid backup configuration: " ++ text

def validateSchedule (schedule : Schedule) : Except String Unit :=
  match schedule.frequency with
  | .unset | .manual => .ok ()
  | .interval =>
    if schedule.intervalHours < 1 ∨ schedule.intervalHours > 168 then
      .error (errInvalid "interval_hours must be 1 to 168")
    else .ok ()
  | .daily | .weekly =>
    if parseClock schedule.time = none then
      .error (errInvalid "schedule time must be HH:MM")
    else if schedule.weekday < 0 ∨ schedule.weekday > 6 then
      .error (errInvalid "schedule weekday must be 0 to 6")
    else if schedule.timezone ≠ "" ∧ (zones.loadLocation schedule.timezone).isNone then
      .error (errInvalid "unknown schedule timezone")
    else .ok ()
  | .other _ =>
    .error (errInvalid "schedule frequency must be manual, interval, daily, or weekly")

def scheduleLocation (schedule : Schedule) : Location :=
  if schedule.frequency = .interval then .utc
  else if schedule.timezone ≠ "" then
    (zones.loadLocation schedule.timezone).getD zones.host
  else zones.host

/-- The time that a schedule names on a calendar date; `none` where the clocks skip it. -/
def calendarOccurrence (schedule : Schedule) (date : ℤ) : Option Instant :=
  match parseClock schedule.time with
  | none => none
  | some (hours, minutes) =>
    let location := scheduleLocation zones schedule
    let candidate := location.date (date * dayLength + hours * (60 * minute) + minutes * minute)
    let reading := location.wall candidate
    -- only the day of the month is compared, as the source does
    if hourOf reading ≠ hours ∨ minuteOf reading ≠ minutes ∨
        (dateOfDay (dayNumber reading)).day ≠ (dateOfDay date).day then none
    else if schedule.frequency = .weekly ∧ weekdayOf (dayNumber reading) ≠ schedule.weekday then
      none
    else some candidate

/-- The calendar date that `AddDate` reaches from a time. -/
def dateReached (schedule : Schedule) (t : Instant) (days : ℤ) : ℤ :=
  let location := scheduleLocation zones schedule
  location.dayOf (location.addDays t days)

def latestDue (schedule : Schedule) (now : Instant) : Option Instant :=
  match validateSchedule zones schedule, schedule.frequency with
  | .error _, _ | .ok (), .manual | .ok (), .unset => none
  | .ok (), .interval =>
    let seconds := schedule.intervalHours * 3600
    some (unixTime + (unixSeconds now).tdiv seconds * seconds * second)
  | .ok (), _ =>
    (List.range 15).findSome? fun days : ℕ =>
      (calendarOccurrence zones schedule (dateReached zones schedule now (-days))).filter
        fun candidate => candidate ≤ now

def previewSchedule (schedule : Schedule) (from_ : Instant) (count : ℤ) :
    Except String (List Instant) := do
  validateSchedule zones schedule
  if count < 1 ∨ count > 10 then
    throw (errInvalid "schedule preview count must be 1 to 10")
  match schedule.frequency with
  | .manual | .unset => return []
  | .interval =>
    let due := (latestDue zones schedule from_).getD 0
    let interval := schedule.intervalHours * (60 * minute)
    return (List.range count.toNat).map fun i : ℕ => due + (i + 1 : ℤ) * interval
  | _ =>
    -- the loop stops at `count` occurrences or after a hundred days
    return ((List.range 100).filterMap fun days : ℕ =>
      (calendarOccurrence zones schedule (dateReached zones schedule from_ days)).filter
        fun candidate => from_ < candidate).take count.toNat

def occurrencePending (last : Option Instant) (due now : Instant) : Bool :=
  last.all fun last => inFuture now last || last < due

/-- A recorded time that the clock has reached. -/
def notInFuture (now : Instant) (t : Option Instant) : Option Instant :=
  t.filter fun t => !inFuture now t

def firstOutstandingDue (assignment : Assignment) (captured : Option Instant) (now : Instant)
    (grace : ℤ) : Option Instant :=
  -- the zero time stands for no time at all
  let captured := (notInFuture now captured).getD 0
  let from_ :=
    match notInFuture now assignment.scheduleActivatedAt with
    | none => captured
    | some activated =>
      if captured = 0 ∨ activated - 1 > captured then activated - 1 else captured
  if from_ = 0 then latestDue zones assignment.schedule (now - grace - 1)
  else
    match previewSchedule zones assignment.schedule from_ 1 with
    | .ok (next :: _) => if next > now then none else some next
    | _ => none

def overdueGrace (graceMinutes : ℤ) : ℤ :=
  (if graceMinutes < 1 ∨ graceMinutes > 10080 then 60 else graceMinutes) * minute

end Stacklab.Backup
