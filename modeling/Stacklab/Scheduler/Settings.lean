import Stacklab.Lib.GoText
import Stacklab.Lib.GoTime

/-! The schedules of maintenance: their settings, and when they are due. -/
namespace Stacklab.Scheduler

open Lib

inductive Frequency
  | daily
  | weekly
  | other (name : String)
  deriving DecidableEq, Repr

inductive Weekday
  | monday
  | tuesday
  | wednesday
  | thursday
  | friday
  | saturday
  | sunday
  | other (name : String)
  deriving DecidableEq, Repr

/-- `time.Weekday` of a name; Sunday is 0. -/
def weekdayToTime : Weekday → Option ℤ
  | .monday => some 1
  | .tuesday => some 2
  | .wednesday => some 3
  | .thursday => some 4
  | .friday => some 5
  | .saturday => some 6
  | .sunday => some 0
  | .other _ => none

/-- The fields that update and prune schedules share. -/
structure ScheduleConfig where
  enabled : Bool
  frequency : Frequency
  time : String
  weekdays : List Weekday
  deriving DecidableEq, Repr

structure UpdateTarget where
  mode : String
  stackIDs : List String
  excludedServices : List (String × List String)
  deriving DecidableEq, Repr

structure UpdateOptions where
  pullImages : Bool
  buildImages : Bool
  removeOrphans : Bool
  pruneAfter : Bool
  includeVolumes : Bool
  deriving DecidableEq, Repr

structure PruneScope where
  images : Bool
  buildCache : Bool
  stoppedContainers : Bool
  volumes : Bool
  deriving DecidableEq, Repr

structure UpdateScheduleConfig extends ScheduleConfig where
  target : UpdateTarget
  options : UpdateOptions
  deriving DecidableEq, Repr

structure PruneScheduleConfig extends ScheduleConfig where
  scope : PruneScope
  deriving DecidableEq, Repr

structure Settings where
  update : UpdateScheduleConfig
  prune : PruneScheduleConfig
  deriving DecidableEq, Repr

def defaultSettings : Settings where
  update :=
    { enabled := false
      frequency := .weekly
      time := "03:30"
      weekdays := [.saturday]
      target := ⟨"all", [], []⟩
      options := ⟨true, true, true, false, false⟩ }
  prune :=
    { enabled := false
      frequency := .weekly
      time := "04:30"
      weekdays := [.sunday]
      scope := ⟨true, true, true, false⟩ }

def errTimeFormat : String := "time must be in HH:MM format"

/-- A number of a clock reading that is below its bound. -/
def parseClockNumber (bound : ℤ) (cs : List Char) : Except String ℤ :=
  match atoi cs with
  | some n => if n < 0 ∨ n ≥ bound then .error errTimeFormat else .ok n
  | none => .error errTimeFormat

def parseTimeOfDay (value : String) : Except String (ℤ × ℤ) :=
  match splitChar ':' (trimSpace value) with
  | [hours, minutes] => do
    let hour ← parseClockNumber 24 hours
    let minutes ← parseClockNumber 60 minutes
    return (hour, minutes)
  | _ => .error errTimeFormat

/-- `weekdaySet`, as the test that it answers. -/
def weekdaySet (days : List Weekday) (weekday : ℤ) : Bool :=
  days.any fun day => weekdayToTime day = some weekday

def timeOn (location : Location) (hour minutes date : ℤ) : Instant :=
  location.date (date * dayLength + hour * (60 * minute) + minutes * minute)

/-- What an allowed date that lies some days back holds, unless it is after the time. -/
def weeklyCandidate (location : Location) (hour minutes : ℤ) (weekdays : List Weekday)
    (now : Instant) (offset : ℕ) : Option Instant :=
  let candidateDay := location.dayOf (location.addDays now (-offset))
  if weekdaySet weekdays (weekdayOf candidateDay) then
    (some (timeOn location hour minutes candidateDay)).filter fun candidate => candidate ≤ now
  else none

def mostRecentScheduledAt (frequency : Frequency) (timeOfDay : String) (weekdays : List Weekday)
    (location : Location) (now : Instant) : Except String Instant :=
  match parseTimeOfDay timeOfDay with
  | .error err => .error err
  | .ok (hour, minutes) =>
    match frequency with
    | .daily =>
      let candidate := timeOn location hour minutes (location.dayOf now)
      .ok (if now < candidate then location.addDays candidate (-1) else candidate)
    | .weekly =>
      match (List.range 8).findSome? (weeklyCandidate location hour minutes weekdays now) with
      | some candidate => .ok candidate
      | none => .error "unable to compute schedule"
    | .other _ => .error "unable to compute schedule"

/-- The most recent occurrence of a schedule, if one can be computed. -/
def ScheduleConfig.mostRecent (config : ScheduleConfig) (location : Location) (now : Instant) :
    Option Instant :=
  (mostRecentScheduledAt config.frequency config.time config.weekdays location now).toOption

def catchUpWindow : ℤ := 6 * 60 * minute

def dueSchedule (config : ScheduleConfig) (lastScheduledFor : Option Instant) (location : Location)
    (now : Instant) : Option Instant :=
  if !config.enabled then none
  else
    match config.mostRecent location now with
    | none => none
    | some dueAt =>
      if lastScheduledFor = some dueAt then none
      else if now - dueAt > catchUpWindow then none
      else some dueAt

def validateBaseSchedule (config : ScheduleConfig) : Except String Unit := do
  let _ ← parseTimeOfDay config.time
  match config.frequency with
  | .daily => return ()
  | .weekly =>
    if config.weekdays = [] then throw "weekly schedules require at least one weekday"
    match config.weekdays.find? fun day => (weekdayToTime day).isNone with
    | some (.other name) => throw ("unsupported weekday \"" ++ name ++ "\"")
    | _ => return ()
  | .other _ => throw "frequency must be one of: daily, weekly"

def dedupeStackIDs (stackIDs : List String) : List String :=
  (((stackIDs.map trimSpace).filter (· ≠ "")).dedup).mergeSort

def normalizeExcludedServices (excluded : List (String × List String)) :
    List (String × List String) :=
  ((excluded.map fun entry => (trimSpace entry.1, dedupeStackIDs entry.2)).filter
    fun entry => entry.1 ≠ "" && entry.2 ≠ [])

def normalizeUpdateConfig (config : UpdateScheduleConfig) : UpdateScheduleConfig :=
  { config with
    target :=
      { mode := trimSpace config.target.mode
        stackIDs := dedupeStackIDs config.target.stackIDs
        excludedServices := normalizeExcludedServices config.target.excludedServices } }

def hasExcludedServices (excluded : List (String × List String)) : Bool :=
  excluded.any fun entry => entry.2 ≠ []

/-- The runner and the stacks that settings are checked against, and the zone of the host. -/
structure Env where
  resolveTargetStacks : String → List String → Except String (List String)
  services : String → Except String (List String)
  location : Location

variable (env : Env)

def validateUpdateConfig (config : UpdateScheduleConfig) : Except String Unit := do
  validateBaseSchedule config.toScheduleConfig
  let mode := if config.target.mode = "" then "all" else config.target.mode
  if mode = "selected" then
    if config.target.stackIDs = [] then
      throw "update.target.stack_ids must be non-empty when mode = selected"
    let _ ← env.resolveTargetStacks mode config.target.stackIDs
  else if mode ≠ "all" then
    throw "update.target.mode must be one of: selected, all"
  if config.options.includeVolumes && !config.options.pruneAfter then
    throw "update.options.include_volumes requires prune_after = true"
  if config.options.removeOrphans && hasExcludedServices config.target.excludedServices then
    throw ("update.options.remove_orphans cannot be enabled when service exclusions " ++
      "are configured")

def validateUpdateServiceExclusions (config : UpdateScheduleConfig) : Except String Unit := do
  if !hasExcludedServices config.target.excludedServices then return ()
  let targeted ← env.resolveTargetStacks config.target.mode config.target.stackIDs
  for (stackID, serviceNames) in config.target.excludedServices do
    if serviceNames ≠ [] then
      if !targeted.contains stackID then
        throw ("update.target.excluded_services includes non-target stack \"" ++ stackID ++ "\"")
      let known ← env.services stackID
      for serviceName in serviceNames do
        if !known.contains serviceName then
          throw ("update.target.excluded_services includes unknown service \"" ++ serviceName ++
            "\" for stack \"" ++ stackID ++ "\"")

def validatePruneConfig (config : PruneScheduleConfig) : Except String Unit := do
  validateBaseSchedule config.toScheduleConfig
  let scope := config.scope
  if !scope.images && !scope.buildCache && !scope.stoppedContainers && !scope.volumes then
    throw "prune.scope must enable at least one category"

def validateSettings (settings : Settings) : Except String Unit := do
  validateUpdateConfig env settings.update
  validateUpdateServiceExclusions env settings.update
  validatePruneConfig settings.prune

end Stacklab.Scheduler
