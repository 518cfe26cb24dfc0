import Stacklab.Lib.Lts
import Stacklab.Backup.Schedule

/-! The background scheduler: ticks that start due runs and maintenance, next to edits of plans
and destinations. Each step is what one goroutine does under the mutex or on its own data. -/
namespace Stacklab.Backup

open Lib

inductive MaintenanceAction
  | check
  | prune
  deriving DecidableEq, Repr

/-- The fields of a destination that its maintenance is scheduled by. -/
structure MaintainedDestination where
  id : String
  checkSchedule : Schedule
  pruneSchedule : Schedule
  lastCheckScheduledAt : Option Instant
  lastPruneScheduledAt : Option Instant
  deriving DecidableEq, Repr

namespace MaintainedDestination

def zero : MaintainedDestination :=
  ⟨"", ⟨.unset, "", 0, "", 0⟩, ⟨.unset, "", 0, "", 0⟩, none, none⟩

def schedule (d : MaintainedDestination) : MaintenanceAction → Schedule
  | .check => d.checkSchedule
  | .prune => d.pruneSchedule

def last (d : MaintainedDestination) : MaintenanceAction → Option Instant
  | .check => d.lastCheckScheduledAt
  | .prune => d.lastPruneScheduledAt

def setLast (d : MaintainedDestination) (at_ : Instant) : MaintenanceAction → MaintainedDestination
  | .check => { d with lastCheckScheduledAt := some at_ }
  | .prune => { d with lastPruneScheduledAt := some at_ }

end MaintainedDestination

/-- What is scheduled: a copy of a plan, or maintenance of a destination. -/
inductive SlotKey
  | copy (planID destinationID : String)
  | maintenance (destinationID : String) (action : MaintenanceAction)
  deriving DecidableEq, Repr

/-- A job that the scheduler started, and when the schedule of its slot had been saved. -/
structure StartedOccurrence where
  key : SlotKey
  occurrence : Instant
  savedAt : Instant
  deriving DecidableEq, Repr

/-- Where `scheduleRuns` is. -/
inductive RunTick
  | idle
  | plans (rest : List Plan)
  | examining (plan : Plan) (todo : List Assignment) (due : List (String × Instant))
      (rest : List Plan)
  | started (plan : Plan) (due : List (String × Instant)) (rest : List Plan)

/-- Where `scheduleMaintenance` is. -/
inductive MaintenanceTick
  | idle
  | actions (rest : List (MaintainedDestination × MaintenanceAction))
  | examined (d : MaintainedDestination) (action : MaintenanceAction) (due : Instant)
      (rest : List (MaintainedDestination × MaintenanceAction))
  | started (d : MaintainedDestination) (action : MaintenanceAction) (due : Instant)
      (rest : List (MaintainedDestination × MaintenanceAction))

/-- A job with the destinations that it has leased, and the one that it has read. -/
structure ActiveJob where
  destinations : List String
  copy : Option MaintainedDestination

/-- The state of the service; `savedAt` and `log` only record what happened. -/
structure SchedulerWorld where
  clock : Instant
  plans : GoMap String Plan
  destinations : GoMap String MaintainedDestination
  runTick : RunTick
  maintenanceTick : MaintenanceTick
  active : List ActiveJob
  savedAt : SlotKey → Instant
  log : List StartedOccurrence

def RunTick.isStarted : RunTick → Bool
  | .started .. => true
  | _ => false

def MaintenanceTick.isStarted : MaintenanceTick → Bool
  | .started .. => true
  | _ => false

/-- The destination whose maintenance has been started but not recorded. -/
def MaintenanceTick.holds (id : String) : MaintenanceTick → Bool
  | .started d .. => d.id = id
  | _ => false

def RunTick.holds (id : String) : RunTick → Bool
  | .started _ due _ => due.any fun entry => entry.1 = id
  | _ => false

namespace SchedulerWorld

def configurationBusyLocked (w : SchedulerWorld) : Bool :=
  !w.active.isEmpty || w.runTick.isStarted || w.maintenanceTick.isStarted

/-- No job has the destination's repository. -/
def free (w : SchedulerWorld) (id : String) : Bool :=
  w.active.all (fun job => !job.destinations.contains id) && !w.runTick.holds id &&
    !w.maintenanceTick.holds id

end SchedulerWorld

section Edits

variable (zones : Zones)

/-- The part of `normalizePlan` that concerns schedules. -/
def normalizeAssignments (assignments : List Assignment) : Option (List Assignment) :=
  let assignments := assignments.map fun a =>
    if a.schedule.frequency = .unset then { a with schedule.frequency := .manual } else a
  if (assignments.map Assignment.destinationID).Nodup ∧
      assignments.all (fun a => (validateSchedule zones a.schedule).isOk) then some assignments
  else none

/-- The saved assignment with the same destination and the same schedule. -/
def preserved (previous : List Assignment) (a : Assignment) : Option Assignment :=
  previous.find? fun old => old.destinationID = a.destinationID && old.schedule = a.schedule

def saveAssignment (now : Instant) (previous : List Assignment) (a : Assignment) : Assignment :=
  match preserved previous a with
  | some old =>
    { a with lastScheduledAt := old.lastScheduledAt, scheduleActivatedAt := old.scheduleActivatedAt }
  | none =>
    { a with lastScheduledAt := latestDue zones a.schedule now, scheduleActivatedAt := some now }

/-- `SavePlan`, which refuses while a job is active. -/
def SchedulerWorld.savePlan (w : SchedulerWorld) (now : Instant) (id : String) (plan : Plan) :
    Option SchedulerWorld :=
  let previous := ((w.plans.lookup id).map Plan.destinations).getD []
  match normalizeAssignments zones plan.destinations with
  | none => none
  | some assignments =>
    if w.configurationBusyLocked ||
        assignments.any (fun a => (w.destinations.lookup a.destinationID).isNone) then none
    else some { w with
      plans := w.plans.insert id { plan with
        id := id
        destinations := assignments.map (saveAssignment zones now previous) }
      savedAt := fun key =>
        match key with
        | .copy planID destinationID =>
          if planID = id && assignments.any (fun a =>
              a.destinationID = destinationID && (preserved previous a).isNone) then now
          else w.savedAt key
        | key => w.savedAt key }

/-- `SaveDestination`; a schedule that changes starts from the occurrence that is due. -/
def SchedulerWorld.saveDestination (w : SchedulerWorld) (now : Instant) (id : String)
    (checkSchedule pruneSchedule : Schedule) : Option SchedulerWorld :=
  let previous := (w.destinations.lookup id).getD .zero
  let last (action : MaintenanceAction) (schedule : Schedule) : Option Instant :=
    if previous.schedule action ≠ schedule then latestDue zones schedule now
    else previous.last action
  if w.configurationBusyLocked || !(validateSchedule zones checkSchedule).isOk ||
      !(validateSchedule zones pruneSchedule).isOk then none
  else some { w with
    destinations := w.destinations.insert id
      ⟨id, checkSchedule, pruneSchedule, last .check checkSchedule, last .prune pruneSchedule⟩
    savedAt := fun key =>
      match key with
      | .maintenance destinationID action =>
        let schedule := match action with
          | .check => checkSchedule
          | .prune => pruneSchedule
        if destinationID = id && (previous.schedule action ≠ schedule ||
            (w.destinations.lookup id).isNone) then now
        else w.savedAt key
      | key => w.savedAt key }

end Edits

variable (zones : Zones)

/-- An assignment is due at one reading of the clock and pending at the next. -/
def dueOccurrence (schedule : Schedule) (last : Option Instant) (reading now : Instant) :
    Option Instant :=
  (latestDue zones schedule reading).filter fun due => occurrencePending last due now

/-- The enabled assignments that a run is requested for, found in the plan as it is now. -/
def SchedulerWorld.admits (w : SchedulerWorld) (plan : Plan) (due : List (String × Instant)) :
    Bool :=
  match w.plans.lookup plan.id with
  | none => false
  | some current => due.all fun entry =>
      current.destinations.any (fun a => a.destinationID = entry.1 && a.enabled) && w.free entry.1

/-- The assignment with the occurrence that was started for it, if there is one. -/
def recordOccurrence (now : Instant) (due : List (String × Instant)) (a : Assignment) :
    Assignment :=
  match due.lookup a.destinationID with
  | none => a
  | some at_ =>
    { a with
      lastScheduledAt := some at_
      scheduleActivatedAt :=
        if a.scheduleActivatedAt.any (inFuture now) then some now else a.scheduleActivatedAt }

def recordOccurrences (now : Instant) (due : List (String × Instant)) (plan : Plan) : Plan :=
  { plan with destinations := plan.destinations.map (recordOccurrence now due) }

def SchedulerWorld.startedRun (w : SchedulerWorld) (plan : Plan) (entry : String × Instant) :
    StartedOccurrence :=
  ⟨.copy plan.id entry.1, entry.2, w.savedAt (.copy plan.id entry.1)⟩

def Plan.zero : Plan := ⟨"", "", false, "", [], []⟩

inductive SchedulerStep
  | savePlan (id : String) (plan : Plan)
  | saveDestination (id : String) (checkSchedule pruneSchedule : Schedule)
  | readPlans
  | nextPlan (paused : Bool)
  | examineAssignment (reading : Instant)
  | startRun (admitted : Bool)
  | recordRun
  | readDestinations
  | examineAction (paused : Bool) (reading : Instant)
  | startAction (admitted : Bool)
  | recordAction
  | startOther (destinations : List String)
  | readCopy (index : ℕ) (id : String)
  | writeBack (index : ℕ)
  | release (index : ℕ) (id : String)
  | finish (index : ℕ)

/-- One step of `scheduleRuns`. -/
def SchedulerWorld.runStep (w : SchedulerWorld) (now : Instant) :
    SchedulerStep → Option SchedulerWorld
  | .readPlans =>
    match w.runTick with
    | .idle =>
      some { w with
        runTick := .plans ((w.plans.entries.map Sigma.snd).insertionSort fun p q => p.id ≤ q.id) }
    | _ => none
  | .nextPlan paused =>
    match w.runTick with
    | .plans [] => some { w with runTick := .idle }
    | .plans (plan :: rest) =>
      some { w with
        runTick := if paused then .idle
          else if plan.enabled then .examining plan plan.destinations [] rest
          else .plans rest }
    | _ => none
  | .examineAssignment reading =>
    match w.runTick with
    | .examining plan (a :: todo) due rest =>
      if w.clock ≤ reading ∧ reading ≤ now then
        some { w with
          runTick := .examining plan todo
            (match a.enabled, dueOccurrence zones a.schedule a.lastScheduledAt reading now with
              | true, some at_ => due ++ [(a.destinationID, at_)]
              | _, _ => due) rest }
      else none
    | _ => none
  | .startRun admitted =>
    match w.runTick with
    | .examining plan [] due rest =>
      if due ≠ [] ∧ admitted = true ∧ w.admits plan due = true then
        some { w with
          runTick := .started plan due rest
          log := due.map (w.startedRun plan) ++ w.log }
      else some { w with runTick := .plans rest }
    | _ => none
  | .recordRun =>
    match w.runTick with
    | .started plan due rest =>
      some { w with
        plans := w.plans.insert plan.id
          (recordOccurrences now due ((w.plans.lookup plan.id).getD .zero))
        runTick := .plans rest
        active := ⟨due.map Prod.fst, none⟩ :: w.active }
    | _ => none
  | _ => none

/-- One step of `scheduleMaintenance`. -/
def SchedulerWorld.maintenanceStep (w : SchedulerWorld) (now : Instant) :
    SchedulerStep → Option SchedulerWorld
  | .readDestinations =>
    match w.maintenanceTick with
    | .idle =>
      let destinations := (w.destinations.entries.map Sigma.snd).insertionSort
        fun p q => p.id ≤ q.id
      some { w with
        maintenanceTick := .actions
          (destinations.flatMap fun d => [(d, .check), (d, .prune)]) }
    | _ => none
  | .examineAction paused reading =>
    match w.maintenanceTick with
    | .actions [] => some { w with maintenanceTick := .idle }
    | .actions ((d, action) :: rest) =>
      if paused then some { w with maintenanceTick := .idle }
      else if w.clock ≤ reading ∧ reading ≤ now then
        some { w with
          maintenanceTick :=
            match dueOccurrence zones (d.schedule action) (d.last action) reading now with
            | some at_ => .examined d action at_ rest
            | none => .actions rest }
      else none
    | _ => none
  | .startAction admitted =>
    match w.maintenanceTick with
    | .examined d action due rest =>
      if admitted = true ∧ (w.destinations.lookup d.id).isSome ∧ w.free d.id = true then
        some { w with
          maintenanceTick := .started d action due rest
          log := ⟨.maintenance d.id action, due, w.savedAt (.maintenance d.id action)⟩ :: w.log }
      else some { w with maintenanceTick := .actions rest }
    | _ => none
  | .recordAction =>
    match w.maintenanceTick with
    | .started d action due rest =>
      some { w with
        destinations := w.destinations.insert d.id
          (((w.destinations.lookup d.id).getD .zero).setLast due action)
        maintenanceTick := .actions rest
        active := ⟨[d.id], none⟩ :: w.active }
    | _ => none
  | _ => none

/-- Steps of the jobs themselves: `ExecuteRepositoryJob` reads its destination and writes it back
as a whole, a run releases each repository that it is done with. -/
def SchedulerWorld.jobStep (w : SchedulerWorld) : SchedulerStep → Option SchedulerWorld
  | .startOther destinations =>
    if destinations.all w.free then some { w with active := ⟨destinations, none⟩ :: w.active }
    else none
  | .readCopy index id =>
    match w.active[index]?, w.destinations.lookup id with
    | some job, some d =>
      if job.destinations.contains id then
        some { w with active := w.active.set index { job with copy := some { d with id := id } } }
      else none
    | _, _ => none
  | .writeBack index =>
    match w.active[index]? with
    | some ⟨_, some d⟩ =>
      some { w with
        destinations := w.destinations.insert d.id d
        active := w.active.eraseIdx index }
    | _ => none
  | .release index id =>
    match w.active[index]? with
    | some ⟨destinations, none⟩ =>
      some { w with active := w.active.set index ⟨destinations.filter (· ≠ id), none⟩ }
    | _ => none
  | .finish index => some { w with active := w.active.eraseIdx index }
  | _ => none

def SchedulerWorld.next (w : SchedulerWorld) (now : Instant) (step : SchedulerStep) :
    Option SchedulerWorld :=
  let stepped :=
    match step with
    | .savePlan id plan => w.savePlan zones now id plan
    | .saveDestination id checkSchedule pruneSchedule =>
      w.saveDestination zones now id checkSchedule pruneSchedule
    | step => (w.runStep zones now step).or ((w.maintenanceStep zones now step).or (w.jobStep step))
  stepped.map fun w' => { w' with clock := now }

/-- Steps come at times that never decrease. -/
def schedulerLts : Lts SchedulerWorld (Instant × SchedulerStep) where
  Tr w label w' := w.clock ≤ label.1 ∧ w.next zones label.1 label.2 = some w'

def SchedulerWorld.initial (clock : Instant) : SchedulerWorld :=
  ⟨clock, ∅, ∅, .idle, .idle, [], fun _ => clock, []⟩

end Stacklab.Backup
