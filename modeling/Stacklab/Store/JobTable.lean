import Stacklab.Lib.GoMap

/-! The job rows and job events of the database, with the statements that write them. -/
namespace Stacklab.Store

open Lib

/-- Nanoseconds since the Unix epoch, UTC. -/
abbrev Time : Type := ℤ

/-- A job's state and a workflow step's state; `other` is any text the code never writes. -/
inductive JobState
  | queued
  | running
  | cancelRequested
  | succeeded
  | failed
  | cancelled
  | timedOut
  | other (text : String)
  deriving DecidableEq, Repr

def JobState.isTerminal : JobState → Bool
  | .succeeded | .failed | .cancelled | .timedOut => true
  | _ => false

structure WorkflowStep where
  action : String
  state : JobState
  targetStackID : String
  targetServiceNames : List String
  deriving DecidableEq, Repr

structure Job where
  id : String
  stackID : String
  action : String
  state : JobState
  requestedBy : String
  requestID : String
  requestedAt : Time
  startedAt : Option Time
  finishedAt : Option Time
  workflow : Option (List WorkflowStep)
  errorCode : String
  errorMessage : String
  deriving DecidableEq, Repr

inductive JobEventKind
  | started
  | stepStarted
  | stepFinished
  | log
  | progress
  | warning
  | error
  | cancelRequested
  | finished
  deriving DecidableEq, Repr

structure JobEventStep where
  index : ℕ
  total : ℕ
  action : String
  targetStackID : String
  deriving DecidableEq, Repr

structure JobEvent where
  jobID : String
  sequence : ℕ
  event : JobEventKind
  state : JobState
  message : String
  data : String
  step : Option JobEventStep
  timestamp : Time
  deriving DecidableEq, Repr

/-- A row of `jobs`, with the counter that numbers its events. -/
structure JobRow where
  job : Job
  eventSequence : ℕ
  deriving DecidableEq, Repr

structure JobTable where
  rows : GoMap String JobRow
  events : List JobEvent

inductive StoreError
  | notFound
  | failed (text : String)
  deriving DecidableEq, Repr

namespace JobTable

variable {t : JobTable} {job : Job} {id : String}

def jobByID (t : JobTable) (id : String) : Except StoreError Job :=
  match t.rows.lookup id with
  | none => .error .notFound
  | some row => .ok row.job

/-- `(job_id, sequence)` is the primary key of the event table. -/
def createJobEventRow (event : JobEvent) (t : JobTable) : Except StoreError JobTable :=
  if t.events.any fun e => e.jobID = event.jobID ∧ e.sequence = event.sequence then
    .error (.failed "create job event: UNIQUE constraint failed")
  else .ok { t with events := t.events ++ [event] }

def createJobEvent (event : JobEvent) (t : JobTable) : Except StoreError JobTable :=
  match createJobEventRow event t with
  | .error err => .error err
  | .ok t =>
    match t.rows.lookup event.jobID with
    | none => .ok t
    | some row =>
      let row := { row with eventSequence := max row.eventSequence event.sequence }
      .ok { t with rows := t.rows.insert event.jobID row }

def nextJobEventSequence (t : JobTable) (id : String) : ℕ :=
  ((t.events.filter fun e => e.jobID = id).map JobEvent.sequence).foldl max 0 + 1

def createJobWithInitialEvent (job : Job) (event : JobEvent) (t : JobTable) :
    Except StoreError JobTable :=
  if event.jobID ≠ job.id ∨ event.sequence ≠ 1 then
    .error (.failed "initial job event must use the job id and sequence 1")
  else
    match t.rows.lookup job.id with
    | some _ => .error (.failed "create job: UNIQUE constraint failed")
    | none => createJobEventRow event { t with rows := t.rows.insert job.id ⟨job, 1⟩ }

/-- The columns that an update statement sets. -/
def Job.withProgress (stored job : Job) : Job :=
  { stored with
    state := job.state
    startedAt := job.startedAt
    finishedAt := job.finishedAt
    workflow := job.workflow
    errorCode := job.errorCode
    errorMessage := job.errorMessage }

def updateJob (job : Job) (t : JobTable) : Except StoreError JobTable :=
  match t.rows.lookup job.id with
  | none => .error .notFound
  | some row =>
    .ok { t with rows := t.rows.insert job.id { row with job := Job.withProgress row.job job } }

/-- Only the workflow column is written, so a stale job value cannot move the state back. -/
def updateJobWorkflow (id : String) (workflow : Option (List WorkflowStep)) (t : JobTable) :
    Except StoreError JobTable :=
  match t.rows.lookup id with
  | none => .error .notFound
  | some row =>
    .ok { t with rows := t.rows.insert id { row with job := { row.job with workflow } } }

/-- Insert the events of a transition, numbered from `first` on. -/
def createNumberedEvents (first : ℕ) : List JobEvent → JobTable → Except StoreError JobTable
  | [], t => .ok t
  | event :: events, t =>
    match createJobEventRow { event with sequence := first } t with
    | .error err => .error err
    | .ok t => createNumberedEvents (first + 1) events t

/-- `false` means that no row was in an allowed state; nothing changed then. -/
def transitionJobWithEvents (job : Job) (allowedStates : List JobState)
    (events : List JobEvent) (t : JobTable) : Except StoreError (Bool × JobTable) :=
  if allowedStates.length = 0 ∨ events.length = 0 then
    .error (.failed "job transition requires allowed states and events")
  else if events.any fun e => e.jobID ≠ job.id ∨ e.state ≠ job.state then
    .error (.failed "job transition event must match job id and state")
  else
    match t.rows.lookup job.id with
    | none => .ok (false, t)
    | some row =>
      if row.job.state ∉ allowedStates then .ok (false, t)
      else
        let row := ⟨Job.withProgress row.job job, row.eventSequence + events.length⟩
        let t := { t with rows := t.rows.insert job.id row }
        match createNumberedEvents (row.eventSequence - events.length + 1) events t with
        | .error err => .error err
        | .ok t => .ok (true, t)

end JobTable

end Stacklab.Store
