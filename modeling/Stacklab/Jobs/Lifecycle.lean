import Stacklab.Lib.Prog
import Stacklab.Store.JobTable
import Stacklab.Jobs.LockTable

/-! The life of a job: `start` and the terminal transition, as programs over the lock table
and the database. -/
namespace Stacklab.Jobs

open Lib Store

/-- What one job service works on: the locks of its process and the shared database. -/
structure JobWorld where
  locks : LockTable
  table : JobTable

inductive JobCmd
  | now
  | randomToken
  | lockMany (jobID : String) (resources : List Resource) (draining : Bool)
  | unlockAll (jobID : String)
  | createJobWithInitialEvent (job : Job) (event : JobEvent)
  | transitionJobWithEvents (job : Job) (allowedStates : List JobState)
      (events : List JobEvent)
  | jobByID (id : String)

@[reducible] def JobAns : JobCmd → Type
  | .now => Time
  | .randomToken => String
  | .lockMany _ _ _ => Except JobsError Unit
  | .unlockAll _ => Unit
  | .createJobWithInitialEvent _ _ => Except StoreError Unit
  | .transitionJobWithEvents _ _ _ => Except StoreError Bool
  | .jobByID _ => Except StoreError Job

/-- How the environment behaved during one command: whether the database failed, the
clock's reading, the random token and the iteration order of the lock map. -/
structure JobOut where
  failure : Option String
  time : Time
  token : String
  rangeOrder : RangeOrder Holding

/-- A database command that fails has no effect. -/
def JobWorld.write (w : JobWorld) (o : JobOut) (result : Except StoreError JobTable) :
    Except StoreError Unit × JobWorld :=
  match o.failure, result with
  | some text, _ => (.error (.failed text), w)
  | none, .error err => (.error err, w)
  | none, .ok t => (.ok (), { w with table := t })

theorem JobWorld.write_locks (w : JobWorld) (o : JobOut)
    (result : Except StoreError JobTable) : (w.write o result).2.locks = w.locks := by
  unfold JobWorld.write
  split <;> rfl

def jobMachine : Machine JobCmd JobAns JobOut JobWorld where
  exec
    | .now, o, w => (o.time, w)
    | .randomToken, o, w => (o.token, w)
    | .lockMany jobID resources draining, o, w =>
      let r := w.locks.lockMany o.rangeOrder jobID resources draining
      (r.1, { w with locks := r.2 })
    | .unlockAll jobID, _, w => ((), { w with locks := w.locks.unlockAll jobID })
    | .createJobWithInitialEvent job event, o, w =>
      w.write o (w.table.createJobWithInitialEvent job event)
    | .transitionJobWithEvents job allowedStates events, o, w =>
      match o.failure, w.table.transitionJobWithEvents job allowedStates events with
      | some text, _ => (.error (.failed text), w)
      | none, .error err => (.error err, w)
      | none, .ok (updated, t) => (.ok updated, { w with table := t })
    | .jobByID id, o, w =>
      match o.failure with
      | some text => (.error (.failed text), w)
      | none => (w.table.jobByID id, w)

abbrev JobProg (α : Type) : Type := Prog JobCmd JobAns α

abbrev JobCmd.issue (c : JobCmd) : JobProg (JobAns c) := Prog.issue c

inductive ServiceError
  | jobs (err : JobsError)
  | store (err : StoreError)
  | transitionConflict (current : Job)
  deriving DecidableEq, Repr

def newJobID (token : String) : String := "job_" ++ token

def newJob (token stackID action requestedBy requestID : String)
    (workflow : List WorkflowStep) (now : Time) : Job where
  id := newJobID token
  stackID := stackID
  action := action
  state := .running
  requestedBy := requestedBy
  requestID := requestID
  requestedAt := now
  startedAt := some now
  finishedAt := none
  workflow := if workflow.length > 0 then some workflow else none
  errorCode := ""
  errorMessage := ""

/-- The sequence number is assigned by the database, except for the first event. -/
def newJobEvent (job : Job) (event : JobEventKind) (message : String) (now : Time) :
    JobEvent :=
  ⟨job.id, 0, event, job.state, message, "", none, now⟩

def start (stackID action requestedBy requestID : String) (requestedResources : List Resource)
    (draining : Bool) (workflow : List WorkflowStep) : JobProg (Except ServiceError Job) := do
  let now ← JobCmd.now.issue
  let token ← JobCmd.randomToken.issue
  let job := newJob token stackID action requestedBy requestID workflow now
  let initialEvent := { newJobEvent job .started "Job started." now with sequence := 1 }
  match normalizeResources stackID requestedResources with
  | .error err => pure (.error (.jobs err))
  | .ok resources =>
    match ← (JobCmd.lockMany job.id resources draining).issue with
    | .error err => pure (.error (.jobs err))
    | .ok () =>
      match ← (JobCmd.createJobWithInitialEvent job initialEvent).issue with
      | .error err => do
        let () ← (JobCmd.unlockAll job.id).issue
        pure (.error (.store err))
      | .ok () => pure (.ok job)

def startDrainingWithWorkflow (action requestedBy requestID : String) (barrier : Resource)
    (workflow : List WorkflowStep) : JobProg (Except ServiceError Job) :=
  start "" action requestedBy requestID [barrier] true workflow

def commitTerminalTransition (job : Job) (events : List JobEvent) :
    JobProg (Except ServiceError Job) := do
  match ← (JobCmd.transitionJobWithEvents job [.queued, .running, .cancelRequested]
      events).issue with
  | .error err => pure (.error (.store err))
  | .ok true => do
    let () ← (JobCmd.unlockAll job.id).issue
    pure (.ok job)
  | .ok false =>
    match ← (JobCmd.jobByID job.id).issue with
    | .error err => pure (.error (.store err))
    | .ok current =>
      if current.state.isTerminal then do
        let () ← (JobCmd.unlockAll job.id).issue
        if current.state = job.state then pure (.ok current)
        else pure (.error (.transitionConflict current))
      else pure (.error (.transitionConflict current))

def finishTerminal (job : Job) (state : JobState) (errorCode errorMessage finishMessage : String) :
    JobProg (Except ServiceError Job) := do
  let now ← JobCmd.now.issue
  let job := { job with
    state := state
    finishedAt := some now
    errorCode := errorCode
    errorMessage := errorMessage }
  commitTerminalTransition job
    [newJobEvent job .error errorMessage now, newJobEvent job .finished finishMessage now]

def finishFailed (job : Job) (errorCode errorMessage : String) :
    JobProg (Except ServiceError Job) :=
  finishTerminal job .failed errorCode errorMessage "Job finished with errors."

def finishTimedOut (job : Job) (errorCode errorMessage : String) :
    JobProg (Except ServiceError Job) :=
  finishTerminal job .timedOut errorCode errorMessage "Job timed out."

def finishCancelled (job : Job) (errorCode errorMessage : String) :
    JobProg (Except ServiceError Job) :=
  finishTerminal job .cancelled errorCode errorMessage "Job was cancelled."

def finishSucceeded (job : Job) : JobProg (Except ServiceError Job) := do
  let now ← JobCmd.now.issue
  let job := { job with state := .succeeded, finishedAt := some now }
  commitTerminalTransition job [newJobEvent job .finished "Job finished successfully." now]

def firstStep (p : WorkflowStep → Bool) (steps : List WorkflowStep) : Option ℕ :=
  steps.findIdx? p

/-- The step that was running, or else the first that still waited, is marked failed. -/
def interruptedWorkflow (steps : List WorkflowStep) :
    List WorkflowStep × Option JobEventStep :=
  let waiting := fun step : WorkflowStep => step.state = .queued || step.state = .cancelRequested
  match (firstStep (fun step => step.state = .running) steps).or (firstStep waiting steps) with
  | none => (steps, none)
  | some index =>
    match steps[index]? with
    | none => (steps, none)
    | some step =>
      (steps.set index { step with state := .failed },
        some ⟨index + 1, steps.length, step.action, step.targetStackID⟩)

def interruptedMessage : String := "Job did not finish before Stacklab restarted."

/-- The job as `reconcileInterruptedJob` writes it. -/
def interruptedJob (now : Time) (job : Job) : Job :=
  { job with
    workflow := job.workflow.map fun steps => (interruptedWorkflow steps).1
    state := .failed
    finishedAt := some now
    errorCode := "job_interrupted"
    errorMessage := interruptedMessage }

/-- The events of `reconcileInterruptedJob`. -/
def interruptedEvents (now : Time) (job : Job) : List JobEvent :=
  let stepRef := job.workflow.bind fun steps => (interruptedWorkflow steps).2
  let job := interruptedJob now job
  let stepEvents := match stepRef with
    | some step => [{ newJobEvent job .stepFinished
        "Step did not finish before Stacklab restarted." now with step := some step }]
    | none => []
  stepEvents ++
    [{ newJobEvent job .error interruptedMessage now with step := stepRef },
      newJobEvent job .finished "Job marked failed after Stacklab restarted." now]

def reconcileInterruptedJob (job : Job) : JobProg (Except ServiceError Job) := do
  let now ← JobCmd.now.issue
  commitTerminalTransition (interruptedJob now job) (interruptedEvents now job)

def selfUpdateReconcileGracePeriod : Time := 2 * 60 * 60 * 1000000000

def shouldSkipReconcile (now : Time) (job : Job) : Bool :=
  job.action = "self_update_stacklab" &&
    now - job.startedAt.getD job.requestedAt < selfUpdateReconcileGracePeriod

end Stacklab.Jobs
