import Stacklab.SelfUpdate.Programs

/-! The helper process that runs the update and writes the job row directly. -/
namespace Stacklab.SelfUpdate

open Lib Store Jobs

def markWorkflow (state : JobState) (steps : List WorkflowStep) (index : ℕ) :
    List WorkflowStep :=
  steps.modify index fun step => { step with state := state }

def markWorkflowRunning : List WorkflowStep → ℕ → List WorkflowStep := markWorkflow .running
def markWorkflowSucceeded : List WorkflowStep → ℕ → List WorkflowStep := markWorkflow .succeeded
def markWorkflowFailed : List WorkflowStep → ℕ → List WorkflowStep := markWorkflow .failed
def markWorkflowQueued : List WorkflowStep → ℕ → List WorkflowStep := markWorkflow .queued

def stepRef (steps : List WorkflowStep) (index : ℕ) : Option JobEventStep :=
  steps[index]?.map fun step => ⟨index + 1, steps.length, step.action, step.targetStackID⟩

def publishEvent (job : Job) (event : JobEventKind) (message data : String)
    (step : Option JobEventStep) : UpdateProg (Except StoreError Unit) := do
  match ← (Cmd.nextJobEventSequence job.id).issue with
  | .error err => pure (.error err)
  | .ok sequence => do
    let timestamp ← now
    (Cmd.createJobEvent
      ⟨job.id, sequence, event, job.state, message, data, step, timestamp⟩).issue

/-- The steps after the body of a step has run; returns the error and the updated job. -/
def finishStep (job : Job) (index : ℕ) (workflow : List WorkflowStep) (err : Option String) :
    UpdateProg (Option String × Job) := do
  match err with
  | some err => do
    let workflow := markWorkflowFailed workflow index
    let job := { job with workflow := some workflow }
    let _ ← (Cmd.updateJob job).issue
    let _ ← publishEvent job .error err "" (stepRef workflow index)
    pure (some err, job)
  | none => do
    let workflow := markWorkflowSucceeded workflow index
    let workflow := if index + 1 < workflow.length then markWorkflowQueued workflow (index + 1)
      else workflow
    let job := { job with workflow := some workflow }
    match ← (Cmd.updateJob job).issue with
    | .error err => pure (some (errorText err), job)
    | .ok () =>
      match ← publishEvent job .stepFinished "Step finished successfully." ""
          (stepRef workflow index) with
      | .error err => pure (some (errorText err), job)
      | .ok () => pure (none, job)

def runStep (job : Job) (index : ℕ) (message : String)
    (body : UpdateProg (String × Option String)) : UpdateProg (Option String × Job) := do
  let workflow := markWorkflowRunning (job.workflow.getD []) index
  let job := { job with workflow := some workflow }
  match ← (Cmd.updateJob job).issue with
  | .error err => pure (some (errorText err), job)
  | .ok () =>
    match ← publishEvent job .stepStarted message "" (stepRef workflow index) with
    | .error err => pure (some (errorText err), job)
    | .ok () => do
      let (output, err) ← body
      if trimSpace output ≠ "" then
        match ← publishEvent job .log "Step output." (trimSpace output)
            (stepRef workflow index) with
        | .error err => pure (some (errorText err), job)
        | .ok () => finishStep job index workflow err
      else finishStep job index workflow err

/-- The end of a run: the terminal row, its event and the pending result. -/
def finalize (args : HelperArgs) (job : Job) (result eventMessage message : String)
    (finishedAt : Time) (version : UpdateProg String) (outcome : Except String Unit) :
    UpdateProg (Except String Unit) := do
  match ← (Cmd.updateJob job).issue with
  | .error err => pure (.error (errorText err))
  | .ok () =>
    match ← publishEvent job .finished eventMessage "" none with
    | .error err => pure (.error (errorText err))
    | .ok () => do
      let installedVersion ← version
      match ← saveRuntimeState
          { jobID := job.id, requestedVersion := args.requestedVersion,
            installedVersion := installedVersion, result := result, message := message,
            startedAt := job.startedAt, finishedAt := some finishedAt,
            pendingFinalize := true } with
      | .error err => pure (.error (errorText err))
      | .ok () => pure outcome

def finalizeFailure (args : HelperArgs) (job : Job) (stepErr : String) :
    UpdateProg (Except String Unit) := do
  let finishedAt ← now
  let job := { job with
    state := .failed
    finishedAt := some finishedAt
    errorCode := "self_update_failed"
    errorMessage := stepErr }
  finalize args job "failed" "Stacklab self-update failed." stepErr finishedAt
    Cmd.installedVersion.issue (.error stepErr)

def versionSuffix (version : String) : String :=
  if trimSpace version = "" then "" else " to " ++ trimSpace version

/-- The success path asks for the installed version before it writes the row. -/
def finalizeSuccess (args : HelperArgs) (job : Job) : UpdateProg (Except String Unit) := do
  let installedVersion ← Cmd.installedVersion.issue
  let finishedAt ← now
  let job := { job with
    state := .succeeded
    finishedAt := some finishedAt
    errorCode := ""
    errorMessage := "" }
  finalize args job "succeeded" ("Stacklab updated successfully" ++
    versionSuffix installedVersion ++ ".") "Stacklab updated successfully." finishedAt
    (pure installedVersion) (.ok ())

/-- The upgrade and the check of the restarted service. -/
def upgradeAndVerify (args : HelperArgs) (job : Job) (nextIndex : ℕ) :
    UpdateProg (Except String Unit) := do
  match ← runStep job nextIndex "Upgrading Stacklab package."
      (Cmd.runAPTUpgrade args.requestedVersion).issue with
  | (some err, job) => finalizeFailure args job err
  | (none, job) =>
    match ← runStep job (nextIndex + 1) "Verifying Stacklab restart."
        Cmd.verifyRecovery.issue with
    | (some err, job) => finalizeFailure args job err
    | (none, job) => finalizeSuccess args job

/-- Flags and policy are checked while the store is opened; all of that may fail. -/
def run (args : HelperArgs) : UpdateProg (Except String Unit) := do
  match ← Cmd.openStore.issue with
  | .error err => pure (.error err)
  | .ok () =>
    match ← ofJobs (JobCmd.jobByID args.jobID).issue with
    | .error err => pure (.error ("load self-update job: " ++ errorText err))
    | .ok job =>
      if job.workflow.isNone then pure (.error "self-update job workflow is missing")
      else do
        let startedAt ← now
        let _ ← saveRuntimeState
          { jobID := job.id, requestedVersion := args.requestedVersion,
            startedAt := some startedAt }
        if args.skipAPTUpdate then upgradeAndVerify args job 0
        else
          match ← runStep job 0 "Refreshing package index." Cmd.runAPTUpdate.issue with
          | (some err, job) => finalizeFailure args job err
          | (none, job) => upgradeAndVerify args job 1

end Stacklab.SelfUpdate
