import Stacklab.Jobs.Lifecycle

/-! The self-update service and its helper process, as programs over one database. -/
namespace Stacklab.SelfUpdate

open Lib Store Jobs

structure RuntimeState where
  jobID : String := ""
  requestedVersion : String := ""
  installedVersion : String := ""
  result : String := ""
  message : String := ""
  startedAt : Option Time := none
  finishedAt : Option Time := none
  pendingFinalize : Bool := false
  deriving DecidableEq, Repr

structure PackageStatus where
  supported : Bool
  updateAvailable : Bool
  candidateVersion : String
  deriving DecidableEq, Repr

structure HelperArgs where
  jobID : String
  requestedVersion : String
  skipAPTUpdate : Bool
  deriving DecidableEq, Repr

/-- The server's job service, the runtime setting in the database and the started helper. -/
structure World where
  jobs : JobWorld
  runtime : Option RuntimeState
  helper : Option HelperArgs

/-- Commands of the server, then commands that only the helper issues. -/
inductive Cmd
  | job (c : JobCmd)
  | inspectPackageStatus
  | writeCapability
  | appSetting
  | setAppSetting (state : RuntimeState)
  | startHelper (args : HelperArgs)
  | openStore
  | updateJob (job : Job)
  | nextJobEventSequence (jobID : String)
  | createJobEvent (event : JobEvent)
  | runAPTUpdate
  | runAPTUpgrade (requestedVersion : String)
  | verifyRecovery
  | installedVersion

@[reducible] def Ans : Cmd → Type
  | .job c => JobAns c
  | .inspectPackageStatus => PackageStatus
  | .writeCapability => Bool
  | .appSetting => Except StoreError (Option RuntimeState)
  | .setAppSetting _ => Except StoreError Unit
  | .startHelper _ => Except String Unit
  | .openStore => Except String Unit
  | .updateJob _ => Except StoreError Unit
  | .nextJobEventSequence _ => Except StoreError ℕ
  | .createJobEvent _ => Except StoreError Unit
  | .runAPTUpdate => String × Option String
  | .runAPTUpgrade _ => String × Option String
  | .verifyRecovery => String × Option String
  | .installedVersion => String

/-- How the environment behaved during one command; `job.failure` is its error, if any. -/
structure Out where
  job : JobOut
  package : PackageStatus
  writable : Bool
  output : String

def World.write (w : World) (o : Out) (result : Except StoreError JobTable) :
    Except StoreError Unit × World :=
  let r := w.jobs.write o.job result
  (r.1, { w with jobs := r.2 })

def updateMachine : Machine Cmd Ans Out World where
  exec
    | .job c, o, w =>
      let r := jobMachine.exec c o.job w.jobs
      (r.1, { w with jobs := r.2 })
    | .inspectPackageStatus, o, w => (o.package, w)
    | .writeCapability, o, w => (o.writable, w)
    | .appSetting, o, w =>
      match o.job.failure with
      | some text => (.error (.failed text), w)
      | none => (.ok w.runtime, w)
    | .setAppSetting state, o, w =>
      match o.job.failure with
      | some text => (.error (.failed text), w)
      | none => (.ok (), { w with runtime := some state })
    | .startHelper args, o, w =>
      match o.job.failure with
      | some text => (.error text, w)
      | none => (.ok (), { w with helper := some args })
    | .openStore, o, w =>
      match o.job.failure with
      | some text => (.error text, w)
      | none => (.ok (), w)
    | .updateJob job, o, w => w.write o (w.jobs.table.updateJob job)
    | .nextJobEventSequence jobID, o, w =>
      match o.job.failure with
      | some text => (.error (.failed text), w)
      | none => (.ok (w.jobs.table.nextJobEventSequence jobID), w)
    | .createJobEvent event, o, w => w.write o (w.jobs.table.createJobEvent event)
    | .runAPTUpdate, o, w => ((o.output, o.job.failure), w)
    | .runAPTUpgrade _, o, w => ((o.output, o.job.failure), w)
    | .verifyRecovery, o, w => ((o.output, o.job.failure), w)
    | .installedVersion, o, w =>
      (if o.job.failure.isSome then "" else trimSpace o.output, w)

abbrev UpdateProg (α : Type) : Type := Prog Cmd Ans α

abbrev Cmd.issue (c : Cmd) : UpdateProg (Ans c) := Prog.issue c

def ofJobs {α : Type} (p : JobProg α) : UpdateProg α := p.embed Cmd.job fun _ r => r

def now : UpdateProg Time := ofJobs JobCmd.now.issue

def errorText : StoreError → String
  | .notFound => "not found"
  | .failed text => text

/-! The server process. -/

inductive ApplyError
  | unsupported
  | invalidState (message : String)
  | service (err : ServiceError)
  | store (err : StoreError)
  | helper (message : String)
  deriving DecidableEq, Repr

structure ApplyRequest where
  expectedCandidateVersion : String
  refreshPackageIndex : Bool

structure ApplyResponse where
  job : Job
  package : PackageStatus
  runtime : RuntimeState
  deriving DecidableEq

def loadRuntimeState : UpdateProg (Except StoreError RuntimeState) := do
  match ← Cmd.appSetting.issue with
  | .error err => pure (.error err)
  | .ok none => pure (.ok {})
  | .ok (some state) => pure (.ok state)

def saveRuntimeState (state : RuntimeState) : UpdateProg (Except StoreError Unit) :=
  (Cmd.setAppSetting state).issue

def queuedStep (action : String) : WorkflowStep := ⟨action, .queued, "", []⟩

def buildWorkflow (refreshPackageIndex : Bool) : List WorkflowStep :=
  (if refreshPackageIndex then [queuedStep "apt_update"] else []) ++
    [queuedStep "upgrade_package", queuedStep "verify_restart"]

/-- The part of `Apply` after the job holds the drain barrier. -/
def launch (job : Job) (package : PackageStatus) (refreshPackageIndex : Bool) :
    UpdateProg (Except ApplyError ApplyResponse) := do
  let startedAt ← now
  match ← saveRuntimeState
      { jobID := job.id, requestedVersion := package.candidateVersion,
        startedAt := some startedAt } with
  | .error err => do
    let _ ← ofJobs (finishFailed job "self_update_prepare_failed" (errorText err))
    pure (.error (.store err))
  | .ok () =>
    match ← (Cmd.startHelper
        ⟨job.id, package.candidateVersion, !refreshPackageIndex⟩).issue with
    | .error message => do
      let _ ← ofJobs (finishFailed job "self_update_start_failed" message)
      let _ ← saveRuntimeState {}
      pure (.error (.helper message))
    | .ok () =>
      match ← loadRuntimeState with
      | .error _ => pure (.ok ⟨job, package, {}⟩)
      | .ok runtime => pure (.ok ⟨job, package, runtime⟩)

def apply (request : ApplyRequest) (requestedBy requestID : String) :
    UpdateProg (Except ApplyError ApplyResponse) := do
  let refreshPackageIndex := if !request.refreshPackageIndex then true
    else request.refreshPackageIndex
  let package ← Cmd.inspectPackageStatus.issue
  match ← loadRuntimeState with
  | .error err => pure (.error (.store err))
  | .ok _ =>
    let writable ← Cmd.writeCapability.issue
    let expected := trimSpace request.expectedCandidateVersion
    if !package.supported then pure (.error .unsupported)
    else if !writable then pure (.error .unsupported)
    else if !package.updateAvailable then
      pure (.error (.invalidState "stacklab is already up to date"))
    else if expected ≠ "" ∧ package.candidateVersion ≠ expected then
      pure (.error (.invalidState ("available version changed from " ++ expected ++ " to " ++
        package.candidateVersion)))
    else
      match ← ofJobs (startDrainingWithWorkflow "self_update_stacklab" requestedBy requestID
          selfUpdateResource (buildWorkflow refreshPackageIndex)) with
      | .error (.jobs (.resourceConflict _)) =>
        pure (.error (.invalidState ("another mutating job is active; " ++
          "retry the Stacklab self-update after it finishes")))
      | .error err => pure (.error (.service err))
      | .ok job => launch job package refreshPackageIndex

/-- The source returns nothing; the result tells whether the call got past its early
returns. The audit entry and the notification it sends touch nothing modelled here. -/
def reconcilePendingResult : UpdateProg Bool := do
  match ← loadRuntimeState with
  | .error _ => pure false
  | .ok state =>
    if !state.pendingFinalize || state.jobID = "" then pure false
    else
      match ← ofJobs (JobCmd.jobByID state.jobID).issue with
      | .error _ => pure false
      | .ok _ => do
        let _ ← saveRuntimeState { state with pendingFinalize := false }
        pure true

end Stacklab.SelfUpdate
