import Stacklab.Backup.Scheduler
import Stacklab.Jobs.LockSafety

/-! The leases on repositories: reads, jobs and runs that share destinations, next to edits of the
configuration. Each step is what one goroutine does under the mutex or in the job service. -/
namespace Stacklab.Backup

open Lib
open Jobs

inductive JobAction
  | destinationTest
  | repositoryInit
  | check
  | restore
  | prune
  | unlock
  deriving DecidableEq, Repr

def JobAction.name : JobAction → String
  | .destinationTest => "backup_destination_test"
  | .repositoryInit => "backup_repository_init"
  | .check => "backup_check"
  | .restore => "backup_restore"
  | .prune => "backup_prune"
  | .unlock => "backup_unlock"

def MaintenanceAction.action : MaintenanceAction → JobAction
  | .check => .check
  | .prune => .prune

/-- A whole `Destination`. -/
structure LeasedDestination extends StoredDestination where
  name : String
  kind : String
  repository : String
  expectedFilesystem : String
  region : String
  repositorySizeBytes : Option ℤ
  credentialsConfigured : Bool
  checkSchedule : Schedule
  checkReadData : CheckScope
  pruneSchedule : Schedule
  lastCheckScheduledAt : Option Instant
  lastPruneScheduledAt : Option Instant
  lastPruneAt : Option Instant
  lastOperation : String
  lastOperationStatus : String
  lastOperationError : String
  lastOperationAt : Option Instant
  lastSuccessAt : Option Instant
  deriving DecidableEq, Repr

/-- The frequency as the check evidence keeps it. -/
def ScheduleFrequency.recorded : ScheduleFrequency → Frequency
  | .unset => .unset
  | .manual => .manual
  | .interval => .other "interval"
  | .daily => .other "daily"
  | .weekly => .other "weekly"
  | .other name => .other name

namespace LeasedDestination

def zero : LeasedDestination where
  toStoredDestination := .zero
  name := ""
  kind := ""
  repository := ""
  expectedFilesystem := ""
  region := ""
  repositorySizeBytes := none
  credentialsConfigured := false
  checkSchedule := ⟨.unset, "", 0, "", 0⟩
  checkReadData := .unset
  pruneSchedule := ⟨.unset, "", 0, "", 0⟩
  lastCheckScheduledAt := none
  lastPruneScheduledAt := none
  lastPruneAt := none
  lastOperation := ""
  lastOperationStatus := ""
  lastOperationError := ""
  lastOperationAt := none
  lastSuccessAt := none

def setScheduled (d : LeasedDestination) (due : Instant) : MaintenanceAction → LeasedDestination
  | .check => { d with lastCheckScheduledAt := some due }
  | .prune => { d with lastPruneScheduledAt := some due }

/-- What `executeCopy` writes once the copy is verified. -/
def copied (uploadedAt : Option Instant) (d : LeasedDestination) : LeasedDestination :=
  { d with lastSuccessAt := uploadedAt, status := .available, error := "" }

end LeasedDestination

/-- What `refreshInventory` writes: a new inventory, or why there is none. -/
inductive InventoryUpdate
  | reconciled (now : Instant)
  | failed (now : Instant) (err : String)
  deriving DecidableEq, Repr

def InventoryUpdate.apply : InventoryUpdate → LeasedDestination → LeasedDestination
  | .reconciled now, d =>
    { d with
      lastInventoryAt := some now
      lastInventoryAttemptAt := some now
      inventoryError := ""
      status := .available
      error := "" }
  | .failed now err, d =>
    { d with
      lastInventoryAttemptAt := some now
      inventoryError := "Repository inventory could not be refreshed: " ++ err }

/-- How a repository operation ended: its error, what was checked, the snapshot whose restore
was tested and the size that the repository reports. -/
structure JobOutcome where
  err : Option CheckError
  now : Instant
  readData : CheckScope
  testedSnapshot : Option String
  totalSize : Option ℤ

/-- What the operation itself changes in the destination that the job read. -/
def operated (action : JobAction) (outcome : JobOutcome) (d : LeasedDestination) :
    LeasedDestination :=
  match action with
  | .check =>
    { d with
      toDestination :=
        recordCheckAttempt d.toDestination outcome.readData outcome.now outcome.err }
  | .prune => if outcome.err.isNone then { d with lastPruneAt := some outcome.now } else d
  | .restore =>
    match outcome.err, outcome.testedSnapshot with
    | none, some id =>
      { d with lastRestoreTestAt := some outcome.now, lastRestoreTestSnapshotID := id }
    | _, _ => d
  | _ => d

/-- The local destination of `ExecuteRepositoryJob` when it returns. -/
def afterOperation (action : JobAction) (outcome : JobOutcome) (d : LeasedDestination) :
    LeasedDestination :=
  let d := operated action outcome d
  if outcome.err.isNone && (action = .check || action = .destinationTest || action = .prune) then
    { d with repositorySizeBytes := outcome.totalSize <|> d.repositorySizeBytes }
  else d

/-- The destination that the deferred end of `ExecuteRepositoryJob` writes. -/
def writtenBack (action : JobAction) (outcome : JobOutcome) (d current : LeasedDestination) :
    LeasedDestination :=
  let d := { afterOperation action outcome d with
    lastInventoryAt := current.lastInventoryAt
    lastInventoryAttemptAt := current.lastInventoryAttemptAt
    inventoryError := current.inventoryError
    lastOperation := action.name
    lastOperationAt := some outcome.now
    lastOperationStatus := if outcome.err.isSome then "failed" else "succeeded"
    lastOperationError := (outcome.err.map CheckError.message).getD "" }
  match action, outcome.err with
  | .destinationTest, some err | .repositoryInit, some err =>
    { d with status := .error, error := err.message }
  | .destinationTest, none | .repositoryInit, none | .check, none =>
    { d with status := .available, error := "" }
  | _, _ => d

/-- Where a job is. A maintenance job carries the destination that the scheduler had listed until
its occurrence is recorded. -/
inductive LeaseStage
  | reserved (id : String) (action : JobAction)
      (listed : Option (LeasedDestination × MaintenanceAction))
  | executing (id : String) (action : JobAction) (d : LeasedDestination)
      (refreshes : List InventoryUpdate)
  | runReserved (runID : String)
  | capturing (run : Run) (plan : Plan)
  | requesting (run : Run) (plan : Plan) (resources : List Resource)
  | transferring (run : Run) (plan : Plan) (todo : List String)
  | finishing
  | unlocking
  | releasing
  | done

structure LeaseThread where
  jobID : String
  stage : LeaseStage

/-- What `beginRepositoryRead` returns: the destination, and the key that its release lowers. -/
structure ReadLease where
  destination : LeasedDestination
  key : String

/-- The service with its readers and jobs, and the lock table of the job service. `issued` and
`savedIDs` are the ids given so far; a released reader leaves an empty place. -/
structure LeaseWorld where
  destinations : GoMap String LeasedDestination
  plans : GoMap String Plan
  runs : GoMap String PersistedRun
  repositoryJobs : GoMap String String
  repositoryReads : GoMap String ℤ
  activeRepositoryReads : ℤ
  locks : LockTable
  terminal : List String
  issued : List String
  savedIDs : List String
  listed : List LeasedDestination
  readers : List (Option ReadLease)
  threads : List LeaseThread

def LeaseWorld.new : LeaseWorld := ⟨∅, ∅, ∅, ∅, ∅, 0, .new, [], [], [], [], [], []⟩

structure DestinationInput where
  name : String
  kind : String
  repository : String
  expectedFilesystem : String
  region : String
  secrets : Bool
  checkSchedule : Schedule
  checkReadData : CheckScope
  pruneSchedule : Schedule

inductive LeaseStep
  | beginRepositoryRead (id : String)
  | readerRefreshes (reader : ℕ) (update : InventoryUpdate)
  | releaseRead (reader : ℕ)
  | startRepositoryJob (id : String) (action : JobAction) (acknowledged : Bool)
      (ro : RangeOrder Jobs.Holding) (token : String)
  | listDestinations
  | startMaintenance (d : LeasedDestination) (action : MaintenanceAction) (acknowledged : Bool)
      (ro : RangeOrder Jobs.Holding) (token : String)
  | recordMaintenance (i : ℕ) (due : Instant) (persisted : Bool)
  | executeRepositoryJob (i : ℕ)
  | jobRefreshes (i : ℕ) (update : InventoryUpdate)
  | lockHost (i : ℕ) (ro : RangeOrder Jobs.Holding)
  | writeBack (i : ℕ) (outcome : JobOutcome)
  | startRun (planID : String) (request : List String) (ro : RangeOrder Jobs.Holding)
      (token runID : String) (now expiresAt : Instant) (persisted : Bool)
  | startRetry (runID : String) (request : List String) (env : RetryEnv)
      (ro : RangeOrder Jobs.Holding) (token : String) (persisted : Bool)
  | executeRun (i : ℕ)
  | saveCapture (i : ℕ) (captureState : CaptureState) (capturedAt : Option Instant)
      (manifest : Option Manifest)
  | collectResources (i : ℕ)
  | replaceResources (i : ℕ) (ro : RangeOrder Jobs.Holding)
  | copyVerified (i : ℕ) (id : String) (uploadedAt : Option Instant)
  | saveRun (i : ℕ) (copies : List CopyResult) (phase : RunPhase)
  | releaseCompletedRepository (i : ℕ) (id : String) (ro : RangeOrder Jobs.Holding)
  | concludeRun (i : ℕ) (operationErr : Option String) (now : Instant)
  | finish (i : ℕ) (recorded : Bool)
  | unlockAll (i : ℕ)
  | releaseRepositories (i : ℕ)
  | otherJob (ro : RangeOrder Jobs.Holding) (call : LockCall)
  | pruneMetadata (runIDs : List String)
  | saveDestination (id newID : String) (input : DestinationInput) (now : Instant)
      (persisted : Bool)
  | deleteDestination (id : String) (persisted : Bool)
  | savePlan (id newID : String) (plan : Plan) (now : Instant) (persisted : Bool)
  | deletePlan (id : String) (persisted : Bool)

def assigned (plans : GoMap String Plan) (id : String) : Bool :=
  plans.entries.any fun e => e.2.destinations.any fun a => a.destinationID = id

/-- The copies that `StartRun` takes from the assignments, and the requested destinations that
are left over. -/
def selectCopies (all : Bool) : List String → List Assignment → List String × List String
  | selected, [] => ([], selected)
  | selected, a :: rest =>
    if a.enabled && (all || selected.contains a.destinationID) then
      let (ids, left) := selectCopies all (selected.filter (· ≠ a.destinationID)) rest
      (a.destinationID :: ids, left)
    else selectCopies all selected rest

def pendingIDs (copies : List CopyResult) : List String :=
  (copies.filter copyWorkPending).map CopyResult.destinationID

def runActive (p : PersistedRun) : Bool := p.run.state = .running || p.run.state = .queued

/-- Another job draws a new id, or changes its own resources. -/
def otherCallAllowed (issued owned : List String) : LockCall → Bool
  | .start token _ _ _ => !issued.contains (newJobID token)
  | .replaceResources jobID _ => !owned.contains jobID
  | .unlockAll jobID => !owned.contains jobID

def startedIDs : LockCall → List String
  | .start token _ _ _ => [newJobID token]
  | _ => []

inductive LeaseError
  | notFound
  | invalid (message : String)
  | busy
  deriving DecidableEq, Repr

namespace LeaseWorld

-- the hash of a repository's kind and its canonical address
variable (digest : String → String → String) (zones : Zones) (w : LeaseWorld)

def repositoryKey (d : LeasedDestination) : String := digest d.kind d.repository

def destination (id : String) : LeasedDestination := (w.destinations.lookup id).getD .zero

def keyOf (id : String) : String := repositoryKey digest (w.destination id)

def holder (key : String) : String := (w.repositoryJobs.lookup key).getD ""

def reads (key : String) : ℤ := (w.repositoryReads.lookup key).getD 0

def configurationBusyLocked : Bool :=
  !w.repositoryJobs.entries.isEmpty || w.activeRepositoryReads > 0 ||
    w.runs.entries.any fun e => runActive e.2

/-- `repositoryResourcesLocked`, with the keys that it has seen. -/
def repositoryResourcesLocked (seen : List String) :
    List CopyResult → Except LeaseError (List Resource)
  | [] => .ok []
  | copy :: rest =>
    if !copyWorkPending copy then repositoryResourcesLocked seen rest
    else if (w.destinations.lookup copy.destinationID).isNone then .error .notFound
    else
      let key := w.keyOf digest copy.destinationID
      if seen.contains key then
        .error (.invalid "selected destinations reference the same repository")
      else if w.holder key ≠ "" || w.reads key > 0 then .error .busy
      else do
        let resources ← repositoryResourcesLocked (key :: seen) rest
        .ok (backupRepositoryResource key :: resources)

def reserveRepositoriesLocked (jobID : String) (copies : List CopyResult) : GoMap String String :=
  w.repositoryJobs.insertAll jobID ((pendingIDs copies).map (w.keyOf digest))

/-- `StartWithResources` in the job service. -/
def startWithResources (ro : RangeOrder Jobs.Holding) (token : String) (resources : List Resource) :
    Option LeaseWorld :=
  if w.issued.contains (newJobID token) then none
  else
    match (LockCall.start token "" resources false).run ro w.locks with
    | (.error _, _) => none
    | (.ok (), locks) => some { w with locks := locks, issued := newJobID token :: w.issued }

def addThread (jobID : String) (stage : LeaseStage) : LeaseWorld :=
  { w with threads := w.threads ++ [⟨jobID, stage⟩] }

def setStage (i : ℕ) (jobID : String) (stage : LeaseStage) : LeaseWorld :=
  { w with threads := w.threads.set i ⟨jobID, stage⟩ }

def setDestination (id : String) (d : LeasedDestination) : LeaseWorld :=
  { w with destinations := w.destinations.insert id d }

def saveRunRecord (run : Run) (plan : Plan) : LeaseWorld :=
  { w with runs := w.runs.insert run.id ⟨run, plan⟩ }

/-- The keys that a job holds. -/
def heldKeys (jobID : String) : List String :=
  (w.repositoryJobs.entries.filter fun e => e.2 = jobID).map Sigma.fst

def beginRepositoryRead (id : String) : Option LeaseWorld :=
  match w.destinations.lookup id with
  | none => none
  | some d =>
    let key := repositoryKey digest d
    if w.holder key ≠ "" then none
    else some { w with
      repositoryReads := w.repositoryReads.insert key (w.reads key + 1)
      activeRepositoryReads := w.activeRepositoryReads + 1
      readers := w.readers ++ [some ⟨d, key⟩] }

/-- A counter that reaches zero is deleted. -/
def lowerReads (key : String) : GoMap String ℤ :=
  let reads := w.reads key - 1
  if reads = 0 then w.repositoryReads.erase key else w.repositoryReads.insert key reads

/-- The release that runs once. -/
def releaseRead (reader : ℕ) : Option LeaseWorld :=
  match w.readers[reader]? with
  | some (some lease) =>
    some { w with
      repositoryReads := w.lowerReads lease.key
      activeRepositoryReads := w.activeRepositoryReads - 1
      readers := w.readers.set reader none }
  | _ => none

/-- The write of `reconcileInventory` or `recordInventoryError`. -/
def refresh (id : String) (update : InventoryUpdate) : LeaseWorld :=
  w.setDestination id (update.apply (w.destination id))

def startRepositoryJob (id : String) (action : JobAction) (acknowledged : Bool)
    (listed : Option (LeasedDestination × MaintenanceAction)) (ro : RangeOrder Jobs.Holding)
    (token : String) : Option LeaseWorld :=
  match w.destinations.lookup id with
  | none => none
  | some d =>
    let key := repositoryKey digest d
    if action = .prune && !acknowledged then none
    else if w.reads key > 0 || w.holder key ≠ "" then none
    else do
      let w ← w.startWithResources ro token [backupRepositoryResource key]
      let w := { w with repositoryJobs := w.repositoryJobs.insert key (newJobID token) }
      some (w.addThread (newJobID token) (.reserved id action listed))

/-- `scheduleMaintenance` after its job has started. -/
def recordMaintenance (i : ℕ) (due : Instant) (persisted : Bool) : Option LeaseWorld :=
  match w.threads[i]? with
  | some ⟨jobID, .reserved id action (some (d, maintenance))⟩ =>
    let w := w.setDestination d.id ((w.destination d.id).setScheduled due maintenance)
    if persisted then some (w.setStage i jobID (.reserved id action none))
    else some ({ w with
      repositoryJobs := w.repositoryJobs.erase (repositoryKey digest d) }.setStage i jobID
        .finishing)
  | _ => none

/-- The steps of `ExecuteRepositoryJob` up to its write-back. -/
def executeRepositoryJob (i : ℕ) : Option LeaseWorld :=
  match w.threads[i]? with
  | some ⟨jobID, .reserved id action none⟩ =>
    match w.destinations.lookup id with
    | none => some (w.setStage i jobID .finishing)
    | some d => some (w.setStage i jobID (.executing id action d []))
  | _ => none

def jobRefreshes (i : ℕ) (update : InventoryUpdate) : Option LeaseWorld :=
  match w.threads[i]? with
  | some ⟨jobID, .executing id .check d refreshes⟩ =>
    some ((w.refresh d.id update).setStage i jobID
      (.executing id .check d (refreshes ++ [update])))
  | _ => none

/-- A reviewed restore also needs the host. -/
def lockHost (i : ℕ) (ro : RangeOrder Jobs.Holding) : Option LeaseWorld :=
  match w.threads[i]? with
  | some ⟨jobID, .executing _ .restore d _⟩ =>
    some { w with
      locks := (w.locks.replaceResources ro jobID
        [globalResource, backupRepositoryResource (repositoryKey digest d)]).2 }
  | _ => none

def writeBack (i : ℕ) (outcome : JobOutcome) : Option LeaseWorld :=
  match w.threads[i]? with
  | some ⟨jobID, .executing id action d _⟩ =>
    some ((w.setDestination id (writtenBack action outcome d (w.destination id))).setStage i jobID
      .finishing)
  | _ => none

def startRun (planID : String) (request : List String) (ro : RangeOrder Jobs.Holding)
    (token runID : String) (now expiresAt : Instant) (persisted : Bool) : Option LeaseWorld :=
  match w.plans.lookup planID with
  | none => none
  | some plan =>
    let (ids, left) := selectCopies request.isEmpty request plan.destinations
    let run := newRun runID (newJobID token) plan.id plan.name now expiresAt ids
    if !left.isEmpty || ids.isEmpty || (w.runs.lookup runID).isSome then none
    else
      match w.repositoryResourcesLocked digest [] run.copies with
      | .error _ => none
      | .ok resources => do
        let started ← w.startWithResources ro token (resources ++ [globalResource])
        if persisted then
          let started := { started with
            repositoryJobs := w.reserveRepositoriesLocked digest (newJobID token) run.copies }
          some ((started.saveRunRecord run plan).addThread (newJobID token) (.runReserved runID))
        else some (started.addThread (newJobID token) .finishing)

/-- `StartRetry`; a verified copy is only retried under the retention that `env` answers for. -/
def startRetry (runID : String) (request : List String) (env : RetryEnv) (ro : RangeOrder Jobs.Holding)
    (token : String) (persisted : Bool) : Option LeaseWorld :=
  match w.runs.lookup runID with
  | none => none
  | some stored =>
    let env := { env with resourcesErr := none, job := .ok (newJobID token) }
    match Backup.startRetry request env stored.run with
    | .error _ => none
    | .ok run =>
      match w.repositoryResourcesLocked digest [] run.copies with
      | .error _ => none
      | .ok resources => do
        let started ← w.startWithResources ro token resources
        if persisted then
          let started := { started with
            repositoryJobs := w.reserveRepositoriesLocked digest (newJobID token) run.copies }
          some ({ started with runs := started.runs.insert runID ⟨run, stored.planSnapshot⟩
            }.addThread (newJobID token) (.runReserved runID))
        else some (started.addThread (newJobID token) .finishing)

def executeRun (i : ℕ) : Option LeaseWorld :=
  match w.threads[i]? with
  | some ⟨jobID, .runReserved runID⟩ =>
    match w.runs.lookup runID with
    | none => some (w.setStage i jobID .finishing)
    | some stored => some (w.setStage i jobID (.capturing stored.run stored.planSnapshot))
  | _ => none

def saveCapture (i : ℕ) (captureState : CaptureState) (capturedAt : Option Instant)
    (manifest : Option Manifest) : Option LeaseWorld :=
  match w.threads[i]? with
  | some ⟨jobID, .capturing run plan⟩ =>
    if run.captureState = .succeeded then none
    else
      let run := { run with
        captureState := captureState, capturedAt := capturedAt, manifest := manifest }
      some ((w.saveRunRecord run plan).setStage i jobID (.capturing run plan))
  | _ => none

/-- The resources of the pending copies, which `ExecuteRun` reads before it asks for them. -/
def collectResources (i : ℕ) : Option LeaseWorld :=
  match w.threads[i]? with
  | some ⟨jobID, .capturing run plan⟩ =>
    if run.captureState ≠ .succeeded then none
    else some (w.setStage i jobID (.requesting run plan
      ((pendingIDs run.copies).map fun id => backupRepositoryResource (w.keyOf digest id))))
  | _ => none

def replaceResources (i : ℕ) (ro : RangeOrder Jobs.Holding) : Option LeaseWorld :=
  match w.threads[i]? with
  | some ⟨jobID, .requesting run plan resources⟩ =>
    match w.locks.replaceResources ro jobID resources with
    | (.error _, _) => some (w.setStage i jobID (.transferring run plan []))
    | (.ok (), locks) =>
      some ({ w with locks := locks }.setStage i jobID
        (.transferring run plan (pendingIDs run.copies)))
  | _ => none

def copyVerified (i : ℕ) (id : String) (uploadedAt : Option Instant) : Option LeaseWorld :=
  match w.threads[i]? with
  | some ⟨_, .transferring _ _ todo⟩ =>
    match w.destinations.lookup id with
    | some d =>
      if todo.contains id then
        some (w.setDestination d.id ((w.destination d.id).copied uploadedAt))
      else none
    | none => none
  | _ => none

def saveRun (i : ℕ) (copies : List CopyResult) (phase : RunPhase) : Option LeaseWorld :=
  match w.threads[i]? with
  | some ⟨jobID, .transferring run plan todo⟩ =>
    let run := { run with copies := copies, phase := phase }
    some ((w.saveRunRecord run plan).setStage i jobID (.transferring run plan todo))
  | _ => none

/-- The lease tables after `releaseCompletedRepository`. -/
def releaseCompleted (jobID id : String) (ro : RangeOrder Jobs.Holding) :
    GoMap String String × LockTable :=
  match w.destinations.lookup id with
  | none => (w.repositoryJobs, w.locks)
  | some d =>
    let completed := repositoryKey digest d
    let remaining := (w.heldKeys jobID).filter (· ≠ completed)
    if w.holder completed ≠ jobID || remaining.isEmpty then (w.repositoryJobs, w.locks)
    else
      match w.locks.replaceResources ro jobID (remaining.map backupRepositoryResource) with
      | (.error _, _) => (w.repositoryJobs, w.locks)
      | (.ok (), locks) => (w.repositoryJobs.erase completed, locks)

/-- The copy has ended, so its goroutine writes nothing more. -/
def releaseCompletedRepository (i : ℕ) (id : String) (ro : RangeOrder Jobs.Holding) :
    Option LeaseWorld :=
  match w.threads[i]? with
  | some ⟨jobID, .transferring run plan todo⟩ =>
    if todo.contains id then
      let (repositoryJobs, locks) := w.releaseCompleted digest jobID id ro
      some ({ w with repositoryJobs := repositoryJobs, locks := locks }.setStage i jobID
        (.transferring run plan (todo.filter (· ≠ id))))
    else none
  | _ => none

/-- The run that the deferred end of `ExecuteRun` saves: from the capture on, or once every copy
has ended. -/
def concludable : LeaseStage → Option (Run × Plan)
  | .capturing run plan => some (run, plan)
  | .transferring run plan [] => some (run, plan)
  | _ => none

def concludeRun (i : ℕ) (operationErr : Option String) (now : Instant) : Option LeaseWorld :=
  match w.threads[i]? with
  | some ⟨jobID, stage⟩ =>
    match concludable stage with
    | some (run, plan) =>
      some ((w.saveRunRecord (concluded operationErr now run) plan).setStage i jobID .finishing)
    | none => none
  | _ => none

/-- `FinishSucceeded` and its siblings keep the locks if they cannot record the end. -/
def finish (i : ℕ) (recorded : Bool) : Option LeaseWorld :=
  match w.threads[i]? with
  | some ⟨jobID, .finishing⟩ =>
    if recorded then
      some ({ w with terminal := jobID :: w.terminal }.setStage i jobID .unlocking)
    else some (w.setStage i jobID .releasing)
  | _ => none

def unlockAll (i : ℕ) : Option LeaseWorld :=
  match w.threads[i]? with
  | some ⟨jobID, .unlocking⟩ =>
    some ({ w with locks := w.locks.unlockAll jobID }.setStage i jobID .releasing)
  | _ => none

def releaseRepositories (i : ℕ) : Option LeaseWorld :=
  match w.threads[i]? with
  | some ⟨jobID, .releasing⟩ =>
    some ({ w with
      repositoryJobs := w.repositoryJobs.eraseAll jobID (w.heldKeys jobID) }.setStage i jobID
        .done)
  | _ => none

def otherJob (ro : RangeOrder Jobs.Holding) (call : LockCall) : Option LeaseWorld :=
  if otherCallAllowed w.issued (w.threads.map LeaseThread.jobID) call then
    some { w with
      locks := (call.run ro w.locks).2
      issued := startedIDs call ++ w.issued }
  else none

/-- `pruneMetadataLocked` drops expired runs that are not active. -/
def pruneMetadata (runIDs : List String) : Option LeaseWorld :=
  if runIDs.any fun runID => (w.runs.lookup runID).any runActive then none
  else some { w with runs := w.runs.eraseWhere runIDs.contains }

def savedDestination (id : String) (input : DestinationInput) (now : Instant) :
    LeasedDestination :=
  let previous := w.destination id
  let exists_ := (w.destinations.lookup id).isSome
  let scheduled (was schedule : Schedule) (last : Option Instant) : Option Instant :=
    if was ≠ schedule then latestDue zones schedule now else last
  { previous with
    toDestination := { normalizeCheckEvidence previous.toDestination with
      pruneFrequency := input.pruneSchedule.frequency.recorded }
    name := trimSpace input.name
    kind := input.kind
    repository := input.repository
    expectedFilesystem := input.expectedFilesystem
    region := input.region
    credentialsConfigured := true
    checkSchedule := input.checkSchedule
    checkReadData := input.checkReadData
    pruneSchedule := input.pruneSchedule
    status := if !exists_ || input.secrets then .untested else previous.status
    error := if !exists_ || input.secrets then "" else previous.error
    lastCheckScheduledAt :=
      scheduled previous.checkSchedule input.checkSchedule previous.lastCheckScheduledAt
    lastPruneScheduledAt :=
      scheduled previous.pruneSchedule input.pruneSchedule previous.lastPruneScheduledAt }

/-- `SaveDestination` of an input that passed its checks; `newID` is drawn for a new one. -/
def saveDestination (id newID : String) (input : DestinationInput) (now : Instant)
    (persisted : Bool) : Option LeaseWorld :=
  if w.configurationBusyLocked then none
  else if w.destinations.entries.any fun e =>
      e.1 ≠ id && repositoryKey digest e.2 = digest input.kind input.repository then none
  else
    match w.destinations.lookup id with
    | some previous =>
      if previous.kind ≠ input.kind || previous.repository ≠ input.repository || !persisted then
        none
      else some (w.setDestination id { w.savedDestination zones id input now with id := id })
    | none =>
      if id ≠ "" || !input.secrets || w.savedIDs.contains newID || !persisted then none
      else
        let d := { w.savedDestination zones "" input now with id := newID }
        some { w.setDestination newID d with savedIDs := newID :: w.savedIDs }

def deleteDestination (id : String) (persisted : Bool) : Option LeaseWorld :=
  if w.configurationBusyLocked || (w.destinations.lookup id).isNone || assigned w.plans id ||
      !persisted then none
  else some { w with destinations := w.destinations.erase id }

def savePlan (id newID : String) (plan : Plan) (now : Instant) (persisted : Bool) :
    Option LeaseWorld :=
  let previous := ((w.plans.lookup id).map Plan.destinations).getD []
  let known := (w.plans.lookup id).isSome
  match normalizeAssignments zones plan.destinations with
  | none => none
  | some assignments =>
    if w.configurationBusyLocked || id ≠ "" && !known || !persisted ||
        assignments.any (fun a => (w.destinations.lookup a.destinationID).isNone) then none
    else
      let id := if id = "" then newID else id
      some { w with
        plans := w.plans.insert id { plan with
          id := id
          destinations := assignments.map (saveAssignment zones now previous) } }

def deletePlan (id : String) (persisted : Bool) : Option LeaseWorld :=
  if w.configurationBusyLocked || (w.plans.lookup id).isNone || !persisted then none
  else some { w with plans := w.plans.erase id }

/-- One step; a call that is refused changes nothing and is no step. -/
def next : LeaseStep → Option LeaseWorld
  | .beginRepositoryRead id => w.beginRepositoryRead digest id
  | .readerRefreshes reader update =>
    match w.readers[reader]? with
    | some (some lease) => some (w.refresh lease.destination.id update)
    | _ => none
  | .releaseRead reader => w.releaseRead reader
  | .startRepositoryJob id action acknowledged ro token =>
    w.startRepositoryJob digest id action acknowledged none ro token
  | .listDestinations => some { w with listed := w.destinations.entries.map Sigma.snd }
  | .startMaintenance d action acknowledged ro token =>
    if d ∈ w.listed then
      w.startRepositoryJob digest d.id action.action acknowledged (some (d, action)) ro token
    else none
  | .recordMaintenance i due persisted => w.recordMaintenance digest i due persisted
  | .executeRepositoryJob i => w.executeRepositoryJob i
  | .jobRefreshes i update => w.jobRefreshes i update
  | .lockHost i ro => w.lockHost digest i ro
  | .writeBack i outcome => w.writeBack i outcome
  | .startRun planID request ro token runID now expiresAt persisted =>
    w.startRun digest planID request ro token runID now expiresAt persisted
  | .startRetry runID request env ro token persisted =>
    w.startRetry digest runID request env ro token persisted
  | .executeRun i => w.executeRun i
  | .saveCapture i captureState capturedAt manifest =>
    w.saveCapture i captureState capturedAt manifest
  | .collectResources i => w.collectResources digest i
  | .replaceResources i ro => w.replaceResources i ro
  | .copyVerified i id uploadedAt => w.copyVerified i id uploadedAt
  | .saveRun i copies phase => w.saveRun i copies phase
  | .releaseCompletedRepository i id ro => w.releaseCompletedRepository digest i id ro
  | .concludeRun i operationErr now => w.concludeRun i operationErr now
  | .finish i recorded => w.finish i recorded
  | .unlockAll i => w.unlockAll i
  | .releaseRepositories i => w.releaseRepositories i
  | .otherJob ro call => w.otherJob ro call
  | .pruneMetadata runIDs => w.pruneMetadata runIDs
  | .saveDestination id newID input now persisted =>
    w.saveDestination digest zones id newID input now persisted
  | .deleteDestination id persisted => w.deleteDestination id persisted
  | .savePlan id newID plan now persisted => w.savePlan zones id newID plan now persisted
  | .deletePlan id persisted => w.deletePlan id persisted

end LeaseWorld

def leaseLts (digest : String → String → String) (zones : Zones) : Lts LeaseWorld LeaseStep where
  Tr w l w' := w.next digest zones l = some w'

/-- A state that the service loads: any configuration and any runs, and no lease. -/
def LeaseWorld.Loaded (w : LeaseWorld) : Prop :=
  w = { LeaseWorld.new with
    destinations := w.destinations, plans := w.plans, runs := w.runs, savedIDs := w.savedIDs } ∧
  (∀ id d, w.destinations.lookup id = some d → d.id = id ∧ id ∈ w.savedIDs) ∧
  ∀ id p, w.runs.lookup id = some p → p.run.id = id

def LeaseReachable (digest : String → String → String) (zones : Zones) (w : LeaseWorld) : Prop :=
  (leaseLts digest zones).Reachable LeaseWorld.Loaded w

end Stacklab.Backup
