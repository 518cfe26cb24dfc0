import Stacklab.Backup.Retention

/-! The record of a backup run and its copies, and what retry, restart and completion make
of it. -/
namespace Stacklab.Backup

open Lib

inductive CopyState
  | pending
  | running
  | succeeded
  | failed
  | other (name : String)
  deriving DecidableEq, Repr

inductive Verification
  | pending
  | recoveryObjectsVerified
  | unavailable
  | failed
  | other (name : String)
  deriving DecidableEq, Repr

inductive CopyRetention
  | pending
  | running
  | skipped
  | succeeded
  | failed
  | other (name : String)
  deriving DecidableEq, Repr

inductive RunState
  | queued
  | running
  | succeeded
  | failed
  | other (name : String)
  deriving DecidableEq, Repr

inductive CaptureState
  | pending
  | running
  | succeeded
  | failed
  | other (name : String)
  deriving DecidableEq, Repr

inductive RunPhase
  | capture
  | upload
  | verify
  | retention
  | finished
  | other (name : String)
  deriving DecidableEq, Repr

structure CopyResult where
  destinationID : String
  state : CopyState := .pending
  snapshotID : String := ""
  uploadedAt : Option Instant := none
  verification : Verification := .pending
  verifiedAt : Option Instant := none
  retention : CopyRetention := .pending
  retentionError : String := ""
  retentionStartedAt : Option Instant := none
  retentionCompletedAt : Option Instant := none
  error : String := ""
  startedAt : Option Instant := none
  completedAt : Option Instant := none
  bytesProcessed : ℤ := 0
  bytesTotal : ℤ := 0
  filesProcessed : ℤ := 0
  filesTotal : ℤ := 0
  bytesAdded : ℤ := 0
  deriving DecidableEq, Repr

structure Manifest where
  version : ℤ
  runID : String
  planID : String
  capturedAt : Instant
  deriving DecidableEq, Repr

structure Run where
  id : String
  jobID : String
  planID : String
  planName : String
  state : RunState := .running
  captureState : CaptureState := .pending
  phase : RunPhase := .capture
  completedAt : Option Instant := none
  capturedAt : Option Instant := none
  createdAt : Instant
  expiresAt : Instant
  copies : List CopyResult
  manifest : Option Manifest := none
  error : String := ""
  deriving DecidableEq, Repr

/-- The run that `StartRun` saves: no copy has been attempted. -/
def newRun (id jobID planID planName : String) (now expiresAt : Instant)
    (destinationIDs : List String) : Run where
  id := id
  jobID := jobID
  planID := planID
  planName := planName
  createdAt := now
  expiresAt := expiresAt
  copies := destinationIDs.map fun destinationID => { destinationID := destinationID }

def verifiedCopy (copy : CopyResult) : Bool :=
  copy.state = .succeeded && copy.verification = .recoveryObjectsVerified &&
    copy.verifiedAt.isSome && copy.snapshotID ≠ ""

def copyWorkPending (copy : CopyResult) : Bool :=
  copy.state = .pending || verifiedCopy copy && copy.retention = .pending

def retentionOpen (copy : CopyResult) : Bool :=
  verifiedCopy copy && (copy.retention = .pending || copy.retention = .running)

/-- `for i := range run.Copies` in the deferred end of `ExecuteRun`. -/
def abandonRetention (err : String) (now : Instant) (copy : CopyResult) : CopyResult :=
  if retentionOpen copy then
    { copy with retention := .failed, retentionError := err, retentionCompletedAt := some now }
  else copy

/-- What is left wrong once every copy has ended; `none` lets the run succeed. -/
def operationError (ctxErr : Option String) (run : Run) : Option String :=
  match ctxErr with
  | some err => some err
  | none =>
    if run.copies.any fun copy => copy.state ≠ .succeeded then
      some "one or more configured copies failed to upload or verify; inspect each copy result"
    else if run.copies.any fun copy => copy.retention = .failed then
      some "configured copies are verified; retention requires attention"
    else none

/-- The record that the deferred end of `ExecuteRun` saves. -/
def concluded (operationErr : Option String) (now : Instant) (run : Run) : Run :=
  match operationErr with
  | some err =>
    { run with phase := .finished, completedAt := some now, state := .failed, error := err,
               copies := run.copies.map (abandonRetention err now) }
  | none => { run with phase := .finished, completedAt := some now, state := .succeeded }

inductive RetryError
  | busy
  | expired
  | invalid (message : String)
  | retention (message : String)
  | start (message : String)
  deriving DecidableEq, Repr

/-- What `StartRetry` finds outside the run: the current time, the staged manifest, each
destination's current retention policy, and the job it starts. -/
structure RetryEnv where
  now : Instant
  staged : Bool
  retentionErr : String → Option String
  resourcesErr : Option String
  job : Except String String

/-- `StartRetry`'s loop over the copies: which destinations are still selected after it, how
many copies it retries and transfers again, and what it makes of them. -/
structure RetryScan where
  selected : List String
  pending : ℕ
  transfers : ℕ
  copies : List CopyResult

/-- A verified copy repeats only its retention; any other copy is transferred again. -/
def retryCopy (copy : CopyResult) : CopyResult :=
  if verifiedCopy copy then
    { copy with retention := .pending, retentionStartedAt := none, retentionCompletedAt := none,
                retentionError := if copy.retentionError = "" then "Retention requires attention."
                  else copy.retentionError }
  else { copy with state := .pending, error := "" }

def scanRetry (all : Bool) (retentionErr : String → Option String) :
    List String → List CopyResult → Except RetryError RetryScan
  | selected, [] => .ok ⟨selected, 0, 0, []⟩
  | selected, copy :: rest =>
    if (copy.state ≠ .succeeded || copy.retention = .failed) &&
        (all || selected.contains copy.destinationID) then
      let remaining := selected.filter (· ≠ copy.destinationID)
      if verifiedCopy copy then
        match retentionErr copy.destinationID with
        | some err => .error (.retention err)
        | none => do
          let scan ← scanRetry all retentionErr remaining rest
          .ok ⟨scan.selected, scan.pending + 1, scan.transfers, retryCopy copy :: scan.copies⟩
      else do
        let scan ← scanRetry all retentionErr remaining rest
        .ok ⟨scan.selected, scan.pending + 1, scan.transfers + 1, retryCopy copy :: scan.copies⟩
    else do
      let scan ← scanRetry all retentionErr selected rest
      .ok ⟨scan.selected, scan.pending, scan.transfers, copy :: scan.copies⟩

/-- `StartRetry` up to saving the run it returns. -/
def startRetry (request : List String) (env : RetryEnv) (run : Run) : Except RetryError Run :=
  if run.state = .running then .error .busy
  else if run.captureState ≠ .succeeded || run.capturedAt.isNone then .error .expired
  else do
    let scan ← scanRetry request.isEmpty env.retentionErr request run.copies
    if scan.pending = 0 || !scan.selected.isEmpty then
      .error (.invalid "no failed destination selected")
    else if scan.transfers > 0 &&
        (run.manifest.isNone || env.now ≥ run.expiresAt || !env.staged) then
      .error .expired
    else
      match env.resourcesErr, env.job with
      | some err, _ => .error (.start err)
      | none, .error err => .error (.start err)
      | none, .ok jobID =>
        .ok { run with
          copies := scan.copies
          jobID := jobID
          state := .running
          phase := if scan.transfers = 0 then .retention else .upload
          completedAt := none
          error := "" }

def interruptedMessage : String := "Operation interrupted by service restart."

def interruptCopy (now : Instant) (copy : CopyResult) : CopyResult :=
  let copy := abandonRetention "Retention interrupted by service restart." now copy
  if copy.state = .running || copy.state = .pending then
    { copy with state := .failed, error := interruptedMessage }
  else copy

/-- What `Reconcile` makes of one stored run. -/
def reconcileRun (now : Instant) (run : Run) : Run :=
  if run.state ≠ .running && run.state ≠ .queued then run
  else
    { run with state := .failed, phase := .finished, completedAt := some now,
               error := interruptedMessage,
               captureState := if run.captureState ≠ .succeeded then .failed
                 else run.captureState,
               copies := run.copies.map (interruptCopy now) }

end Stacklab.Backup
