import Stacklab.Backup.Schedule

/-! The verdict on a plan: how far its copies protect what it selects. -/
namespace Stacklab.Backup

open Lib

inductive Activity
  | idle
  | queued
  | running
  deriving DecidableEq, Repr

/-- `State` of one copy. -/
inductive CopyVerdict
  | unprotected
  | current
  | manual
  | overdue
  | outdated
  | clockSkew
  | missing
  | integrityFailed
  | unverified
  | unavailable
  | disabled
  deriving DecidableEq, Repr

/-- `State` of a plan. -/
inductive PlanVerdict
  | healthy
  | disabled
  | unprotected
  | attention
  | manual
  deriving DecidableEq, Repr

structure CopyProtection where
  activity : Activity
  destinationID : String
  state : CopyVerdict
  lastCaptureAt : Option Instant
  lastUploadedAt : Option Instant
  snapshotID : String
  nextRunAt : Option Instant
  dueAt : Option Instant
  firstOutstandingDue : Option Instant
  overdueSince : Option Instant
  lastRunID : String
  lastError : String
  evidenceUsable : Bool
  snapshotStatus : Presence
  snapshotCheckedAt : Option Instant
  integrityStatus : CheckStatus
  availabilityStatus : Availability
  lastRestoreTestAt : Option Instant
  deriving DecidableEq, Repr

structure PlanProtection where
  activity : Activity
  planID : String
  planName : String
  state : PlanVerdict
  expectedCopies : ℕ
  currentCopies : ℕ
  lastCaptureAt : Option Instant
  nextRunAt : Option Instant
  latestRunID : String
  copies : List CopyProtection
  deriving DecidableEq, Repr

/-- What `protectionLocked` reads besides the state: the clock, the time zones, the hash of
selections, the policy and the order in which it ranges over the runs. -/
structure ProtectionEnv where
  sum256 : Bytes → Digest
  zones : Zones
  now : Instant
  overdueGraceMinutes : ℤ
  runOrder : RangeOrder PersistedRun

def newerRun (candidate previous : Run) (now : Instant) : Bool :=
  if inFuture now candidate.createdAt ≠ inFuture now previous.createdAt then
    !inFuture now candidate.createdAt
  else if candidate.createdAt = previous.createdAt then candidate.id > previous.id
  else candidate.createdAt > previous.createdAt

def runActivity (activity : Activity) (run : Run) : Activity :=
  match run.state with
  | .running => .running
  | .queued => if activity = .idle then .queued else activity
  | _ => activity

def latestRun (now : Instant) (latest : Option Run) (run : Run) : Option Run :=
  if latest.all fun previous => newerRun run previous now then some run else latest

def ScheduleFrequency.isManual (frequency : ScheduleFrequency) : Bool :=
  frequency = .manual || frequency = .unset

section Copy

variable (env : ProtectionEnv) (st : HealthState) (plan : Plan) (assignment : Assignment)

def restoreTestedAtLocked (d : StoredDestination) (id : String) : Option Instant :=
  match st.restoreTests.lookup (snapshotEvidenceKey d.id id) with
  | some tested => some tested
  | none => if d.lastRestoreTestSnapshotID = id then d.lastRestoreTestAt else none

def integrityStatus (d : StoredDestination) : CheckStatus :=
  if d.checkHold.isSome && d.checkStatus ≠ .failed then .unverified
  else if d.checkStatus = .unset then .unknown
  else d.checkStatus

/-- The state by the schedule alone. -/
def scheduledState (checkpoint : CopyCheckpoint) : CopyVerdict :=
  if assignment.schedule.frequency.isManual then .manual
  else
    match latestDue env.zones assignment.schedule env.now with
    | some due => if checkpoint.capturedAt < due then .overdue else .current
    | none => .current

/-- The state by the schedule and the selection. -/
def selectedState (checkpoint : CopyCheckpoint) : CopyVerdict :=
  if checkpoint.selection ≠ selectionFingerprint env.sum256 plan then .outdated
  else scheduledState env assignment checkpoint

def skewError : String :=
  "The host clock moved backwards; this recovery point cannot establish current protection."

def holdError (hold : CheckHold) : String :=
  "Repository check requires review before this recovery evidence can be used." ++
    if hold.error = "" then "" else " " ++ hold.error

/-- The `switch` over the evidence of a saved copy: the state and the error. -/
def evidenceState (d : StoredDestination) (checkpoint : CopyCheckpoint) (state : CopyVerdict) :
    CopyVerdict × String :=
  if inFuture env.now checkpoint.capturedAt || assignment.lastScheduledAt.any (inFuture env.now) then
    (.clockSkew, skewError)
  else if checkpoint.snapshotStatus = .missing then (.missing, "")
  else if d.checkStatus = .failed then (.integrityFailed, d.checkError)
  else match d.checkHold with
    | some hold => (.unverified, holdError hold)
    | none =>
      if d.status = .error then (.unavailable, d.error)
      else if d.inventoryError ≠ "" then (.unverified, d.inventoryError)
      else if checkpoint.verification ≠ .recoveryObjectsVerified then (.unverified, "")
      else match checkpoint.snapshotCheckedAt with
        | none => (.unverified, "")
        | some checkedAt =>
          if inFuture env.now checkedAt then (.clockSkew, "")
          else if env.now - checkedAt > 24 * 60 * minute then (.unverified, "")
          else (state, "")

/-- State and error of an assignment before its attempts are looked at. -/
def assignedState (d : StoredDestination) (saved : Option CopyCheckpoint) : CopyVerdict × String :=
  match saved with
  | none => (.unprotected, "")
  | some checkpoint =>
    evidenceState env assignment d checkpoint (selectedState env plan assignment checkpoint)

/-- What the loop over the runs finds out about one assignment. -/
structure AttemptScan where
  activity : Activity
  attempt : Option CopyAttempt
  maintenance : Option CopyAttempt

def copyActivity (run : Run) (activity : Activity) (attempt : CopyResult) : Activity :=
  if run.state = .running || run.state = .queued then
    if attempt.state = .running || attempt.retention = .running || run.captureState = .running then
      .running
    else if copyWorkPending attempt && activity = .idle then .queued
    else activity
  else activity

def newestAttempt (now : Instant) (latest completed : Option CopyAttempt) : Option CopyAttempt :=
  match completed with
  | none => latest
  | some attempt =>
    if latest.all fun previous => newerCopyAttempt attempt previous now then some attempt
    else latest

def scanAttempt (now : Instant) (run : Run) (scan : AttemptScan) (attempt : CopyResult) :
    AttemptScan where
  activity := copyActivity run scan.activity attempt
  attempt := newestAttempt now scan.attempt (completedCopyAttempt run attempt)
  maintenance := newestAttempt now scan.maintenance (completedMaintenanceAttempt run attempt)

def scanAttempts (runs : List PersistedRun) : AttemptScan :=
  let key := checkpointKey plan.id assignment.destinationID
  (runs.filter fun stored => stored.run.planID = plan.id).foldl
    (fun scan stored =>
      (stored.run.copies.filter fun attempt =>
          attempt.destinationID = assignment.destinationID).foldl
        (scanAttempt env.now stored.run) scan)
    ⟨.idle, st.copyAttempts.lookup key, st.maintenanceAttempts.lookup key⟩

/-- The first error among those that are recorded for the copy. -/
def firstError (errors : List String) : String := (errors.find? (· ≠ "")).getD ""

/-- One round of the loop over the assignments, up to the verdict on a disabled copy. -/
def copyProtection (runs : List PersistedRun) : CopyProtection :=
  let d := st.destination assignment.destinationID
  let saved := st.copyCheckpoints.lookup (checkpointKey plan.id assignment.destinationID)
  let scheduled := !assignment.schedule.frequency.isManual
  let (state, error) := assignedState env plan assignment d saved
  let scan := scanAttempts env st plan assignment runs
  let snapshotStatus :=
    match saved.map CopyCheckpoint.snapshotStatus with
    | none | some .unset => .unknown
    | some status => status
  let grace := overdueGrace env.overdueGraceMinutes
  let outstanding :=
    if scheduled && plan.enabled && assignment.enabled then
      firstOutstandingDue env.zones assignment (saved.map CopyCheckpoint.capturedAt) env.now grace
    else none
  { activity := scan.activity
    destinationID := assignment.destinationID
    state := state
    lastCaptureAt := saved.map CopyCheckpoint.capturedAt
    lastUploadedAt := saved.bind CopyCheckpoint.uploadedAt
    snapshotID := (saved.map CopyCheckpoint.snapshotID).getD ""
    nextRunAt :=
      if scheduled then
        ((previewSchedule env.zones assignment.schedule env.now 1).toOption.getD []).head?
      else none
    dueAt := if scheduled then latestDue env.zones assignment.schedule env.now else none
    firstOutstandingDue := outstanding
    overdueSince := (outstanding.map (· + grace)).filter fun since => since ≤ env.now
    lastRunID := ((scan.attempt.map CopyAttempt.runID).or (saved.map CopyCheckpoint.runID)).getD ""
    lastError := firstError [error, (scan.attempt.map CopyAttempt.error).getD "",
      (scan.maintenance.map CopyAttempt.error).getD ""]
    evidenceUsable := saved.isSome && snapshotStatus = .present &&
      (state = .current || state = .manual || state = .overdue)
    snapshotStatus := snapshotStatus
    snapshotCheckedAt := saved.bind CopyCheckpoint.snapshotCheckedAt
    integrityStatus := integrityStatus d
    availabilityStatus := if d.status = .unset then .other "unknown" else d.status
    lastRestoreTestAt := saved.bind fun checkpoint =>
      restoreTestedAtLocked st d checkpoint.snapshotID }

end Copy

/-- The result so far, and what decides between the verdicts at the end. -/
structure ProtectionLoop where
  result : PlanProtection
  allManual : Bool
  attention : Bool

/-- A copy that counts as current. -/
def CopyProtection.usable (copy : CopyProtection) : Bool :=
  copy.evidenceUsable && (copy.state = .current || copy.state = .manual)

/-- A copy that the operator has to look at. -/
def CopyProtection.needsAttention (copy : CopyProtection) : Bool :=
  copy.state ≠ .current && copy.state ≠ .manual || copy.lastError ≠ ""

def laterOf (a b : Option Instant) : Option Instant :=
  match a, b with
  | some a, some b => if a < b then some b else some a
  | none, b => b
  | a, none => a

def soonerOf (a b : Option Instant) : Option Instant :=
  match a, b with
  | some a, some b => if a > b then some b else some a
  | none, b => b
  | a, none => a

def protectAssignment (plan : Plan) (loop : ProtectionLoop) (assignment : Assignment)
    (copy : CopyProtection) : ProtectionLoop :=
  let active := plan.enabled && assignment.enabled
  let result := loop.result
  { allManual := loop.allManual &&
      (assignment.schedule.frequency.isManual || !assignment.enabled)
    attention := loop.attention || active && copy.needsAttention
    result := { result with
      lastCaptureAt := laterOf result.lastCaptureAt copy.lastCaptureAt
      nextRunAt := if active then soonerOf result.nextRunAt copy.nextRunAt else result.nextRunAt
      expectedCopies := if active then result.expectedCopies + 1 else result.expectedCopies
      currentCopies :=
        if active && copy.usable then result.currentCopies + 1 else result.currentCopies
      copies := result.copies ++
        [if active then copy
          else { copy with state := .disabled, nextRunAt := none, dueAt := none }] } }

/-- The loop over the assignments; each round ranges over the runs again. -/
def protectAssignments (env : ProtectionEnv) (st : HealthState) (plan : Plan)
    (runs : ℕ → List PersistedRun) : ℕ → ProtectionLoop → List Assignment → ProtectionLoop
  | _, loop, [] => loop
  | round, loop, assignment :: rest =>
    protectAssignments env st plan runs (round + 1)
      (protectAssignment plan loop assignment
        (copyProtection env st plan assignment (runs round))) rest

/-- The verdict at the end of the loop. -/
def planVerdict (plan : Plan) (loop : ProtectionLoop) : PlanProtection :=
  let result := loop.result
  if !plan.enabled || result.expectedCopies = 0 then
    { result with state := .disabled, nextRunAt := none }
  else if result.currentCopies = 0 && result.lastCaptureAt = none then
    { result with state := .unprotected }
  else if loop.attention then { result with state := .attention }
  else if loop.allManual then { result with state := .manual }
  else result

def protectionLocked (env : ProtectionEnv) (st : HealthState) (plan : Plan) : PlanProtection :=
  let runs (round : ℕ) := env.runOrder.order round (st.runs.entries.map Sigma.snd)
  let ofPlan := ((runs 0).map PersistedRun.run).filter fun run => run.planID = plan.id
  planVerdict plan <| protectAssignments env st plan runs 1
    { result :=
        { activity := ofPlan.foldl runActivity .idle
          planID := plan.id
          planName := plan.name
          state := .healthy
          expectedCopies := 0
          currentCopies := 0
          lastCaptureAt := none
          nextRunAt := none
          latestRunID := ((ofPlan.foldl (latestRun env.now) none).map Run.id).getD ""
          copies := [] }
      allManual := true
      attention := false } plan.destinations

end Stacklab.Backup
