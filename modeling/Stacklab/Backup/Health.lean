import Stacklab.Backup.Catalog
import Stacklab.Backup.RunCopies

/-! The durable evidence of copies: what runs, inventories and checks record about them. -/
namespace Stacklab.Backup

open Lib

inductive ScheduleFrequency
  | unset
  | manual
  | interval
  | daily
  | weekly
  | other (name : String)
  deriving DecidableEq, Repr

structure Schedule where
  frequency : ScheduleFrequency
  time : String
  weekday : ℤ
  timezone : String
  intervalHours : ℤ
  deriving DecidableEq, Repr

structure Assignment where
  destinationID : String
  enabled : Bool
  schedule : Schedule
  retention : Retention
  lastScheduledAt : Option Instant
  scheduleActivatedAt : Option Instant
  deriving DecidableEq, Repr

structure Source where
  id : String
  kind : String
  stackID : String
  service : String
  mount : String
  path : String
  excludes : List String
  deriving DecidableEq, Repr

structure Plan where
  id : String
  name : String
  enabled : Bool
  consistency : String
  sources : List Source
  destinations : List Assignment
  deriving DecidableEq, Repr

/-- `SnapshotStatus` of a checkpoint. -/
inductive Presence
  | unset
  | unknown
  | present
  | missing
  | other (name : String)
  deriving DecidableEq, Repr

structure CopyCheckpoint where
  capturedAt : Instant
  uploadedAt : Option Instant
  snapshotID : String
  runID : String
  selection : Bytes
  verification : Verification
  snapshotStatus : Presence
  snapshotCheckedAt : Option Instant
  deriving DecidableEq, Repr

structure CopyAttempt where
  runID : String
  completedAt : Instant
  error : String
  deriving DecidableEq, Repr

inductive Availability
  | unset
  | untested
  | available
  | error
  | other (name : String)
  deriving DecidableEq, Repr

/-- A destination with what its protection is judged by besides the check evidence. -/
structure StoredDestination extends Destination where
  lastRestoreTestAt : Option Instant
  lastRestoreTestSnapshotID : String
  lastInventoryAt : Option Instant
  lastInventoryAttemptAt : Option Instant
  inventoryError : String
  status : Availability
  error : String
  deriving DecidableEq, Repr

/-- The zero value, which Go's maps answer for a key that they do not hold. -/
def StoredDestination.zero : StoredDestination where
  id := ""
  lastRestoreTestAt := none
  lastRestoreTestSnapshotID := ""
  lastInventoryAt := none
  lastInventoryAttemptAt := none
  inventoryError := ""
  status := .unset
  error := ""

structure PersistedRun where
  run : Run
  planSnapshot : Plan
  deriving DecidableEq, Repr

/-- The part of the service state that protection is computed from. -/
structure HealthState where
  plans : GoMap String Plan
  destinations : GoMap String StoredDestination
  runs : GoMap String PersistedRun
  copyCheckpoints : GoMap String CopyCheckpoint
  copyAttempts : GoMap String CopyAttempt
  maintenanceAttempts : GoMap String CopyAttempt
  snapshotClassifications : GoMap String SnapshotClassification
  restoreTests : GoMap String Instant

def HealthState.empty : HealthState := ⟨∅, ∅, ∅, ∅, ∅, ∅, ∅, ∅⟩

/-- After the current time by more than the tolerance for a clock that was set back. -/
def inFuture (now t : Instant) : Bool := t > now + clockSkewTolerance

def captureFailed (run : Run) : Bool :=
  run.captureState = .failed && run.state ≠ .running && run.state ≠ .queued

def completedCopyAttempt (run : Run) (copy : CopyResult) : Option CopyAttempt :=
  if copy.state ≠ .succeeded && copy.state ≠ .failed && !captureFailed run then none
  else
    let completed := copy.completedAt <|>
      (if copy.state = .succeeded then copy.verifiedAt else none) <|>
      (if copy.state = .succeeded then copy.uploadedAt else none) <|> run.completedAt
    some ⟨run.id, completed.getD run.createdAt, if captureFailed run then run.error else copy.error⟩

def completedMaintenanceAttempt (run : Run) (copy : CopyResult) : Option CopyAttempt :=
  if !verifiedCopy copy || copy.retention ≠ .succeeded && copy.retention ≠ .failed then none
  else
    let completed := copy.retentionCompletedAt <|> copy.completedAt <|> copy.verifiedAt
    some ⟨run.id, completed.getD run.createdAt,
      if copy.retention = .failed then copy.retentionError else ""⟩

def newerCopyAttempt (candidate previous : CopyAttempt) (now : Instant) : Bool :=
  if inFuture now candidate.completedAt ≠ inFuture now previous.completedAt then
    !inFuture now candidate.completedAt
  else if candidate.completedAt = previous.completedAt then candidate.runID ≥ previous.runID
  else candidate.completedAt > previous.completedAt

/-- Plan and destination of a copy still exist. -/
def HealthState.configured (st : HealthState) (planID destinationID : String) : Bool :=
  (st.plans.lookup planID).isSome && (st.destinations.lookup destinationID).isSome

/-- An attempt that is completed, and newer than the one that is recorded. -/
def recordAttempt (now : Instant) (attempts : GoMap String CopyAttempt) (key : String)
    (completed : Option CopyAttempt) : GoMap String CopyAttempt :=
  match completed with
  | none => attempts
  | some attempt =>
    if (attempts.lookup key).all fun previous => newerCopyAttempt attempt previous now then
      attempts.insert key attempt
    else attempts

def recordCopyAttempt (now : Instant) (run : Run) (st : HealthState) (copy : CopyResult) :
    HealthState :=
  if !st.configured run.planID copy.destinationID then st
  else
    let key := checkpointKey run.planID copy.destinationID
    { st with
      copyAttempts := recordAttempt now st.copyAttempts key (completedCopyAttempt run copy)
      maintenanceAttempts :=
        recordAttempt now st.maintenanceAttempts key (completedMaintenanceAttempt run copy) }

def recordCopyAttemptsLocked (now : Instant) (st : HealthState) (run : Run) : HealthState :=
  run.copies.foldl (recordCopyAttempt now run) st

section Checkpoints

variable (sum256 : Bytes → Digest)

def Source.json (source : Source) : Bytes :=
  Json.object <|
    [(bytes "id", Json.text (bytes source.id)), (bytes "kind", Json.text (bytes source.kind))] ++
    optionalField "stack_id" (bytes source.stackID) ++
    optionalField "service" (bytes source.service) ++
    optionalField "mount" (bytes source.mount) ++
    optionalField "path" (bytes source.path) ++
    (if source.excludes = [] then []
      else [(bytes "excludes", Json.array (source.excludes.map fun s => Json.text (bytes s)))])

/-- The sources in the order of their ids; an empty selection is marshalled as `null`. -/
def selectionJSON (plan : Plan) : Bytes :=
  let sources := plan.sources.insertionSort fun a b => textLE (bytes a.id) (bytes b.id)
  Json.object [(bytes "Consistency", Json.text (bytes plan.consistency)),
    (bytes "Sources",
      if sources = [] then bytes "null" else Json.array (sources.map Source.json))]

def selectionFingerprint (plan : Plan) : Bytes := hexSum sum256 (selectionJSON plan)

/-- A copy that may become a checkpoint: it has a snapshot that was verified in some way. -/
def checkpointable (copy : CopyResult) : Bool :=
  copy.snapshotID ≠ "" &&
    (copy.verification = .recoveryObjectsVerified ||
      copy.verification = .other "snapshot_metadata_verified")

/-- The recorded checkpoint is of a newer capture. -/
def newerCheckpoint (now : Instant) (old : CopyCheckpoint) (capturedAt : Instant) : Bool :=
  !inFuture now old.capturedAt && inFuture now capturedAt ||
    inFuture now old.capturedAt == inFuture now capturedAt && old.capturedAt > capturedAt

/-- The recorded checkpoint is of this copy, and was looked at since it was verified. -/
def sameCheckpoint (old : CopyCheckpoint) (run : Run) (copy : CopyResult) : Bool :=
  old.snapshotID = copy.snapshotID && old.runID = run.id &&
    match copy.verifiedAt, old.snapshotCheckedAt with
    | none, _ => true
    | some _, none => false
    | some verifiedAt, some checkedAt => verifiedAt ≤ checkedAt

def newCheckpoint (run : Run) (plan : Plan) (capturedAt : Instant) (copy : CopyResult) :
    CopyCheckpoint :=
  let verified := copy.verification = .recoveryObjectsVerified ∧ copy.verifiedAt ≠ none
  { capturedAt := capturedAt
    uploadedAt := copy.uploadedAt
    snapshotID := copy.snapshotID
    runID := run.id
    selection := selectionFingerprint sum256 plan
    verification := copy.verification
    snapshotStatus := if verified then .present else .unknown
    snapshotCheckedAt := if verified then copy.verifiedAt else none }

/-- `rememberSnapshotClassificationLocked` on this part of the state. -/
def HealthState.classify (st : HealthState) (destinationID snapshotID : String)
    (status : SnapshotStatus) (at_ : Instant) : HealthState :=
  let remembered := rememberSnapshotClassificationLocked
    ⟨[], [], st.snapshotClassifications, ∅, ∅, ∅⟩ destinationID snapshotID status at_
  { st with snapshotClassifications := remembered.snapshotClassifications }

def recordCheckpoint (now : Instant) (run : Run) (plan : Plan) (capturedAt : Instant)
    (st : HealthState) (copy : CopyResult) : HealthState :=
  let key := checkpointKey run.planID copy.destinationID
  if !st.configured run.planID copy.destinationID || !checkpointable copy then st
  else if (st.copyCheckpoints.lookup key).any fun old =>
      newerCheckpoint now old capturedAt || sameCheckpoint old run copy then st
  else
    let st := { st with
      copyCheckpoints :=
        st.copyCheckpoints.insert key (newCheckpoint sum256 run plan capturedAt copy) }
    if copy.verification = .recoveryObjectsVerified then
      st.classify copy.destinationID copy.snapshotID .complete now
    else st

def recordCheckpointsLocked (now : Instant) (st : HealthState) (run : Run) (plan : Plan) :
    HealthState :=
  let st := recordCopyAttemptsLocked now st run
  match run.capturedAt with
  | none => st
  | some capturedAt => run.copies.foldl (recordCheckpoint sum256 now run plan capturedAt) st

/-- The loop of `NewService` over the stored runs, in some order. -/
def replayRuns (now : Instant) (st : HealthState) (runs : List PersistedRun) : HealthState :=
  runs.foldl (fun st stored => recordCheckpointsLocked sum256 now st stored.run stored.planSnapshot)
    st

end Checkpoints

/-- What a complete inventory of a destination found: the snapshots that it lists, and how the
verification of one that was not verified before ended. -/
structure Inventory where
  snapshots : List Snapshot
  verifySavedSnapshot : String → Except String Unit
  now : Instant

/-- The checkpoints that `reconcileInventory` reads first. -/
def inventoryCheckpoints (st : HealthState) (destinationID : String) :
    List (String × CopyCheckpoint) :=
  (st.copyCheckpoints.entries.filter fun entry => hasSuffix entry.1 ("/" ++ destinationID)).map
    fun entry => (entry.1, entry.2)

def examineCheckpoint (inventory : Inventory) (checkpoint : CopyCheckpoint) : CopyCheckpoint :=
  let checked := { checkpoint with snapshotCheckedAt := some inventory.now }
  if checkpoint.snapshotID ∉ inventory.snapshots.map Snapshot.id then
    { checked with snapshotStatus := .missing }
  else if checkpoint.verification = .recoveryObjectsVerified then
    { checked with snapshotStatus := .present }
  else
    match inventory.verifySavedSnapshot checkpoint.snapshotID with
    | .ok () => { checked with snapshotStatus := .present, verification := .recoveryObjectsVerified }
    | .error _ => { checked with snapshotStatus := .unknown }

/-- A checkpoint is written back unless another snapshot took its place meanwhile. -/
def commitCheckpoint (checkpoints : GoMap String CopyCheckpoint)
    (entry : String × CopyCheckpoint) : GoMap String CopyCheckpoint :=
  if ((checkpoints.lookup entry.1).map CopyCheckpoint.snapshotID).getD "" = entry.2.snapshotID then
    checkpoints.insert entry.1 entry.2
  else checkpoints

def HealthState.destination (st : HealthState) (id : String) : StoredDestination :=
  (st.destinations.lookup id).getD .zero

def commitInventory (st : HealthState) (destinationID : String) (now : Instant)
    (checkpoints : List (String × CopyCheckpoint)) : HealthState :=
  let current := st.destination destinationID
  { st with
    copyCheckpoints := checkpoints.foldl commitCheckpoint st.copyCheckpoints
    destinations := st.destinations.insert destinationID
      { current with
        lastInventoryAt := some now
        lastInventoryAttemptAt := some now
        inventoryError := ""
        status := .available
        error := "" } }

def reconcileInventory (st : HealthState) (destinationID : String) (inventory : Inventory) :
    HealthState :=
  commitInventory st destinationID inventory.now <|
    (inventoryCheckpoints st destinationID).map fun entry =>
      (entry.1, examineCheckpoint inventory entry.2)

def recordInventoryError (now : Instant) (st : HealthState) (destinationID : String)
    (err : String) : HealthState :=
  match st.destinations.lookup destinationID with
  | none => st
  | some current =>
    { st with
      destinations := st.destinations.insert destinationID
        { current with
          lastInventoryAttemptAt := some now
          inventoryError := "Repository inventory could not be refreshed: " ++ err } }

end Stacklab.Backup
