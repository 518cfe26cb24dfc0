import Stacklab.Backup.CheckEvidence
import Stacklab.Lib.GoMap
import Mathlib.Data.List.Rotate
import Mathlib.Data.List.Sort

/-! Retention: which snapshots a run classifies, keeps and passes to `restic forget`. -/
namespace Stacklab.Backup

open Lib

structure Retention where
  daily : ℤ
  weekly : ℤ
  monthly : ℤ
  deriving DecidableEq, Repr

structure Snapshot where
  id : String
  time : Instant
  deriving DecidableEq, Repr

inductive SnapshotStatus
  | complete
  | incomplete
  | legacy
  | unsupported
  | invalid
  | other (name : String)
  deriving DecidableEq, Repr

structure SnapshotClassification where
  version : ℤ
  status : SnapshotStatus
  classifiedAt : Instant
  deriving DecidableEq, Repr

/-- Why a saved snapshot was not verified; `unavailable` stands for every other error. -/
inductive VerificationError
  | incomplete
  | legacy
  | unsupported
  | invalid
  | unavailable (message : String)
  deriving DecidableEq, Repr

/-- The part of the service state that retention reads and writes. -/
structure RetentionState where
  plans : List String
  destinations : List String
  snapshotClassifications : GoMap String SnapshotClassification
  verifiedSnapshots : GoMap String Instant
  retentionCursors : GoMap String String
  copyCheckpoints : GoMap String String

def maxSnapshotEvidence : ℕ := 4096

def snapshotClassificationVersion : ℤ := 1

def clockSkewTolerance : ℤ := 5 * minute

/-- `^[a-f0-9]{8,64}$` -/
def validSnapshotID (id : String) : Bool :=
  8 ≤ id.length && id.length ≤ 64 &&
    id.toList.all fun c => ('a' ≤ c && c ≤ 'f') || ('0' ≤ c && c ≤ '9')

def snapshotEvidenceKey (destinationID snapshotID : String) : String :=
  destinationID ++ "/" ++ snapshotID

def checkpointKey (planID destinationID : String) : String := planID ++ "/" ++ destinationID

def keepAllSnapshots (policy : Retention) : Bool :=
  policy.daily = 0 && policy.weekly = 0 && policy.monthly = 0

def SnapshotStatus.known : SnapshotStatus → Bool
  | .other _ => false
  | _ => true

def snapshotClassificationLocked (st : RetentionState) (destinationID id : String) :
    Option SnapshotClassification :=
  let key := snapshotEvidenceKey destinationID id
  -- state of older integrations: every entry stands for a verified snapshot
  let verified := (st.verifiedSnapshots.lookup key).map fun at_ =>
    ⟨snapshotClassificationVersion, .complete, at_⟩
  match st.snapshotClassifications.lookup key with
  | some evidence =>
    if evidence.version = snapshotClassificationVersion ∧ evidence.classifiedAt ≠ 0 ∧
        evidence.status.known then some evidence
    else verified
  | none => verified

/-- The key that the eviction loop picks: the least recent, then the least key. -/
def oldestClassification (m : GoMap String SnapshotClassification) : String :=
  m.entries.foldl (fun oldest e =>
    let otherAt := ((m.lookup oldest).map (·.classifiedAt)).getD 0
    if oldest = "" ∨ e.2.classifiedAt < otherAt ∨
        e.2.classifiedAt = otherAt ∧ e.1 < oldest then e.1 else oldest) ""

/-- Evict until the bound holds; one round per entry is enough. -/
def evictClassifications :
    ℕ → GoMap String SnapshotClassification → GoMap String SnapshotClassification
  | 0, m => m
  | rounds + 1, m =>
    if m.entries.length > maxSnapshotEvidence then
      evictClassifications rounds (m.erase (oldestClassification m))
    else m

def rememberSnapshotClassificationLocked (st : RetentionState)
    (destinationID id : String) (status : SnapshotStatus) (at_ : Instant) : RetentionState :=
  let m := st.snapshotClassifications.insert (snapshotEvidenceKey destinationID id)
    ⟨snapshotClassificationVersion, status, at_⟩
  { st with snapshotClassifications := evictClassifications m.entries.length m }

/-- Plan and destination of a cursor key, split at the first slash. -/
def cursorParts (key : String) : Option (String × String) :=
  match key.toList.span (· ≠ '/') with
  | (_, []) => none
  | (plan, _ :: destination) => some (String.ofList plan, String.ofList destination)

def RetentionState.staleCursor (st : RetentionState) (key : String) : Bool :=
  match cursorParts key with
  | none => true
  | some (plan, destination) => plan ∉ st.plans || destination ∉ st.destinations

def rememberRetentionCursorLocked (st : RetentionState) (planID destinationID id : String) :
    RetentionState :=
  let stale := st.retentionCursors.keys.filter st.staleCursor
  { st with
    retentionCursors := (stale.foldl (fun m key => m.erase key) st.retentionCursors).insert
      (checkpointKey planID destinationID) id }

def savedSnapshotClassification : Option VerificationError → Option SnapshotStatus
  | none => some .complete
  | some .incomplete => some .incomplete
  | some .legacy => some .legacy
  | some .unsupported => some .unsupported
  | some .invalid => some .invalid
  | some (.unavailable _) => none

def VerificationError.message : VerificationError → String
  | .incomplete => "snapshot recovery objects are incomplete"
  | .legacy => "legacy recovery object requires a new verified backup"
  | .unsupported => "snapshot recovery format is unsupported"
  | .invalid => "snapshot recovery manifest is invalid"
  | .unavailable message => message

/-- How the environment answers one run of retention; rounds of the scan are numbered. -/
structure RetentionEnv where
  snapshots : Except String (List Snapshot)
  now : ℕ → Instant
  verify : ℕ → Option VerificationError
  classifiedAt : ℕ → Instant
  persist : Option String
  deferredPersist : Option String
  forget : ℕ → Option String
  prune : Option String

/-- The variables of the scan, with the verifications that it made. -/
structure Scan where
  state : RetentionState
  remainingChecks : ℕ
  verified : List Snapshot
  checks : List (String × Option VerificationError)

def Scan.add (s : Scan) (snapshot : Snapshot) (status : SnapshotStatus) : Scan :=
  if status = .complete then { s with verified := s.verified ++ [snapshot] } else s

variable (env : RetentionEnv) (planID destinationID : String)

/-- One round of the scan; an error ends the run. -/
def scanRound (round : ℕ) (snapshot : Snapshot) (s : Scan) : Option String × Scan :=
  if !validSnapshotID snapshot.id ∨ snapshot.time = 0 ∨
      env.now round + clockSkewTolerance < snapshot.time then (none, s)
  else match snapshotClassificationLocked s.state destinationID snapshot.id with
    | some classification => (none, s.add snapshot classification.status)
    | none =>
      if s.remainingChecks = 0 then (none, s)
      else
        let outcome := env.verify round
        let s := { s with
          state := rememberRetentionCursorLocked s.state planID destinationID snapshot.id
          remainingChecks := s.remainingChecks - 1
          checks := s.checks ++ [(snapshot.id, outcome)] }
        match savedSnapshotClassification outcome with
        | none =>
          (some ("retention verification unavailable: " ++
            (outcome.map VerificationError.message).getD ""), s)
        | some status =>
          let st := rememberSnapshotClassificationLocked s.state destinationID snapshot.id status
            (env.classifiedAt round)
          (none, { s with state := st }.add snapshot status)

def scan : ℕ → List Snapshot → Scan → Option String × Scan
  | _, [], s => (none, s)
  | round, snapshot :: rest, s =>
    match scanRound env planID destinationID round snapshot s with
    | (some err, s) => (some err, s)
    | (none, s) => scan (round + 1) rest s

/-- The inventory by id, turned so that it starts after the cursor. -/
def scanOrder (st : RetentionState) (snapshots : List Snapshot) : List Snapshot :=
  let sorted := snapshots.insertionSort fun a b => a.id ≤ b.id
  let cursor := (st.retentionCursors.lookup (checkpointKey planID destinationID)).getD ""
  sorted.rotate (sorted.findIdx fun snapshot => decide (cursor < snapshot.id))

/-- Newest first, equal times by id. -/
def newerFirst (a b : Snapshot) : Bool :=
  if a.time = b.time then a.id ≤ b.id else a.time > b.time

/-- The loop over one bucket: the ids that it keeps and the periods that it has filled. -/
def keepPeriods (count : ℤ) (key : Instant → String) :
    List String → List Snapshot → List String × List String
  | periods, [] => ([], periods)
  | periods, snapshot :: rest =>
    let period := key snapshot.time
    if period ∈ periods then keepPeriods count key periods rest
    else if count ≤ periods.length then ([], periods)
    else
      let (keep, filled) := keepPeriods count key (period :: periods) rest
      (snapshot.id :: keep, filled)

def keepBucket (ordered : List Snapshot) (count : ℤ) (key : Instant → String) : List String :=
  if count ≤ 0 then []
  else
    let (keep, periods) := keepPeriods count key [] ordered
    keep ++ if periods.length < count then (ordered.getLast?.map (·.id)).toList else []

/-- The ids that the policy keeps, as a set. -/
def retainedSnapshotIDs (snapshots : List Snapshot) (policy : Retention) : List String :=
  let ordered := snapshots.insertionSort (newerFirst · ·)
  keepBucket ordered policy.daily dayPeriod ++ keepBucket ordered policy.weekly weekPeriod ++
    keepBucket ordered policy.monthly monthPeriod

/-- Batches of at most 128 ids; one round per id is enough. -/
def batches : ℕ → List String → List (List String)
  | 0, _ => []
  | _ + 1, [] => []
  | rounds + 1, remove => remove.take 128 :: batches rounds (remove.drop 128)

/-- The batches passed to `restic forget`, up to the first that fails, and its error. -/
def forgetBatches : ℕ → List (List String) → List (List String) × Option String
  | _, [] => ([], none)
  | call, batch :: rest =>
    match env.forget call with
    | some err => ([batch], some err)
    | none =>
      let (passed, err) := forgetBatches (call + 1) rest
      (batch :: passed, err)

/-- What a run of retention did. -/
structure RetainRun where
  err : Option String
  state : RetentionState
  verified : List Snapshot := []
  checks : List (String × Option VerificationError) := []
  forgets : List (List String) := []
  pruned : Bool := false

def joinTexts : Option String → Option String → Option String
  | some a, some b => some (a ++ "\n" ++ b)
  | some a, none => some a
  | none, b => b

/-- Everything after the scan. -/
def removeSurplus (d : Destination) (policy : Retention) (s : Scan) : RetainRun :=
  let keep := retainedSnapshotIDs s.verified policy ++
    (s.state.copyCheckpoints.lookup (checkpointKey planID d.id)).toList
  match env.persist with
  | some err =>
    { err := joinTexts (some err) env.deferredPersist, state := s.state,
      verified := s.verified, checks := s.checks }
  | none =>
    let remove := (s.verified.filter (·.id ∉ keep)).map (·.id)
    let (forgets, err) := forgetBatches env 0 (batches remove.length remove)
    let prunes := remove.length > 0 ∧ (d.pruneFrequency = .unset ∨ d.pruneFrequency = .manual)
    { err := match err with
        | some err => some err
        | none => if prunes then env.prune else none
      state := s.state
      verified := s.verified
      checks := s.checks
      forgets := forgets
      pruned := err = none ∧ prunes }

def retain (st : RetentionState) (d : Destination) (policy : Retention) : RetainRun :=
  if keepAllSnapshots policy then { err := none, state := st }
  else match retentionBlockedError d with
    | some err => { err := some err, state := st }
    | none =>
      match env.snapshots with
      | .error err => { err := some err, state := st }
      | .ok snapshots =>
        let order := scanOrder planID d.id st snapshots
        match scan env planID d.id 0 order ⟨st, 64, [], []⟩ with
        | (some err, s) =>
          { err := joinTexts (some err) env.deferredPersist, state := s.state,
            verified := s.verified, checks := s.checks }
        | (none, s) => removeSurplus env planID d policy s

end Stacklab.Backup
