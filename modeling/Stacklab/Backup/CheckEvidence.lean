import Stacklab.Lib.Calendar
import Stacklab.Lib.GoText

/-! What a destination remembers about repository checks, and when that blocks maintenance. -/
namespace Stacklab.Backup

open Lib

inductive CheckStatus
  | unset
  | unknown
  | verified
  | sampled
  | unverified
  | failed
  | other (name : String)
  deriving DecidableEq, Repr

/-- What a check reads; also the policy that asked for it. -/
inductive CheckScope
  | unset
  | unknown
  | metadata
  | subset
  | all
  | other (name : String)
  deriving DecidableEq, Repr

inductive AttemptStatus
  | unset
  | succeeded
  | failed
  | other (name : String)
  deriving DecidableEq, Repr

structure CheckEvidence where
  status : CheckStatus := .unset
  scope : CheckScope := .unset
  checkedAt : Option Instant := none
  error : String := ""
  deriving DecidableEq, Repr

structure CheckHold where
  scope : CheckScope
  checkedAt : Option Instant
  error : String
  deriving DecidableEq, Repr

inductive Frequency
  | unset
  | manual
  | other (name : String)
  deriving DecidableEq, Repr

structure Destination where
  id : String
  lastCheckAttemptAt : Option Instant := none
  lastCheckAttemptPolicy : CheckScope := .unset
  lastCheckAttemptStatus : AttemptStatus := .unset
  lastCheckAttemptError : String := ""
  metadataCheck : CheckEvidence := {}
  dataCheck : CheckEvidence := {}
  checkHold : Option CheckHold := none
  lastCheckAt : Option Instant := none
  lastCheckPolicy : CheckScope := .unset
  checkStatus : CheckStatus := .unset
  checkError : String := ""
  pruneFrequency : Frequency := .unset
  deriving DecidableEq, Repr

def knownNonIntegrityFailure (message : String) : Bool :=
  ["unavailable", "timeout", "cancelled", "repository_locked", "repository_missing",
    "credentials_rejected", "permission_denied", "storage_full"].any fun code =>
      hasSuffix (trimSpace message) ("(" ++ code ++ ")")

def requiredCheckScope (policy : CheckScope) : CheckScope :=
  if policy = .metadata then .metadata else .all

def laterCheckResolves (successAt : Option Instant) (successPolicy : CheckScope)
    (failedAt : Option Instant) (requiredScope : CheckScope) : Bool :=
  match successAt, failedAt with
  | some successAt, some failedAt =>
    successAt > failedAt &&
      (successPolicy = .all ||
        requiredScope = .metadata && (successPolicy = .metadata || successPolicy = .subset))
  | _, _ => false

def repositoryMaintenanceBlocked (d : Destination) : Bool :=
  d.checkHold.isSome || d.metadataCheck.status = .failed || d.dataCheck.status = .failed ||
    d.checkStatus = .failed

/-- A failed evidence of unknown scope whose text names a harmless cause. -/
def CheckEvidence.repairable (evidence : CheckEvidence) : Bool :=
  evidence.status = .failed && evidence.scope = .unknown &&
    knownNonIntegrityFailure evidence.error

def CheckEvidence.repair (evidence : CheckEvidence) : CheckEvidence :=
  if evidence.repairable then {} else evidence

/-- Only the aggregate says that a check failed. -/
def Destination.failedInAggregate (d : Destination) : Bool :=
  d.checkStatus = .failed && d.metadataCheck.status ≠ .failed && d.dataCheck.status ≠ .failed

def adoptAggregateFailure (d : Destination) : Destination :=
  if d.failedInAggregate && !knownNonIntegrityFailure d.checkError then
    { d with dataCheck := ⟨.failed, .unknown, d.lastCheckAttemptAt, d.checkError⟩ }
  else d

def adoptLegacyAttempt (legacyStatus : CheckStatus) (legacyError : String) (d : Destination) :
    Destination :=
  if legacyStatus = .failed ∧ d.lastCheckAttemptStatus = .unset then
    { d with
      lastCheckAttemptStatus := .failed
      lastCheckAttemptError := legacyError
      lastCheckAttemptPolicy :=
        if d.lastCheckAttemptPolicy = .unset then .unknown else d.lastCheckAttemptPolicy }
  else d

/-- The fixed text by which older versions reported an inconclusive check. -/
def legacyInconclusive : String := "repository check was inconclusive"

def adoptLegacyHold (d : Destination) : Destination :=
  if d.checkHold = none ∧ d.lastCheckAttemptStatus = .failed ∧
      contains d.lastCheckAttemptError legacyInconclusive ∧
      hasSuffix d.lastCheckAttemptError "(operation_failed)" ∧
      !laterCheckResolves d.lastCheckAt d.lastCheckPolicy d.lastCheckAttemptAt
        (requiredCheckScope d.lastCheckAttemptPolicy) then
    { d with
      checkHold := some ⟨requiredCheckScope d.lastCheckAttemptPolicy, d.lastCheckAttemptAt,
        d.lastCheckAttemptError⟩ }
  else d

def normalizeHold (d : Destination) : Destination :=
  { d with checkHold := d.checkHold.map fun hold =>
      { hold with scope := requiredCheckScope hold.scope } }

def CheckEvidence.missing (evidence : CheckEvidence) : Bool :=
  evidence.status = .unset || evidence.status = .unknown

/-- Evidence for what the last successful check covered, where there is none yet. -/
def adoptLastSuccess (d : Destination) : Destination :=
  { d with
    metadataCheck :=
      if d.metadataCheck.missing then ⟨.verified, .metadata, d.lastCheckAt, ""⟩
      else d.metadataCheck
    dataCheck :=
      if d.dataCheck.missing then
        if d.lastCheckPolicy = .all then ⟨.verified, .all, d.lastCheckAt, ""⟩
        else if d.lastCheckPolicy = .subset then ⟨.sampled, .subset, d.lastCheckAt, ""⟩
        else d.dataCheck
      else d.dataCheck }

def CheckEvidence.fill (evidence : CheckEvidence) : CheckEvidence :=
  { evidence with
    status := if evidence.status = .unset then .unknown else evidence.status
    scope := if evidence.scope = .unset then .unknown else evidence.scope }

def updateAggregateCheckEvidence (d : Destination) : Destination :=
  if d.dataCheck.status = .failed then
    { d with checkStatus := .failed, checkError := d.dataCheck.error }
  else if d.metadataCheck.status = .failed then
    { d with checkStatus := .failed, checkError := d.metadataCheck.error }
  else match d.checkHold with
    | some hold => { d with checkStatus := .unverified, checkError := hold.error }
    | none =>
      if d.metadataCheck.status = .verified ∨ d.dataCheck.status = .verified ∨
          d.dataCheck.status = .sampled then
        { d with checkStatus := .verified, checkError := "" }
      else { d with checkStatus := .unknown, checkError := "" }

def normalizeCheckEvidence (d : Destination) : Destination :=
  let legacyStatus := d.checkStatus
  let legacyError := d.checkError
  let repaired := d.metadataCheck.repairable || d.dataCheck.repairable
  let d := { d with metadataCheck := d.metadataCheck.repair, dataCheck := d.dataCheck.repair }
  let repairedNonIntegrity :=
    repaired || d.failedInAggregate && knownNonIntegrityFailure d.checkError
  let d := adoptAggregateFailure d
  let d := adoptLegacyAttempt legacyStatus legacyError d
  let d := adoptLegacyHold d
  let d := normalizeHold d
  let d :=
    if legacyStatus = .verified ∨ repairedNonIntegrity = true ∧ d.lastCheckAt ≠ none then
      adoptLastSuccess d
    else d
  let d := { d with metadataCheck := d.metadataCheck.fill, dataCheck := d.dataCheck.fill }
  updateAggregateCheckEvidence d

/-- The code of the repository command error in an error's chain. -/
inductive CommandCode
  | integrityFailed
  | checkInconclusive
  | other (name : String)
  deriving DecidableEq, Repr

structure CheckError where
  message : String
  code : Option CommandCode
  deriving DecidableEq, Repr

def recordFailure (d : Destination) (policy : CheckScope) (at_ : Instant) (err : CheckError) :
    Destination :=
  let d := { d with lastCheckAttemptStatus := .failed, lastCheckAttemptError := err.message }
  match err.code with
  | some .integrityFailed =>
    let evidence : CheckEvidence := ⟨.failed, policy, some at_, err.message⟩
    if policy = .metadata then { d with metadataCheck := evidence }
    else { d with dataCheck := evidence }
  | some .checkInconclusive =>
    let hold : CheckHold := ⟨requiredCheckScope policy, some at_, err.message⟩
    -- a metadata attempt cannot replace a hold that only a full read clears
    if d.checkHold.all (·.scope = .metadata) ∨ hold.scope = .all then
      { d with checkHold := some hold }
    else d
  | _ => d

def recordSuccess (d : Destination) (policy : CheckScope) (at_ : Instant) : Destination :=
  { d with
    lastCheckAttemptStatus := .succeeded
    lastCheckAttemptError := ""
    checkHold :=
      if policy = .all ∨ d.checkHold.any (·.scope = .metadata) then none else d.checkHold
    lastCheckAt := some at_
    lastCheckPolicy := policy
    metadataCheck := ⟨.verified, .metadata, some at_, ""⟩
    dataCheck :=
      if policy = .all then ⟨.verified, .all, some at_, ""⟩
      else if policy = .subset ∧ d.dataCheck.status ≠ .failed ∧
          d.dataCheck.status ≠ .verified then
        ⟨.sampled, .subset, some at_, ""⟩
      else d.dataCheck }

def recordCheckAttempt (d : Destination) (policy : CheckScope) (at_ : Instant)
    (err : Option CheckError) : Destination :=
  let d := normalizeCheckEvidence d
  let policy := if policy = .unset then .metadata else policy
  let d := { d with lastCheckAttemptAt := some at_, lastCheckAttemptPolicy := policy }
  updateAggregateCheckEvidence (match err with
    | some err => recordFailure d policy at_ err
    | none => recordSuccess d policy at_)

/-- `ErrBusy`. -/
def errBusy : String := "backup configuration is in use"

def retentionBlockedError (d : Destination) : Option String :=
  if !repositoryMaintenanceBlocked d then none
  else
    let scope :=
      if d.dataCheck.status = .failed ∨ d.checkHold.any (·.scope ≠ .metadata) ∨
          d.checkStatus = .failed ∧ d.metadataCheck.status ≠ .failed then "full data"
      else "metadata"
    if d.checkStatus = .failed ∨ d.metadataCheck.status = .failed ∨
        d.dataCheck.status = .failed then
      some (errBusy ++ ": retention is blocked by unresolved repository integrity failure; " ++
        "preserve existing snapshots and run a successful " ++ scope ++ " check after repair")
    else
      some (errBusy ++ ": retention is blocked by an unresolved repository check; " ++
        "run a successful " ++ scope ++ " check before destructive maintenance")

theorem retentionBlockedError_eq_none {d : Destination} :
    retentionBlockedError d = none ↔ repositoryMaintenanceBlocked d = false := by
  rw [retentionBlockedError]
  cases repositoryMaintenanceBlocked d with
  | false => simp
  | true =>
    simp only [Bool.not_true, Bool.false_eq_true, if_false]
    split <;> simp

end Stacklab.Backup
