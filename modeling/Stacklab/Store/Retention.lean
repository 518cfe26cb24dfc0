import Stacklab.Store.AuditLog
import Stacklab.Store.JobEvents
import Stacklab.Store.Sessions

/-! Pruning of operational data, next to the statements that create it. -/
namespace Stacklab.Store

open Lib

/-- The tables that retention prunes. -/
structure OperationalTables where
  jobs : JobTable
  audit : AuditTable
  sessions : GoMap String SessionRow

structure OperationalRetentionPolicy where
  auditEntryRetention : ℤ
  jobRetention : ℤ
  jobEventRetention : ℤ
  expiredSessionRetention : ℤ

structure OperationalRetentionSummary where
  auditEntriesDeleted : ℕ
  jobsDeleted : ℕ
  jobEventsDeleted : ℕ
  sessionsDeleted : ℕ
  deriving DecidableEq, Repr

def JobState.isActive : JobState → Bool
  | .queued | .running | .cancelRequested => true
  | _ => false

/-- `<` on two columns with times, which SQLite compares as text. -/
def textBefore (a b : Time) : Bool := timeText a < timeText b

def Job.endedAt (job : Job) : Time := job.finishedAt.getD job.requestedAt

namespace OperationalTables

/-- Whether the id is one of `SELECT id FROM jobs WHERE state IN (…)`. -/
def jobActive (t : OperationalTables) (id : String) : Bool :=
  (t.jobs.stateOf id).any JobState.isActive

section Prune

-- how the statements compare two times
variable (before : Time → Time → Bool) (now : Time) (policy : OperationalRetentionPolicy)

/-- `expires_at < ? OR (revoked_at IS NOT NULL AND revoked_at < ?)` -/
def sessionEnded (cutoff : Time) (s : SessionRow) : Bool :=
  before s.expiresAt cutoff || s.revokedAt.any fun t => before t cutoff

/-- The jobs that the two correlated statements select. -/
def prunable (t : OperationalTables) (id : String) : Bool :=
  match t.jobs.rows.lookup id with
  | none => false
  | some row =>
    !row.job.state.isActive &&
    before row.job.endedAt (now - policy.jobRetention) &&
    !t.audit.entries.any fun e => e.jobID = some id &&
      !before e.requestedAt (now - policy.auditEntryRetention)

def pruneSessions (t : OperationalTables) : OperationalTables :=
  { t with sessions := t.sessions.eraseWhere fun id =>
      (t.sessions.lookup id).any (sessionEnded before (now - policy.expiredSessionRetention)) }

def setEvents (t : OperationalTables) (events : List JobEvent) : OperationalTables :=
  { t with jobs := { t.jobs with events } }

def pruneOldEvents (t : OperationalTables) : OperationalTables :=
  t.setEvents (t.jobs.events.filter fun e =>
    !(before e.timestamp (now - policy.jobEventRetention) && !t.jobActive e.jobID))

def pruneJobEvents (t : OperationalTables) : OperationalTables :=
  t.setEvents (t.jobs.events.filter fun e => !prunable before now policy t e.jobID)

def pruneJobs (t : OperationalTables) : OperationalTables :=
  { t with jobs := { t.jobs with rows := t.jobs.rows.eraseWhere (prunable before now policy t) } }

def pruneAudit (t : OperationalTables) : OperationalTables :=
  { t with audit :=
    ⟨t.audit.entries.filter fun e => !before e.requestedAt (now - policy.auditEntryRetention),
      t.audit.ids.sublist (List.filter_sublist.map _)⟩ }

/-- The five statements of the transaction, under a comparison of times. -/
def pruneBy (t : OperationalTables) : OperationalRetentionSummary × OperationalTables :=
  let t₁ := pruneSessions before now policy t
  let t₂ := pruneOldEvents before now policy t₁
  let t₃ := pruneJobEvents before now policy t₂
  let t₄ := pruneJobs before now policy t₃
  let t₅ := pruneAudit before now policy t₄
  (⟨t₄.audit.entries.length - t₅.audit.entries.length,
    t₃.jobs.rows.entries.length - t₄.jobs.rows.entries.length,
    (t₁.jobs.events.length - t₂.jobs.events.length) +
      (t₂.jobs.events.length - t₃.jobs.events.length),
    t.sessions.entries.length - t₁.sessions.entries.length⟩, t₅)

end Prune

def pruneOperationalData (now : Time) (policy : OperationalRetentionPolicy)
    (t : OperationalTables) : OperationalRetentionSummary × OperationalTables :=
  pruneBy textBefore now policy t

end OperationalTables

end Stacklab.Store
