import Stacklab.Lib.Lts
import Stacklab.Store.Retention

/-! Runs of the statements on jobs and audit entries, with prunes at any time. -/
namespace Stacklab.Store

open Lib JobTable

section Prunes

open OperationalTables

variable {before : Time → Time → Bool} {now : Time} {policy : OperationalRetentionPolicy}
  {t : OperationalTables} {id : String} {e : JobEvent} {a : AuditEntry}

theorem lookup_pruned (id : String) :
    (pruneBy before now policy t).2.jobs.rows.lookup id =
      if prunable before now policy t id then none else t.jobs.rows.lookup id := by
  change (t.jobs.rows.eraseWhere (prunable before now policy t)).lookup id = _
  split
  next h => exact GoMap.lookup_eraseWhere_of h
  next h => exact GoMap.lookup_eraseWhere_of_not (by simpa using h)

theorem mem_pruned_events :
    e ∈ (pruneBy before now policy t).2.jobs.events ↔ e ∈ t.jobs.events ∧
      (before e.timestamp (now - policy.jobEventRetention) = true → t.jobActive e.jobID = true) ∧
      prunable before now policy t e.jobID = false := by
  change e ∈ (t.jobs.events.filter _).filter (fun e => !prunable before now policy t e.jobID) ↔ _
  simp only [List.mem_filter, Bool.not_eq_eq_eq_not, Bool.not_true, Bool.and_eq_false_iff,
    and_assoc]
  refine and_congr_right fun _ => and_congr_left fun _ => ?_
  change _ = false ∨ t.jobActive e.jobID = true ↔ _
  cases before e.timestamp (now - policy.jobEventRetention) <;> simp

theorem mem_pruned_audit :
    a ∈ (pruneBy before now policy t).2.audit.entries ↔ a ∈ t.audit.entries ∧
      before a.requestedAt (now - policy.auditEntryRetention) = false := by
  change a ∈ t.audit.entries.filter _ ↔ _
  simp

theorem lookup_pruned_sessions (id : String) :
    (pruneBy before now policy t).2.sessions.lookup id =
      if (t.sessions.lookup id).any (sessionEnded before (now - policy.expiredSessionRetention))
      then none else t.sessions.lookup id := by
  split
  next h => exact GoMap.lookup_eraseWhere_of h
  next h => exact GoMap.lookup_eraseWhere_of_not (by simpa using h)

theorem not_prunable_of_active (h : t.jobActive id = true) :
    prunable before now policy t id = false := by
  unfold jobActive stateOf at h
  unfold prunable
  split
  · rfl
  next row hrow =>
    rw [hrow] at h
    simp only [Option.map_some, Option.any_some] at h
    simp [h]

/-- An audit entry that stays keeps its job. -/
theorem not_prunable_of_audit (ha : a ∈ (pruneBy before now policy t).2.audit.entries)
    (hid : a.jobID = some id) : prunable before now policy t id = false := by
  obtain ⟨hmem, hkept⟩ := mem_pruned_audit.mp ha
  unfold prunable
  split
  · rfl
  next row _ =>
    have hany : (t.audit.entries.any fun e => e.jobID = some id &&
        !before e.requestedAt (now - policy.auditEntryRetention)) = true :=
      List.any_eq_true.mpr ⟨a, hmem, by simp [hid, hkept]⟩
    rw [hany]
    simp

end Prunes

namespace JobTable

variable {t u : JobTable} {job : Job} {event : JobEvent} {events new : List JobEvent} {id : String}

/-- Rows and events are only added, and an added event has its row. -/
structure Grows (t u : JobTable) : Prop where
  rows : ∀ id, (t.rows.lookup id).isSome → (u.rows.lookup id).isSome
  events : t.events ⊆ u.events
  added : ∀ e ∈ u.events, e ∈ t.events ∨ (u.rows.lookup e.jobID).isSome

theorem Grows.refl (t : JobTable) : Grows t t :=
  ⟨fun _ h => h, List.Subset.refl _, fun _ h => .inl h⟩

theorem grows_of_insert {row : JobRow} (hrows : u.rows = t.rows.insert id row)
    (hevents : u.events = t.events ++ new) (hnew : ∀ e ∈ new, e.jobID = id) : Grows t u := by
  have hlookup : ∀ k, u.rows.lookup k = if k = id then some row else t.rows.lookup k := by
    intro k
    rw [hrows]
    exact GoMap.lookup_insert _ _ _ _
  refine ⟨fun k hk => ?_, ?_, fun e he => ?_⟩
  · rw [hlookup]
    split
    · rfl
    · exact hk
  · rw [hevents]
    exact List.subset_append_left _ _
  · rw [hevents] at he
    rcases List.mem_append.mp he with he | he
    · exact .inl he
    · right
      rw [hlookup, if_pos (hnew e he)]
      rfl

theorem createJobWithInitialEvent_grows (h : createJobWithInitialEvent job event t = .ok u) :
    Grows t u := by
  unfold createJobWithInitialEvent at h
  split at h
  · cases h
  next hvalid =>
    simp only [ne_eq, not_or, Decidable.not_not] at hvalid
    split at h
    · cases h
    · obtain ⟨hrows, hevents⟩ := createJobEventRow_ok h
      refine grows_of_insert hrows hevents fun e he => ?_
      rw [List.mem_singleton.mp he]
      exact hvalid.1

theorem transitionJobWithEvents_grows {allowed : List JobState} {updated : Bool}
    (h : transitionJobWithEvents job allowed events t = .ok (updated, u)) : Grows t u := by
  cases updated with
  | true =>
    obtain ⟨row, -, -, hrows, hevents, hmatch⟩ := transitionJobWithEvents_ok h
    refine grows_of_insert hrows hevents fun e he => ?_
    obtain ⟨e', he', hid, -⟩ := mem_numberEvents he
    exact hid.trans (hmatch e' he').1
  | false =>
    rw [transitionJobWithEvents_unchanged h]
    exact .refl t

theorem appendJobEvent_grows {e : JobEvent} (h : appendJobEvent event t = .ok (e, u)) :
    Grows t u := by
  unfold appendJobEvent at h
  split at h
  · cases h
  · dsimp only at h
    split at h
    · cases h
    next t' ht =>
      cases h
      obtain ⟨hrows, hevents⟩ := createJobEventRow_ok ht
      exact grows_of_insert hrows hevents fun e he => by rw [List.mem_singleton.mp he]

theorem updateJobWorkflow_grows {workflow : Option (List WorkflowStep)}
    (h : updateJobWorkflow id workflow t = .ok u) : Grows t u := by
  unfold updateJobWorkflow at h
  split at h
  · cases h
  · cases h
    exact grows_of_insert rfl (List.append_nil _).symm (by simp)

end JobTable

/-- The tables, and which audit entries were created while their job had a row. -/
structure RetentionState where
  tables : OperationalTables
  linked : String → Bool

inductive RetentionStep
  | createJob (job : Job) (event : JobEvent)
  | transitionJob (job : Job) (allowedStates : List JobState) (events : List JobEvent)
  | updateJobWorkflow (id : String) (workflow : Option (List WorkflowStep))
  | appendJobEvent (event : JobEvent)
  | createAuditEntry (entry : AuditEntry)
  | prune (now : Time) (policy : OperationalRetentionPolicy)

namespace RetentionState

def empty : RetentionState := ⟨⟨⟨∅, []⟩, ⟨[], .nil⟩, ∅⟩, fun _ => false⟩

def setJobs (s : RetentionState) (jobs : JobTable) : RetentionState :=
  { s with tables := { s.tables with jobs } }

/-- The jobs that a transaction commits; one that fails changes nothing. -/
def commitJobs (s : RetentionState) : Except StoreError JobTable → RetentionState
  | .ok jobs => s.setJobs jobs
  | .error _ => s

/-- One statement or transaction. -/
def next (s : RetentionState) : RetentionStep → RetentionState
  | .createJob job event => s.commitJobs (s.tables.jobs.createJobWithInitialEvent job event)
  | .transitionJob job allowedStates events =>
    s.commitJobs
      ((s.tables.jobs.transitionJobWithEvents job allowedStates events).map Prod.snd)
  | .updateJobWorkflow id workflow =>
    s.commitJobs (s.tables.jobs.updateJobWorkflow id workflow)
  | .appendJobEvent event => s.commitJobs ((s.tables.jobs.appendJobEvent event).map Prod.snd)
  | .createAuditEntry entry =>
    match s.tables.audit.createAuditEntry entry with
    | .ok audit =>
      let existed := entry.jobID.any fun id => (s.tables.jobs.rows.lookup id).isSome
      ⟨{ s.tables with audit }, fun id => if id = entry.id then existed else s.linked id⟩
    | .error _ => s
  | .prune now policy => { s with tables := (s.tables.pruneOperationalData now policy).2 }

end RetentionState

def retentionLts : Lts RetentionState RetentionStep :=
  Lts.ofNext (fun _ _ => true) RetentionState.next

/-- What refers to a job has its row. -/
structure Intact (s : RetentionState) : Prop where
  audit : ∀ e ∈ s.tables.audit.entries, s.linked e.id = true → ∀ id, e.jobID = some id →
    (s.tables.jobs.rows.lookup id).isSome
  events : ∀ e ∈ s.tables.jobs.events, (s.tables.jobs.rows.lookup e.jobID).isSome

/-- The active jobs are still there, and so are their events. -/
def KeepsActive (s s' : RetentionState) : Prop :=
  ∀ id, s.tables.jobActive id = true → (s'.tables.jobs.rows.lookup id).isSome ∧
    ∀ e ∈ s.tables.jobs.events, e.jobID = id → e ∈ s'.tables.jobs.events

section Steps

variable {s s' : RetentionState} {jobs : JobTable} {id : String} {now : Time}
  {policy : OperationalRetentionPolicy}

theorem isSome_of_active (h : s.tables.jobActive id = true) :
    (s.tables.jobs.rows.lookup id).isSome := by
  unfold OperationalTables.jobActive stateOf at h
  cases hrow : s.tables.jobs.rows.lookup id with
  | none => simp [hrow] at h
  | some row => rfl

theorem KeepsActive.refl (s : RetentionState) : KeepsActive s s :=
  fun _ h => ⟨isSome_of_active h, fun _ he _ => he⟩

theorem Intact.setJobs (h : Intact s) (hg : s.tables.jobs.Grows jobs) :
    Intact (s.setJobs jobs) := by
  refine ⟨fun e he hlinked id hid => hg.rows id (h.audit e he hlinked id hid), fun e he => ?_⟩
  rcases hg.added e he with hold | hnew
  · exact hg.rows _ (h.events e hold)
  · exact hnew

theorem keepsActive_setJobs (hg : s.tables.jobs.Grows jobs) : KeepsActive s (s.setJobs jobs) :=
  fun id h => ⟨hg.rows id (isSome_of_active h), fun _ he _ => hg.events he⟩

/-- A transaction that only adds rows and events. -/
theorem commitJobs_spec {result : Except StoreError JobTable} (h : Intact s)
    (hg : ∀ jobs, result = .ok jobs → s.tables.jobs.Grows jobs) :
    Intact (s.commitJobs result) ∧ KeepsActive s (s.commitJobs result) := by
  cases result with
  | ok jobs => exact ⟨h.setJobs (hg jobs rfl), keepsActive_setJobs (hg jobs rfl)⟩
  | error err => exact ⟨h, .refl s⟩

theorem exists_of_map_snd {α ε : Type} {x : Except ε (α × JobTable)}
    (h : x.map Prod.snd = .ok jobs) : ∃ a, x = .ok (a, jobs) := by
  cases x with
  | error err => cases h
  | ok r =>
    cases h
    exact ⟨r.1, rfl⟩

theorem intact_prune (h : Intact s) : Intact (s.next (.prune now policy)) := by
  have hkept : ∀ id, OperationalTables.prunable textBefore now policy s.tables id = false →
      (s.tables.jobs.rows.lookup id).isSome →
      ((s.next (.prune now policy)).tables.jobs.rows.lookup id).isSome := by
    intro id hid hrow
    change ((OperationalTables.pruneBy textBefore now policy s.tables).2.jobs.rows.lookup
      id).isSome
    rw [lookup_pruned, if_neg (by simp [hid])]
    exact hrow
  constructor
  · intro e he hlinked id hid
    exact hkept id (not_prunable_of_audit he hid)
      (h.audit e (mem_pruned_audit.mp he).1 hlinked id hid)
  · intro e he
    obtain ⟨hmem, -, hid⟩ := mem_pruned_events.mp he
    exact hkept e.jobID hid (h.events e hmem)

theorem keepsActive_prune : KeepsActive s (s.next (.prune now policy)) := by
  intro id hactive
  have hid : OperationalTables.prunable textBefore now policy s.tables id = false :=
    not_prunable_of_active hactive
  constructor
  · change ((OperationalTables.pruneBy textBefore now policy s.tables).2.jobs.rows.lookup
      id).isSome
    rw [lookup_pruned, if_neg (by simp [hid])]
    exact isSome_of_active hactive
  · rintro e he rfl
    exact mem_pruned_events.mpr ⟨he, fun _ => hactive, hid⟩

theorem intact_createAuditEntry {entry : AuditEntry} (h : Intact s) :
    Intact (s.next (.createAuditEntry entry)) := by
  unfold RetentionState.next
  dsimp only
  split
  next audit haudit =>
    refine ⟨fun e he hlinked id hid => ?_, h.events⟩
    unfold AuditTable.createAuditEntry at haudit
    dsimp only at haudit
    split at haudit
    · cases haudit
    next hnew =>
      cases haudit
      rcases List.mem_cons.mp he with rfl | he
      · dsimp only at hlinked hid
        rw [if_pos rfl] at hlinked
        obtain ⟨hjob, -⟩ := Option.filter_eq_some_iff.mp hid
        rw [hjob] at hlinked
        exact hlinked
      · have hne : e.id ≠ entry.id := by
          intro heq
          exact hnew (heq ▸ List.mem_map_of_mem he)
        dsimp only at hlinked
        rw [if_neg hne] at hlinked
        exact h.audit e he hlinked id hid
  · exact h

theorem next_spec (h : Intact s) (step : RetentionStep) :
    Intact (s.next step) ∧ KeepsActive s (s.next step) := by
  cases step with
  | createJob job event =>
    exact commitJobs_spec h fun _ => createJobWithInitialEvent_grows
  | transitionJob job allowedStates events =>
    refine commitJobs_spec h fun jobs hjobs => ?_
    obtain ⟨updated, hok⟩ := exists_of_map_snd hjobs
    exact transitionJobWithEvents_grows hok
  | updateJobWorkflow id workflow =>
    exact commitJobs_spec h fun _ => updateJobWorkflow_grows
  | appendJobEvent event =>
    refine commitJobs_spec h fun jobs hjobs => ?_
    obtain ⟨e, hok⟩ := exists_of_map_snd hjobs
    exact appendJobEvent_grows hok
  | createAuditEntry entry =>
    refine ⟨intact_createAuditEntry h, fun id hactive => ?_⟩
    have hjobs : (s.next (.createAuditEntry entry)).tables.jobs = s.tables.jobs := by
      unfold RetentionState.next
      dsimp only
      split <;> rfl
    rw [hjobs]
    exact ⟨isSome_of_active hactive, fun _ he _ => he⟩
  | prune now policy => exact ⟨intact_prune h, keepsActive_prune⟩

end Steps

/-- Whatever the policies and the clocks of the prunes: what refers to a job has its row, and no
step deletes an active job or one of its events. -/
theorem pruning_keeps_references {steps : List RetentionStep} {s : RetentionState}
    (h : retentionLts.MTr .empty steps s) :
    (∀ e ∈ s.tables.audit.entries, s.linked e.id = true → ∀ id, e.jobID = some id →
      (s.tables.jobs.rows.lookup id).isSome) ∧
    (∀ e ∈ s.tables.jobs.events, (s.tables.jobs.rows.lookup e.jobID).isSome) ∧
    ∀ step s', retentionLts.Tr s step s' → ∀ id, s.tables.jobActive id = true →
      (s'.tables.jobs.rows.lookup id).isSome ∧
        ∀ e ∈ s.tables.jobs.events, e.jobID = id → e ∈ s'.tables.jobs.events := by
  have hempty : Intact .empty := ⟨by simp [RetentionState.empty], by simp [RetentionState.empty]⟩
  have hinv : retentionLts.TrInv Intact := by
    rintro s step _ ⟨-, rfl⟩ hs
    exact (next_spec hs step).1
  have hintact := Lts.mTrInv_of_trInv hinv h hempty
  refine ⟨hintact.audit, hintact.events, ?_⟩
  rintro step _ ⟨-, rfl⟩
  exact (next_spec hintact step).2

/-- A job is created, finished, audited and pruned against its audit entry. -/
def auditedJob : List RetentionStep :=
  let job : Job := ⟨"job", "web", "deploy", .running, "local", "", 0, some 0, none, none, "", ""⟩
  let event : JobEvent := ⟨"job", 1, .started, .running, "", "", none, 0⟩
  let entry : AuditEntry :=
    ⟨"audit", some "web", some "job", "deploy", "local", "succeeded", 50, none, none, "", none,
      none⟩
  [.createJob job event,
    .transitionJob { job with state := .succeeded, finishedAt := some 10 } [.running]
      [{ event with event := .finished, state := .succeeded, timestamp := 10 }],
    .createAuditEntry entry,
    .prune 100 ⟨60, 20, 20, 20⟩]

/-- The job and the entry that refers to it are both old enough, but only the events go. -/
theorem audited_job_kept :
    (auditedJob.foldl RetentionState.next .empty).tables.audit.entries.map AuditEntry.id =
        ["audit"] ∧
      ((auditedJob.foldl RetentionState.next .empty).tables.jobs.rows.lookup "job").isSome := by
  have hrun : retentionLts.MTr .empty auditedJob (auditedJob.foldl RetentionState.next .empty) :=
    Lts.mTr_ofNext rfl
  have hentry : ∃ e ∈ (auditedJob.foldl RetentionState.next .empty).tables.audit.entries,
      (auditedJob.foldl RetentionState.next .empty).linked e.id = true ∧ e.jobID = some "job" := by
    decide +kernel
  obtain ⟨e, he, hlinked, hid⟩ := hentry
  exact ⟨by decide +kernel, (pruning_keeps_references hrun).1 e he hlinked "job" hid⟩

end Stacklab.Store
