import Stacklab.Jobs.Live

/-! One cancellation of a job beside the worker that reports its workflow. -/
namespace Stacklab.Jobs.Live

open Lib Store JobTable Prog

/-- The job service as `Cancel` sees it. `latest` and `touched` only observe: the workflow that
the worker committed last, and whether it committed one since `Cancel` read the row. -/
structure CancelWorld where
  live : LiveWorld
  latest : Option (List WorkflowStep)
  touched : Bool

def LiveCmd.readsRow : LiveCmd → Bool
  | .jobByID _ => true
  | _ => false

def LiveCmd.writesRow : LiveCmd → Bool
  | .transitionJobWithEvents _ _ _ => true
  | _ => false

def cancelExec (c : LiveCmd) (o : LiveOut) (w : CancelWorld) : LiveAns c × CancelWorld :=
  ((liveExec c o w.live).1,
    { w with live := (liveExec c o w.live).2, touched := w.touched && !c.readsRow })

def cancelMachine : Machine LiveCmd LiveAns LiveOut CancelWorld := ⟨cancelExec⟩

namespace CancelWorld

def persisted (w : CancelWorld) (id : String) : Option (List WorkflowStep) :=
  (w.live.table.rows.lookup id).bind fun row => row.job.workflow

/-- The worker's `UpdateWorkflow`. -/
def updateWorkflow (w : CancelWorld) (id : String) (steps : List WorkflowStep) (o : LiveOut) :
    CancelWorld :=
  match o.failure, w.live.table.updateJobWorkflow id (some steps) with
  | none, .ok t => ⟨{ w.live with table := t }, some steps, true⟩
  | _, _ => w

end CancelWorld

structure CancelRun where
  world : CancelWorld
  cancel : LiveProg (Except LiveError Job)

inductive CancelLabel
  | cancel (o : LiveOut)
  | updateWorkflow (steps : List WorkflowStep) (o : LiveOut)

def cancelEnabled (s : CancelRun) : CancelLabel → Bool
  | .cancel _ =>
    match s.cancel with
    | .call c _ => c.ready s.world.live
    | .ret _ => false
  | .updateWorkflow _ _ => true

def cancelNext (id : String) (s : CancelRun) : CancelLabel → CancelRun
  | .cancel o =>
    let r := s.cancel.step cancelMachine o s.world
    ⟨r.2, r.1⟩
  | .updateWorkflow steps o => { s with world := s.world.updateWorkflow id steps o }

/-- `Cancel` on its way beside any number of `UpdateWorkflow` calls for the same job. -/
def cancelLts (id : String) : Lts CancelRun CancelLabel := Lts.ofNext cancelEnabled (cancelNext id)

/-- `Cancel` writes the row only if no workflow was committed since it read the row. -/
def undisturbed (s : CancelRun) : CancelLabel → Bool
  | .cancel _ =>
    match s.cancel with
    | .call c _ => !(c.writesRow && s.world.touched)
    | .ret _ => true
  | .updateWorkflow _ _ => true

def undisturbedLts (id : String) : Lts CancelRun CancelLabel :=
  Lts.ofNext (fun s l => cancelEnabled s l && undisturbed s l) (cancelNext id)

/-- `Cancel` is called on any database whose rows stand under their own ids. -/
structure CancelCalled (call : ℕ) (id : String) (s : CancelRun) : Prop where
  cancel : s.cancel = Live.cancel call id
  latest : s.world.latest = s.world.persisted id
  keyed : ∀ row, s.world.live.table.rows.lookup id = some row → row.job.id = id

/-- The row has the workflow that was committed last, or that one marked for cancellation. -/
def KeepsProgress (id : String) (w : CancelWorld) : Prop :=
  w.persisted id = w.latest ∨ w.persisted id = w.latest.map markWorkflowCancelRequested

structure CancelInv (id : String) (w : CancelWorld) : Prop where
  keyed : ∀ row, w.live.table.rows.lookup id = some row → row.job.id = id
  kept : KeepsProgress id w

/-- What the worker can do while `Cancel` is on its way. -/
structure CancelRely (id : String) (w w' : CancelWorld) : Prop where
  untouched : w'.touched = false → w.touched = false ∧ w'.latest = w.latest
  exact : w.persisted id = w.latest → w'.persisted id = w'.latest

abbrev CancelSafe (id : String) {α : Type} (p : LiveProg α) (w : CancelWorld) : Prop :=
  p.Safe cancelMachine (fun c _ w => (c.writesRow && w.touched) = false) (CancelInv id)
    (CancelRely id) (fun _ _ => True) (fun _ _ => True) w

variable {w w' u : CancelWorld} {call : ℕ} {id : String} {o : LiveOut} {job : Job} {s t : CancelRun}
  {l : CancelLabel} {α : Type} {c : LiveCmd}

theorem CancelRely.refl (w : CancelWorld) : CancelRely id w w :=
  ⟨fun h => ⟨h, rfl⟩, fun h => h⟩

theorem CancelRely.trans (h : CancelRely id w w') (h' : CancelRely id w' u) :
    CancelRely id w u := by
  constructor
  · intro hu
    obtain ⟨hw', hl'⟩ := h'.untouched hu
    obtain ⟨hw, hl⟩ := h.untouched hw'
    exact ⟨hw, hl'.trans hl⟩
  · intro hw
    exact h'.exact (h.exact hw)

/-- A committed report is what the row has afterwards; a failed one changes nothing. -/
theorem updateWorkflow_cases (w : CancelWorld) (id : String) (steps : List WorkflowStep)
    (o : LiveOut) :
    w.updateWorkflow id steps o = w ∨
    ∃ row, w.live.table.rows.lookup id = some row ∧
      w.updateWorkflow id steps o = ⟨{ w.live with table := { w.live.table with
        rows := w.live.table.rows.insert id
          { row with job := { row.job with workflow := some steps } } } }, some steps, true⟩ := by
  unfold CancelWorld.updateWorkflow updateJobWorkflow
  cases hrow : w.live.table.rows.lookup id with
  | none => cases o.failure <;> exact .inl rfl
  | some row =>
    cases o.failure with
    | some text => exact .inl rfl
    | none => exact .inr ⟨row, rfl, rfl⟩

theorem updateWorkflow_rely (hI : CancelInv id w) (steps : List WorkflowStep) (o : LiveOut) :
    CancelRely id w (w.updateWorkflow id steps o) ∧ CancelInv id (w.updateWorkflow id steps o) := by
  rcases updateWorkflow_cases w id steps o with h | ⟨row, hrow, h⟩
  · rw [h]
    exact ⟨.refl w, hI⟩
  · rw [h]
    refine ⟨⟨fun ht => ?_, fun _ => ?_⟩, fun row' hrow' => ?_, .inl ?_⟩
    · cases ht
    · simp [CancelWorld.persisted]
    · simp only [AList.lookup_insert, Option.some.injEq] at hrow'
      subst hrow'
      exact hI.keyed row hrow
    · simp [CancelWorld.persisted]

/-- What `Cancel` does beside its transition. -/
def LiveCmd.IsBeside : LiveCmd → Prop
  | .now | .lockJobEvents _ _ | .unlockJobEvents _ | .jobByID _ | .cancelRegistered _
  | .subscribers _ | .send _ _ => True
  | _ => False

theorem table_beside (hc : c.IsBeside) (o : LiveOut) (v : LiveWorld) :
    (liveExec c o v).2.table = v.table := by
  cases c with
  | send channel event =>
    change (v.put channel event).table = v.table
    unfold LiveWorld.put
    split
    · rfl
    · dsimp only
      split <;> rfl
  | now | lockJobEvents | unlockJobEvents | jobByID | cancelRegistered | subscribers => rfl
  | _ => exact hc.elim

theorem persisted_of_table (h : w'.live.table = w.live.table) :
    w'.persisted id = w.persisted id := by
  unfold CancelWorld.persisted
  rw [h]

theorem CancelInv.of_table (hI : CancelInv id w) (ht : w'.live.table = w.live.table)
    (hl : w'.latest = w.latest) : CancelInv id w' := by
  refine ⟨fun row hrow => hI.keyed row (ht ▸ hrow), ?_⟩
  unfold KeepsProgress
  rw [persisted_of_table ht, hl]
  exact hI.kept

theorem beside_inv (hc : c.IsBeside) (o : LiveOut) (hI : CancelInv id w) :
    CancelInv id (cancelExec c o w).2 :=
  hI.of_table (table_beside hc o w.live) rfl

/-- Commands beside the transition can be issued at any time. -/
theorem cancelSafe_of_issues {p : LiveProg α} (h : p.Issues LiveCmd.IsBeside) :
    CancelSafe id p w :=
  h.safe fun _ o _ hc hI => ⟨trivial, beside_inv hc o hI⟩

theorem issues_sendAll (event : JobEvent) (channels : List ℕ) :
    (sendAll event channels).Issues LiveCmd.IsBeside := by
  induction channels with
  | nil => exact issues_pure ()
  | cons channel rest ih => exact (issues_issue trivial).bind fun _ => ih

theorem issues_publishCommittedEvents (events : List JobEvent) :
    (publishCommittedEvents events).Issues LiveCmd.IsBeside := by
  induction events with
  | nil => exact issues_pure ()
  | cons event rest ih =>
    refine Prog.Issues.bind ?_ fun _ => ih
    exact (issues_issue trivial).bind (issues_sendAll event)

/-- What `Cancel` knows of the row it read, until the worker commits again. -/
def ReadRow (id : String) (job : Job) (w : CancelWorld) : Prop :=
  job.id = id ∧ (w.touched = false → w.latest = job.workflow)

theorem ReadRow.stable (h : ReadRow id job w) (hR : CancelRely id w w') : ReadRow id job w' := by
  refine ⟨h.1, fun ht => ?_⟩
  obtain ⟨hw, hl⟩ := hR.untouched ht
  rw [hl]
  exact h.2 hw

/-- A transition that commits leaves the job's workflow in the row. -/
theorem transition_cases (job : Job) (allowed : List JobState) (events : List JobEvent)
    (o : LiveOut) (w : CancelWorld) :
    (cancelExec (.transitionJobWithEvents job allowed events) o w).2 = w ∨
    ∃ row t, w.live.table.rows.lookup job.id = some row ∧
      t.rows = w.live.table.rows.insert job.id
        ⟨JobTable.Job.withProgress row.job job, row.eventSequence + events.length⟩ ∧
      (cancelExec (.transitionJobWithEvents job allowed events) o w).2.live.table = t ∧
      (cancelExec (.transitionJobWithEvents job allowed events) o w).2.latest = w.latest := by
  cases hf : o.failure with
  | some text => exact .inl (by simp [cancelExec, liveExec, hf, LiveCmd.readsRow])
  | none =>
    cases ht : w.live.table.transitionJobWithEvents job allowed events with
    | error err => exact .inl (by simp [cancelExec, liveExec, hf, ht, LiveCmd.readsRow])
    | ok r =>
      obtain ⟨updated, t⟩ := r
      cases updated with
      | false => exact .inl (by simp [cancelExec, liveExec, hf, ht, LiveCmd.readsRow])
      | true =>
        obtain ⟨row, hrow, -, hrows, -⟩ := transitionJobWithEvents_ok ht
        exact .inr ⟨row, t, hrow, hrows, by simp [cancelExec, liveExec, hf, ht], rfl⟩

theorem transition_inv (hI : CancelInv id w) (hid : job.id = id)
    (hw : job.workflow = w.latest.map markWorkflowCancelRequested) (allowed : List JobState)
    (events : List JobEvent) (o : LiveOut) :
    CancelInv id (cancelExec (.transitionJobWithEvents job allowed events) o w).2 := by
  subst hid
  rcases transition_cases job allowed events o w with h | h
  · rw [h]
    exact hI
  · obtain ⟨row, t, hrow, hrows, ht, hl⟩ := h
    have hlookup := (rows_insert hrows).2
    constructor
    · intro row' hrow'
      rw [ht, hlookup] at hrow'
      cases hrow'
      exact hI.keyed row hrow
    · right
      rw [hl, ← hw]
      unfold CancelWorld.persisted
      rw [ht, hlookup]
      rfl

/-- A command beside the transition leaves `Cancel` with what it read. -/
theorem beside_bind {k : LiveAns c → LiveProg α} (hc : c.IsBeside) (hr : c.readsRow = false)
    (h : ReadRow id job w) (hk : ∀ r u, ReadRow id job u → CancelSafe id (k r) u) :
    CancelSafe id (LiveCmd.issue c >>= k) w := by
  refine safe_issue_bind h (fun u v hu hR => hu.stable hR) ?_
  intro u o hu hI _
  refine ⟨trivial, beside_inv hc o hI, hk _ _ ⟨hu.1, fun ht => hu.2 ?_⟩⟩
  change (u.touched && !c.readsRow) = false at ht
  rw [hr, Bool.not_false, Bool.and_true] at ht
  exact ht

/-- The job value that `Cancel` writes back. -/
def cancelledJob (job : Job) : Job :=
  { job with state := .cancelRequested, workflow := job.workflow.map markWorkflowCancelRequested }

theorem cancelLocked_safe (h : ReadRow id job w) :
    CancelSafe id (cancelLocked call id (cancelledJob job)) w := by
  refine beside_bind trivial rfl h fun now u hu => ?_
  refine beside_bind trivial rfl hu fun _ v hv => ?_
  refine safe_issue_bind hv (fun _ _ => ReadRow.stable) ?_
  intro x o hx hI hallowed
  have hid : (cancelledJob job).id = id := hx.1
  have hmarked : (cancelledJob job).workflow = x.latest.map markWorkflowCancelRequested :=
    congrArg (Option.map markWorkflowCancelRequested) (hx.2 hallowed).symm
  refine ⟨trivial, transition_inv hI hid hmarked _ _ o, cancelSafe_of_issues ?_⟩
  -- the row is written: nothing that follows touches it
  split
  · exact (issues_issue trivial).bind fun _ => issues_pure _
  · refine (issues_issue trivial).bind fun _ => ?_
    refine (issues_issue trivial).bind fun loaded => ?_
    cases loaded with
    | error err => exact issues_pure _
    | ok current =>
      dsimp only
      split <;> exact issues_pure _
  · refine (issues_publishCommittedEvents _).bind fun _ => ?_
    exact (issues_issue trivial).bind fun _ => issues_pure _

/-- The row as `Cancel` reads it has the latest workflow. -/
theorem readRow_jobByID (hI : CancelInv id w) (h : w.persisted id = w.latest)
    (hread : (cancelExec (.jobByID id) o w).1 = .ok job) :
    ReadRow id job (cancelExec (.jobByID id) o w).2 := by
  cases hf : o.failure with
  | some text => simp [cancelExec, liveExec, hf] at hread
  | none =>
    cases hrow : w.live.table.rows.lookup id with
    | none => simp [cancelExec, liveExec, hf, jobByID, hrow] at hread
    | some row =>
      have hjob : row.job = job := by
        simpa [cancelExec, liveExec, hf, jobByID, hrow] using hread
      subst hjob
      refine ⟨hI.keyed row hrow, fun _ => ?_⟩
      change w.latest = row.job.workflow
      rw [← h]
      simp [CancelWorld.persisted, hrow]

theorem cancel_safe (h : w.persisted id = w.latest) : CancelSafe id (cancel call id) w := by
  refine safe_issue_bind h (fun u v hu hR => hR.exact hu) ?_
  intro u o hu hI _
  have hbeside : (LiveCmd.jobByID id).IsBeside := trivial
  refine ⟨trivial, beside_inv hbeside o hI, ?_⟩
  cases hread : (cancelExec (.jobByID id) o u).1 with
  | error err =>
    rw [show (cancelMachine.exec (.jobByID id) o u).1 = .error err from hread]
    exact cancelSafe_of_issues (issues_pure _)
  | ok job =>
    rw [show (cancelMachine.exec (.jobByID id) o u).1 = .ok job from hread]
    have hjob := readRow_jobByID hI hu hread
    dsimp only
    split
    · exact cancelSafe_of_issues (issues_pure _)
    · split
      · refine beside_bind trivial rfl hjob fun registered v hv => ?_
        cases registered with
        | false => exact cancelSafe_of_issues (issues_pure _)
        | true => exact cancelLocked_safe hv
      · exact cancelSafe_of_issues (issues_pure _)

/-- The rest of `Cancel` is safe beside the worker. -/
def CancelSound (id : String) (s : CancelRun) : Prop :=
  CancelInv id s.world ∧ CancelSafe id s.cancel s.world

theorem cancelSound_called (h : CancelCalled call id s) : CancelSound id s := by
  refine ⟨⟨h.keyed, .inl h.latest.symm⟩, ?_⟩
  rw [h.cancel]
  exact cancel_safe h.latest.symm

theorem cancelSound_step (h : (undisturbedLts id).Tr s l t) (hs : CancelSound id s) :
    CancelSound id t := by
  obtain ⟨henabled, rfl⟩ := h
  obtain ⟨hI, hsafe⟩ := hs
  cases l with
  | updateWorkflow steps o =>
    obtain ⟨hR, hI'⟩ := updateWorkflow_rely hI steps o
    exact ⟨hI', hsafe.stable (fun _ _ _ => .trans) hR⟩
  | cancel o =>
    obtain ⟨world, program⟩ := s
    cases program with
    | ret r => exact ⟨hI, hsafe⟩
    | call c k =>
      have hquiet : (!(c.writesRow && world.touched)) = true :=
        (Bool.and_eq_true_iff.mp henabled).2
      have hallowed : (c.writesRow && world.touched) = false := (Bool.not_eq_true' _).mp hquiet
      exact (hsafe world (.refl world) hI o hallowed).2

/-- In every run in which `Cancel` writes the row only if no workflow was committed since it read
it, the row has the latest workflow, as it was reported or marked. -/
theorem undisturbed_cancel_keeps_progress
    (h : (undisturbedLts id).Reachable (CancelCalled call id) s) : KeepsProgress id s.world := by
  have hsound : CancelSound id s :=
    Lts.reachable_of_trInv (fun _ => cancelSound_called) (fun _ _ _ => cancelSound_step) h
  exact hsound.1.kept

/-- A running update with one step under way and one to come. -/
def updateJob : Job where
  id := "job_1"
  stackID := "web"
  action := "update"
  state := .running
  requestedBy := "local"
  requestID := ""
  requestedAt := 0
  startedAt := some 0
  finishedAt := none
  workflow := some [⟨"pull", .running, "web", []⟩, ⟨"up", .queued, "web", []⟩]
  errorCode := ""
  errorMessage := ""

/-- The worker's next report. -/
def pulledSteps : List WorkflowStep :=
  [⟨"pull", .succeeded, "web", []⟩, ⟨"up", .running, "web", []⟩]

def updateCalled : CancelRun where
  world :=
    { live :=
        { locks := LockTable.new
          table := ⟨(∅ : GoMap String JobRow).insert "job_1" ⟨updateJob, 1⟩, []⟩
          eventLocks := fun _ => none
          channels := []
          subsByJob := ∅
          cancelByJob := ["job_1"]
          commits := []
          drawn := []
          log := [] }
      latest := updateJob.workflow
      touched := false }
  cancel := Live.cancel 0 "job_1"

theorem updateCalled_called : CancelCalled 0 "job_1" updateCalled := by
  refine ⟨rfl, rfl, fun row hrow => ?_⟩
  have hlookup : updateCalled.world.live.table.rows.lookup "job_1" = some ⟨updateJob, 1⟩ := rfl
  rw [hlookup] at hrow
  cases hrow
  rfl

/-- `Cancel` reads the row, the worker reports that the pull is done, `Cancel` writes back. -/
def overtakenCancel : List CancelLabel :=
  [.cancel {}, .updateWorkflow pulledSteps {}] ++ List.replicate 4 (.cancel {})

/-- The same calls with the report before the cancellation. -/
def promptCancel : List CancelLabel :=
  .updateWorkflow pulledSteps {} :: List.replicate 5 (.cancel {})

/-- The finished pull is running again, and the step under way is queued again. -/
theorem overtaken_cancel_loses_progress :
    ∃ s, (cancelLts "job_1").Reachable (CancelCalled 0 "job_1") s ∧
      s.world.latest = some pulledSteps ∧
      s.world.persisted "job_1" =
        some [⟨"pull", .cancelRequested, "web", []⟩, ⟨"up", .queued, "web", []⟩] ∧
      ¬ KeepsProgress "job_1" s.world := by
  have hrun : (cancelLts "job_1").MTr updateCalled overtakenCancel
      (overtakenCancel.foldl (cancelNext "job_1") updateCalled) :=
    Lts.mTr_ofNext (by decide +kernel)
  refine ⟨_, ⟨updateCalled, updateCalled_called, _, hrun⟩, by decide +kernel, by decide +kernel, ?_⟩
  unfold KeepsProgress
  decide +kernel

theorem prompt_cancel_keeps_progress :
    ∃ s : CancelRun, s.world.persisted "job_1" = some (markWorkflowCancelRequested pulledSteps) ∧
      KeepsProgress "job_1" s.world := by
  have hrun : (undisturbedLts "job_1").MTr updateCalled promptCancel
      (promptCancel.foldl (cancelNext "job_1") updateCalled) :=
    Lts.mTr_ofNext (by decide +kernel)
  refine ⟨_, ?_, undisturbed_cancel_keeps_progress
    ⟨updateCalled, updateCalled_called, _, hrun⟩⟩
  decide +kernel

end Stacklab.Jobs.Live
