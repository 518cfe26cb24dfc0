import Stacklab.Jobs.LockSafety
import Stacklab.SelfUpdate.Helper

/-! The drain barrier of a self-update outlives its job: no step of the helper process or of
the reconciliation releases it. -/
namespace Stacklab.SelfUpdate

open Lib Store Jobs Prog LockTable

variable {c : Cmd} {w : World} {locks : LockTable} {jobID : String}

/-- The job owns the barrier and its one lock. -/
structure DrainHeld (jobID : String) (locks : LockTable) : Prop where
  named : jobID ≠ ""
  draining : locks.drainingJobID = jobID
  held : locks.resourcesByJob.lookup jobID = some [selfUpdateResource]
  locked : locks.lockedByResource.lookup selfUpdateResource = some jobID

/-- The job holds no lock and no barrier is up. -/
def DrainEnded (jobID : String) (locks : LockTable) : Prop :=
  (∀ r, locks.lockedByResource.lookup r ≠ some jobID) ∧
    locks.resourcesByJob.lookup jobID = none ∧ locks.drainingJobID = ""

/-- Every valid request for resources is refused because of the barrier. -/
def AllStartsDrained (jobID : String) (locks : LockTable) : Prop :=
  ∀ ro token stackID requested resources, newJobID token ≠ jobID →
    normalizeResources stackID requested = .ok resources →
    ((LockCall.start token stackID requested false).run ro locks).1 =
      .error (.resourceConflict
        ⟨.drainActive, resources.headD .zero, locks.drainingResource, jobID⟩)

/-! Programs without lock commands. -/

def LockFree : Cmd → Prop
  | .job (.lockMany _ _ _) | .job (.unlockAll _) => False
  | _ => True

theorem exec_locks (h : LockFree c) (o : Out) (w : World) :
    (updateMachine.exec c o w).2.jobs.locks = w.jobs.locks := by
  cases c with
  | job c =>
    cases c with
    | lockMany _ _ _ => cases h
    | unlockAll _ => cases h
    | now => rfl
    | randomToken => rfl
    | createJobWithInitialEvent job event => exact JobWorld.write_locks w.jobs o.job _
    | transitionJobWithEvents job states events =>
      simp only [updateMachine, jobMachine]
      split <;> rfl
    | jobByID id =>
      simp only [updateMachine, jobMachine]
      split <;> rfl
  | updateJob job => exact JobWorld.write_locks w.jobs o.job _
  | createJobEvent event => exact JobWorld.write_locks w.jobs o.job _
  | inspectPackageStatus | writeCapability | runAPTUpdate | runAPTUpgrade | verifyRecovery |
    installedVersion => rfl
  | appSetting | setAppSetting | startHelper | openStore | nextJobEventSequence =>
    simp only [updateMachine]
    split <;> rfl

abbrev LockFreeProg {α : Type} (p : UpdateProg α) : Prop := p.Issues LockFree

theorem lockFree_issue (h : LockFree c) : LockFreeProg c.issue :=
  issues_issue h

theorem lockFree_now : LockFreeProg now := ⟨trivial, fun _ => trivial⟩

theorem lockFree_loadRuntimeState : LockFreeProg loadRuntimeState := by
  refine (lockFree_issue (by trivial)).bind fun r => ?_
  split <;> exact trivial

theorem lockFree_saveRuntimeState (state : RuntimeState) :
    LockFreeProg (saveRuntimeState state) :=
  lockFree_issue (by trivial)

theorem lockFree_jobByID (id : String) : LockFreeProg (ofJobs (JobCmd.jobByID id).issue) :=
  ⟨trivial, fun _ => trivial⟩

theorem lockFree_reconcilePendingResult : LockFreeProg reconcilePendingResult := by
  refine lockFree_loadRuntimeState.bind_except (fun _ => trivial) fun state => ?_
  dsimp only
  split
  · exact trivial
  · exact (lockFree_jobByID _).bind_except (fun _ => trivial)
      fun _ => (lockFree_saveRuntimeState _).bind fun _ => trivial

theorem lockFree_updateJob (job : Job) : LockFreeProg (Cmd.updateJob job).issue :=
  lockFree_issue trivial

theorem lockFree_publishEvent (job : Job) (event : JobEventKind) (message data : String)
    (step : Option JobEventStep) : LockFreeProg (publishEvent job event message data step) :=
  Issues.bind_except (lockFree_issue (by trivial)) (fun _ => trivial)
    fun _ => lockFree_now.bind fun _ => lockFree_issue (by trivial)

theorem lockFree_finishStep (job : Job) (index : ℕ) (workflow : List WorkflowStep)
    (err : Option String) : LockFreeProg (finishStep job index workflow err) := by
  cases err with
  | some err =>
    refine (lockFree_updateJob _).bind fun _ => ?_
    exact (lockFree_publishEvent _ _ _ _ _).bind fun _ => trivial
  | none =>
    refine (lockFree_updateJob _).bind_except (fun _ => trivial) fun _ => ?_
    exact (lockFree_publishEvent _ _ _ _ _).bind_except (fun _ => trivial) fun _ => trivial

theorem lockFree_runStep (job : Job) (index : ℕ) (message : String)
    {body : UpdateProg (String × Option String)} (hb : LockFreeProg body) :
    LockFreeProg (runStep job index message body) := by
  refine (lockFree_updateJob _).bind_except (fun _ => trivial) fun _ => ?_
  refine (lockFree_publishEvent _ _ _ _ _).bind_except (fun _ => trivial) fun _ => ?_
  refine hb.bind fun r => ?_
  dsimp only
  split
  · exact (lockFree_publishEvent _ _ _ _ _).bind_except (fun _ => trivial)
      fun _ => lockFree_finishStep _ _ _ _
  · exact lockFree_finishStep _ _ _ _

theorem lockFree_finalize (args : HelperArgs) (job : Job) (result eventMessage message : String)
    (finishedAt : Time) {version : UpdateProg String} (hv : LockFreeProg version)
    (outcome : Except String Unit) :
    LockFreeProg (finalize args job result eventMessage message finishedAt version outcome) := by
  refine (lockFree_updateJob _).bind_except (fun _ => trivial) fun _ => ?_
  refine (lockFree_publishEvent _ _ _ _ _).bind_except (fun _ => trivial) fun _ => ?_
  refine hv.bind fun installedVersion => ?_
  exact (lockFree_saveRuntimeState _).bind_except (fun _ => trivial) fun _ => trivial

theorem lockFree_finalizeFailure (args : HelperArgs) (job : Job) (stepErr : String) :
    LockFreeProg (finalizeFailure args job stepErr) :=
  lockFree_now.bind fun _ => lockFree_finalize _ _ _ _ _ _ (lockFree_issue (by trivial)) _

theorem lockFree_finalizeSuccess (args : HelperArgs) (job : Job) :
    LockFreeProg (finalizeSuccess args job) := by
  refine (lockFree_issue (by trivial)).bind fun installedVersion => ?_
  exact lockFree_now.bind fun _ =>
    lockFree_finalize _ _ _ _ _ _ (issues_pure installedVersion) _

theorem lockFree_upgradeAndVerify (args : HelperArgs) (job : Job) (nextIndex : ℕ) :
    LockFreeProg (upgradeAndVerify args job nextIndex) := by
  refine (lockFree_runStep _ _ _ (lockFree_issue (by trivial))).bind fun r => ?_
  obtain ⟨_ | err, job⟩ := r
  · refine (lockFree_runStep _ _ _ (lockFree_issue (by trivial))).bind fun r => ?_
    obtain ⟨_ | err, job⟩ := r
    · exact lockFree_finalizeSuccess _ _
    · exact lockFree_finalizeFailure _ _ _
  · exact lockFree_finalizeFailure _ _ _

/-- The helper process issues no command that touches the server's lock table. -/
theorem lockFree_run (args : HelperArgs) : LockFreeProg (run args) := by
  refine Issues.bind_except (lockFree_issue (by trivial)) (fun _ => trivial) fun _ => ?_
  refine (lockFree_jobByID _).bind_except (fun _ => trivial) fun job => ?_
  dsimp only
  split
  · exact trivial
  · refine lockFree_now.bind fun _ => (lockFree_saveRuntimeState _).bind fun _ => ?_
    split
    · exact lockFree_upgradeAndVerify _ _ _
    · refine (lockFree_runStep _ _ _ (lockFree_issue (by trivial))).bind fun r => ?_
      obtain ⟨_ | err, job⟩ := r
      · exact lockFree_upgradeAndVerify _ _ _
      · exact lockFree_finalizeFailure _ _ _

/-! What a successful `Apply` leaves. -/

theorem ensures_ofJobs {α : Type} {p : JobProg α} {Q : α → World → Prop}
    (h : Ensures jobMachine p (fun a j => Q a { w with jobs := j }) w.jobs) :
    Ensures updateMachine (ofJobs p) Q w := by
  induction p generalizing w with
  | ret a => exact h
  | call c k ih => exact ⟨trivial, fun o _ => ih _ (h.2 o.job trivial)⟩

theorem normalize_selfUpdate :
    normalizeResources "" [selfUpdateResource] = .ok [selfUpdateResource] := by
  decide +kernel

theorem lockMany_drainHeld {ro : RangeOrder Holding} (hid : jobID ≠ "")
    (h : (locks.lockMany ro jobID [selfUpdateResource] true).1 = .ok ()) :
    DrainHeld jobID (locks.lockMany ro jobID [selfUpdateResource] true).2 := by
  unfold lockMany at h ⊢
  split at h
  · cases h
  · exact ⟨hid, rfl, by simp, by simp [GoMap.insertAll]⟩

theorem start_drainHeld (action requestedBy requestID : String) (workflow : List WorkflowStep)
    (w : JobWorld) :
    Ensures jobMachine
      (startDrainingWithWorkflow action requestedBy requestID selfUpdateResource workflow)
      (fun r w => ∀ job, r = .ok job → DrainHeld job.id w.locks) w := by
  refine wp_issue_bind (fun _ _ => True) trivial (fun _ _ => trivial) ?_
  intro now w _
  refine wp_issue_bind (fun _ _ => True) trivial (fun _ _ => trivial) ?_
  intro token w _
  rw [normalize_selfUpdate]
  refine wp_issue_bind
    (fun r w => r = .ok () → DrainHeld (newJobID token) w.locks) trivial ?_ ?_
  · intro o _ h
    exact lockMany_drainHeld (newJobID_ne_empty token) h
  rintro (err | ⟨⟩) w hw
  · exact ⟨trivial, fun _ h => by cases h⟩
  refine wp_issue_bind (fun _ w' => w'.locks = w.locks) trivial ?_ ?_
  · intro o _
    exact JobWorld.write_locks w o _
  rintro (err | ⟨⟩) w' hlocks
  · exact wp_issue_bind (fun _ _ => True) trivial (fun _ _ => trivial)
      fun _ _ _ => ⟨trivial, fun _ h => by cases h⟩
  · refine ⟨trivial, ?_⟩
    rintro job ⟨⟩
    rw [hlocks]
    exact hw rfl

theorem loadRuntimeState_world (w : World) :
    Ensures updateMachine loadRuntimeState (fun _ w' => w' = w) w := by
  refine wp_issue_bind (fun _ w' => w' = w) trivial ?_ ?_
  · intro o _
    simp only [updateMachine]
    split <;> rfl
  · intro r w' hw
    split <;> exact ⟨trivial, hw⟩

theorem launch_drainHeld (job : Job) (package : PackageStatus) (refreshPackageIndex : Bool)
    (hw : DrainHeld job.id w.jobs.locks) :
    Ensures updateMachine (launch job package refreshPackageIndex)
      (fun r w => ∀ response, r = .ok response →
        DrainHeld response.job.id w.jobs.locks ∧ w.helper.isSome = true) w := by
  refine wp_issue_bind (fun _ w' => w'.jobs.locks = w.jobs.locks) trivial
    (fun _ _ => rfl) ?_
  intro startedAt w₁ h₁
  refine wp_issue_bind (fun _ w' => w'.jobs.locks = w₁.jobs.locks) trivial
    (fun o _ => exec_locks (by trivial) o w₁) ?_
  rintro (err | ⟨⟩) w₂ h₂
  · refine wp_bind ((ensures_true _ w₂).post fun _ _ _ _ => ⟨trivial, ?_⟩)
    intro response h
    cases h
  refine wp_issue_bind
    (fun r w' => w'.jobs.locks = w₂.jobs.locks ∧ (r = .ok () → w'.helper.isSome = true))
    trivial ?_ ?_
  · intro o _
    refine ⟨exec_locks (by trivial) o w₂, ?_⟩
    simp only [updateMachine]
    split
    · intro h
      cases h
    · exact fun _ => rfl
  rintro (message | ⟨⟩) w₃ ⟨h₃, hhelper⟩
  · refine wp_bind ((ensures_true _ w₃).post fun _ _ _ _ => ?_)
    refine wp_bind ((ensures_true _ _).post fun _ _ _ _ => ⟨trivial, ?_⟩)
    intro response h
    cases h
  have hdone : DrainHeld job.id w₃.jobs.locks := by
    rw [h₃, h₂, h₁]
    exact hw
  refine wp_bind ((loadRuntimeState_world w₃).post ?_)
  rintro (err | runtime) _ _ rfl
  · exact ⟨trivial, by rintro response ⟨⟩; exact ⟨hdone, hhelper rfl⟩⟩
  · exact ⟨trivial, by rintro response ⟨⟩; exact ⟨hdone, hhelper rfl⟩⟩

theorem apply_drainHeld (request : ApplyRequest) (requestedBy requestID : String) (w : World) :
    Ensures updateMachine (apply request requestedBy requestID)
      (fun r w => ∀ response, r = .ok response →
        DrainHeld response.job.id w.jobs.locks ∧ w.helper.isSome = true) w := by
  have hrefused : ∀ (err : ApplyError) (w : World), Ensures updateMachine
      (pure (.error err) : UpdateProg (Except ApplyError ApplyResponse))
      (fun r w => ∀ response, r = .ok response →
        DrainHeld response.job.id w.jobs.locks ∧ w.helper.isSome = true) w :=
    fun err w => ⟨trivial, fun _ h => by cases h⟩
  refine wp_issue_bind (fun _ _ => True) trivial (fun _ _ => trivial) ?_
  intro package w _
  refine wp_bind ((ensures_true _ w).post ?_)
  rintro (err | state) w _ _
  · exact hrefused _ _
  refine wp_issue_bind (fun _ _ => True) trivial (fun _ _ => trivial) ?_
  intro writable w _
  dsimp only
  split
  · exact hrefused _ _
  split
  · exact hrefused _ _
  split
  · exact hrefused _ _
  split
  · exact hrefused _ _
  refine wp_bind (ensures_ofJobs ((start_drainHeld _ _ _ _ w.jobs).post ?_))
  rintro (err | job) j _ hjob
  · rcases err with (e | e | e)
    · cases e <;> exact hrefused _ _
    · exact hrefused _ _
    · exact hrefused _ _
  · exact launch_drainHeld job _ _ (hjob job rfl)

/-! The server, the helper process and the reconciliation loop side by side. -/

structure System where
  world : World
  helper : UpdateProg (Except String Unit)
  reconcile : UpdateProg Bool
  reconciled : Bool

inductive Label
  | helper (o : Out)
  | helperDies
  | reconcileCall
  | reconcile (o : Out)
  | otherJob (ro : RangeOrder Holding) (c : LockCall)

/-- A lock call made for another job than the given one. -/
def forOtherJob (jobID : String) : LockCall → Bool
  | .start token _ _ _ => newJobID token ≠ jobID
  | .replaceResources j _ => j ≠ jobID
  | .unlockAll j => j ≠ jobID

def World.setLocks (w : World) (locks : LockTable) : World :=
  { w with jobs := { w.jobs with locks := locks } }

/-- The loop makes its calls of the reconciliation one after the other. -/
def System.enabled (jobID : String) (s : System) : Label → Bool
  | .reconcileCall => s.reconcile.result.isSome
  | .otherJob _ c => forOtherJob jobID c
  | _ => true

/-- Each step is one command of one process. `reconciled` records that some call of the
reconciliation found the pending result and ran to its end. -/
def System.next (s : System) : Label → System
  | .helper o =>
    let r := s.helper.step updateMachine o s.world
    { s with helper := r.1, world := r.2 }
  | .helperDies => { s with helper := .ret (.error "") }
  | .reconcileCall => { s with reconcile := reconcilePendingResult }
  | .reconcile o =>
    let r := s.reconcile.step updateMachine o s.world
    { s with reconcile := r.1, world := r.2, reconciled := s.reconciled || r.1.result.getD false }
  | .otherJob ro c =>
    { s with world := s.world.setLocks (c.run ro s.world.jobs.locks).2 }

def updateLts (jobID : String) : Lts System Label := .ofNext (System.enabled jobID) System.next

/-- The state in which `Apply` returns: its helper starts, no reconciliation is running. -/
def afterApply (w : World) : System where
  world := w
  helper :=
    match w.helper with
    | none => .ret (.error "")
    | some args => run args
  reconcile := .ret false
  reconciled := false

/-- A run of `Apply` that started the helper, followed by any interleaving of the helper,
of reconciliations and of other jobs' lock calls, up to a state in which the job is terminal
in the database and a reconciliation has completed with the pending result. -/
structure FinishedUpdate (job : Job) (s : System) : Prop where
  run : ∃ (w₀ w : World) (request : ApplyRequest) (requestedBy requestID : String)
    (outs : List Out) (response : ApplyResponse) (ls : List Label),
    (apply request requestedBy requestID).run updateMachine outs w₀ = (.ret (.ok response), w) ∧
      response.job = job ∧ (updateLts job.id).MTr (afterApply w) ls s
  terminal : ∃ row, s.world.jobs.table.rows.lookup job.id = some row ∧
    row.job.state.isTerminal = true
  reconciled : s.reconciled = true

structure Drained (jobID : String) (s : System) : Prop where
  held : DrainHeld jobID s.world.jobs.locks
  helper : LockFreeProg s.helper
  reconcile : LockFreeProg s.reconcile

section OtherJobs

variable {jobID : String} {locks : LockTable} (ro : RangeOrder Holding)

/-- While the barrier is up, a valid request of any other job is refused. -/
theorem start_drained (h : DrainHeld jobID locks) {token stackID : String}
    {requested resources : List Resource} (draining : Bool) (hid : newJobID token ≠ jobID)
    (hn : normalizeResources stackID requested = .ok resources) :
    (LockCall.start token stackID requested draining).run ro locks =
      (.error (.resourceConflict
        ⟨.drainActive, resources.headD .zero, locks.drainingResource, jobID⟩), locks) := by
  have hdrain : locks.drainingJobID ≠ "" ∧ locks.drainingJobID ≠ newJobID token := by
    rw [h.draining]
    exact ⟨h.named, hid.symm⟩
  simp only [LockCall.run, hn, lockMany, leaseConflict, if_pos hdrain]
  rw [h.draining]

theorem unlockAll_drainHeld (h : DrainHeld jobID locks) {j : String} (hj : j ≠ jobID) :
    DrainHeld jobID (locks.unlockAll j) := by
  have hclear : clearDrain j locks = locks := by
    simp [clearDrain, h.draining, hj.symm]
  refine ⟨h.named, ?_, ?_, ?_⟩
  · rw [(unlockAll_drain locks j).1, hclear, h.draining]
  · rw [unlockAll_resourcesByJob, if_neg hj.symm, h.held]
  · simp only [unlockAll, hclear]
    split
    · exact h.locked
    · rw [GoMap.lookup_eraseAll, h.locked]
      simp [hj.symm]

theorem otherJob_drainHeld {c : LockCall} (hc : forOtherJob jobID c = true)
    (h : DrainHeld jobID locks) : DrainHeld jobID (c.run ro locks).2 := by
  cases c with
  | start token stackID requested draining =>
    cases hn : normalizeResources stackID requested with
    | error err => simpa [LockCall.run, hn] using h
    | ok resources =>
      rw [start_drained ro h draining (by simpa [forOtherJob] using hc) hn]
      exact h
  | replaceResources j requested =>
    rcases replaceResources_cases ro locks j requested with
      ⟨err, hr⟩ | ⟨_, _, _, hdrain, _, _⟩
    · rw [LockCall.run, hr]
      exact h
    · rw [h.draining] at hdrain
      rcases hdrain with hd | hd
      · exact absurd hd h.named
      · exact absurd hd.symm (by simpa [forOtherJob] using hc)
  | unlockAll j => exact unlockAll_drainHeld h (by simpa [forOtherJob] using hc)

end OtherJobs

theorem drained_step : (updateLts jobID).TrInv (Drained jobID) := by
  have hkeep : ∀ c o w, LockFree c → DrainHeld jobID w.jobs.locks →
      DrainHeld jobID (updateMachine.exec c o w).2.jobs.locks := by
    intro c o w hc hw
    rw [exec_locks hc]
    exact hw
  rintro s l _ ⟨hl, rfl⟩ hs
  cases l with
  | helper o =>
    obtain ⟨hp, hw⟩ := hs.helper.step hkeep hs.held
    exact ⟨hw, hp, hs.reconcile⟩
  | helperDies => exact ⟨hs.held, trivial, hs.reconcile⟩
  | reconcileCall => exact ⟨hs.held, hs.helper, lockFree_reconcilePendingResult⟩
  | reconcile o =>
    obtain ⟨hp, hw⟩ := hs.reconcile.step hkeep hs.held
    exact ⟨hw, hs.helper, hp⟩
  | otherJob ro c => exact ⟨otherJob_drainHeld ro hl hs.held, hs.helper, hs.reconcile⟩

theorem afterApply_drained (h : DrainHeld jobID w.jobs.locks) : Drained jobID (afterApply w) := by
  refine ⟨h, ?_, trivial⟩
  unfold afterApply
  cases w.helper with
  | none => exact trivial
  | some args => exact lockFree_run args

theorem drainHeld_not_ended (h : DrainHeld jobID locks) : ¬ DrainEnded jobID locks :=
  fun hended => hended.1 _ h.locked

/-- The drain of every finished self-update has ended. -/
def DrainEndsWithJob : Prop :=
  ∀ (job : Job) (s : System), FinishedUpdate job s → DrainEnded job.id s.world.jobs.locks

/-- The barrier never comes down: whatever the helper does and however often the result is
reconciled, the finished job keeps its lock and every valid request of a new job is refused. -/
theorem finished_update_keeps_drain {job : Job} {s : System} (h : FinishedUpdate job s) :
    ¬ DrainEnded job.id s.world.jobs.locks ∧ AllStartsDrained job.id s.world.jobs.locks := by
  obtain ⟨⟨w₀, w, request, requestedBy, requestID, outs, response, ls, happly, rfl, htr⟩, _, _⟩ := h
  have hheld := ((apply_drainHeld request requestedBy requestID w₀).returned happly response rfl).1
  have hdrained := Lts.mTrInv_of_trInv drained_step htr (afterApply_drained hheld)
  refine ⟨drainHeld_not_ended hdrained.held, ?_⟩
  intro ro token stackID requested resources hid hn
  rw [start_drained ro hdrained.held false hid hn]

/-! A package index refresh that fails: the server is not restarted. -/

namespace FailedRefresh

def fine : Out := ⟨⟨none, 0, "a", .stored⟩, ⟨true, true, "2.0"⟩, true, ""⟩

def refused : Out := { fine with job := { fine.job with failure := some "apt-get update failed" } }

def emptyWorld : World := ⟨⟨.new, ⟨∅, []⟩⟩, none, none⟩

def applied : UpdateProg (Except ApplyError ApplyResponse) × World :=
  (apply ⟨"", true⟩ "admin" "").run updateMachine (List.replicate 11 fine) emptyWorld

def labels : List Label :=
  List.replicate 8 (.helper fine) ++ [.helper refused] ++ List.replicate 11 (.helper fine) ++
    [.reconcileCall] ++ List.replicate 3 (.reconcile fine)

def final : System := labels.foldl System.next (afterApply applied.2)

def job : Job := newJob "a" "" "self_update_stacklab" "admin" "" (buildWorkflow true) 0

def response : ApplyResponse :=
  ⟨job, ⟨true, true, "2.0"⟩,
    { jobID := job.id, requestedVersion := "2.0", startedAt := some 0 }⟩

theorem finished : FinishedUpdate job final := by
  have happly : applied = (.ret (.ok response), applied.2) :=
    Prod.ext (eq_ret_of_result (by decide +kernel)) rfl
  have hrow : (final.world.jobs.table.rows.lookup job.id).map (·.job.state) = some .failed := by
    decide +kernel
  obtain ⟨row, hlookup, hstate⟩ := Option.map_eq_some_iff.mp hrow
  refine ⟨⟨emptyWorld, applied.2, ⟨"", true⟩, "admin", "", List.replicate 11 fine, response,
    labels, happly, rfl, Lts.mTr_ofNext (by decide +kernel)⟩, ⟨row, hlookup, ?_⟩, ?_⟩
  · rw [hstate]
    rfl
  · decide +kernel

end FailedRefresh

/-- The failed refresh leaves a terminal job that still drains the server. -/
theorem drain_outlives_failed_refresh : ¬ DrainEndsWithJob := by
  intro h
  have hlocked : FailedRefresh.final.world.jobs.locks.lockedByResource.lookup
      selfUpdateResource = some FailedRefresh.job.id := by
    decide +kernel
  exact (h _ _ FailedRefresh.finished).1 _ hlocked

theorem failed_refresh_keeps_drain :
    FinishedUpdate FailedRefresh.job FailedRefresh.final ∧
      ¬ DrainEnded FailedRefresh.job.id FailedRefresh.final.world.jobs.locks ∧
      AllStartsDrained FailedRefresh.job.id FailedRefresh.final.world.jobs.locks :=
  ⟨FailedRefresh.finished, finished_update_keeps_drain FailedRefresh.finished⟩

end Stacklab.SelfUpdate
