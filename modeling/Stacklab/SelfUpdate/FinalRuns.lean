import Stacklab.SelfUpdate.FinalStates

/-! Which runs of helpers, restarts and finishing calls keep terminal job rows. -/
namespace Stacklab.SelfUpdate

open Lib Store Jobs Prog

variable {w : SharedWorld} {call : ℕ} {id : String} {α : Type} {job : Job} {args : HelperArgs}
  {Q : α → SharedWorld → Prop} {a : α} {events : List JobEvent}

theorem update_done : UpdateSafe call (pure a) (fun _ _ => True) w :=
  update_return trivial durable_true

/-- After the terminal row, only its event and the runtime setting are written. -/
theorem update_finalize {result eventMessage message : String} {finishedAt : Time}
    {version : UpdateProg String} {outcome : Except String Unit}
    (hversion : ∀ u, UpdateSafe call version (fun _ _ => True) u) (h : Own call job.id w) :
    UpdateSafe call (finalize args job result eventMessage message finishedAt version outcome)
      (fun _ _ => True) w := by
  refine update_row h fun r u _ => ?_
  cases r with
  | error err => exact update_done
  | ok =>
    refine safe_bind (FinalRely.refl call)
      ((update_publishEvent (P := fun _ => True) trivial durable_true).post ?_)
    intro r u _ _
    cases r with
    | error err => exact update_done
    | ok =>
      refine safe_bind (FinalRely.refl call) ((hversion u).post fun version u _ _ => ?_)
      refine update_keep (P := fun _ => True) trivial trivial durable_true fun r u _ => ?_
      cases r with
      | error err => exact update_done
      | ok => exact update_done

section

variable (h : Own call id w) (hj : Current id job)
include h hj

theorem update_finalizeFailure {stepErr : String} :
    UpdateSafe call (finalizeFailure args job stepErr) (fun _ _ => True) w := by
  have hid := hj.id_eq
  subst hid
  refine update_now h durable_own fun finishedAt u hu => ?_
  exact update_finalize (fun _ => update_last (P := fun _ => True) trivial trivial durable_true) hu

theorem update_finalizeSuccess :
    UpdateSafe call (finalizeSuccess args job) (fun _ _ => True) w := by
  have hid := hj.id_eq
  subst hid
  refine update_keep trivial h durable_own fun version u hu => ?_
  refine update_now hu durable_own fun finishedAt u hu => ?_
  exact update_finalize (fun _ => update_done) hu

theorem update_upgradeAndVerify {nextIndex : ℕ} :
    UpdateSafe call (upgradeAndVerify args job nextIndex) (fun _ _ => True) w := by
  refine safe_bind (FinalRely.refl call)
    ((update_runStep (fun _ hu =>
      update_last (c := .runAPTUpgrade _) trivial hu durable_own) h hj).post ?_)
  rintro ⟨err, job'⟩ u _ ⟨hu, hj'⟩
  cases err with
  | some err => exact update_finalizeFailure hu hj'
  | none =>
    refine safe_bind (FinalRely.refl call)
      ((update_runStep (fun _ hu =>
        update_last (c := .verifyRecovery) trivial hu durable_own) hu hj').post ?_)
    rintro ⟨err, job''⟩ u _ ⟨hu, hj''⟩
    cases err with
    | some err => exact update_finalizeFailure hu hj''
    | none => exact update_finalizeSuccess hu hj''

end

/-- The helper loads its job while it alone updates the row. -/
theorem update_jobByID {k : Except StoreError Job → UpdateProg α} (h : Own call id w)
    (hok : ∀ job u, Own call id u → Current id job → UpdateSafe call (k (.ok job)) Q u)
    (herr : ∀ err u, UpdateSafe call (k (.error err)) Q u) :
    UpdateSafe call (ofJobs (JobCmd.jobByID id).issue >>= k) Q w := by
  refine safe_issue_bind h durable_own ?_
  intro u o hu hI _
  have hsame := quiet_exec (c := .job (.jobByID id)) trivial o u
  refine ⟨hsame.guarantee, hsame.inv hI, ?_⟩
  have hafter := durable_own u _ hu (hsame.rely call)
  dsimp only [updateOn, sharedExec, updateMachine, jobMachine] at hafter ⊢
  cases hf : o.job.failure with
  | some text => exact herr _ _
  | none =>
    simp only [hf] at hafter
    cases hrow : u.world.jobs.table.rows.lookup id with
    | none =>
      rw [JobTable.jobByID, hrow]
      exact herr _ _
    | some row =>
      have hjob : jobAt u id = some row.job := by
        rw [jobAt, hrow]
        rfl
      rw [JobTable.jobByID, hrow]
      exact hok _ _ hafter ⟨hI.keyed id row.job hjob, hu.notTerminal row.job hjob⟩

theorem update_run (h : Own call args.jobID w) :
    UpdateSafe call (run args) (fun _ _ => True) w := by
  refine update_keep trivial h durable_own fun r u hu => ?_
  cases r with
  | error err => exact update_done
  | ok =>
    refine update_jobByID hu ?_ fun _ _ => update_done
    intro job u hu hj
    dsimp only
    split
    · exact update_done
    · refine update_now hu durable_own fun startedAt u hu => ?_
      refine update_keep trivial hu durable_own fun _ u hu => ?_
      split
      · exact update_upgradeAndVerify hu hj
      · refine safe_bind (FinalRely.refl call)
          ((update_runStep (fun _ hu =>
            update_last (c := .runAPTUpdate) trivial hu durable_own) hu hj).post ?_)
        rintro ⟨err, job'⟩ u _ ⟨hu, hj'⟩
        cases err with
        | some err => exact update_finalizeFailure hu hj'
        | none => exact update_upgradeAndVerify hu hj'

theorem jobs_keep {c : JobCmd} {k : JobAns c → JobProg α} (hc : (Cmd.job c).IsQuiet)
    (hk : ∀ a u, JobSafe call (k a) Q u) : JobSafe call (c.issue >>= k) Q w := by
  refine safe_issue_any ?_
  intro u o hI _
  have hsame := quiet_exec hc o u
  exact ⟨hsame.guarantee, hsame.inv hI, hk _ _⟩

theorem jobs_done : JobSafe call (pure a) (fun _ _ => True) w :=
  safe_pure fun _ _ _ => trivial

/-- A transition finds no helper at work on its job. -/
theorem jobs_transition {allowed : List JobState} {k : Except StoreError Bool → JobProg α}
    (hallowed : ∀ state ∈ allowed, state.isTerminal = false) (hk : ∀ a u, JobSafe call (k a) Q u) :
    JobSafe call ((JobCmd.transitionJobWithEvents job allowed events).issue >>= k) Q w := by
  refine safe_issue_any ?_
  intro u o hI hcareful
  have hfree : job.id ∉ u.updating.map Prod.snd := of_decide_eq_true hcareful
  rcases transition_exec job allowed events o u with hsame | ⟨old, hmem, hw⟩
  · exact ⟨hsame.guarantee, hsame.inv hI, hk _ _⟩
  · refine ⟨hw.guarantee (hallowed _ hmem) fun other _ hother => ?_, hw.inv hI, hk _ _⟩
    exact hfree (List.mem_map_of_mem (f := Prod.snd) hother)

theorem jobs_commitTerminalTransition :
    JobSafe call (commitTerminalTransition job events) (fun _ _ => True) w := by
  refine jobs_transition (by decide) fun r u => ?_
  cases r with
  | error err => exact jobs_done
  | ok updated =>
    cases updated with
    | true => exact jobs_keep trivial fun _ _ => jobs_done
    | false =>
      refine jobs_keep trivial fun r u => ?_
      cases r with
      | error err => exact jobs_done
      | ok current =>
        dsimp only
        split
        · refine jobs_keep trivial fun _ _ => ?_
          split <;> exact jobs_done
        · exact jobs_done

theorem jobs_finishTerminal {state : JobState} {errorCode errorMessage finishMessage : String} :
    JobSafe call (finishTerminal job state errorCode errorMessage finishMessage)
      (fun _ _ => True) w :=
  jobs_keep trivial fun _ _ => jobs_commitTerminalTransition

theorem jobs_reconcileInterruptedJob :
    JobSafe call (reconcileInterruptedJob job) (fun _ _ => True) w :=
  jobs_keep trivial fun _ _ => jobs_commitTerminalTransition

theorem shared_done : SharedSafe call (pure a) (fun _ _ => True) w :=
  safe_pure fun _ _ _ => trivial

theorem shared_ofServer {p : JobProg α} (h : JobSafe call p Q w) :
    SharedSafe call (ofServer p) Q w :=
  safe_embed (fun _ _ _ => rfl) (fun _ _ _ h => h) h

theorem shared_ofUpdate {p : UpdateProg α} (h : UpdateSafe call p Q w) :
    SharedSafe call (ofUpdate p) Q w :=
  safe_embed (fun _ _ _ => rfl) (fun _ _ _ h => h) h

theorem shared_reconcileJobs :
    ∀ {jobs : List Job} {w : SharedWorld},
      SharedSafe call (reconcileJobs jobs) (fun _ _ => True) w
  | [], _ => shared_done
  | job :: rest, w => by
    refine safe_issue_any ?_
    intro u o hI _
    have hsame := quiet_exec (c := .job .now) trivial o u
    refine ⟨hsame.guarantee, hsame.inv hI, ?_⟩
    split
    · exact shared_reconcileJobs
    · refine safe_bind (FinalRely.refl call)
        ((shared_ofServer jobs_reconcileInterruptedJob).post fun r u _ _ => ?_)
      cases r with
      | error err => exact shared_done
      | ok failedJob =>
        refine safe_bind (FinalRely.refl call) (shared_reconcileJobs.post ?_)
        exact fun _ _ _ _ => shared_done

theorem shared_reconcileInterrupted :
    SharedSafe call reconcileInterrupted (fun _ _ => True) w := by
  refine safe_issue_any ?_
  intro u o hI _
  have hsame : SameJobs u (sharedExec .listActiveJobs o u).2 := by
    dsimp only [sharedExec]
    split <;> exact sameJobs_of_rows rfl rfl
  refine ⟨hsame.guarantee, hsame.inv hI, ?_⟩
  cases (sharedMachine.exec .listActiveJobs o u).1 with
  | error err => exact shared_done
  | ok storedJobs => exact shared_reconcileJobs

/-- A helper that ends gives up its own job only. -/
theorem end_rely {other : ℕ} (hne : other ≠ call) : FinalRely other w (w.end call) := by
  intro id hid
  exact ⟨List.mem_filter.mpr ⟨hid, decide_eq_true hne⟩, fun hopen => hopen⟩

theorem FinalInv.end (hI : FinalInv w) (call : ℕ) : FinalInv (w.end call) := by
  refine ⟨hI.keyed, ?_⟩
  exact hI.updatingOnce.sublist (List.filter_sublist.map Prod.snd)

theorem shared_helperProcess :
    SharedSafe call (helperProcess call args) (fun _ _ => True) w := by
  refine safe_issue_any ?_
  intro u o hI hcareful
  obtain ⟨hnew, hrow⟩ := Bool.and_eq_true_iff.mp hcareful
  have hfresh : args.jobID ∉ u.updating.map Prod.snd := of_decide_eq_true hnew
  refine ⟨⟨fun id job hjob _ => ⟨job, hjob, rfl, rfl, rfl⟩,
    fun other _ id hid => ⟨List.mem_cons_of_mem _ hid, fun hopen => hopen⟩⟩,
    ⟨hI.keyed, List.nodup_cons.mpr ⟨hfresh, hI.updatingOnce⟩⟩, ?_⟩
  have hown : Own call args.jobID (sharedExec (.helperStarted call args.jobID) o u).2 := by
    refine ⟨List.mem_cons_self, fun job hjob => ?_⟩
    replace hjob : jobAt u args.jobID = some job := hjob
    rw [hjob] at hrow
    simpa using hrow
  refine safe_bind (FinalRely.refl call) ((shared_ofUpdate (update_run hown)).post ?_)
  intro _ u _ _
  refine safe_issue_any (k := pure) ?_
  intro u o hI _
  refine ⟨⟨fun id job hjob _ => ⟨job, hjob, rfl, rfl, rfl⟩, fun other hne => end_rely hne⟩,
    hI.end call, shared_done⟩

theorem shared_discard {p : SharedProg α} (h : SharedSafe call p (fun _ _ => True) w) :
    SharedSafe call (discard p) (fun _ _ => True) w :=
  safe_bind (FinalRely.refl call) (h.post fun _ _ _ _ => shared_done)

theorem shared_program (c : SharedCall) :
    SharedSafe call (c.program call) (fun _ _ => True) w := by
  cases c with
  | helper args => exact shared_helperProcess
  | reconcileInterrupted => exact shared_discard shared_reconcileInterrupted
  | finishSucceeded job =>
    exact shared_discard (shared_ofServer (jobs_keep trivial fun _ _ =>
      jobs_commitTerminalTransition))
  | finishFailed | finishTimedOut | finishCancelled =>
    exact shared_discard (shared_ofServer jobs_finishTerminal)

/-- The runs in which every step is careful. -/
def carefulEnabled (s : SharedPool) (l : SharedLabel) : Bool :=
  sharedEnabled s l &&
    match l with
    | .step call _ =>
      match s.threads call with
      | some (.call c _) => c.careful s.world
      | _ => true
    | _ => true

def carefulLts : Lts SharedPool SharedLabel := Lts.ofNext carefulEnabled sharedNext

def FinalPool (s : SharedPool) : Prop :=
  s.Safe sharedMachine Careful FinalInv FinalRely FinalGuarantee

variable {s s' : SharedPool} {l : SharedLabel}

theorem finalPool_start (h : SharedStart s) : FinalPool s := by
  refine ⟨⟨fun id job hjob => ?_, ?_⟩, fun call p hp => ?_⟩
  · obtain ⟨row, hrow, rfl⟩ := Option.map_eq_some_iff.mp hjob
    exact h.keyed id row hrow
  · simp [h.updating]
  · rw [h.threads call] at hp
    cases hp

theorem permits_of_careful {o : Out} (h : carefulEnabled s (.step call o) = true) :
    s.Permits Careful call o := by
  intro c k hc
  have hcareful := (Bool.and_eq_true_iff.mp h).2
  simp only [hc] at hcareful
  exact hcareful

theorem finalPool_die (h : FinalPool s) (call : ℕ) : FinalPool (SharedPool.die s call) := by
  refine ⟨h.1.end call, fun t p hp => ?_⟩
  change Function.update s.threads call none t = some p at hp
  by_cases ht : t = call
  · subst ht
    rw [Function.update_self] at hp
    cases hp
  · rw [Function.update_of_ne ht] at hp
    exact (h.2 t p hp).stable (finalRely_compatible.trans t) (end_rely ht)

theorem finalPool_trInv : carefulLts.TrInv FinalPool := by
  rintro s l _ ⟨hen, rfl⟩ hs
  cases l with
  | invoke call c => exact hs.set (shared_program c)
  | step call o => exact hs.step finalRely_compatible (permits_of_careful hen)
  | die call => exact finalPool_die hs call
  | dropLocks =>
    have hsame : SameJobs s.world s.world.dropLocks := sameJobs_of_rows rfl rfl
    exact hs.env finalRely_compatible (hsame.inv hs.1) hsame.rely

/-- In every run in which no job is finished or reconciled while a helper runs for it, and each
helper starts for a job that is not terminal and has no other helper, every step keeps the state,
the error code and the finish time of every terminal row. -/
theorem careful_runs_keep_terminal_rows (h : carefulLts.Reachable SharedStart s)
    (hstep : carefulLts.Tr s l s') :
    KeepsTerminal s.world.world.jobs.table s'.world.world.jobs.table := by
  have hsafe : FinalPool s :=
    Lts.reachable_of_trInv (fun _ hs => finalPool_start hs) finalPool_trInv h
  obtain ⟨hen, rfl⟩ := hstep
  rw [keepsTerminal_iff]
  have hsame : ∀ u, SameJobs s.world u → TerminalKept s.world u := by
    intro u hu
    have hG : FinalGuarantee 0 s.world u := hu.guarantee
    exact hG.1
  cases l with
  | invoke call c => exact hsame _ ⟨fun _ => rfl, rfl⟩
  | step call o =>
    rcases hsafe.guarantee finalRely_compatible (permits_of_careful hen) with heq | hG
    · exact hsame _ ⟨fun id => congrArg (jobAt · id) heq, congrArg SharedWorld.updating heq⟩
    · exact hG.1
  | die call => exact fun id job hjob _ => ⟨job, hjob, rfl, rfl, rfl⟩
  | dropLocks => exact hsame _ (sameJobs_of_rows rfl rfl)

/-- A self-update job that has run since time zero. -/
def runningUpdate : Job :=
  newJob "a" "" "self_update_stacklab" "admin" "" (buildWorkflow false) 0

def updateStarted : SharedPool where
  threads _ := none
  world := ⟨⟨⟨.new, ⟨(∅ : GoMap String JobRow).insert "job_a" ⟨runningUpdate, 1⟩, []⟩⟩, none,
    none⟩, []⟩

theorem sharedStart_updateStarted : SharedStart updateStarted :=
  ⟨fun _ => rfl, rfl, GoMap.forall_insert (fun _ _ h => by cases h) rfl⟩

def outAt (time : Time) : Out := ⟨⟨none, time, "", .stored⟩, ⟨true, true, "2.0"⟩, true, ""⟩

def threeHours : Time := 3 * 60 * 60 * 1000000000

/-- The helper is in its first step when the restarted server reconciles, three hours later. -/
def lateRestart : List SharedLabel :=
  .invoke 0 (.helper ⟨"job_a", "2.0", true⟩) :: List.replicate 10 (.step 0 (outAt 0)) ++
    .dropLocks :: .invoke 1 .reconcileInterrupted ::
      List.replicate 5 (.step 1 (outAt threeHours))

def afterLateRestart : SharedPool := lateRestart.foldl sharedNext updateStarted

def rowOf (s : SharedPool) : Option (JobState × String) :=
  (jobAt s.world "job_a").map fun job => (job.state, job.errorCode)

def helperContinues : SharedPool := sharedNext afterLateRestart (.step 0 (outAt threeHours))

theorem interrupted_then_running :
    rowOf afterLateRestart = some (.failed, "job_interrupted") ∧
      rowOf helperContinues = some (.running, "") := by
  decide +kernel

theorem helper_reopens_reconciled_job : ¬TerminalStatesAreFinal := by
  intro h
  have hkept := h afterLateRestart (.step 0 (outAt threeHours)) helperContinues
    ⟨updateStarted, sharedStart_updateStarted, lateRestart, Lts.mTr_ofNext (by decide +kernel)⟩
    ⟨rfl, rfl⟩
  obtain ⟨hbefore, hafter⟩ := interrupted_then_running
  obtain ⟨job, hjob, hrow⟩ := Option.map_eq_some_iff.mp hbefore
  obtain ⟨job', hjob', hrow'⟩ := Option.map_eq_some_iff.mp hafter
  have hfailed : job.state = .failed := congrArg Prod.fst hrow
  obtain ⟨kept, hkeptJob, hstate, -⟩ :=
    keepsTerminal_iff.mp hkept "job_a" job hjob (by rw [hfailed]; rfl)
  cases hkeptJob.symm.trans hjob'
  have hrunning : job'.state = .running := congrArg Prod.fst hrow'
  rw [hrunning, hfailed] at hstate
  cases hstate

/-- The same helper, reconciled only after its process died. -/
def patientRestart : List SharedLabel :=
  .invoke 0 (.helper ⟨"job_a", "2.0", true⟩) :: List.replicate 10 (.step 0 (outAt 0)) ++
    .die 0 :: .dropLocks :: .invoke 1 .reconcileInterrupted ::
      List.replicate 4 (.step 1 (outAt threeHours))

def afterPatientRestart : SharedPool := patientRestart.foldl sharedNext updateStarted

theorem patient_restart_keeps_row :
    rowOf afterPatientRestart = some (.failed, "job_interrupted") ∧
      KeepsTerminal afterPatientRestart.world.world.jobs.table
        (sharedNext afterPatientRestart (.step 1 (outAt threeHours))).world.world.jobs.table :=
  ⟨by decide +kernel, careful_runs_keep_terminal_rows ⟨updateStarted, sharedStart_updateStarted,
    patientRestart, Lts.mTr_ofNext (by decide +kernel)⟩ ⟨by decide +kernel, rfl⟩⟩

end Stacklab.SelfUpdate
