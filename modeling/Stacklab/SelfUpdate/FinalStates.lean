import Stacklab.SelfUpdate.Restart
import Stacklab.Store.JobEvents

/-! Terminal job rows under helper processes, restarts and finishing calls. -/
namespace Stacklab.SelfUpdate

open Lib Store Jobs JobTable Prog

def jobAt (w : SharedWorld) (id : String) : Option Job :=
  (w.world.jobs.table.rows.lookup id).map JobRow.job

/-- The row, if there is one, is not terminal. -/
def Open (id : String) (w : SharedWorld) : Prop :=
  ∀ job, jobAt w id = some job → job.state.isTerminal = false

/-- A job is finished only while no helper runs for it, and a helper starts only for a job that
is not terminal and has no other helper. -/
def SharedCmd.careful : SharedCmd → SharedWorld → Bool
  | .update (.job (.transitionJobWithEvents job _ _)), w =>
    decide (job.id ∉ w.updating.map Prod.snd)
  | .helperStarted _ jobID, w =>
    decide (jobID ∉ w.updating.map Prod.snd) &&
      (jobAt w jobID).all fun job => !job.state.isTerminal
  | _, _ => true

def Careful (c : SharedCmd) (_ : Out) (w : SharedWorld) : Prop := c.careful w = true

structure FinalInv (w : SharedWorld) : Prop where
  keyed : ∀ id job, jobAt w id = some job → job.id = id
  updatingOnce : (w.updating.map Prod.snd).Nodup

/-- What others leave to a helper: the job it updates does not become terminal. -/
def FinalRely (call : ℕ) (w w' : SharedWorld) : Prop :=
  ∀ id, (call, id) ∈ w.updating → (call, id) ∈ w'.updating ∧ (Open id w → Open id w')

def TerminalKept (w w' : SharedWorld) : Prop :=
  ∀ id job, jobAt w id = some job → job.state.isTerminal = true →
    ∃ job', jobAt w' id = some job' ∧ job'.state = job.state ∧ job'.errorCode = job.errorCode ∧
      job'.finishedAt = job.finishedAt

def FinalGuarantee (call : ℕ) (w w' : SharedWorld) : Prop :=
  TerminalKept w w' ∧ ∀ other, other ≠ call → FinalRely other w w'

variable {w w' u : SharedWorld} {call index : ℕ} {id message : String} {o : Out} {α : Type}
  {Q : α → SharedWorld → Prop} {P : SharedWorld → Prop} {job old new : Job} {t : JobTable} {c : Cmd}
  {k : Except StoreError Unit → UpdateProg α}

theorem FinalRely.refl (call : ℕ) (w : SharedWorld) : FinalRely call w w :=
  fun _ h => ⟨h, fun hopen => hopen⟩

theorem finalRely_compatible : Pool.Compatible FinalRely FinalGuarantee where
  refl := FinalRely.refl
  trans := by
    intro call w w' u h h' id hid
    obtain ⟨hmid, hopen⟩ := h id hid
    obtain ⟨hend, hopen'⟩ := h' id hmid
    exact ⟨hend, fun ho => hopen' (hopen ho)⟩
  other := fun _ t' _ _ ht h => h.2 t' (Ne.symm ht)

theorem keepsTerminal_iff :
    KeepsTerminal w.world.jobs.table w'.world.jobs.table ↔ TerminalKept w w' := by
  have hjob : ∀ (v : SharedWorld) id job,
      v.world.jobs.table.jobByID id = .ok job ↔ jobAt v id = some job := by
    intro v id job
    unfold jobByID jobAt
    cases v.world.jobs.table.rows.lookup id with
    | none => simp
    | some row => simp
  unfold KeepsTerminal TerminalKept
  simp only [hjob]

/-- A change that leaves every row's job and every helper. -/
structure SameJobs (w w' : SharedWorld) : Prop where
  jobs : ∀ id, jobAt w' id = jobAt w id
  updating : w'.updating = w.updating

theorem SameJobs.open_iff (h : SameJobs w w') : Open id w' ↔ Open id w := by
  unfold Open
  rw [h.jobs]

theorem SameJobs.rely (h : SameJobs w w') (call : ℕ) : FinalRely call w w' := by
  intro id hid
  rw [h.updating]
  exact ⟨hid, h.open_iff.mpr⟩

theorem SameJobs.guarantee (h : SameJobs w w') : FinalGuarantee call w w' := by
  refine ⟨fun id job hjob _ => ?_, fun other _ => h.rely other⟩
  exact ⟨job, (h.jobs id).trans hjob, rfl, rfl, rfl⟩

theorem SameJobs.inv (h : SameJobs w w') (hI : FinalInv w) : FinalInv w' := by
  refine ⟨fun id job hjob => hI.keyed id job ((h.jobs id).symm.trans hjob), ?_⟩
  rw [h.updating]
  exact hI.updatingOnce

theorem sameJobs_of_rows
    (h : w'.world.jobs.table.rows = w.world.jobs.table.rows) (hu : w'.updating = w.updating) :
    SameJobs w w' := by
  refine ⟨fun id => ?_, hu⟩
  unfold jobAt
  rw [h]

/-- Commands that write no column of a job. -/
def Cmd.IsQuiet : Cmd → Prop
  | .updateJob _ | .job (.transitionJobWithEvents _ _ _)
  | .job (.createJobWithInitialEvent _ _) => False
  | _ => True

theorem createJobEvent_jobs {u : JobTable} {event : JobEvent} (h : t.createJobEvent event = .ok u)
    (id : String) : (u.rows.lookup id).map JobRow.job = (t.rows.lookup id).map JobRow.job := by
  unfold createJobEvent createJobEventRow at h
  split at h
  · cases h
  next t' ht =>
    split at ht
    · cases ht
    · cases ht
      split at h
      · cases h
        rfl
      next row hrow =>
        cases h
        rw [GoMap.lookup_insert]
        split
        next heq =>
          subst heq
          rw [hrow]
          rfl
        · rfl

theorem quiet_exec (hc : c.IsQuiet) (o : Out) (w : SharedWorld) :
    SameJobs w (sharedExec (.update c) o w).2 := by
  cases c with
  | updateJob => exact hc.elim
  | job c =>
    cases c with
    | createJobWithInitialEvent | transitionJobWithEvents => exact hc.elim
    | now | randomToken | lockMany | unlockAll => exact sameJobs_of_rows rfl rfl
    | jobByID id =>
      dsimp only [sharedExec, updateMachine, jobMachine]
      split <;> exact sameJobs_of_rows rfl rfl
  | createJobEvent event =>
    dsimp only [sharedExec, updateMachine, World.write, JobWorld.write]
    split
    · exact sameJobs_of_rows rfl rfl
    · exact sameJobs_of_rows rfl rfl
    next t _ ht => exact ⟨createJobEvent_jobs ht, rfl⟩
  | inspectPackageStatus | writeCapability | runAPTUpdate | runAPTUpgrade | verifyRecovery
  | installedVersion => exact sameJobs_of_rows rfl rfl
  | appSetting | setAppSetting | startHelper | openStore | nextJobEventSequence =>
    dsimp only [sharedExec, updateMachine]
    split <;> exact sameJobs_of_rows rfl rfl

/-- One row's job is replaced. -/
structure Written (id : String) (old new : Job) (w w' : SharedWorld) : Prop where
  before : jobAt w id = some old
  after : jobAt w' id = some new
  sameID : new.id = old.id
  others : ∀ j, j ≠ id → jobAt w' j = jobAt w j
  updating : w'.updating = w.updating

theorem Written.open_of_ne {j : String} (h : Written id old new w w') (hj : j ≠ id)
    (hopen : Open j w) : Open j w' := by
  intro job hjob
  exact hopen job ((h.others j hj).symm.trans hjob)

theorem Written.inv (h : Written id old new w w') (hI : FinalInv w) : FinalInv w' := by
  refine ⟨fun j job hjob => ?_, ?_⟩
  · by_cases hj : j = id
    · subst hj
      cases h.after.symm.trans hjob
      exact h.sameID.trans (hI.keyed j old h.before)
    · exact hI.keyed j job ((h.others j hj).symm.trans hjob)
  · rw [h.updating]
    exact hI.updatingOnce

/-- Writing a row that is not terminal and that no other helper updates. -/
theorem Written.guarantee (h : Written id old new w w') (hopen : old.state.isTerminal = false)
    (hfree : ∀ other, other ≠ call → (other, id) ∉ w.updating) : FinalGuarantee call w w' := by
  refine ⟨fun j job hjob hterm => ?_, fun other hne j hj => ?_⟩
  · have hid : j ≠ id := by
      rintro rfl
      cases h.before.symm.trans hjob
      rw [hopen] at hterm
      cases hterm
    exact ⟨job, (h.others j hid).trans hjob, rfl, rfl, rfl⟩
  · have hid : j ≠ id := by
      rintro rfl
      exact hfree other hne hj
    rw [h.updating]
    exact ⟨hj, h.open_of_ne hid⟩

theorem written_insert {row : JobRow} {sequence : ℕ}
    (hrow : w.world.jobs.table.rows.lookup id = some row) (hid : new.id = row.job.id)
    (ht : t.rows = w.world.jobs.table.rows.insert id ⟨new, sequence⟩) :
    Written id row.job new w
      { w with world := { w.world with jobs := { w.world.jobs with table := t } } } := by
  refine ⟨?_, ?_, hid, fun j hj => ?_, rfl⟩
  · rw [jobAt, hrow]
    rfl
  · unfold jobAt
    rw [ht, GoMap.lookup_insert, if_pos rfl]
    rfl
  · unfold jobAt
    rw [ht, GoMap.lookup_insert, if_neg hj]

theorem updateJob_exec (job : Job) (o : Out) (w : SharedWorld) :
    SameJobs w (sharedExec (.update (.updateJob job)) o w).2 ∨
      ∃ old, Written job.id old (JobTable.Job.withProgress old job) w
        (sharedExec (.update (.updateJob job)) o w).2 := by
  dsimp only [sharedExec, updateMachine, World.write, JobWorld.write]
  split
  · exact .inl (sameJobs_of_rows rfl rfl)
  · exact .inl (sameJobs_of_rows rfl rfl)
  next t _ ht =>
    unfold updateJob at ht
    split at ht
    · cases ht
    next row hrow =>
      cases ht
      exact .inr ⟨row.job, written_insert hrow rfl rfl⟩

theorem transition_exec (job : Job) (allowed : List JobState) (events : List JobEvent) (o : Out)
    (w : SharedWorld) :
    SameJobs w (sharedExec (.update (.job (.transitionJobWithEvents job allowed events))) o w).2 ∨
      ∃ old, old.state ∈ allowed ∧ Written job.id old (JobTable.Job.withProgress old job) w
        (sharedExec (.update (.job (.transitionJobWithEvents job allowed events))) o w).2 := by
  dsimp only [sharedExec, updateMachine, jobMachine]
  split
  · exact .inl (sameJobs_of_rows rfl rfl)
  · exact .inl (sameJobs_of_rows rfl rfl)
  next updated t _ ht =>
    unfold transitionJobWithEvents at ht
    split at ht
    · cases ht
    · split at ht
      · cases ht
      · split at ht
        · cases ht
          exact .inl (sameJobs_of_rows rfl rfl)
        next row hrow =>
          split at ht
          · cases ht
            exact .inl (sameJobs_of_rows rfl rfl)
          next hstate =>
            dsimp only at ht
            split at ht
            · cases ht
            next t' hnumbered =>
              cases ht
              have hrows := (createNumberedEvents_ok hnumbered).1
              exact .inr ⟨row.job, not_not.mp hstate, written_insert hrow rfl hrows⟩

def updateOn : Machine Cmd Ans Out SharedWorld := ⟨fun c o w => sharedExec (.update c) o w⟩

def jobsOn : Machine JobCmd JobAns Out SharedWorld :=
  ⟨fun c o w => sharedExec (.update (.job c)) o w⟩

abbrev UpdateSafe (call : ℕ) (p : UpdateProg α) (Q : α → SharedWorld → Prop)
    (w : SharedWorld) : Prop :=
  p.Safe updateOn (fun c => Careful (.update c)) FinalInv (FinalRely call) (FinalGuarantee call) Q w

abbrev JobSafe (call : ℕ) (p : JobProg α) (Q : α → SharedWorld → Prop) (w : SharedWorld) : Prop :=
  p.Safe jobsOn (fun c => Careful (.update (.job c))) FinalInv (FinalRely call)
    (FinalGuarantee call) Q w

abbrev SharedSafe (call : ℕ) (p : SharedProg α) (Q : α → SharedWorld → Prop)
    (w : SharedWorld) : Prop :=
  p.Safe sharedMachine Careful FinalInv (FinalRely call) (FinalGuarantee call) Q w

def Durable (call : ℕ) (P : SharedWorld → Prop) : Prop := ∀ u v, P u → FinalRely call u v → P v

/-- The helper's job: no other helper updates it, and it is not terminal. -/
structure Own (call : ℕ) (id : String) (w : SharedWorld) : Prop where
  updating : (call, id) ∈ w.updating
  notTerminal : Open id w

/-- The helper's record of its job. -/
structure Current (id : String) (job : Job) : Prop where
  id_eq : job.id = id
  active : job.state.isTerminal = false

theorem durable_true : Durable call fun _ => True := fun _ _ _ _ => trivial

theorem durable_own : Durable call (Own call id) := by
  intro u v hu hR
  obtain ⟨hmem, hopen⟩ := hR id hu.updating
  exact ⟨hmem, hopen hu.notTerminal⟩

theorem update_quiet {k : Ans c → UpdateProg α} (hc : c.IsQuiet) (hP : P w) (hP' : Durable call P)
    (hk : ∀ u o, P u → P (updateOn.exec c o u).2 →
      UpdateSafe call (k (updateOn.exec c o u).1) Q (updateOn.exec c o u).2) :
    UpdateSafe call (c.issue >>= k) Q w := by
  refine safe_issue_bind hP hP' ?_
  intro u o hu hI _
  have hsame := quiet_exec hc o u
  exact ⟨hsame.guarantee, hsame.inv hI, hk u o hu (hP' u _ hu (hsame.rely call))⟩

/-- A command that keeps the condition, whatever it answers. -/
theorem update_keep {k : Ans c → UpdateProg α} (hc : c.IsQuiet) (hP : P w) (hP' : Durable call P)
    (hk : ∀ a u, P u → UpdateSafe call (k a) Q u) : UpdateSafe call (c.issue >>= k) Q w :=
  update_quiet hc hP hP' fun _ _ _ hu => hk _ _ hu

theorem update_last (hc : c.IsQuiet) (hP : P w) (hP' : Durable call P) :
    UpdateSafe call c.issue (fun _ => P) w :=
  update_keep (k := pure) hc hP hP' fun _ _ hu =>
    safe_pure fun _ hR _ => hP' _ _ hu hR

theorem update_return {a : α} (h : Q a w) (hQ : Durable call (Q a)) :
    UpdateSafe call (pure a) Q w :=
  safe_pure fun _ hR _ => hQ _ _ h hR

theorem owned_alone {other : ℕ} (hI : FinalInv w) (h : Own call id w) (hne : other ≠ call) :
    (other, id) ∉ w.updating := by
  intro hmem
  have heq := List.inj_on_of_nodup_map hI.updatingOnce hmem h.updating rfl
  exact hne (congrArg Prod.fst heq)

/-- The helper writes its job's row, which is not terminal. -/
theorem update_row (h : Own call job.id w)
    (hk : ∀ r u, (job.state.isTerminal = false → Own call job.id u) → UpdateSafe call (k r) Q u) :
    UpdateSafe call ((Cmd.updateJob job).issue >>= k) Q w := by
  refine safe_issue_bind h durable_own ?_
  intro u o hu hI _
  rcases updateJob_exec job o u with hsame | ⟨old, hw⟩
  · refine ⟨hsame.guarantee, hsame.inv hI, hk _ _ fun _ => ?_⟩
    exact durable_own u _ hu (hsame.rely call)
  · have hold := hu.notTerminal old hw.before
    refine ⟨hw.guarantee hold fun other hne => owned_alone hI hu hne, hw.inv hI, hk _ _ ?_⟩
    intro hactive
    refine ⟨?_, fun job' hjob' => ?_⟩
    · change (call, job.id) ∈ (sharedExec (.update (.updateJob job)) o u).2.updating
      rw [hw.updating]
      exact hu.updating
    · cases hw.after.symm.trans hjob'
      exact hactive

theorem update_now {k : Time → UpdateProg α} (hP : P w) (hP' : Durable call P)
    (hk : ∀ a u, P u → UpdateSafe call (k a) Q u) : UpdateSafe call (now >>= k) Q w :=
  update_keep (c := .job .now) trivial hP hP' hk

theorem update_publishEvent {event : JobEventKind} {data : String} {step : Option JobEventStep}
    (hP : P w) (hP' : Durable call P) :
    UpdateSafe call (publishEvent job event message data step) (fun _ => P) w := by
  refine update_keep trivial hP hP' fun r u hu => ?_
  cases r with
  | error err => exact update_return hu hP'
  | ok sequence => exact update_now hu hP' fun _ _ hu => update_last trivial hu hP'

/-- What a step of the helper leaves. -/
def StepDone (call : ℕ) (id : String) (r : Option String × Job) (w : SharedWorld) : Prop :=
  Own call id w ∧ Current id r.2

theorem stepDone_return {r : Option String × Job} (h : Own call id w) (hj : Current id r.2) :
    UpdateSafe call (pure r) (StepDone call id) w :=
  update_return ⟨h, hj⟩ fun u v hu hR => ⟨durable_own u v hu.1 hR, hu.2⟩

theorem update_own (h : Own call id w) (hj : Current id job)
    (hk : ∀ r u, Own call id u → UpdateSafe call (k r) Q u) :
    UpdateSafe call ((Cmd.updateJob job).issue >>= k) Q w := by
  have hid := hj.id_eq
  subst hid
  exact update_row h fun r u hu => hk r u (hu hj.active)

theorem update_finishStep {workflow : List WorkflowStep} {err : Option String} (h : Own call id w)
    (hj : Current id job) :
    UpdateSafe call (finishStep job index workflow err) (StepDone call id) w := by
  have hwith : ∀ workflow, Current id { job with workflow := some workflow } :=
    fun _ => ⟨hj.id_eq, hj.active⟩
  cases err with
  | some err =>
    refine update_own h (hwith _) fun r u hu => safe_bind (FinalRely.refl call) ?_
    exact (update_publishEvent hu durable_own).post fun _ _ _ hu => stepDone_return hu (hwith _)
  | none =>
    refine update_own h (hwith _) fun r u hu => ?_
    cases r with
    | error err => exact stepDone_return hu (hwith _)
    | ok =>
      refine safe_bind (FinalRely.refl call) ((update_publishEvent hu durable_own).post ?_)
      intro r u _ hu
      cases r with
      | error err => exact stepDone_return hu (hwith _)
      | ok => exact stepDone_return hu (hwith _)

theorem update_runStep {body : UpdateProg (String × Option String)}
    (hbody : ∀ u, Own call id u → UpdateSafe call body (fun _ => Own call id) u) (h : Own call id w)
    (hj : Current id job) :
    UpdateSafe call (runStep job index message body) (StepDone call id) w := by
  have hwith : ∀ workflow, Current id { job with workflow := some workflow } :=
    fun _ => ⟨hj.id_eq, hj.active⟩
  refine update_own h (hwith _) fun r u hu => ?_
  cases r with
  | error err => exact stepDone_return hu (hwith _)
  | ok =>
    refine safe_bind (FinalRely.refl call) ((update_publishEvent hu durable_own).post ?_)
    intro r u _ hu
    cases r with
    | error err => exact stepDone_return hu (hwith _)
    | ok =>
      refine safe_bind (FinalRely.refl call) ((hbody u hu).post ?_)
      rintro ⟨output, err⟩ u _ hu
      dsimp only
      split
      · refine safe_bind (FinalRely.refl call) ((update_publishEvent hu durable_own).post ?_)
        intro r u _ hu
        cases r with
        | error err => exact stepDone_return hu (hwith _)
        | ok => exact update_finishStep hu (hwith _)
      · exact update_finishStep hu (hwith _)

end Stacklab.SelfUpdate
