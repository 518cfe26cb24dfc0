import Stacklab.Backup.CopyThreads
import Stacklab.Lib.Fallible

/-! Saved evidence of a verified copy is never lost, over every history of a run in which no
save writes a verified copy whose own save failed. -/
namespace Stacklab.Backup

open Lib Prog.Issues RunSystem RunWorld Prog

/-- The service has just accepted a new run. -/
def AcceptedRun (s : RunSystem) : Prop :=
  ∃ id jobID planID planName now expiresAt destinationIDs,
    s = RunSystem.start (newRun id jobID planID planName now expiresAt destinationIDs)

/-- While copies execute, nothing is saved that has a copy verified whose own save failed. -/
def RunSystem.Careful (s : RunSystem) (l : RunLabel) : Prop :=
  ∀ threads, s.stage = .copying threads →
    match l with
    | .thread index o => Pool.Permits CarefulCmd ⟨threads, s.world⟩ index o
    | .persist saveErr => saveErr = none → SettledRun s.world s.world.state
    | _ => True

def carefulRunLts : Lts RunSystem RunLabel where
  Tr s l t := runLts.Tr s l t ∧ s.Careful l

/-- The memory and the shared run prove the same. -/
def Synced (w : RunWorld) : Prop := ∀ i, evidence w.state i = evidence w.run i

/-- The commands of `ExecuteRun` before it starts the copies. -/
def OpeningCmd : RunCmd → Prop
  | .now | .setCapture _ | .captureAvailable | .preview | .validateSourceRepositories
  | .prepare | .writeManifest | .setManifest _ | .saveRun | .replaceResources => True
  | _ => False

def StageInv (s : RunSystem) : Prop :=
  match s.stage with
  | .idle | .booting => RunInv s.world ∧ Synced s.world
  | .accepted => RunInv s.world ∧ Synced s.world ∧ s.world.state.state = .running
  | .opening p => (Active s.world ∧ Synced s.world) ∧ p.Issues OpeningCmd
  | .copying threads =>
    Pool.Safe runMachine CarefulCmd Active CopyRely CopyGuarantee ⟨threads, s.world⟩

variable {w : RunWorld} {s t : RunSystem} {l : RunLabel} {r : Run} {c : CopyResult} {now : Instant}
  {err ctxErr : Option String} {request : List String} {env : RetryEnv}

theorem Synced.kept (h : Synced w) : KeepsVerified w.state w.run := fun i _ he => (h i) ▸ he

theorem RunInv.init (h : ∀ c ∈ r.copies, c.state = .pending) (hs : r.state = .running) :
    RunInv { persisted := [r], state := r, run := r, unsaved := [] } := by
  have hsound : r.Sound := fun c hc hcs => by
    rw [h c hc] at hcs
    cases hcs
  have hcomplete : r.state = .succeeded → Complete r := fun hsucc => by
    rw [hs] at hsucc
    cases hsucc
  exact ⟨by simp [KeepsVerified.refl], by simp [KeepsVerified.refl], fun _ => .inr (.inl rfl),
    by simp, hsound, hsound, by simpa using hsound, hcomplete, by simpa using hcomplete⟩

theorem stageInv_accepted (h : AcceptedRun s) : StageInv s := by
  obtain ⟨id, jobID, planID, planName, now, expiresAt, destinationIDs, rfl⟩ := h
  refine ⟨RunInv.init (fun c hc => ?_) rfl, fun _ => rfl, rfl⟩
  obtain ⟨destinationID, -, rfl⟩ := List.mem_map.mp hc
  rfl

theorem issues_prepareCapture (runID planID : String) :
    (prepareCapture runID planID).Issues OpeningCmd := by
  refine bind (issues_issue trivial) fun (available : Bool) => ?_
  cases available with
  | false => exact issues_pure _
  | true =>
    refine bind_option (issues_issue trivial) (fun _ => issues_pure _) ?_
    refine bind_option (issues_issue trivial) (fun _ => issues_pure _) ?_
    refine bind_except (issues_issue trivial) (fun _ => issues_pure _) fun capturedAt => ?_
    refine bind (issues_issue trivial) fun _ => ?_
    exact bind_option (issues_issue trivial) (fun _ => issues_pure _) (issues_pure _)

theorem issues_openRun (run : Run) : (openRun run).Issues OpeningCmd := by
  unfold openRun
  split
  · exact issues_issue trivial
  · refine bind (issues_issue trivial) fun _ => ?_
    refine bind_option (issues_issue trivial) (fun _ => issues_pure _) ?_
    refine bind_except (issues_prepareCapture _ _) (fun _ => ?_) fun manifest => ?_
    · exact bind (issues_issue trivial) fun _ => issues_pure _
    · refine bind (issues_issue trivial) fun _ => ?_
      refine bind (issues_issue trivial) fun _ => ?_
      exact bind_option (issues_issue trivial) (fun _ => issues_pure _) (issues_issue trivial)

/-- Before the copies start, the run keeps its evidence and stays in step with the memory. -/
theorem opening_exec (cmd : RunCmd) (o : RunOut) (w : RunWorld) (hc : OpeningCmd cmd)
    (h : Active w ∧ Synced w) :
    Active (runExec cmd o w).2 ∧ Synced (runExec cmd o w).2 := by
  obtain ⟨ha, hs⟩ := h
  cases cmd with
  | setCapture state =>
    exact ⟨⟨ha.toRunInv.setRun ha.keptRun ha.memory ha.soundRun, ha.runRunning, ha.stateRunning⟩,
      hs⟩
  | setManifest manifest =>
    exact ⟨⟨ha.toRunInv.setRun ha.keptRun ha.memory ha.soundRun, ha.runRunning, ha.stateRunning⟩,
      hs⟩
  | saveRun =>
    have hstore : RunInv (w.store w.run) :=
      ha.toRunInv.store (fun _ => rfl) ha.soundRun fun hsucc => by
        rw [ha.runRunning] at hsucc
        cases hsucc
    have hinv : RunInv ((w.store w.run).persist o.err) :=
      hstore.persist fun _ => KeepsVerified.refl _
    refine ⟨⟨hinv, ?_, ?_⟩, fun i => ?_⟩
    · rw [runExec, persist_run]
      exact ha.runRunning
    · rw [runExec, persist_state]
      exact ha.runRunning
    · rw [runExec, persist_run, persist_state]
      rfl
  | now | captureAvailable | preview | validateSourceRepositories | prepare | writeManifest
  | replaceResources => exact ⟨ha, hs⟩
  | destinationExists | progress | update | transferReports | upload | verifyRecoveryObjects
  | schedulingPaused | ctxErr | currentRetention | retain | record => exact hc.elim

/-- The copy proves the same, and its success is as well founded. -/
def Alike (c' c : CopyResult) : Prop :=
  copyEvidence c' = copyEvidence c ∧ (c.Sound → c'.Sound)

theorem abandonRetention_alike (message : String) (now : Instant) (c : CopyResult) :
    Alike (abandonRetention message now c) c := by
  unfold abandonRetention
  split <;> exact ⟨rfl, id⟩

theorem retryCopy_alike (c : CopyResult) : Alike (retryCopy c) c := by
  unfold retryCopy
  split
  · exact ⟨rfl, id⟩
  next h =>
    have hv : verifiedCopy c = false := by simpa using h
    refine ⟨?_, fun _ => sound_of_state (by simp)⟩
    exact (copyEvidence_of_state (by simp)).trans (copyEvidence_eq_none.mpr hv).symm

theorem interruptCopy_alike (c : CopyResult) : Alike (interruptCopy now c) c := by
  have habandon := abandonRetention_alike "Retention interrupted by service restart." now c
  unfold interruptCopy
  generalize abandonRetention _ now c = c' at habandon ⊢
  dsimp only
  split
  next h =>
    have hstate : c'.state ≠ .succeeded := by
      intro hs
      simp [hs] at h
    refine ⟨?_, fun _ => sound_of_state (by simp)⟩
    rw [← habandon.1, copyEvidence_of_state hstate, copyEvidence_of_state (by simp)]
  next => exact habandon

/-- A record whose copies are alike proves the same. -/
theorem alike_run {r' : Run} (h : List.Forall₂ Alike r'.copies r.copies) :
    (∀ i, evidence r' i = evidence r i) ∧ (r.Sound → r'.Sound) := by
  have hcopies : ∀ {l' l : List CopyResult}, List.Forall₂ Alike l' l →
      l'.map copyEvidence = l.map copyEvidence ∧ ((∀ c ∈ l, c.Sound) → ∀ c ∈ l', c.Sound) := by
    intro l' l hl
    induction hl with
    | nil => exact ⟨rfl, id⟩
    | cons hc _ ih =>
      refine ⟨by rw [List.map_cons, List.map_cons, hc.1, ih.1], fun hs => ?_⟩
      obtain ⟨hhead, htail⟩ := List.forall_mem_cons.mp hs
      exact List.forall_mem_cons.mpr ⟨hc.2 hhead, ih.2 htail⟩
  exact ⟨evidence_congr (hcopies h).1, (hcopies h).2⟩

theorem alike_map {f : CopyResult → CopyResult} (h : ∀ c, Alike (f c) c)
    (copies : List CopyResult) : List.Forall₂ Alike (copies.map f) copies :=
  List.forall₂_map_left_iff.mpr (List.forall₂_same.mpr fun c _ => h c)

/-- The loop of `StartRetry` keeps what every copy proves. -/
theorem scanRetry_alike {all : Bool} {retentionErr : String → Option String}
    {selected : List String} {copies : List CopyResult} {scan : RetryScan}
    (h : scanRetry all retentionErr selected copies = .ok scan) :
    List.Forall₂ Alike scan.copies copies := by
  induction copies generalizing selected scan with
  | nil =>
    cases h
    exact .nil
  | cons c rest ih =>
    unfold scanRetry at h
    split at h
    · dsimp only at h
      split at h
      · split at h
        · cases h
        · obtain ⟨tail, htail, heq⟩ := exists_of_bind_ok h
          cases heq
          exact .cons (retryCopy_alike c) (ih htail)
      · obtain ⟨tail, htail, heq⟩ := exists_of_bind_ok h
        cases heq
        exact .cons (retryCopy_alike c) (ih htail)
    · obtain ⟨tail, htail, heq⟩ := exists_of_bind_ok h
      cases heq
      exact .cons ⟨rfl, id⟩ (ih htail)

/-- What an accepted retry has of the stored run. -/
theorem startRetry_ok {run : Run} (h : startRetry request env r = .ok run) :
    r.state ≠ .running ∧ run.state = .running ∧
      (∀ i, evidence run i = evidence r i) ∧ (r.Sound → run.Sound) := by
  unfold startRetry at h
  split at h
  · cases h
  next hbusy =>
    split at h
    · cases h
    · obtain ⟨scan, hscan, h⟩ := exists_of_bind_ok h
      split at h
      · cases h
      · split at h
        · cases h
        · split at h
          · cases h
          · cases h
          · cases h
            exact ⟨hbusy, rfl, alike_run (scanRetry_alike hscan)⟩

theorem reconcileRun_alike :
    (∀ i, evidence (reconcileRun now r) i = evidence r i) ∧
      (r.Sound → (reconcileRun now r).Sound) := by
  unfold reconcileRun
  split
  · exact ⟨fun _ => rfl, id⟩
  · exact alike_run (alike_map interruptCopy_alike r.copies)

theorem reconcileRun_complete (h : r.state = .succeeded → Complete r)
    (hs : (reconcileRun now r).state = .succeeded) : Complete (reconcileRun now r) := by
  unfold reconcileRun at hs ⊢
  split
  next hskip =>
    rw [if_pos hskip] at hs
    exact h hs
  next hrun =>
    rw [if_neg hrun] at hs
    cases hs

theorem concluded_alike (err : Option String) (now : Instant) (r : Run) :
    (∀ i, evidence (concluded err now r) i = evidence r i) ∧
      (r.Sound → (concluded err now r).Sound) := by
  cases err with
  | none => exact ⟨fun _ => rfl, id⟩
  | some message => exact alike_run (alike_map (abandonRetention_alike message _) r.copies)

/-- A run succeeds only when each copy claims success and no retention failed. -/
theorem complete_of_operationError (hs : r.Sound) (h : operationError ctxErr r = none) :
    Complete r := by
  unfold operationError at h
  split at h
  · cases h
  · split at h
    · cases h
    next hstate =>
      split at h
      · cases h
      next hretention =>
        intro c hc
        have hcs : c.state = .succeeded := by
          by_contra hne
          exact hstate (List.any_eq_true.mpr ⟨c, hc, by simpa using hne⟩)
        refine ⟨hs c hc hcs, fun hf => ?_⟩
        exact hretention (List.any_eq_true.mpr ⟨c, hc, by simpa using hf⟩)

/-- A saved record in step with the shared run stays so. -/
theorem Synced.persist (h : Synced w) : Synced (w.persist err) := by
  intro i
  rw [persist_run, persist_state]
  exact h i

theorem RunInv.persist_synced (err : Option String) (h : RunInv w ∧ Synced w) :
    RunInv (w.persist err) ∧ Synced (w.persist err) :=
  ⟨h.1.persist fun _ => h.2.kept, h.2.persist⟩

theorem Active.persist (h : Active w) (hk : err = none → KeepsVerified w.state w.run) :
    Active (w.persist err) := by
  refine ⟨h.toRunInv.persist hk, ?_, ?_⟩
  · rw [persist_run]
    exact h.runRunning
  · rw [persist_state]
    exact h.stateRunning

/-- Rewriting the memory without changing what it proves. -/
theorem RunInv.rewrite_synced (h : RunInv w ∧ Synced w)
    (hr : ∀ i, evidence r i = evidence w.state i) (hs : r.Sound)
    (hc : r.state = .succeeded → Complete r) : RunInv (w.store r) ∧ Synced (w.store r) :=
  ⟨h.1.rewrite hr hs hc, fun i => (hr i).trans (h.2 i)⟩

/-- What another operation saves is tolerated by every copy. -/
theorem copyRely_persist {i : ℕ} (h : RunInv w) (ho : err = none → SettledRun w w.state) :
    CopyRely i w (w.persist err) := by
  refine ⟨by rw [persist_run], by rw [persist_run], fun p hp => ?_, fun hi => ?_⟩
  · rcases mem_persist hp with hp | ⟨herr, rfl⟩
    · exact .inl hp
    · refine .inr ?_
      by_cases hi : i ∈ w.unsaved
      · exact .inl (ho herr i hi)
      · rcases h.memory i with hm | hm | hm
        · exact .inl hm
        · exact .inr ⟨hm, hi⟩
        · exact absurd hm hi
  · rw [persist_unsaved]
    exact .inl hi

theorem stageInv_runInv (h : StageInv s) : RunInv s.world := by
  unfold StageInv at h
  split at h
  · exact h.1
  · exact h.1
  · exact h.1
  · exact h.1.1.toRunInv
  · exact h.1.toRunInv

theorem stageInv_conclude {operationErr : Option String} (h : StageInv s)
    (ho : s.outcome ctxErr = some operationErr) : StageInv (s.next (.conclude ctxErr now err)) := by
  have hinv := stageInv_runInv h
  -- Only the end of the copies can report no error.
  have hcomplete : operationErr = none → Complete s.world.run := by
    rintro rfl
    unfold outcome at ho
    split at ho
    · cases ho
    · split at ho
      · exact complete_of_operationError hinv.soundRun (Option.some.inj ho)
      · cases ho
    · cases ho
  have hrun : RunInv { s.world with run := concluded operationErr now s.world.run } := by
    obtain ⟨hev, hsound⟩ := concluded_alike operationErr now s.world.run
    refine hinv.setRun (fun p hp => keepsVerified_congr hev (hinv.keptRun p hp)) ?_
      (hsound hinv.soundRun)
    intro i
    rw [hev]
    exact hinv.memory i
  have hstore := hrun.store (fun _ => rfl) hrun.soundRun fun hsucc => ?_
  · simp only [next, ho]
    exact RunInv.persist_synced _ ⟨hstore, fun _ => rfl⟩
  · cases operationErr with
    | none => exact hcomplete rfl
    | some message => cases hsucc

theorem stageInv_retry (h : StageInv s) : StageInv (s.next (.retry request env err)) := by
  unfold next
  dsimp only
  split
  next run hrun =>
    obtain ⟨hbusy, hstate, hev, hsound⟩ := startRetry_ok hrun
    have hidle : RunInv s.world ∧ Synced s.world := by
      unfold StageInv at h
      split at h
      · exact h
      · exact h
      · exact absurd h.2.2 hbusy
      · exact absurd h.1.1.stateRunning hbusy
      · exact absurd h.1.stateRunning hbusy
    have hnew := RunInv.rewrite_synced hidle hev (hsound hidle.1.soundState) fun hsucc => by
      rw [hstate] at hsucc
      cases hsucc
    have hsaved := RunInv.persist_synced none hnew
    exact ⟨hsaved.1, hsaved.2, hstate⟩
  next => exact h

theorem stageInv_step (h : StageInv s) (htr : carefulRunLts.Tr s l t) : StageInv t := by
  obtain ⟨⟨hen, rfl⟩, hcare⟩ := htr
  cases l with
  | execute =>
    dsimp only [next]
    split
    next hst =>
      simp only [StageInv, hst] at h
      obtain ⟨hinv, hsync, hrunning⟩ := h
      refine ⟨⟨⟨hinv.setRun hinv.keptState (fun _ => .inr (.inl rfl)) hinv.soundState, hrunning,
        hrunning⟩, fun _ => rfl⟩, issues_openRun _⟩
    next => exact h
  | command o =>
    dsimp only [next]
    split
    next p hst =>
      simp only [StageInv, hst] at h
      have hstep := h.2.step (m := runMachine) (o := o) opening_exec h.1
      exact ⟨hstep.2, hstep.1⟩
    next => exact h
  | fork =>
    dsimp only [next]
    split
    next hst =>
      simp only [StageInv, hst] at h
      refine ⟨h.1.1, fun i p hp => ?_⟩
      simp only [forkThreads] at hp
      split at hp
      next c hc =>
        split at hp
        · cases hp
          exact safe_copyThread h.1.1 hc
        · cases hp
      next => cases hp
    next => exact h
  | thread index o =>
    dsimp only [next]
    split
    next threads hst =>
      simp only [StageInv, hst] at h
      exact h.step copyRely_compatible (hcare threads hst)
    next => exact h
  | conclude ctxErr now saveErr =>
    cases ho : s.outcome ctxErr with
    | some operationErr => exact stageInv_conclude h ho
    | none =>
      simp only [next, ho]
      exact h
  | retry request env saveErr => exact stageInv_retry h
  | persist saveErr =>
    unfold next StageInv at *
    dsimp only
    split at h
    · exact RunInv.persist_synced saveErr h
    · exact RunInv.persist_synced saveErr h
    · obtain ⟨hinv, hsync, hrunning⟩ := h
      have hsaved := RunInv.persist_synced saveErr ⟨hinv, hsync⟩
      exact ⟨hsaved.1, hsaved.2, by rw [persist_state]; exact hrunning⟩
    · exact ⟨⟨h.1.1.persist fun _ => h.1.2.kept, h.1.2.persist⟩, h.2⟩
    next threads hst =>
      have hsettled := hcare threads hst
      exact h.env copyRely_compatible
        (h.1.persist fun herr => h.1.toRunInv.state_kept (hsettled herr))
        fun i => copyRely_persist h.1.toRunInv hsettled
  | crash => exact ⟨(stageInv_runInv h).restart, fun _ => rfl⟩
  | reconcile now saveErr =>
    dsimp only [next]
    split
    next hst =>
      simp only [StageInv, hst] at h
      exact RunInv.persist_synced _ (RunInv.rewrite_synced h reconcileRun_alike.1
        (reconcileRun_alike.2 h.1.soundState) (reconcileRun_complete h.1.completeState))
    next => exact h

/-- In every history in which no save writes a verified copy whose own save failed, each saved
state keeps what the earlier ones have verified, and a run saved as succeeded has every copy
verified and no failed retention. -/
theorem verified_copies_are_kept (h : carefulRunLts.Reachable AcceptedRun s) :
    (s.world.persisted.Pairwise fun newer older => KeepsVerified older newer) ∧
      ∀ p ∈ s.world.persisted, p.state = .succeeded → Complete p := by
  have hinv : StageInv s := by
    apply Lts.reachable_of_trInv (fun s hs => stageInv_accepted hs) ?_ h
    intro s l t htr hs
    exact stageInv_step hs htr
  exact ⟨(stageInv_runInv hinv).ordered, (stageInv_runInv hinv).completePersisted⟩

/-- Two copies; the capture succeeds and both copies start. -/
def twoCopies : RunSystem :=
  RunSystem.start (newRun "run_1" "job_1" "plan_1" "nightly" 0 100 ["local", "offsite"])

def captured : List RunLabel :=
  .execute :: List.replicate 12 (.command {}) ++ [.fork]

def uploadedAs (id : String) : RunOut := { snapshot := .ok id }

/-- One copy from its start to its recorded result, with every save going through. -/
def copied (index : ℕ) (id : String) : List RunLabel :=
  List.replicate 4 (.thread index {}) ++ [.thread index (uploadedAs id)] ++
    List.replicate 9 (.thread index {})

/-- Nothing is withheld from a state in which every save went through. -/
theorem careful_of_saved (h : s.world.unsaved = []) : s.Careful l := by
  have hsettled (r : Run) : SettledRun s.world r := by simp [SettledRun, h]
  intro threads _
  cases l with
  | thread index o => exact fun c k _ _ _ => hsettled _
  | persist saveErr => exact fun _ => hsettled _
  | execute | command | fork | conclude | retry | crash | reconcile => trivial

theorem careful_run {ls : List RunLabel}
    (h : Lts.allEnabled (fun s l => s.enabled l && s.world.unsaved.isEmpty) next s ls) :
    carefulRunLts.MTr s ls (ls.foldl next s) := by
  refine (Lts.mTr_ofNext h).mono fun s l t htr => ?_
  obtain ⟨hen, rfl⟩ := htr
  obtain ⟨hen, hsaved⟩ := Bool.and_eq_true_iff.mp hen
  exact ⟨⟨hen, rfl⟩, careful_of_saved (List.isEmpty_iff.mp hsaved)⟩

def bothCopied : List RunLabel :=
  captured ++ copied 0 "0123abcd" ++ copied 1 "4567abcd" ++ [.conclude none 9 none]

theorem both_copies_are_kept :
    (bothCopied.foldl RunSystem.next twoCopies).world.state.state = .succeeded ∧
      ((bothCopied.foldl RunSystem.next twoCopies).world.persisted.Pairwise
        fun newer older => KeepsVerified older newer) ∧
      ∀ p ∈ (bothCopied.foldl RunSystem.next twoCopies).world.persisted,
        p.state = .succeeded → Complete p :=
  ⟨by decide +kernel, verified_copies_are_kept ⟨twoCopies, ⟨_, _, _, _, _, _, _, rfl⟩, bothCopied,
    careful_run (by decide +kernel)⟩⟩

/-- The first copy is verified, but its closing save fails; the second copy's first save then
writes it as verified, and its next save, after the first copy has ended, as failed. -/
def siblingSaves : List RunLabel :=
  captured ++ List.replicate 4 (.thread 0 {}) ++ [.thread 0 (uploadedAs "0123abcd")] ++
    List.replicate 5 (.thread 0 {}) ++ [.thread 0 { err := some "database is locked" }] ++
    List.replicate 3 (.thread 1 {}) ++ [.thread 0 {}] ++ [.thread 1 {}] ++
    [.thread 1 (uploadedAs "4567abcd")] ++ List.replicate 2 (.thread 1 {})

def afterSiblingSaves : List Run :=
  (siblingSaves.foldl RunSystem.next twoCopies).world.persisted

theorem sibling_save_loses_verified_copy : ∃ s, runLts.Reachable AcceptedRun s ∧
    ¬(s.world.persisted.Pairwise fun newer older => KeepsVerified older newer) := by
  refine ⟨siblingSaves.foldl RunSystem.next twoCopies, ⟨twoCopies, ⟨_, _, _, _, _, _, _, rfl⟩,
    siblingSaves, Lts.mTr_ofNext (by decide +kernel)⟩, fun h => ?_⟩
  have hlen : 1 < afterSiblingSaves.length := by decide +kernel
  have hkeeps := List.pairwise_iff_getElem.mp h 0 1 (Nat.zero_lt_of_lt hlen) hlen (by decide)
  have holder : (afterSiblingSaves[1]?).map (evidence · 0) =
      some (some ("local", "0123abcd", 0)) := by
    decide +kernel
  have hnewer : (afterSiblingSaves[0]?).map (evidence · 0) = some none := by decide +kernel
  rw [List.getElem?_eq_getElem hlen] at holder
  rw [List.getElem?_eq_getElem (Nat.zero_lt_of_lt hlen)] at hnewer
  have hkept := hkeeps 0 _ (Option.some.inj holder)
  cases hkept.symm.trans (Option.some.inj hnewer)

end Stacklab.Backup
