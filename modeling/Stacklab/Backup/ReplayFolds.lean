import Mathlib.Data.Prod.Lex
import Stacklab.Backup.Health
import Stacklab.Lib.Latest

/-! Recording runs as offers to one register per plan and destination. -/
namespace Stacklab.Backup

open Lib

variable {sum256 : Bytes → Digest} {now : Instant} {st : HealthState} {run : Run} {plan : Plan}
  {capturedAt : Instant} {copy : CopyResult} {key : String}

/-- Not in the future first, then later. -/
def captureStamp (now t : Instant) : Bool ×ₗ ℤ := toLex (!inFuture now t, t)

def attemptStamp (now : Instant) (attempt : CopyAttempt) : Bool ×ₗ ℤ ×ₗ String :=
  toLex (!inFuture now attempt.completedAt, toLex (attempt.completedAt, attempt.runID))

theorem newerCheckpoint_eq {old : CopyCheckpoint} {t : Instant} :
    newerCheckpoint now old t = true ↔ captureStamp now t < captureStamp now old.capturedAt := by
  unfold newerCheckpoint captureStamp
  rw [Prod.Lex.toLex_lt_toLex]
  cases inFuture now old.capturedAt <;> cases inFuture now t <;> simp

theorem newerCopyAttempt_eq {candidate previous : CopyAttempt} :
    newerCopyAttempt candidate previous now = true ↔
      ¬ attemptStamp now candidate < attemptStamp now previous := by
  unfold newerCopyAttempt attemptStamp
  rw [Prod.Lex.toLex_lt_toLex, Prod.Lex.toLex_lt_toLex]
  by_cases heq : candidate.completedAt = previous.completedAt
  · simp only [heq, ne_eq, not_true_eq_false, if_false, if_true, lt_irrefl, false_or, true_and,
      not_lt, ge_iff_le, decide_eq_true_eq]
  · have hlt : previous.completedAt < candidate.completedAt ↔
        previous.completedAt ≤ candidate.completedAt :=
      ⟨le_of_lt, fun hle => lt_of_le_of_ne hle (Ne.symm heq)⟩
    cases inFuture now candidate.completedAt <;> cases inFuture now previous.completedAt <;>
      simp [heq, hlt]

/-- The attempt of a plan and destination keeps the newest completed one. -/
def attemptRegister (now : Instant) :
    Register (Bool ×ₗ ℤ ×ₗ String) CopyAttempt CopyAttempt where
  stamp := attemptStamp now
  offered := attemptStamp now
  made := id
  keeps _ _ := false
  stamp_made _ := rfl

/-- A copy of a captured run. -/
structure Candidate where
  stored : PersistedRun
  capturedAt : Instant
  copy : CopyResult

/-- The checkpoint of a plan and destination keeps the newest capture. -/
def checkpointRegister (sum256 : Bytes → Digest) (now : Instant) :
    Register (Bool ×ₗ ℤ) CopyCheckpoint Candidate where
  stamp old := captureStamp now old.capturedAt
  offered c := captureStamp now c.capturedAt
  made c := newCheckpoint sum256 c.stored.run c.stored.planSnapshot c.capturedAt c.copy
  keeps old c := sameCheckpoint old c.stored.run c.copy
  stamp_made _ := rfl

/-- Plans and destinations are the same. -/
def SameConfiguration (st st' : HealthState) : Prop :=
  st'.plans = st.plans ∧ st'.destinations = st.destinations

theorem SameConfiguration.configured {st' : HealthState} (h : SameConfiguration st st')
    (planID destinationID : String) :
    st'.configured planID destinationID = st.configured planID destinationID := by
  rw [HealthState.configured, HealthState.configured, h.1, h.2]

theorem SameConfiguration.trans {st' st'' : HealthState} (h : SameConfiguration st st')
    (h' : SameConfiguration st' st'') : SameConfiguration st st'' :=
  ⟨h'.1.trans h.1, h'.2.trans h.2⟩

/-- The copies of a run that are recorded under a key. -/
def copiesAt (st : HealthState) (key : String) (run : Run) : List CopyResult :=
  run.copies.filter fun copy =>
    st.configured run.planID copy.destinationID &&
      key = checkpointKey run.planID copy.destinationID

/-- Whether a copy of the run is recorded under the key. -/
def recordedAt (st : HealthState) (key : String) (run : Run) (copy : CopyResult) : Bool :=
  st.configured run.planID copy.destinationID &&
    key = checkpointKey run.planID copy.destinationID

theorem SameConfiguration.recordedAt {st' : HealthState} (h : SameConfiguration st st') :
    recordedAt st' key run copy = recordedAt st key run copy := by
  rw [Backup.recordedAt, Backup.recordedAt, h.configured]

/-- What the copies of a run offer to the attempts under a key. -/
def attemptsAt (completed : Run → CopyResult → Option CopyAttempt) (st : HealthState)
    (key : String) (run : Run) : List CopyAttempt :=
  (copiesAt st key run).filterMap (completed run)

/-- What a run offers to the checkpoint under a key. -/
def candidatesAt (st : HealthState) (key : String) (stored : PersistedRun) : List Candidate :=
  match stored.run.capturedAt with
  | none => []
  | some capturedAt =>
    ((copiesAt st key stored.run).filter checkpointable).map fun copy => ⟨stored, capturedAt, copy⟩

/-- Every map holds at a key what its register makes of the offers. -/
structure Offered (sum256 : Bytes → Digest) (now : Instant) (st st' : HealthState)
    (candidates : String → List Candidate) (copies maintenance : String → List CopyAttempt) :
    Prop where
  same : SameConfiguration st st'
  checkpoints : ∀ key, st'.copyCheckpoints.lookup key =
    (candidates key).foldl (checkpointRegister sum256 now).offer (st.copyCheckpoints.lookup key)
  copies : ∀ key, st'.copyAttempts.lookup key =
    (copies key).foldl (attemptRegister now).offer (st.copyAttempts.lookup key)
  maintenance : ∀ key, st'.maintenanceAttempts.lookup key =
    (maintenance key).foldl (attemptRegister now).offer (st.maintenanceAttempts.lookup key)

section Rules

variable {β : Type} {st' st'' : HealthState} {c c' : String → List Candidate}
  {a a' m m' : String → List CopyAttempt}

theorem Offered.trans (h : Offered sum256 now st st' c a m)
    (h' : Offered sum256 now st' st'' c' a' m') :
    Offered sum256 now st st'' (fun key => c key ++ c' key) (fun key => a key ++ a' key)
      (fun key => m key ++ m' key) where
  same := h.same.trans h'.same
  checkpoints key := by rw [h'.checkpoints, h.checkpoints, List.foldl_append]
  copies key := by rw [h'.copies, h.copies, List.foldl_append]
  maintenance key := by rw [h'.maintenance, h.maintenance, List.foldl_append]

/-- What a loop offers while it keeps the configuration. -/
theorem Offered.foldl {step : HealthState → β → HealthState} {c : β → String → List Candidate}
    {a m : β → String → List CopyAttempt}
    (hstep : ∀ st', SameConfiguration st st' → ∀ b,
      Offered sum256 now st' (step st' b) (c b) (a b) (m b)) (l : List β) :
    Offered sum256 now st (l.foldl step st) (fun key => l.flatMap (c · key))
      (fun key => l.flatMap (a · key)) (fun key => l.flatMap (m · key)) := by
  suffices h : ∀ st', SameConfiguration st st' → Offered sum256 now st' (l.foldl step st')
      (fun key => l.flatMap (c · key)) (fun key => l.flatMap (a · key))
      (fun key => l.flatMap (m · key)) from h st ⟨rfl, rfl⟩
  induction l with
  | nil => exact fun st' _ => ⟨⟨rfl, rfl⟩, fun _ => rfl, fun _ => rfl, fun _ => rfl⟩
  | cons b rest ih =>
    intro st' hsame
    have hfirst := hstep st' hsame b
    exact hfirst.trans (ih _ (hsame.trans hfirst.same))

theorem flatMap_nothing (l : List CopyResult) : (l.flatMap fun _ => ([] : List β)) = [] :=
  List.flatMap_eq_nil_iff.mpr fun _ _ => rfl

theorem flatMap_recorded (p : CopyResult → Bool) (f : CopyResult → Option β)
    (l : List CopyResult) :
    (l.flatMap fun copy => if p copy then (f copy).toList else []) = (l.filter p).filterMap f := by
  induction l with
  | nil => rfl
  | cons copy rest ih =>
    rw [List.flatMap_cons, ih, List.filter_cons]
    split
    · cases hf : f copy <;> simp [hf]
    · rfl

end Rules

theorem lookup_recordAttempt {attempts : GoMap String CopyAttempt} {key' : String}
    {completed : Option CopyAttempt} :
    (recordAttempt now attempts key' completed).lookup key =
      if key = key' then completed.toList.foldl (attemptRegister now).offer (attempts.lookup key)
      else attempts.lookup key := by
  cases completed with
  | none => simp [recordAttempt]
  | some attempt =>
    unfold recordAttempt
    dsimp only
    by_cases hkey : key = key'
    · subst hkey
      rw [if_pos rfl, Option.toList_some, List.foldl_cons, List.foldl_nil]
      cases hold : attempts.lookup key with
      | none => simp [Register.offer, attemptRegister]
      | some previous =>
        have hnewer := @newerCopyAttempt_eq now attempt previous
        rw [Option.all_some]
        by_cases hlt : attemptStamp now attempt < attemptStamp now previous
        · rw [if_neg (by rw [hnewer]; exact not_not.mpr hlt), hold,
            (attemptRegister now).offer_kept (.inl hlt)]
        · rw [if_pos (hnewer.mpr hlt), AList.lookup_insert,
            (attemptRegister now).offer_replaced (not_lt.mp hlt) rfl]
          rfl
    · rw [if_neg hkey]
      split
      · exact AList.lookup_insert_ne hkey
      · rfl

theorem recordCopyAttempt_offered {st' : HealthState} (run : Run) (copy : CopyResult)
    (hsame : SameConfiguration st st') :
    Offered sum256 now st' (recordCopyAttempt now run st' copy) (fun _ => [])
      (fun key => if recordedAt st key run copy then (completedCopyAttempt run copy).toList else [])
      fun key =>
        if recordedAt st key run copy then (completedMaintenanceAttempt run copy).toList else [] := by
  simp only [← hsame.recordedAt]
  unfold recordCopyAttempt recordedAt
  cases hconf : st'.configured run.planID copy.destinationID with
  | false => exact ⟨⟨rfl, rfl⟩, fun _ => rfl, fun _ => by simp, fun _ => by simp⟩
  | true =>
    rw [if_neg (by simp)]
    refine ⟨⟨rfl, rfl⟩, fun _ => rfl, fun key => ?_, fun key => ?_⟩
    · rw [lookup_recordAttempt]
      by_cases hkey : key = checkpointKey run.planID copy.destinationID <;> simp [hkey]
    · rw [lookup_recordAttempt]
      by_cases hkey : key = checkpointKey run.planID copy.destinationID <;> simp [hkey]

theorem recordCheckpoint_frame :
    SameConfiguration st (recordCheckpoint sum256 now run plan capturedAt st copy) ∧
      (recordCheckpoint sum256 now run plan capturedAt st copy).copyAttempts = st.copyAttempts ∧
      (recordCheckpoint sum256 now run plan capturedAt st copy).maintenanceAttempts =
        st.maintenanceAttempts := by
  unfold recordCheckpoint
  dsimp only
  split
  · exact ⟨⟨rfl, rfl⟩, rfl, rfl⟩
  · split
    · exact ⟨⟨rfl, rfl⟩, rfl, rfl⟩
    · split
      · exact ⟨⟨rfl, rfl⟩, rfl, rfl⟩
      · exact ⟨⟨rfl, rfl⟩, rfl, rfl⟩

theorem recordCheckpoint_checkpoints :
    (recordCheckpoint sum256 now run plan capturedAt st copy).copyCheckpoints =
      if st.configured run.planID copy.destinationID = true ∧ checkpointable copy = true ∧
          ∀ old, st.copyCheckpoints.lookup (checkpointKey run.planID copy.destinationID) =
            some old → newerCheckpoint now old capturedAt = false ∧
              sameCheckpoint old run copy = false then
        st.copyCheckpoints.insert (checkpointKey run.planID copy.destinationID)
          (newCheckpoint sum256 run plan capturedAt copy)
      else st.copyCheckpoints := by
  unfold recordCheckpoint
  dsimp only
  split
  next hguard =>
    rw [if_neg]
    rintro ⟨hconf, hcan, -⟩
    simp [hconf, hcan] at hguard
  next hguard =>
    split
    next hkept =>
      rw [if_neg]
      rintro ⟨-, -, hnew⟩
      cases hold : st.copyCheckpoints.lookup (checkpointKey run.planID copy.destinationID) with
      | none => simp [hold] at hkept
      | some old => simp [hold, hnew old hold] at hkept
    next hnew =>
      simp only [Bool.or_eq_true, Bool.not_eq_true', not_or, Bool.not_eq_false] at hguard
      rw [if_pos (c := _ ∧ _ ∧ _) ⟨hguard.1, hguard.2, fun old hold => by simpa [hold] using hnew⟩]
      split <;> rfl

theorem lookup_recordCheckpoint :
    (recordCheckpoint sum256 now run plan capturedAt st copy).copyCheckpoints.lookup key =
      if recordedAt st key run copy && checkpointable copy then
        (checkpointRegister sum256 now).offer (st.copyCheckpoints.lookup key)
          ⟨⟨run, plan⟩, capturedAt, copy⟩
      else st.copyCheckpoints.lookup key := by
  rw [recordCheckpoint_checkpoints, recordedAt]
  cases hconf : st.configured run.planID copy.destinationID with
  | false => simp
  | true =>
    cases hcan : checkpointable copy with
    | false => simp
    | true =>
      by_cases hkey : key = checkpointKey run.planID copy.destinationID
      · subst hkey
        simp only [true_and, decide_true, Bool.and_self, if_true]
        cases hold : st.copyCheckpoints.lookup (checkpointKey run.planID copy.destinationID) with
        | none =>
          rw [if_pos fun old h => by cases h]
          exact AList.lookup_insert _
        | some old =>
          by_cases hkept : newerCheckpoint now old capturedAt = true ∨
              sameCheckpoint old run copy = true
          · rw [if_neg fun h => by simp [h old rfl] at hkept, hold]
            rw [newerCheckpoint_eq] at hkept
            exact (Register.offer_kept (r := checkpointRegister sum256 now)
              (c := ⟨⟨run, plan⟩, capturedAt, copy⟩) hkept).symm
          · obtain ⟨hnewer, hsame⟩ := not_or.mp hkept
            rw [Bool.not_eq_true] at hsame
            rw [if_pos fun other h => by
              cases h
              exact ⟨Bool.eq_false_iff.mpr hnewer, hsame⟩, AList.lookup_insert]
            rw [newerCheckpoint_eq, not_lt] at hnewer
            exact (Register.offer_replaced (r := checkpointRegister sum256 now)
              (c := ⟨⟨run, plan⟩, capturedAt, copy⟩) hnewer hsame).symm
      · simp only [hkey, decide_false, Bool.and_false, Bool.false_and, Bool.false_eq_true, if_false]
        split
        · exact AList.lookup_insert_ne hkey
        · rfl

theorem recordCheckpoint_offered {st' : HealthState} (run : Run) (plan : Plan)
    (capturedAt : Instant) (copy : CopyResult) (hsame : SameConfiguration st st') :
    Offered sum256 now st' (recordCheckpoint sum256 now run plan capturedAt st' copy)
      (fun key => if checkpointable copy && recordedAt st key run copy then
        (some (⟨⟨run, plan⟩, capturedAt, copy⟩ : Candidate)).toList else [])
      (fun _ => []) fun _ => [] := by
  obtain ⟨hkept, hcopies, hmaintenance⟩ :=
    @recordCheckpoint_frame sum256 now st' run plan capturedAt copy
  refine ⟨hkept, fun key => ?_, fun key => by rw [hcopies]; rfl, fun key => by
    rw [hmaintenance]; rfl⟩
  rw [lookup_recordCheckpoint, hsame.recordedAt, Bool.and_comm]
  split <;> rfl

theorem recordCheckpointsLocked_offered (stored : PersistedRun) {st' : HealthState}
    (hsame : SameConfiguration st st') :
    Offered sum256 now st'
      (recordCheckpointsLocked sum256 now st' stored.run stored.planSnapshot)
      (candidatesAt st · stored) (attemptsAt completedCopyAttempt st · stored.run)
      (attemptsAt completedMaintenanceAttempt st · stored.run) := by
  have hattempts : Offered sum256 now st' (recordCopyAttemptsLocked now st' stored.run)
      (fun _ => []) (attemptsAt completedCopyAttempt st · stored.run)
      (attemptsAt completedMaintenanceAttempt st · stored.run) := by
    have hloop : Offered sum256 now st' (recordCopyAttemptsLocked now st' stored.run) _ _ _ :=
      Offered.foldl (fun _ hsame' copy =>
        recordCopyAttempt_offered stored.run copy (hsame.trans hsame')) stored.run.copies
    simp only [flatMap_recorded, flatMap_nothing] at hloop
    exact hloop
  unfold recordCheckpointsLocked candidatesAt
  cases stored.run.capturedAt with
  | none => exact hattempts
  | some capturedAt =>
    have hcheckpoints := hattempts.trans (Offered.foldl (fun _ hsame' copy =>
      recordCheckpoint_offered stored.run stored.planSnapshot capturedAt copy
        ((hsame.trans hattempts.same).trans hsame')) stored.run.copies)
    simp only [flatMap_recorded, flatMap_nothing, List.nil_append, List.append_nil,
      List.filterMap_eq_map', ← List.filter_filter] at hcheckpoints
    exact hcheckpoints

/-- After any number of runs, every map holds at a key what its register makes of the offers. -/
theorem replayRuns_offered (sum256 : Bytes → Digest) (now : Instant) (st : HealthState)
    (runs : List PersistedRun) :
    Offered sum256 now st (replayRuns sum256 now st runs)
      (fun key => runs.flatMap (candidatesAt st key))
      (fun key => runs.flatMap fun stored => attemptsAt completedCopyAttempt st key stored.run)
      fun key => runs.flatMap fun stored =>
        attemptsAt completedMaintenanceAttempt st key stored.run :=
  Offered.foldl (fun _ hsame stored => recordCheckpointsLocked_offered stored hsame) runs

end Stacklab.Backup
