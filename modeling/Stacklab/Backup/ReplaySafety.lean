import Stacklab.Backup.ReplayFolds

/-! Replaying the stored runs: the order does not matter, and nothing comes back. -/
namespace Stacklab.Backup

open Lib HealthState

variable {plan destination destination' : String} {run : Run} {copy : CopyResult} {c : Candidate}

theorem append_cons_inj {α : Type} {c : α} {xs ys us vs : List α} (hx : c ∉ xs) (hy : c ∉ ys)
    (h : xs ++ c :: us = ys ++ c :: vs) : xs = ys ∧ us = vs := by
  induction xs generalizing ys with
  | nil =>
    cases ys with
    | nil => exact ⟨rfl, (List.cons.inj h).2⟩
    | cons y ys => exact absurd ((List.cons.inj h).1 ▸ List.mem_cons_self) hy
  | cons x xs ih =>
    cases ys with
    | nil => exact absurd ((List.cons.inj h).1 ▸ List.mem_cons_self) hx
    | cons y ys =>
      obtain ⟨rfl, hrest⟩ := List.cons.inj h
      obtain ⟨rfl, htail⟩ := ih (fun hc => hx (List.mem_cons_of_mem _ hc))
        (fun hc => hy (List.mem_cons_of_mem _ hc)) hrest
      exact ⟨rfl, htail⟩

theorem checkpointKey_inj {plan' : String} (hplan : '/' ∉ plan.toList) (hplan' : '/' ∉ plan'.toList)
    (h : checkpointKey plan destination = checkpointKey plan' destination') :
    plan = plan' ∧ destination = destination' := by
  have hlist := congrArg String.toList h
  simp only [checkpointKey, String.toList_append, List.append_assoc] at hlist
  obtain ⟨hp, hd⟩ := append_cons_inj hplan hplan' hlist
  exact ⟨String.toList_inj.mp hp, String.toList_inj.mp hd⟩

theorem checkpointKey_destination
    (h : checkpointKey plan destination = checkpointKey plan destination') :
    destination = destination' := by
  have hlist := congrArg String.toList h
  simp only [checkpointKey, String.toList_append] at hlist
  exact String.toList_inj.mp (List.append_cancel_left hlist)

variable {sum256 : Bytes → Digest} {now : Instant} {st : HealthState} {key : String}
  {runs : List PersistedRun}

/-- Runs that a service can have stored: they differ in their ids and, within a plan, in their
capture times; each has one copy per destination; plan ids hold no slash. -/
structure Replayable (st : HealthState) (runs : List PersistedRun) : Prop where
  ids : (runs.map fun stored => stored.run.id).Nodup
  copies : ∀ stored ∈ runs, (stored.run.copies.map CopyResult.destinationID).Nodup
  captures : runs.Pairwise fun a b => a.run.planID = b.run.planID →
    ∀ t, a.run.capturedAt = some t → b.run.capturedAt ≠ some t
  plans : ∀ id, (st.plans.lookup id).isSome → '/' ∉ id.toList

/-- A recorded checkpoint of one of the runs carries the capture time of that run. -/
def AgreesWithRuns (st : HealthState) (runs : List PersistedRun) : Prop :=
  ∀ stored ∈ runs, ∀ copy ∈ stored.run.copies, ∀ checkpoint,
    st.copyCheckpoints.lookup (checkpointKey stored.run.planID copy.destinationID) =
      some checkpoint →
    checkpoint.runID = stored.run.id → checkpoint.snapshotID = copy.snapshotID →
    ∀ t, stored.run.capturedAt = some t → checkpoint.capturedAt = t

theorem mem_copiesAt :
    copy ∈ copiesAt st key run ↔ copy ∈ run.copies ∧
      st.configured run.planID copy.destinationID = true ∧
      key = checkpointKey run.planID copy.destinationID := by
  simp [copiesAt]

theorem mem_candidatesAt {stored : PersistedRun} :
    c ∈ candidatesAt st key stored ↔ c.stored = stored ∧
      stored.run.capturedAt = some c.capturedAt ∧ c.copy ∈ copiesAt st key stored.run ∧
      checkpointable c.copy = true := by
  unfold candidatesAt
  obtain ⟨stored', capturedAt, copy⟩ := c
  cases hcaptured : stored.run.capturedAt with
  | none => simp
  | some t =>
    simp only [List.mem_map, List.mem_filter, Candidate.mk.injEq, Option.some.injEq]
    constructor
    · rintro ⟨other, ⟨hmem, hcan⟩, rfl, rfl, rfl⟩
      exact ⟨rfl, rfl, hmem, hcan⟩
    · rintro ⟨rfl, rfl, hmem, hcan⟩
      exact ⟨copy, ⟨hmem, hcan⟩, rfl, rfl, rfl⟩

/-- One run has at most one copy under a key. -/
theorem copiesAt_pairwise {R : CopyResult → CopyResult → Prop}
    (h : (run.copies.map CopyResult.destinationID).Nodup) : (copiesAt st key run).Pairwise R := by
  have hdistinct : run.copies.Pairwise fun a b => a.destinationID ≠ b.destinationID :=
    List.pairwise_map.mp h
  refine (hdistinct.sublist List.filter_sublist).imp_of_mem fun {a b} ha hb hne => ?_
  have hkeys := (mem_copiesAt.mp ha).2.2.symm.trans (mem_copiesAt.mp hb).2.2
  exact absurd (checkpointKey_destination hkeys) hne

/-- Copies under one key belong to one plan. -/
theorem Replayable.same_plan (h : Replayable st runs) {run' : Run} {copy' : CopyResult}
    (hcopy : copy ∈ copiesAt st key run) (hcopy' : copy' ∈ copiesAt st key run') :
    run.planID = run'.planID := by
  obtain ⟨-, hconf, hkey⟩ := mem_copiesAt.mp hcopy
  obtain ⟨-, hconf', hkey'⟩ := mem_copiesAt.mp hcopy'
  rw [configured, Bool.and_eq_true] at hconf hconf'
  exact (checkpointKey_inj (h.plans _ hconf.1) (h.plans _ hconf'.1) (hkey.symm.trans hkey')).1

theorem Replayable.distinct (h : Replayable st runs) :
    runs.Pairwise fun a b => a.run.id ≠ b.run.id :=
  List.pairwise_map.mp h.ids

theorem Replayable.candidates_apart (h : Replayable st runs) :
    (runs.flatMap (candidatesAt st key)).Pairwise (checkpointRegister sum256 now).Apart := by
  rw [List.pairwise_flatMap]
  refine ⟨fun stored hstored => ?_, ?_⟩
  · unfold candidatesAt
    split
    · exact List.Pairwise.nil
    · rw [List.pairwise_map]
      exact (copiesAt_pairwise (h.copies stored hstored)).sublist List.filter_sublist
  · refine (h.distinct.and h.captures).imp fun {a b} hab x hx y hy => ?_
    obtain ⟨hid, hcaptures⟩ := hab
    obtain ⟨rfl, hcaptured, hcopy, -⟩ := mem_candidatesAt.mp hx
    obtain ⟨rfl, hcaptured', hcopy', -⟩ := mem_candidatesAt.mp hy
    have htimes : x.capturedAt ≠ y.capturedAt := fun heq =>
      hcaptures (h.same_plan hcopy hcopy') x.capturedAt hcaptured (heq ▸ hcaptured')
    refine ⟨fun heq => htimes (congrArg (fun p => (ofLex p).2) heq), ?_, ?_⟩
    · simp [checkpointRegister, sameCheckpoint, newCheckpoint, hid]
    · simp [checkpointRegister, sameCheckpoint, newCheckpoint, hid.symm]

theorem AgreesWithRuns.agrees (h : AgreesWithRuns st runs) :
    (checkpointRegister sum256 now).Agrees (st.copyCheckpoints.lookup key)
      (runs.flatMap (candidatesAt st key)) := by
  intro old hold c hc hkeeps
  obtain ⟨stored, hstored, hc⟩ := List.mem_flatMap.mp hc
  obtain ⟨rfl, hcaptured, hcopy, -⟩ := mem_candidatesAt.mp hc
  obtain ⟨hmem, -, rfl⟩ := mem_copiesAt.mp hcopy
  simp only [checkpointRegister, sameCheckpoint, Bool.and_eq_true, decide_eq_true_eq] at hkeeps
  have hsame := h c.stored hstored c.copy hmem old hold hkeeps.1.2 hkeeps.1.1 c.capturedAt hcaptured
  exact congrArg (captureStamp now) hsame

theorem Replayable.attempts_apart (h : Replayable st runs)
    {completed : Run → CopyResult → Option CopyAttempt}
    (hid : ∀ run copy attempt, completed run copy = some attempt → attempt.runID = run.id) :
    (runs.flatMap fun stored => attemptsAt completed st key stored.run).Pairwise
      (attemptRegister now).Apart := by
  rw [List.pairwise_flatMap]
  refine ⟨fun stored hstored => ?_, ?_⟩
  · exact List.pairwise_filterMap.mpr (copiesAt_pairwise (h.copies stored hstored))
  · refine h.distinct.imp fun {a b} hab x hx y hy => ?_
    obtain ⟨copy, -, hx⟩ := List.mem_filterMap.mp hx
    obtain ⟨copy', -, hy⟩ := List.mem_filterMap.mp hy
    refine ⟨fun heq => hab ?_, rfl, rfl⟩
    rw [← hid _ _ _ hx, ← hid _ _ _ hy]
    exact congrArg (fun p => (ofLex (ofLex p).2).2) heq

theorem completedCopyAttempt_id (run : Run) (copy : CopyResult) (attempt : CopyAttempt)
    (h : completedCopyAttempt run copy = some attempt) : attempt.runID = run.id := by
  unfold completedCopyAttempt at h
  split at h
  · cases h
  · cases h
    rfl

theorem completedMaintenanceAttempt_id (run : Run) (copy : CopyResult) (attempt : CopyAttempt)
    (h : completedMaintenanceAttempt run copy = some attempt) : attempt.runID = run.id := by
  unfold completedMaintenanceAttempt at h
  split at h
  · cases h
  · cases h
    rfl

/-- Nothing is kept but by its stamp, so that any held attempt agrees with any offers. -/
theorem attempts_agree {init : Option CopyAttempt} {l : List CopyAttempt} :
    (attemptRegister now).Agrees init l := by
  intro s _ c _ hkeeps
  cases hkeeps

theorem replay_perm (h : Replayable st runs) (hagrees : AgreesWithRuns st runs)
    {order : List PersistedRun} (hperm : runs.Perm order) :
    (replayRuns sum256 now st order).copyCheckpoints.lookup key =
        (replayRuns sum256 now st runs).copyCheckpoints.lookup key ∧
      (replayRuns sum256 now st order).copyAttempts.lookup key =
        (replayRuns sum256 now st runs).copyAttempts.lookup key ∧
      (replayRuns sum256 now st order).maintenanceAttempts.lookup key =
        (replayRuns sum256 now st runs).maintenanceAttempts.lookup key := by
  have hruns := replayRuns_offered sum256 now st runs
  have horder := replayRuns_offered sum256 now st order
  rw [hruns.checkpoints, hruns.copies, hruns.maintenance, horder.checkpoints, horder.copies,
    horder.maintenance]
  exact ⟨(Register.foldl_offer_perm (hperm.flatMap_right _) h.candidates_apart
      hagrees.agrees).symm,
    (Register.foldl_offer_perm (hperm.flatMap_right _)
      (h.attempts_apart completedCopyAttempt_id) attempts_agree).symm,
    (Register.foldl_offer_perm (hperm.flatMap_right _)
      (h.attempts_apart completedMaintenanceAttempt_id) attempts_agree).symm⟩

/-- The checkpoint that a replay ends with is the one that was recorded before or one of the
candidates, and none of these was captured later. -/
theorem replay_greatest (h : Replayable st runs) (hagrees : AgreesWithRuns st runs)
    (hc : c ∈ runs.flatMap (candidatesAt st key)) :
    ∃ checkpoint, (replayRuns sum256 now st runs).copyCheckpoints.lookup key = some checkpoint ∧
      (st.copyCheckpoints.lookup key = some checkpoint ∨
        ∃ m ∈ runs.flatMap (candidatesAt st key), checkpoint =
          newCheckpoint sum256 m.stored.run m.stored.planSnapshot m.capturedAt m.copy) ∧
      (∀ d ∈ runs.flatMap (candidatesAt st key),
        captureStamp now d.capturedAt ≤ captureStamp now checkpoint.capturedAt) ∧
      ∀ old, st.copyCheckpoints.lookup key = some old →
        captureStamp now old.capturedAt ≤ captureStamp now checkpoint.capturedAt := by
  obtain ⟨m, ⟨hm, hmax⟩, hfold⟩ := Register.foldl_offer (List.ne_nil_of_mem hc)
    h.candidates_apart (@AgreesWithRuns.agrees sum256 now st key runs hagrees)
  rw [(replayRuns_offered sum256 now st runs).checkpoints, hfold]
  have hone : (checkpointRegister sum256 now).Agrees (st.copyCheckpoints.lookup key) [m] :=
    fun s hs d hd => List.mem_singleton.mp hd ▸ hagrees.agrees s hs m hm
  rcases Register.offer_cases hone with ⟨hmade, hold⟩ | ⟨s, hs, hkept, hle⟩
  · exact ⟨_, hmade, .inr ⟨m, hm, rfl⟩, hmax, hold⟩
  · refine ⟨s, hkept, .inl hs, fun d hd => (hmax d hd).trans hle, fun old hold => ?_⟩
    rw [hs] at hold
    cases hold
    exact le_rfl

section Inventories

variable {inventory : Inventory} {destinationID : String}
  {checkpoints : GoMap String CopyCheckpoint} {l : List (String × CopyCheckpoint)}
  {calls : List (String × Inventory)}

theorem examineCheckpoint_kept (inventory : Inventory) (checkpoint : CopyCheckpoint) :
    (examineCheckpoint inventory checkpoint).capturedAt = checkpoint.capturedAt ∧
      (examineCheckpoint inventory checkpoint).runID = checkpoint.runID ∧
      (examineCheckpoint inventory checkpoint).snapshotID = checkpoint.snapshotID ∧
      (examineCheckpoint inventory checkpoint).snapshotCheckedAt = some inventory.now := by
  unfold examineCheckpoint
  split
  · exact ⟨rfl, rfl, rfl, rfl⟩
  · split
    · exact ⟨rfl, rfl, rfl, rfl⟩
    · split
      · exact ⟨rfl, rfl, rfl, rfl⟩
      · exact ⟨rfl, rfl, rfl, rfl⟩

theorem lookup_commit_other (h : key ∉ l.map Prod.fst) :
    (l.foldl commitCheckpoint checkpoints).lookup key = checkpoints.lookup key := by
  induction l generalizing checkpoints with
  | nil => rfl
  | cons entry rest ih =>
    rw [List.map_cons, List.mem_cons, not_or] at h
    rw [List.foldl_cons, ih h.2]
    unfold commitCheckpoint
    split
    · exact AList.lookup_insert_ne h.1
    · rfl

theorem lookup_commit_same {old new : CopyCheckpoint} (hnodup : (l.map Prod.fst).Nodup)
    (hmem : (key, new) ∈ l) (hold : checkpoints.lookup key = some old)
    (hsame : old.snapshotID = new.snapshotID) :
    (l.foldl commitCheckpoint checkpoints).lookup key = some new := by
  induction l generalizing checkpoints with
  | nil => cases hmem
  | cons entry rest ih =>
    obtain ⟨hnot, hrest⟩ := List.nodup_cons.mp hnodup
    rcases List.mem_cons.mp hmem with rfl | hmem
    · rw [List.foldl_cons, lookup_commit_other hnot]
      unfold commitCheckpoint
      rw [if_pos (by simp [hold, hsame])]
      exact AList.lookup_insert _
    · have hne : key ≠ entry.1 := fun heq =>
        hnot (heq ▸ List.mem_map_of_mem (f := Prod.fst) hmem)
      rw [List.foldl_cons]
      apply ih hrest hmem
      unfold commitCheckpoint
      split
      · rw [AList.lookup_insert_ne hne, hold]
      · exact hold

theorem lookup_reconcileInventory :
    (reconcileInventory st destinationID inventory).copyCheckpoints.lookup key =
      (st.copyCheckpoints.lookup key).map fun checkpoint =>
        if hasSuffix key ("/" ++ destinationID) then examineCheckpoint inventory checkpoint
        else checkpoint := by
  have hmem : ∀ k checkpoint, (k, checkpoint) ∈ inventoryCheckpoints st destinationID ↔
      st.copyCheckpoints.lookup k = some checkpoint ∧ hasSuffix k ("/" ++ destinationID) := by
    intro k checkpoint
    rw [GoMap.lookup_eq_some_iff]
    simp [inventoryCheckpoints]
  unfold reconcileInventory commitInventory
  cases hold : st.copyCheckpoints.lookup key with
  | none =>
    rw [lookup_commit_other, hold]
    · rfl
    · intro hkey
      obtain ⟨⟨k, checkpoint⟩, hentry, rfl⟩ := List.mem_map.mp hkey
      obtain ⟨⟨k', old⟩, hread, heq⟩ := List.mem_map.mp hentry
      cases heq
      rw [((hmem _ old).mp hread).1] at hold
      cases hold
  | some old =>
    rw [Option.map_some]
    split
    next hsuffix =>
      refine lookup_commit_same ?_ (List.mem_map_of_mem ((hmem key old).mpr ⟨hold, hsuffix⟩)) hold
        (examineCheckpoint_kept inventory old).2.2.1.symm
      have hkeys : (inventoryCheckpoints st destinationID).map Prod.fst =
          (st.copyCheckpoints.entries.filter fun entry =>
            hasSuffix entry.1 ("/" ++ destinationID)).keys := by
        simp [inventoryCheckpoints, List.keys, Function.comp_def]
      rw [List.map_map]
      change ((inventoryCheckpoints st destinationID).map Prod.fst).Nodup
      rw [hkeys]
      exact (List.filter_sublist.map _).nodup st.copyCheckpoints.nodupKeys
    next hsuffix =>
      rw [lookup_commit_other, hold]
      intro hkey
      obtain ⟨⟨k, checkpoint⟩, hentry, rfl⟩ := List.mem_map.mp hkey
      obtain ⟨⟨k', read⟩, hread, heq⟩ := List.mem_map.mp hentry
      cases heq
      exact hsuffix ((hmem _ read).mp hread).2

/-- Successful inventories one after the other, each of one destination. -/
def reconcileAll (st : HealthState) (calls : List (String × Inventory)) : HealthState :=
  calls.foldl (fun st call => reconcileInventory st call.1 call.2) st

/-- The inventories are of destinations that exist, and no copy that one of them examines was
verified after it. -/
def InventoriesAfter (st : HealthState) (runs : List PersistedRun)
    (calls : List (String × Inventory)) : Prop :=
  ∀ call ∈ calls, (st.destinations.lookup call.1).isSome ∧
    ∀ stored ∈ runs, ∀ copy ∈ stored.run.copies, ∀ checkpoint,
      st.copyCheckpoints.lookup (checkpointKey stored.run.planID copy.destinationID) =
        some checkpoint →
      checkpoint.runID = stored.run.id → checkpoint.snapshotID = copy.snapshotID →
      hasSuffix (checkpointKey stored.run.planID copy.destinationID) ("/" ++ call.1) →
      ∀ verifiedAt, copy.verifiedAt = some verifiedAt → verifiedAt ≤ call.2.now

/-- What inventories leave of a checkpoint. -/
structure Examined (calls : List (String × Inventory)) (key : String)
    (before after : CopyCheckpoint) : Prop where
  capturedAt : after.capturedAt = before.capturedAt
  runID : after.runID = before.runID
  snapshotID : after.snapshotID = before.snapshotID
  checked : after = before ∨ ∃ call ∈ calls, hasSuffix key ("/" ++ call.1) = true ∧
    after.snapshotCheckedAt = some call.2.now

theorem lookup_reconcileAll :
    (st.copyCheckpoints.lookup key = none →
      (reconcileAll st calls).copyCheckpoints.lookup key = none) ∧
    ∀ before, st.copyCheckpoints.lookup key = some before →
      ∃ after, (reconcileAll st calls).copyCheckpoints.lookup key = some after ∧
        Examined calls key before after := by
  induction calls generalizing st with
  | nil => exact ⟨id, fun before h => ⟨before, h, rfl, rfl, rfl, .inl rfl⟩⟩
  | cons call rest ih =>
    obtain ⟨hnone, hsome⟩ := @ih (reconcileInventory st call.1 call.2)
    have hfirst := @lookup_reconcileInventory st key call.2 call.1
    refine ⟨fun h => hnone (by rw [hfirst, h]; rfl), fun before h => ?_⟩
    rw [h, Option.map_some] at hfirst
    obtain ⟨after, hafter, hcap, hrun, hsnap, hchecked⟩ := hsome _ hfirst
    refine ⟨after, hafter, ?_⟩
    have hlater : (∃ c ∈ rest, hasSuffix key ("/" ++ c.1) = true ∧
        after.snapshotCheckedAt = some c.2.now) → ∃ c ∈ call :: rest,
        hasSuffix key ("/" ++ c.1) = true ∧ after.snapshotCheckedAt = some c.2.now :=
      fun ⟨c, hc, hrest⟩ => ⟨c, List.mem_cons_of_mem _ hc, hrest⟩
    split at hcap
    next hsuffix =>
      rw [if_pos hsuffix] at hrun hsnap hchecked
      obtain ⟨hcap', hrun', hsnap', hnow⟩ := examineCheckpoint_kept call.2 before
      refine ⟨hcap.trans hcap', hrun.trans hrun', hsnap.trans hsnap', .inr ?_⟩
      rcases hchecked with rfl | hchecked
      · exact ⟨call, List.mem_cons_self, hsuffix, hnow⟩
      · exact hlater hchecked
    next hsuffix =>
      rw [if_neg hsuffix] at hrun hsnap hchecked
      exact ⟨hcap, hrun, hsnap, hchecked.imp_right hlater⟩

theorem configured_reconcileAll (h : ∀ call ∈ calls, (st.destinations.lookup call.1).isSome)
    (planID destinationID : String) :
    (reconcileAll st calls).configured planID destinationID =
      st.configured planID destinationID := by
  induction calls generalizing st with
  | nil => rfl
  | cons call rest ih =>
    have hdest : ∀ id, ((reconcileInventory st call.1 call.2).destinations.lookup id).isSome =
        (st.destinations.lookup id).isSome := by
      intro id
      simp only [reconcileInventory, commitInventory]
      rw [GoMap.lookup_insert]
      split
      next heq => rw [heq, h call List.mem_cons_self]; rfl
      · rfl
    have hrest : ∀ c ∈ rest,
        ((reconcileInventory st call.1 call.2).destinations.lookup c.1).isSome := fun c hc => by
      rw [hdest]
      exact h c (List.mem_cons_of_mem _ hc)
    have hstep := @ih (reconcileInventory st call.1 call.2) hrest
    rw [reconcileAll, List.foldl_cons]
    refine hstep.trans ?_
    rw [configured, configured, hdest]
    rfl

/-- A candidate changes nothing once the replay and later inventories are done. -/
theorem candidate_absorbed (h : Replayable st runs) (hagrees : AgreesWithRuns st runs)
    (hcalls : InventoriesAfter (replayRuns sum256 now st runs) runs calls) {c : Candidate}
    (hc : c ∈ runs.flatMap (candidatesAt st key)) :
    (checkpointRegister sum256 now).offer
        ((reconcileAll (replayRuns sum256 now st runs) calls).copyCheckpoints.lookup key) c =
      (reconcileAll (replayRuns sum256 now st runs) calls).copyCheckpoints.lookup key := by
  obtain ⟨m, hm, hfold⟩ := Register.foldl_offer (List.ne_nil_of_mem hc)
    h.candidates_apart (@AgreesWithRuns.agrees sum256 now st key runs hagrees)
  have hone : (checkpointRegister sum256 now).Agrees (st.copyCheckpoints.lookup key) [m] :=
    fun s hs d hd => List.mem_singleton.mp hd ▸ hagrees.agrees s hs m hm.1
  have hresult := ((replayRuns_offered sum256 now st runs).checkpoints key).trans hfold
  -- The result of the replay takes the greatest candidate without a change.
  obtain ⟨s, hs, hle, hstays⟩ : ∃ s, (replayRuns sum256 now st runs).copyCheckpoints.lookup key =
      some s ∧ captureStamp now m.capturedAt ≤ captureStamp now s.capturedAt ∧
      (checkpointRegister sum256 now).offer (some s) m = some s := by
    rcases Register.offer_cases hone with ⟨hmade, -⟩ | ⟨s, hinit, hkept, hle⟩
    · exact ⟨_, hresult.trans hmade, le_rfl, Register.offer_eq_some_iff.mpr (.inr (.inr rfl))⟩
    · exact ⟨s, hresult.trans hkept, hle, hinit ▸ hkept⟩
  obtain ⟨after, hafter, hex⟩ := (@lookup_reconcileAll _ key calls).2 s hs
  rw [hafter]
  apply Register.offer_eq_some_iff.mpr
  change captureStamp now c.capturedAt < captureStamp now after.capturedAt ∨ _
  rw [hex.capturedAt]
  rcases lt_or_eq_of_le ((hm.2 c hc).trans hle) with hlt | heq
  · exact .inl hlt
  · -- Only the greatest candidate can be as late as the checkpoint.
    have hgreatest : c = m := Register.Greatest.unique h.candidates_apart
      ⟨hc, fun d hd => (hm.2 d hd).trans (hle.trans heq.ge)⟩ hm
    subst hgreatest
    obtain hlt | hkeeps := Register.offer_eq_some_iff.mp hstays
    · exact absurd hlt heq.not_lt
    · rcases hex.checked with rfl | ⟨call, hcall, hsuffix, hchecked⟩
      · exact .inr hkeeps
      · obtain ⟨stored, hstored, hc⟩ := List.mem_flatMap.mp hc
        obtain ⟨rfl, -, hcopy, -⟩ := mem_candidatesAt.mp hc
        obtain ⟨hmem, -, rfl⟩ := mem_copiesAt.mp hcopy
        have hids : s.snapshotID = c.copy.snapshotID ∧ s.runID = c.stored.run.id := by
          rcases hkeeps with hkeeps | hmade
          · simp only [checkpointRegister, sameCheckpoint, Bool.and_eq_true,
              decide_eq_true_eq] at hkeeps
            exact hkeeps.1
          · rw [hmade]
            exact ⟨rfl, rfl⟩
        have hverified := (hcalls call hcall).2 c.stored hstored c.copy hmem s hs hids.2 hids.1
          hsuffix
        refine .inr (.inl ?_)
        simp only [checkpointRegister, sameCheckpoint, hex.snapshotID, hex.runID, hids, hchecked,
          decide_true, Bool.and_self, Bool.true_and]
        cases hat : c.copy.verifiedAt with
        | none => rfl
        | some verifiedAt => exact decide_eq_true (hverified verifiedAt hat)

/-- Replaying the same runs again changes no checkpoint, also after inventories. -/
theorem replay_again (h : Replayable st runs) (hagrees : AgreesWithRuns st runs)
    (hcalls : InventoriesAfter (replayRuns sum256 now st runs) runs calls)
    {order : List PersistedRun} (hperm : runs.Perm order) :
    (replayRuns sum256 now (reconcileAll (replayRuns sum256 now st runs) calls)
        order).copyCheckpoints.lookup key =
      (reconcileAll (replayRuns sum256 now st runs) calls).copyCheckpoints.lookup key := by
  have hconf : ∀ planID destinationID,
      (reconcileAll (replayRuns sum256 now st runs) calls).configured planID destinationID =
        st.configured planID destinationID := fun planID destinationID =>
    (configured_reconcileAll (fun call hcall => (hcalls call hcall).1) planID destinationID).trans
      ((replayRuns_offered sum256 now st runs).same.configured planID destinationID)
  have hcandidates : candidatesAt (reconcileAll (replayRuns sum256 now st runs) calls) key =
      candidatesAt st key := by
    funext stored
    simp only [candidatesAt, copiesAt, hconf]
  rw [(replayRuns_offered sum256 now _ order).checkpoints, hcandidates]
  apply Register.foldl_offer_fixed
  intro c hc
  exact candidate_absorbed h hagrees hcalls ((hperm.flatMap_right _).mem_iff.mpr hc)

end Inventories

/-- Startup may visit the stored runs in any order. Each checkpoint ends as the greatest of the
one that was recorded before and the candidates, and a second replay changes none of them. -/
theorem replay_is_confluent (h : Replayable st runs) (hagrees : AgreesWithRuns st runs) :
    (∀ order, runs.Perm order → ∀ key,
      (replayRuns sum256 now st order).copyCheckpoints.lookup key =
          (replayRuns sum256 now st runs).copyCheckpoints.lookup key ∧
        (replayRuns sum256 now st order).copyAttempts.lookup key =
          (replayRuns sum256 now st runs).copyAttempts.lookup key ∧
        (replayRuns sum256 now st order).maintenanceAttempts.lookup key =
          (replayRuns sum256 now st runs).maintenanceAttempts.lookup key) ∧
    (∀ key, (runs.flatMap (candidatesAt st key) = [] →
        (replayRuns sum256 now st runs).copyCheckpoints.lookup key =
          st.copyCheckpoints.lookup key) ∧
      ∀ c ∈ runs.flatMap (candidatesAt st key), ∃ checkpoint,
        (replayRuns sum256 now st runs).copyCheckpoints.lookup key = some checkpoint ∧
        (st.copyCheckpoints.lookup key = some checkpoint ∨
          ∃ m ∈ runs.flatMap (candidatesAt st key), checkpoint =
            newCheckpoint sum256 m.stored.run m.stored.planSnapshot m.capturedAt m.copy) ∧
        (∀ d ∈ runs.flatMap (candidatesAt st key),
          captureStamp now d.capturedAt ≤ captureStamp now checkpoint.capturedAt) ∧
        ∀ old, st.copyCheckpoints.lookup key = some old →
          captureStamp now old.capturedAt ≤ captureStamp now checkpoint.capturedAt) ∧
    ∀ calls, InventoriesAfter (replayRuns sum256 now st runs) runs calls →
      ∀ order, runs.Perm order → ∀ key,
        (replayRuns sum256 now (reconcileAll (replayRuns sum256 now st runs) calls)
            order).copyCheckpoints.lookup key =
          (reconcileAll (replayRuns sum256 now st runs) calls).copyCheckpoints.lookup key := by
  refine ⟨fun order hperm key => replay_perm h hagrees hperm, fun key => ⟨fun hnil => ?_, ?_⟩,
    fun calls hcalls order hperm key => replay_again h hagrees hcalls hperm⟩
  · rw [(replayRuns_offered sum256 now st runs).checkpoints, hnil]
    rfl
  · exact fun c hc => replay_greatest h hagrees hc

/-- A sum that tells nothing apart. -/
def blankSum (_ : Bytes) : Digest := ⟨List.replicate 32 255, rfl⟩

def plainPlan (id : String) : Plan := ⟨id, id, true, "files", [], []⟩

def plainDestination (id : String) : StoredDestination := { StoredDestination.zero with id := id }

def uploadedRun (id planID destinationID snapshotID : String) (capturedAt : Instant) :
    PersistedRun where
  run :=
    { id := id
      jobID := ""
      planID := planID
      planName := ""
      capturedAt := some capturedAt
      createdAt := 0
      expiresAt := 0
      copies := [{ destinationID := destinationID, state := .succeeded, snapshotID := snapshotID,
                   verification := .recoveryObjectsVerified }] }
  planSnapshot := plainPlan planID

def checkpointFor (runID snapshotID : String) (capturedAt : Instant) : CopyCheckpoint :=
  ⟨capturedAt, none, snapshotID, runID, [], .recoveryObjectsVerified, .present, some 5⟩

def twoRuns : List PersistedRun :=
  [uploadedRun "run_1" "plan_1" "dst_1" "s1" 2, uploadedRun "run_2" "plan_1" "dst_1" "s2" 3]

def storedState (capturedAt : Instant) : HealthState :=
  { HealthState.empty with
    plans := (∅ : GoMap String Plan).insert "plan_1" (plainPlan "plan_1")
    destinations := (∅ : GoMap String StoredDestination).insert "dst_1" (plainDestination "dst_1")
    copyCheckpoints := (∅ : GoMap String CopyCheckpoint).insert "plan_1/dst_1"
      (checkpointFor "run_2" "s2" capturedAt) }

theorem twoRuns_replayable (capturedAt : Instant) :
    Replayable (storedState capturedAt) twoRuns where
  ids := by decide
  copies := by decide
  captures := by
    refine List.pairwise_pair.mpr fun _ t ht ht' => ?_
    cases ht
    cases ht'
  plans id h := by
    simp only [storedState, empty] at h
    rw [GoMap.lookup_insert] at h
    split at h
    next heq => rw [heq]; decide
    · cases h

theorem storedState_agrees : AgreesWithRuns (storedState 3) twoRuns := by
  intro stored hstored copy hcopy checkpoint hlookup hrun _ t ht
  have hstored' : ∀ key c, (storedState 3).copyCheckpoints.lookup key = some c →
      c = checkpointFor "run_2" "s2" 3 := GoMap.forall_insert (fun _ _ h => by cases h) rfl
  rw [hstored' _ _ hlookup] at hrun ⊢
  rcases List.mem_pair.mp hstored with rfl | rfl
  · exact absurd hrun (by decide)
  · cases ht
    rfl

/-- The checkpoint of the newer run is there already; both orders keep it. -/
theorem reversed_replay_agrees :
    Replayable (storedState 3) twoRuns ∧ AgreesWithRuns (storedState 3) twoRuns ∧
      (replayRuns blankSum 10 (storedState 3) twoRuns.reverse).copyCheckpoints.lookup
          "plan_1/dst_1" =
        (replayRuns blankSum 10 (storedState 3) twoRuns).copyCheckpoints.lookup "plan_1/dst_1" :=
  ⟨twoRuns_replayable 3, storedState_agrees,
    ((replay_is_confluent (twoRuns_replayable 3) storedState_agrees).1 twoRuns.reverse
      twoRuns.reverse_perm.symm "plan_1/dst_1").1⟩

/-- Two plans, one of whose ids holds a slash, share a key. -/
def slashState : HealthState :=
  { HealthState.empty with
    plans := ((∅ : GoMap String Plan).insert "a" (plainPlan "a")).insert "a/b" (plainPlan "a/b")
    destinations := ((∅ : GoMap String StoredDestination).insert "c" (plainDestination "c")).insert
      "b/c" (plainDestination "b/c") }

def slashRuns : List PersistedRun :=
  [uploadedRun "run_1" "a" "b/c" "s1" 2, uploadedRun "run_2" "a/b" "c" "s2" 2]

/-- Without the two conditions the order of the runs decides: a checkpoint of the newer run
with another capture time, or plans whose keys collide. -/
theorem order_decides_otherwise :
    (Replayable (storedState 1) twoRuns ∧
      ((replayRuns blankSum 10 (storedState 1) twoRuns).copyCheckpoints.lookup
        "plan_1/dst_1").map CopyCheckpoint.runID = some "run_2" ∧
      ((replayRuns blankSum 10 (storedState 1) twoRuns.reverse).copyCheckpoints.lookup
        "plan_1/dst_1").map CopyCheckpoint.runID = some "run_1") ∧
    ((slashRuns.map fun stored => stored.run.planID).Nodup ∧
      ((replayRuns blankSum 10 slashState slashRuns).copyCheckpoints.lookup
        "a/b/c").map CopyCheckpoint.runID = some "run_2" ∧
      ((replayRuns blankSum 10 slashState slashRuns.reverse).copyCheckpoints.lookup
        "a/b/c").map CopyCheckpoint.runID = some "run_1") :=
  ⟨⟨twoRuns_replayable 1, by decide +kernel, by decide +kernel⟩,
    by decide, by decide +kernel, by decide +kernel⟩

end Stacklab.Backup
