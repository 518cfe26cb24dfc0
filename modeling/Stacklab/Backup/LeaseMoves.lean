import Stacklab.Backup.LeaseStarts

/-! The steps of repository jobs and runs: each writes only to destinations that it has reserved. -/
namespace Stacklab.Backup

open Lib GoMap
open Jobs

variable {d d' : LeasedDestination}

section Identity

variable (d : Destination)

theorem adoptAggregateFailure_id : (adoptAggregateFailure d).id = d.id := by
  unfold adoptAggregateFailure
  split <;> rfl

theorem adoptLegacyAttempt_id (status : CheckStatus) (err : String) :
    (adoptLegacyAttempt status err d).id = d.id := by
  unfold adoptLegacyAttempt
  split <;> rfl

theorem adoptLegacyHold_id : (adoptLegacyHold d).id = d.id := by
  unfold adoptLegacyHold
  split <;> rfl

theorem updateAggregateCheckEvidence_id : (updateAggregateCheckEvidence d).id = d.id := by
  unfold updateAggregateCheckEvidence
  split
  · rfl
  · split
    · rfl
    · split
      · rfl
      · split <;> rfl

theorem normalizeCheckEvidence_id : (normalizeCheckEvidence d).id = d.id := by
  unfold normalizeCheckEvidence
  rw [updateAggregateCheckEvidence_id]
  split
  · exact (adoptLegacyHold_id _).trans ((adoptLegacyAttempt_id _ _ _).trans
      (adoptAggregateFailure_id _))
  · exact (adoptLegacyHold_id _).trans ((adoptLegacyAttempt_id _ _ _).trans
      (adoptAggregateFailure_id _))

theorem recordFailure_id (policy : CheckScope) (at_ : Instant) (err : CheckError) :
    (recordFailure d policy at_ err).id = d.id := by
  unfold recordFailure
  dsimp only
  split
  · split <;> rfl
  · split <;> rfl
  · rfl

theorem recordCheckAttempt_id (policy : CheckScope) (at_ : Instant) (err : Option CheckError) :
    (recordCheckAttempt d policy at_ err).id = d.id := by
  unfold recordCheckAttempt
  rw [updateAggregateCheckEvidence_id]
  cases err with
  | none => exact normalizeCheckEvidence_id d
  | some err => exact (recordFailure_id _ _ _ err).trans (normalizeCheckEvidence_id d)

end Identity

/-- Two states of one destination: its id and its repository do not change. -/
structure SameDestination (d d' : LeasedDestination) : Prop where
  id : d'.id = d.id
  kind : d'.kind = d.kind
  repository : d'.repository = d.repository

theorem SameDestination.refl (d : LeasedDestination) : SameDestination d d := ⟨rfl, rfl, rfl⟩

theorem SameDestination.trans {d'' : LeasedDestination} (h : SameDestination d d')
    (h' : SameDestination d' d'') : SameDestination d d'' :=
  ⟨h'.id.trans h.id, h'.kind.trans h.kind, h'.repository.trans h.repository⟩

theorem SameDestination.key {digest : String → String → String} (h : SameDestination d d') :
    LeaseWorld.repositoryKey digest d' = LeaseWorld.repositoryKey digest d := by
  simp only [LeaseWorld.repositoryKey, h.kind, h.repository]

theorem sameDestination_apply (update : InventoryUpdate) (d : LeasedDestination) :
    SameDestination d (update.apply d) := by
  cases update <;> exact ⟨rfl, rfl, rfl⟩

theorem sameDestination_refreshes (refreshes : List InventoryUpdate) (d : LeasedDestination) :
    SameDestination d (refreshes.foldl (fun d update => update.apply d) d) := by
  induction refreshes generalizing d with
  | nil => exact .refl d
  | cons update refreshes ih => exact (sameDestination_apply update d).trans (ih _)

theorem sameDestination_setScheduled (d : LeasedDestination) (due : Instant)
    (action : MaintenanceAction) : SameDestination d (d.setScheduled due action) := by
  cases action <;> exact ⟨rfl, rfl, rfl⟩

theorem sameDestination_operated (action : JobAction) (outcome : JobOutcome)
    (d : LeasedDestination) : SameDestination d (operated action outcome d) := by
  cases action with
  | check => exact ⟨recordCheckAttempt_id _ _ _ _, rfl, rfl⟩
  | prune =>
    simp only [operated]
    split <;> exact ⟨rfl, rfl, rfl⟩
  | restore =>
    simp only [operated]
    split <;> exact ⟨rfl, rfl, rfl⟩
  | destinationTest => exact .refl d
  | repositoryInit => exact .refl d
  | unlock => exact .refl d

theorem sameDestination_afterOperation (action : JobAction) (outcome : JobOutcome)
    (d : LeasedDestination) : SameDestination d (afterOperation action outcome d) := by
  refine (sameDestination_operated action outcome d).trans ?_
  simp only [afterOperation]
  split <;> exact ⟨rfl, rfl, rfl⟩

theorem sameDestination_writtenBack (action : JobAction) (outcome : JobOutcome)
    (d current : LeasedDestination) :
    SameDestination d (writtenBack action outcome d current) := by
  refine (sameDestination_afterOperation action outcome d).trans ?_
  unfold writtenBack
  dsimp only
  split <;> exact ⟨rfl, rfl, rfl⟩

namespace LeaseWorld

variable {digest : String → String → String} {w w' : LeaseWorld} {j : String}
  {i : ℕ} {stage stage' : LeaseStage}

section Writes

variable {id : String} {d : LeasedDestination}

/-- A job stays the owner of what it rewrites. -/
theorem Holds.setDestination {ids : List String} (h : w.Holds digest j ids)
    (hid : (w.destinations.lookup id).isSome) (hkey : repositoryKey digest d = w.keyOf digest id) :
    (w.setDestination id d).Holds digest j ids := by
  have hkeys : (w.setDestination id d).keyOf digest = w.keyOf digest :=
    funext (keyOf_setDestination hkey)
  refine ⟨?_, hkeys ▸ h.distinct, hkeys ▸ h.only⟩
  intro id' hid'
  rw [isSome_setDestination d hid, hkeys]
  exact h.owns id' hid'

theorem Holds.single (h : w.Holds digest j [id]) :
    (w.destinations.lookup id).isSome ∧ w.repositoryJobs.lookup (w.keyOf digest id) = some j :=
  h.owns id List.mem_cons_self

/-- A repository has one holder. -/
theorem not_held {key other : String} (h : w.repositoryJobs.lookup key = some j)
    (hne : other ≠ j) : w.repositoryJobs.lookup key ≠ some other := by
  rw [h]
  intro heq
  exact hne (Option.some.inj heq).symm

/-- A job writes to a destination that it has reserved. -/
theorem Sound.write (h : w.Sound digest) (hi : w.threads[i]? = some ⟨j, stage⟩)
    (howned : (w.destinations.lookup id).isSome ∧
      w.repositoryJobs.lookup (w.keyOf digest id) = some j)
    (hsame : SameDestination (w.destination id) d)
    (hown : (w.setDestination id d).StageSound digest j stage')
    (hrun : ∀ runID, activeRun stage' = some runID → activeRun stage = some runID) :
    ((w.setDestination id d).setStage i j stage').Sound digest := by
  have hid : d.id = id := hsame.id.trans (destination_id h.tables howned.1)
  refine h.move hi (h.tables.setDestination howned.1 hid hsame.key) hown hrun ?_
    ⟨rfl, fun _ h => h, fun _ _ h => h⟩
  intro k t _ hne _
  exact Keeps.setDestination (not_held howned.2 hne)

end Writes

section RepositoryJobs

variable {key : String} {locks : LockTable}

theorem Keeps.jobs_erase (hkey : w.repositoryJobs.lookup key ≠ some j) :
    Keeps digest w { w with repositoryJobs := w.repositoryJobs.erase key, locks := locks } j
      stage := by
  refine ⟨fun _ _ => rfl, ?_, fun _ _ => rfl, fun h => h⟩
  intro key'
  rw [lookup_erase]
  split
  next heq =>
    rw [heq]
    exact ⟨fun hnone => absurd hnone (by simp), fun hold => absurd hold hkey⟩
  · exact Iff.rfl

section

variable (h : w.Sound digest)
include h

theorem Sound.recordMaintenance {due : Instant} {persisted : Bool}
    (hstep : w.recordMaintenance digest i due persisted = some w') : w'.Sound digest := by
  unfold LeaseWorld.recordMaintenance at hstep
  split at hstep
  next j id action d maintenance hi =>
    obtain ⟨hholds, hlisted⟩ := h.stages i _ hi
    obtain ⟨hid, hkey⟩ := hlisted d maintenance rfl
    have howned := hholds.single
    rw [hid] at hstep
    have hsame := sameDestination_setScheduled (w.destination id) due maintenance
    split at hstep
    · cases hstep
      refine h.write hi howned hsame ⟨hholds.setDestination howned.1 hsame.key, ?_⟩ (fun _ h => h)
      intro d' m' hnone
      cases hnone
    · cases hstep
      have htables : (w.setDestination id _).Tables digest := h.tables.setDestination howned.1
        (hsame.id.trans (destination_id h.tables howned.1)) hsame.key
      refine h.move hi (htables.drop fun _ _ => lookup_of_lookup_erase) trivial
        (fun _ hrun => by cases hrun) ?_ ⟨rfl, fun _ h => h, fun _ _ => lookup_of_lookup_erase⟩
      intro k t _ hne _
      have hfree := not_held howned.2 hne
      refine (Keeps.setDestination hfree).trans (Keeps.jobs_erase ?_)
      rw [hkey]
      exact hfree
  · cases hstep

theorem Sound.executeRepositoryJob (hstep : w.executeRepositoryJob i = some w') :
    w'.Sound digest := by
  unfold LeaseWorld.executeRepositoryJob at hstep
  split at hstep
  next j id action hi =>
    obtain ⟨hholds, -⟩ := h.stages i _ hi
    split at hstep
    next hnone =>
      have hsome := hholds.single.1
      simp [hnone] at hsome
    next d hd =>
      cases hstep
      exact h.advance hi ⟨hholds, hd⟩ fun _ hrun => by cases hrun
  · cases hstep

theorem Sound.jobRefreshes {update : InventoryUpdate} (hstep : w.jobRefreshes i update = some w') :
    w'.Sound digest := by
  unfold LeaseWorld.jobRefreshes at hstep
  split at hstep
  next j id d refreshes hi =>
    cases hstep
    obtain ⟨hholds, hread⟩ := h.stages i _ hi
    have hid : d.id = id :=
      (sameDestination_refreshes refreshes d).id.symm.trans (h.tables.ids id _ hread).1
    have hsame := sameDestination_apply update (w.destination id)
    rw [hid]
    refine h.write hi hholds.single hsame
      ⟨hholds.setDestination hholds.single.1 hsame.key, ?_⟩ (fun _ h => h)
    rw [lookup_setDestination, if_pos rfl, List.foldl_append]
    simp only [destination, hread, Option.getD_some]
    rfl
  · cases hstep

theorem Sound.writeBack {outcome : JobOutcome} (hstep : w.writeBack i outcome = some w') :
    w'.Sound digest := by
  unfold LeaseWorld.writeBack at hstep
  split at hstep
  next j id action d refreshes hi =>
    cases hstep
    obtain ⟨hholds, hread⟩ := h.stages i _ hi
    have hcurrent : w.destination id = refreshes.foldl (fun d update => update.apply d) d := by
      simp only [destination, hread, Option.getD_some]
    have hsame : SameDestination (w.destination id)
        (writtenBack action outcome d (w.destination id)) := by
      have hrefreshed := sameDestination_refreshes refreshes d
      have hwritten := sameDestination_writtenBack action outcome d (w.destination id)
      rw [← hcurrent] at hrefreshed
      exact ⟨hwritten.id.trans hrefreshed.id.symm, hwritten.kind.trans hrefreshed.kind.symm,
        hwritten.repository.trans hrefreshed.repository.symm⟩
    exact h.write hi hholds.single hsame trivial (fun _ hrun => by cases hrun)
  · cases hstep

/-- Only the locks of one job change, and it is granted what it has reserved. -/
theorem Sound.relock (htables : { w with locks := locks }.Tables digest) :
    { w with locks := locks }.Sound digest :=
  h.quiet htables (fun _ _ _ => .of_eq rfl rfl rfl fun _ h => h)
    ⟨rfl, fun _ h => h, fun _ _ h => h⟩

theorem Sound.lockHost {ro : RangeOrder Jobs.Holding} (hstep : w.lockHost digest i ro = some w') :
    w'.Sound digest := by
  unfold LeaseWorld.lockHost at hstep
  split at hstep
  next j id d refreshes hi =>
    cases hstep
    obtain ⟨hholds, hread⟩ := h.stages i _ hi
    have hkey : w.keyOf digest id = repositoryKey digest d :=
      (keyOf_eq hread).trans (sameDestination_refreshes refreshes d).key
    apply h.relock
    rcases replaceResources_snd h.tables.locks
      [globalResource, backupRepositoryResource (repositoryKey digest d)] with hsame | hg
    · rw [hsame]
      exact h.tables
    · refine h.tables.regrant (h.issued i _ hi) hg ?_
      intro key holder hholder
      refine ⟨hholder, ?_⟩
      rintro rfl
      have honly := List.mem_singleton.mp (hholds.only key hholder)
      rw [honly, hkey]
      simp
  · cases hstep

end

end RepositoryJobs

variable {run : Run} {plan : Plan} {ro : RangeOrder Jobs.Holding} {id : String}

theorem Sound.executeRun (h : w.Sound digest) (hstep : w.executeRun i = some w') :
    w'.Sound digest := by
  unfold LeaseWorld.executeRun at hstep
  split at hstep
  next j runID hi =>
    obtain ⟨p, hp, hstate, hholds⟩ := h.stages i _ hi
    rw [hp] at hstep
    cases hstep
    have hid := h.tables.runIDs runID p hp
    refine h.advance hi ⟨⟨hstate, p, hid ▸ hp, hstate⟩, hholds⟩ ?_
    intro runID' hrun
    cases hrun
    exact congrArg some hid.symm
  · cases hstep

theorem lookup_saveRunRecord (run : Run) (plan : Plan) (runID : String) :
    (w.saveRunRecord run plan).runs.lookup runID =
      if runID = run.id then some ⟨run, plan⟩ else w.runs.lookup runID :=
  lookup_insert _ _ _ _

/-- A job saves the record of its run. -/
theorem Sound.saveRecord (h : w.Sound digest) (hi : w.threads[i]? = some ⟨j, stage⟩)
    (hactive : activeRun stage = some run.id)
    (hown : (w.saveRunRecord run plan).StageSound digest j stage')
    (hrun : ∀ runID, activeRun stage' = some runID → activeRun stage = some runID) :
    ((w.saveRunRecord run plan).setStage i j stage').Sound digest := by
  refine h.move hi (h.tables.saveRun rfl) hown hrun ?_ ⟨rfl, fun _ h => h, fun _ _ h => h⟩
  intro k t _ _ hother
  refine ⟨fun _ _ => rfl, fun _ => Iff.rfl, ?_, fun h => h⟩
  intro runID ht
  rw [lookup_saveRunRecord, if_neg]
  rintro rfl
  exact hother _ hactive ht

theorem RunStored.saved (hstate : run.state = .running) (plan : Plan) :
    (w.saveRunRecord run plan).RunStored run :=
  ⟨hstate, ⟨run, plan⟩, (lookup_saveRunRecord run plan run.id).trans (if_pos rfl), hstate⟩

section

variable (h : w.Sound digest)
include h

theorem Sound.saveCapture {captureState : CaptureState} {capturedAt : Option Instant}
    {manifest : Option Manifest}
    (hstep : w.saveCapture i captureState capturedAt manifest = some w') : w'.Sound digest := by
  unfold LeaseWorld.saveCapture at hstep
  split at hstep
  next j run plan hi =>
    split at hstep
    · cases hstep
    · cases hstep
      obtain ⟨⟨hstate, -⟩, hholds⟩ := h.stages i _ hi
      refine h.saveRecord hi rfl ⟨RunStored.saved ?_ plan, ?_⟩ (fun _ h => h)
      · exact hstate
      · exact ⟨hholds.owns, hholds.distinct, hholds.only⟩
  · cases hstep

theorem Sound.collectResources (hstep : w.collectResources digest i = some w') :
    w'.Sound digest := by
  unfold LeaseWorld.collectResources at hstep
  split at hstep
  next j run plan hi =>
    split at hstep
    · cases hstep
    · cases hstep
      obtain ⟨hstored, hholds⟩ := h.stages i _ hi
      exact h.advance hi ⟨hstored, hholds, rfl⟩ fun _ h => h
  · cases hstep

theorem Sound.replaceResources (hstep : w.replaceResources i ro = some w') : w'.Sound digest := by
  unfold LeaseWorld.replaceResources at hstep
  split at hstep
  next j run plan resources hi =>
    obtain ⟨hstored, hholds, rfl⟩ := h.stages i _ hi
    split at hstep
    · cases hstep
      refine h.advance hi ⟨hstored, ?_, List.nodup_nil⟩ fun _ h => h
      intro id hid
      cases hid
    next locks hlocks =>
      cases hstep
      have hg := granted_of_replace h.tables.locks hlocks
      have htables : { w with locks := locks }.Tables digest := by
        refine h.tables.regrant (h.issued i _ hi) hg ?_
        intro key holder hholder
        refine ⟨hholder, ?_⟩
        rintro rfl
        obtain ⟨id, hid, rfl⟩ := List.mem_map.mp (hholds.only key hholder)
        exact List.mem_map.mpr ⟨id, hid, rfl⟩
      exact h.move hi htables ⟨hstored, hholds.owns, hholds.distinct⟩ (fun _ h => h)
        (fun _ _ _ _ _ => .of_eq rfl rfl rfl fun _ h => h) ⟨rfl, fun _ h => h, fun _ _ h => h⟩
  · cases hstep

theorem Sound.copyVerified {uploadedAt : Option Instant}
    (hstep : w.copyVerified i id uploadedAt = some w') : w'.Sound digest := by
  unfold LeaseWorld.copyVerified at hstep
  split at hstep
  next j run plan todo hi =>
    split at hstep
    next d hd =>
      split at hstep
      next hmem =>
        cases hstep
        obtain ⟨hstored, howns, hdistinct⟩ := h.stages i _ hi
        have howned := howns id (by simpa using hmem)
        rw [(h.tables.ids id d hd).1]
        have hsame : SameDestination (w.destination id) ((w.destination id).copied uploadedAt) :=
          ⟨rfl, rfl, rfl⟩
        have hkeys : (w.setDestination id _).keyOf digest = w.keyOf digest :=
          funext (keyOf_setDestination hsame.key)
        have hown : (w.setDestination id ((w.destination id).copied uploadedAt)).StageSound digest
            j (.transferring run plan todo) := by
          refine ⟨hstored, ?_, hkeys ▸ hdistinct⟩
          intro id' hid'
          rw [isSome_setDestination _ howned.1, hkeys]
          exact howns id' hid'
        have hsound := h.write hi howned hsame hown (fun _ h => h)
        have hthreads : w.threads.set i ⟨j, .transferring run plan todo⟩ = w.threads := by
          obtain ⟨hlt, heq⟩ := List.getElem?_eq_some_iff.mp hi
          rw [← heq]
          exact List.set_getElem_self hlt
        simpa only [setStage, setDestination, hthreads] using hsound
      · cases hstep
    · cases hstep
  · cases hstep

theorem Sound.saveRun {copies : List CopyResult} {phase : RunPhase}
    (hstep : w.saveRun i copies phase = some w') : w'.Sound digest := by
  unfold LeaseWorld.saveRun at hstep
  split at hstep
  next j run plan todo hi =>
    cases hstep
    obtain ⟨⟨hstate, -⟩, howns, hdistinct⟩ := h.stages i _ hi
    refine h.saveRecord hi rfl ⟨RunStored.saved ?_ plan, howns, hdistinct⟩ (fun _ h => h)
    exact hstate
  · cases hstep

end

theorem mem_heldKeys {key : String} :
    key ∈ w.heldKeys j ↔ w.repositoryJobs.lookup key = some j := by
  unfold heldKeys
  rw [lookup_eq_some_iff]
  constructor
  · intro hmem
    obtain ⟨⟨k, v⟩, he, rfl⟩ := List.mem_map.mp hmem
    obtain ⟨hentry, hv⟩ := List.mem_filter.mp he
    cases of_decide_eq_true hv
    exact hentry
  · intro he
    exact List.mem_map.mpr ⟨⟨key, j⟩, List.mem_filter.mpr ⟨he, by simp⟩, rfl⟩

/-- Either nothing is released, or the completed repository is and the others stay locked. -/
theorem releaseCompleted_cases (h : w.Tables digest) (ro : RangeOrder Jobs.Holding) (id : String) :
    w.releaseCompleted digest j id ro = (w.repositoryJobs, w.locks) ∨
    ∃ locks, w.releaseCompleted digest j id ro =
        (w.repositoryJobs.erase (w.keyOf digest id), locks) ∧
      w.holder (w.keyOf digest id) = j ∧ Granted w.locks locks j
        (((w.heldKeys j).filter (· ≠ w.keyOf digest id)).map backupRepositoryResource) := by
  unfold releaseCompleted
  split
  · exact .inl rfl
  next d hd =>
    dsimp only
    rw [← keyOf_eq hd]
    split
    · exact .inl rfl
    next hguard =>
      simp only [Bool.or_eq_true, decide_eq_true_eq, not_or, not_not] at hguard
      split
      · exact .inl rfl
      next locks hlocks =>
        exact .inr ⟨locks, rfl, hguard.1, granted_of_replace h.locks hlocks⟩

theorem Owns.mono {ids more : List String} (h : w.Owns digest j more) (hsub : ids ⊆ more) :
    w.Owns digest j ids :=
  fun id hid => h id (hsub hid)

theorem Sound.releaseCompletedRepository (h : w.Sound digest)
    (hstep : w.releaseCompletedRepository digest i id ro = some w') : w'.Sound digest := by
  unfold LeaseWorld.releaseCompletedRepository at hstep
  split at hstep
  next j run plan todo hi =>
    split at hstep
    next hmem =>
      obtain ⟨hstored, howns, hdistinct⟩ := h.stages i _ hi
      have hmem : id ∈ todo := by simpa using hmem
      have howns' := howns.mono (List.filter_sublist (p := (· ≠ id))).subset
      have hdistinct' : ((todo.filter (· ≠ id)).map (w.keyOf digest)).Nodup :=
        hdistinct.sublist (List.filter_sublist.map _)
      rcases releaseCompleted_cases h.tables ro id with hnone | ⟨locks, hsome, hholder, hg⟩
      · rw [hnone] at hstep
        cases hstep
        exact h.advance hi ⟨hstored, howns', hdistinct'⟩ fun _ h => h
      · rw [hsome] at hstep
        cases hstep
        have hkey := (howns id hmem).2
        refine h.move hi ?_ ⟨hstored, ?_, hdistinct'⟩ (fun _ h => h)
          (fun _ _ _ hne _ => Keeps.jobs_erase (not_held hkey hne))
          ⟨rfl, fun _ h => h, fun _ _ => lookup_of_lookup_erase⟩
        · refine h.tables.regrant (h.issued i _ hi) hg ?_
          intro key holder hlookup
          refine ⟨lookup_of_lookup_erase hlookup, ?_⟩
          rintro rfl
          apply List.mem_map_of_mem
          rw [List.mem_filter]
          refine ⟨mem_heldKeys.mpr (lookup_of_lookup_erase hlookup), ?_⟩
          rw [lookup_erase] at hlookup
          split at hlookup
          · cases hlookup
          next hne => simpa using hne
        · -- the copies that are left have other repositories
          intro id' hid'
          obtain ⟨hin, hne⟩ := List.mem_filter.mp hid'
          refine ⟨(howns id' hin).1, ?_⟩
          refine (lookup_erase _ _ _).trans ((if_neg ?_).trans (howns id' hin).2)
          intro heq
          have hsame := List.inj_on_of_nodup_map hdistinct hin hmem heq
          exact absurd hsame (by simpa using hne)
    · cases hstep
  · cases hstep

theorem concluded_id (operationErr : Option String) (now : Instant) (run : Run) :
    (concluded operationErr now run).id = run.id := by
  cases operationErr <;> rfl

theorem activeRun_of_concludable (h : concludable stage = some (run, plan)) :
    activeRun stage = some run.id := by
  unfold concludable at h
  split at h
  · cases h
    rfl
  · cases h
    rfl
  · cases h

theorem Sound.concludeRun (h : w.Sound digest) {operationErr : Option String} {now : Instant}
    (hstep : w.concludeRun i operationErr now = some w') : w'.Sound digest := by
  unfold LeaseWorld.concludeRun at hstep
  split at hstep
  next j stage hi =>
    split at hstep
    next run plan hrun =>
      cases hstep
      refine h.saveRecord hi ?_ trivial (fun _ hrun => by cases hrun)
      rw [concluded_id]
      exact activeRun_of_concludable hrun
    · cases hstep
  · cases hstep

end LeaseWorld

end Stacklab.Backup
