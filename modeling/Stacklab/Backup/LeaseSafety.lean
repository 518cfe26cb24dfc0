import Stacklab.Backup.LeaseMoves

/-! Repository leases are exclusive: no read overlaps a job, and a job's write-back meets the
destination as the job left it. -/
namespace Stacklab.Backup

open Lib GoMap
open Jobs LockTable

variable {digest : String → String → String} {zones : Zones} {w w' : LeaseWorld}

namespace LeaseWorld

variable {j : String} {i : ℕ}

section Ends

variable {s : LockTable} {jobID : String}

theorem Sound.finish (h : w.Sound digest) {recorded : Bool}
    (hstep : w.finish i recorded = some w') : w'.Sound digest := by
  unfold LeaseWorld.finish at hstep
  split at hstep
  next j hi =>
    split at hstep
    · cases hstep
      refine h.move hi ?_ List.mem_cons_self (fun _ hrun => by cases hrun) ?_
        ⟨rfl, fun _ h => h, fun _ _ h => h⟩
      · refine h.tables.jobs ?_ h.tables.locks h.tables.lockIssued
        intro key holder hkey
        refine ⟨h.tables.named key holder hkey, h.tables.exclusive key holder hkey, ?_⟩
        exact (h.tables.locked key holder hkey).imp_left (List.mem_cons_of_mem _)
      · intro k t _ _ _
        exact .of_eq rfl rfl rfl (List.subset_cons_self _ _)
    · cases hstep
      exact h.advance hi trivial fun _ hrun => by cases hrun
  · cases hstep

theorem resourcesOf_unlockAll (hne : j ≠ jobID) :
    (s.unlockAll jobID).resourcesOf j = s.resourcesOf j := by
  simp only [resourcesOf, unlockAll_resourcesByJob, if_neg hne]

theorem known_unlockAll (h : (s.unlockAll jobID).resourcesByJob.lookup j ≠ none) :
    s.resourcesByJob.lookup j ≠ none := by
  rw [unlockAll_resourcesByJob] at h
  split at h
  · exact absurd rfl h
  · exact h

theorem Sound.unlockAll (h : w.Sound digest) (hstep : w.unlockAll i = some w') :
    w'.Sound digest := by
  unfold LeaseWorld.unlockAll at hstep
  split at hstep
  next j hi =>
    cases hstep
    have hterminal : j ∈ w.terminal := h.stages i _ hi
    refine h.move hi ?_ trivial (fun _ hrun => by cases hrun)
      (fun _ _ _ _ _ => .of_eq rfl rfl rfl fun _ h => h) ⟨rfl, fun _ h => h, fun _ _ h => h⟩
    refine h.tables.jobs ?_ (unlockAll_invariant h.tables.locks) ?_
    · intro key holder hkey
      refine ⟨h.tables.named key holder hkey, h.tables.exclusive key holder hkey, ?_⟩
      by_cases hholder : holder = j
      · subst hholder
        exact .inl hterminal
      · rw [resourcesOf_unlockAll hholder]
        exact h.tables.locked key holder hkey
    · intro holder hholder
      exact h.tables.lockIssued holder (known_unlockAll hholder)
  · cases hstep

theorem lookup_of_eraseAll {jobs : GoMap String String} {keys : List String} {key holder : String}
    (h : (jobs.eraseAll j keys).lookup key = some holder) : jobs.lookup key = some holder := by
  rw [lookup_eraseAll] at h
  split at h
  · cases h
  · exact h

theorem Sound.releaseRepositories (h : w.Sound digest)
    (hstep : w.releaseRepositories i = some w') : w'.Sound digest := by
  unfold LeaseWorld.releaseRepositories at hstep
  split at hstep
  next j hi =>
    cases hstep
    refine h.move hi (h.tables.drop fun _ _ => lookup_of_eraseAll) trivial
      (fun _ hrun => by cases hrun) ?_ ⟨rfl, fun _ h => h, fun _ _ => lookup_of_eraseAll⟩
    intro k t _ hne _
    refine ⟨fun _ _ => rfl, ?_, fun _ _ => rfl, fun h => h⟩
    intro key
    refine ⟨lookup_of_eraseAll, ?_⟩
    intro hkey
    refine (lookup_eraseAll _ _ _ _).trans ((if_neg ?_).trans hkey)
    rintro ⟨-, hj⟩
    exact hne (Option.some.inj (hkey.symm.trans hj))
  · cases hstep

end Ends

section Others

variable {ro : RangeOrder Jobs.Holding} {call : LockCall}

/-- What a call of another job does to the lock table. -/
theorem otherCall_effect (ro : RangeOrder Jobs.Holding) (h : w.Tables digest) {owned : List String}
    (hallowed : otherCallAllowed w.issued owned call = true) (howned : owned ⊆ w.issued) :
    (call.run ro w.locks).2.Invariant ∧
      (∀ j ∈ owned, (call.run ro w.locks).2.resourcesOf j = w.locks.resourcesOf j) ∧
      ∀ j, (call.run ro w.locks).2.resourcesByJob.lookup j ≠ none →
        j ∈ startedIDs call ++ w.issued := by
  cases call with
  | start token stackID requested draining =>
    have hnew : newJobID token ∉ w.issued := by simpa [otherCallAllowed] using hallowed
    have hfresh : w.locks.resourcesByJob.lookup (newJobID token) = none := by
      by_contra hne
      exact hnew (h.lockIssued _ hne)
    cases hrun : (LockCall.start token stackID requested draining).run ro w.locks with
    | mk result locks =>
      cases result with
      | error err =>
        have hfailed := lockCall_failed (congrArg Prod.fst hrun)
        rw [hrun] at hfailed
        subst hfailed
        exact ⟨h.locks, fun _ _ => rfl, fun j hj => List.mem_cons_of_mem _ (h.lockIssued j hj)⟩
      | ok =>
        have hg := granted_of_start h.locks hfresh hrun
        refine ⟨hg.invariant, ?_, ?_⟩
        · intro j hj
          apply hg.others
          rintro rfl
          exact hnew (howned hj)
        · intro j hj
          rcases hg.known j hj with rfl | hj
          · exact List.mem_cons_self
          · exact List.mem_cons_of_mem _ (h.lockIssued j hj)
  | replaceResources jobID requested =>
    have hother : jobID ∉ owned := by simpa [otherCallAllowed] using hallowed
    refine ⟨replaceResources_invariant h.locks, ?_, ?_⟩
    · intro j hj
      have hcases : (w.locks.replaceResources ro jobID requested).2 = w.locks ∨ _ :=
        replaceResources_snd h.locks requested
      rcases hcases with hsame | hg
      · exact congrArg (resourcesOf · j) hsame
      · apply hg.others
        rintro rfl
        exact hother hj
    · intro j hj
      rcases replaceResources_lookup w.locks ro jobID requested j with hsame | hsome
      · exact h.lockIssued j (hsame ▸ hj)
      · exact h.lockIssued j hsome.1
  | unlockAll jobID =>
    have hother : jobID ∉ owned := by simpa [otherCallAllowed] using hallowed
    refine ⟨unlockAll_invariant h.locks, ?_, ?_⟩
    · intro j hj
      apply resourcesOf_unlockAll
      rintro rfl
      exact hother hj
    · intro j hj
      exact h.lockIssued j (known_unlockAll hj)

theorem Sound.otherJob (h : w.Sound digest) (hstep : w.otherJob ro call = some w') :
    w'.Sound digest := by
  unfold LeaseWorld.otherJob at hstep
  split at hstep
  next hallowed =>
    cases hstep
    have howned : w.threads.map LeaseThread.jobID ⊆ w.issued := by
      intro j hj
      obtain ⟨t, ht, rfl⟩ := List.mem_map.mp hj
      obtain ⟨k, hk⟩ := List.getElem?_of_mem ht
      exact h.issued k t hk
    obtain ⟨hinv, hothers, hknown⟩ := otherCall_effect ro h.tables hallowed howned
    refine h.quiet (h.tables.jobs ?_ hinv hknown)
      (fun _ _ _ => .of_eq rfl rfl rfl fun _ h => h)
      ⟨rfl, List.subset_append_right _ _, fun _ _ h => h⟩
    intro key holder hkey
    refine ⟨h.tables.named key holder hkey, h.tables.exclusive key holder hkey, ?_⟩
    obtain ⟨k, t, ht, rfl⟩ := h.holders key holder hkey
    rw [hothers t.jobID (List.mem_map_of_mem (List.mem_of_getElem? ht))]
    exact h.tables.locked key _ hkey
  · cases hstep

theorem Sound.pruneMetadata (h : w.Sound digest) {runIDs : List String}
    (hstep : w.pruneMetadata runIDs = some w') : w'.Sound digest := by
  unfold LeaseWorld.pruneMetadata at hstep
  split at hstep
  · cases hstep
  next hguard =>
    cases hstep
    have hidle : ∀ runID ∈ runIDs, (w.runs.lookup runID).any runActive = false := by
      simpa using hguard
    refine h.quiet { h.tables with runIDs := ?_ } ?_ ⟨rfl, fun _ h => h, fun _ _ h => h⟩
    · intro id p hp
      exact h.tables.runIDs id p (lookup_of_lookup_eraseWhere hp)
    · intro k t ht
      refine ⟨fun _ _ => rfl, fun _ => Iff.rfl, ?_, fun h => h⟩
      intro runID hrun
      obtain ⟨p, hp, hstate⟩ := h.active_running ht hrun
      apply lookup_eraseWhere_of_not
      by_contra hmem
      have hfalse := hidle runID (by simpa using hmem)
      simp [hp, runActive, hstate] at hfalse

end Others

section Configuration

variable {id newID : String} {now : Instant} {persisted : Bool}

/-- The configuration is only edited while nobody has a lease. -/
theorem Tables.idle (h : w.Tables digest) (hbusy : w.configurationBusyLocked = false) :
    (∀ key, w.repositoryJobs.lookup key = none) ∧ ∀ lease, some lease ∉ w.readers := by
  simp only [configurationBusyLocked, Bool.or_eq_false_iff, Bool.not_eq_false',
    decide_eq_false_iff_not, not_lt] at hbusy
  obtain ⟨⟨hjobs, hactive⟩, -⟩ := hbusy
  refine ⟨entries_eq_nil_iff.mp (List.isEmpty_iff.mp hjobs), ?_⟩
  intro lease hlease
  have hpos : 0 < w.readers.countP Option.isSome :=
    List.countP_pos_iff.mpr ⟨some lease, hlease, rfl⟩
  have hcount := h.active
  omega

/-- An edit while nobody has a lease. -/
theorem Sound.edit (h : w.Sound digest) (hbusy : w.configurationBusyLocked = false)
    {destinations : GoMap String LeasedDestination} {plans : GoMap String Plan}
    {savedIDs : List String}
    (hids : ∀ id d, destinations.lookup id = some d → d.id = id ∧ id ∈ savedIDs)
    (hlisted : ∀ d ∈ w.listed, d.id ∈ savedIDs ∧ ∀ d', destinations.lookup d.id = some d' →
      repositoryKey digest d' = repositoryKey digest d) :
    { w with destinations := destinations, plans := plans, savedIDs := savedIDs }.Sound
      digest := by
  obtain ⟨hfree, hreaders⟩ := h.tables.idle hbusy
  refine h.quiet { h.tables with leases := ?_, ids := hids, listed := ?_ } ?_
    ⟨rfl, fun _ h => h, fun _ _ h => h⟩
  · intro lease hlease
    exact absurd hlease (hreaders lease)
  · intro d hd
    refine ⟨(hlisted d hd).1, ?_⟩
    intro hsome
    obtain ⟨d', hd'⟩ := Option.isSome_iff_exists.mp hsome
    exact (keyOf_eq hd').trans ((hlisted d hd).2 d' hd')
  · intro k t _
    refine ⟨?_, fun _ => Iff.rfl, fun _ _ => rfl, fun h => h⟩
    intro id hholder
    rw [hfree] at hholder
    cases hholder

theorem Tables.listed_key (h : w.Tables digest) {d d' : LeasedDestination} (hd : d ∈ w.listed)
    (hd' : w.destinations.lookup d.id = some d') :
    repositoryKey digest d' = repositoryKey digest d := by
  rw [← keyOf_eq hd']
  exact (h.listed d hd).2 (by rw [hd']; rfl)

section

variable (h : w.Sound digest)
include h

theorem Sound.saveDestination {input : DestinationInput}
    (hstep : w.saveDestination digest zones id newID input now persisted = some w') :
    w'.Sound digest := by
  unfold LeaseWorld.saveDestination at hstep
  split at hstep
  · cases hstep
  next hbusy =>
    split at hstep
    · cases hstep
    · split at hstep
      next previous hprevious =>
        split at hstep
        · cases hstep
        next hguard =>
          cases hstep
          simp only [Bool.or_eq_true, not_or, decide_eq_true_eq, not_not] at hguard
          have hsame : SameDestination previous
              { w.savedDestination zones id input now with id := id } :=
            ⟨(h.tables.ids id previous hprevious).1.symm, hguard.1.1.symm, hguard.1.2.symm⟩
          refine h.edit (by simpa using hbusy) ?_ ?_
          · exact forall_insert h.tables.ids ⟨rfl, (h.tables.ids id previous hprevious).2⟩
          · intro d hd
            refine ⟨(h.tables.listed d hd).1, ?_⟩
            intro d' hd'
            rcases lookup_insert_cases hd' with ⟨heq, rfl⟩ | hold
            · exact hsame.key.trans (h.tables.listed_key hd (heq ▸ hprevious))
            · exact h.tables.listed_key hd hold
      · split at hstep
        · cases hstep
        next hguard =>
          cases hstep
          simp only [Bool.or_eq_true, not_or, decide_eq_true_eq, not_not,
            List.contains_iff_mem] at hguard
          refine h.edit (by simpa using hbusy) ?_ ?_
          · intro id' d hd
            rw [lookup_setDestination] at hd
            split at hd
            next heq =>
              cases hd
              exact ⟨heq.symm, heq ▸ List.mem_cons_self⟩
            · have hold := h.tables.ids id' d hd
              exact ⟨hold.1, List.mem_cons_of_mem _ hold.2⟩
          · intro d hd
            have hsaved := (h.tables.listed d hd).1
            refine ⟨List.mem_cons_of_mem _ hsaved, ?_⟩
            intro d' hd'
            rw [lookup_setDestination, if_neg] at hd'
            · exact h.tables.listed_key hd hd'
            · intro heq
              exact hguard.1.2 (heq ▸ hsaved)

theorem Sound.deleteDestination (hstep : w.deleteDestination id persisted = some w') :
    w'.Sound digest := by
  unfold LeaseWorld.deleteDestination at hstep
  split at hstep
  · cases hstep
  next hguard =>
    cases hstep
    simp only [Bool.or_eq_true, not_or, Bool.not_eq_true] at hguard
    refine h.edit hguard.1.1.1
      (fun id' d hd => h.tables.ids id' d (lookup_of_lookup_erase hd)) ?_
    intro d hd
    refine ⟨(h.tables.listed d hd).1, ?_⟩
    intro d' hd'
    exact h.tables.listed_key hd (lookup_of_lookup_erase hd')

/-- Plans say nothing about leases. -/
theorem Sound.setPlans (plans : GoMap String Plan) : { w with plans := plans }.Sound digest :=
  h.quiet { h.tables with } (fun _ _ _ => .of_eq rfl rfl rfl fun _ h => h)
    ⟨rfl, fun _ h => h, fun _ _ h => h⟩

theorem Sound.savePlan {plan : Plan}
    (hstep : w.savePlan zones id newID plan now persisted = some w') : w'.Sound digest := by
  unfold LeaseWorld.savePlan at hstep
  dsimp only at hstep
  split at hstep
  · cases hstep
  · split at hstep
    · cases hstep
    · cases hstep
      exact h.setPlans _

theorem Sound.deletePlan (hstep : w.deletePlan id persisted = some w') : w'.Sound digest := by
  unfold LeaseWorld.deletePlan at hstep
  split at hstep
  · cases hstep
  · cases hstep
    exact h.setPlans _

end

end Configuration

theorem Sound.listDestinations (h : w.Sound digest) :
    { w with listed := w.destinations.entries.map Sigma.snd }.Sound digest := by
  refine h.quiet { h.tables with listed := ?_ }
    (fun _ _ _ => .of_eq rfl rfl rfl fun _ h => h) ⟨rfl, fun _ h => h, fun _ _ h => h⟩
  intro d hd
  obtain ⟨⟨id, _⟩, he, rfl⟩ := List.mem_map.mp hd
  have hlookup := lookup_eq_some_iff.mpr he
  obtain ⟨hid, hsaved⟩ := h.tables.ids id _ hlookup
  rw [hid]
  exact ⟨hsaved, fun _ => keyOf_eq hlookup⟩

theorem Sound.next {step : LeaseStep} (h : w.Sound digest)
    (hstep : w.next digest zones step = some w') : w'.Sound digest := by
  cases step with
  | beginRepositoryRead id => exact h.beginRepositoryRead hstep
  | readerRefreshes reader update =>
    simp only [LeaseWorld.next] at hstep
    split at hstep
    next lease hlease =>
      cases hstep
      exact h.readerRefreshes (List.mem_of_getElem? hlease) update
    · cases hstep
  | releaseRead reader => exact h.releaseRead hstep
  | startRepositoryJob id action acknowledged ro token =>
    exact h.startRepositoryJob (fun _ _ hnone => by cases hnone) hstep
  | listDestinations =>
    cases hstep
    exact h.listDestinations
  | startMaintenance d action acknowledged ro token =>
    simp only [LeaseWorld.next] at hstep
    split at hstep
    next hd =>
      refine h.startRepositoryJob ?_ hstep
      intro d' m heq hsome
      cases heq
      exact ⟨rfl, ((h.tables.listed d hd).2 hsome).symm⟩
    · cases hstep
  | recordMaintenance i due persisted => exact h.recordMaintenance hstep
  | executeRepositoryJob i => exact h.executeRepositoryJob hstep
  | jobRefreshes i update => exact h.jobRefreshes hstep
  | lockHost i ro => exact h.lockHost hstep
  | writeBack i outcome => exact h.writeBack hstep
  | startRun planID request ro token runID now expiresAt persisted => exact h.startRun hstep
  | startRetry runID request env ro token persisted => exact h.startRetry hstep
  | executeRun i => exact h.executeRun hstep
  | saveCapture i captureState capturedAt manifest => exact h.saveCapture hstep
  | collectResources i => exact h.collectResources hstep
  | replaceResources i ro => exact h.replaceResources hstep
  | copyVerified i id uploadedAt => exact h.copyVerified hstep
  | saveRun i copies phase => exact h.saveRun hstep
  | releaseCompletedRepository i id ro => exact h.releaseCompletedRepository hstep
  | concludeRun i operationErr now => exact h.concludeRun hstep
  | finish i recorded => exact h.finish hstep
  | unlockAll i => exact h.unlockAll hstep
  | releaseRepositories i => exact h.releaseRepositories hstep
  | otherJob ro call => exact h.otherJob hstep
  | pruneMetadata runIDs => exact h.pruneMetadata hstep
  | saveDestination id newID input now persisted => exact h.saveDestination hstep
  | deleteDestination id persisted => exact h.deleteDestination hstep
  | savePlan id newID plan now persisted => exact h.savePlan hstep
  | deletePlan id persisted => exact h.deletePlan hstep

theorem Loaded.sound (h : w.Loaded) : w.Sound digest := by
  obtain ⟨heq, hids, hruns⟩ := h
  rw [heq]
  refine ⟨⟨?_, ?_, ?_, invariant_new, ?_, ?_, rfl, rfl, ?_, hids, hruns, ?_⟩,
    ?_, ?_, ?_, ?_, ?_⟩ <;> simp [LeaseWorld.new, LockTable.new, reads]

end LeaseWorld

theorem leaseReachable_sound (h : LeaseReachable digest zones w) : w.Sound digest := by
  refine Lts.reachable_of_trInv ?_ ?_ h
  · intro w hloaded
    exact hloaded.sound
  · intro w step w' hstep hsound
    exact hsound.next hstep

/-- No repository is read while a job has it; the reads are counted; a job that has not ended
holds the lock of each repository reserved for it; and what a repository job writes back replaces
the destination as the job read it, changed only by the job's own refreshes. -/
theorem repository_leases_exclusive (h : LeaseReachable digest zones w) :
    (∀ key, ¬ (0 < w.reads key ∧ w.holder key ≠ "")) ∧
    w.activeRepositoryReads = GoMap.total w.repositoryReads ∧
    (∀ key j, w.repositoryJobs.lookup key = some j → j ∉ w.terminal →
      w.locks.lockedByResource.lookup (backupRepositoryResource key) = some j) ∧
    (∀ i outcome w', w.writeBack i outcome = some w' → ∃ jobID id action d refreshes current,
      w.threads[i]? = some ⟨jobID, .executing id action d refreshes⟩ ∧
      w.destinations.lookup id = some current ∧
      current = refreshes.foldl (fun d update => update.apply d) d ∧
      w'.destinations.lookup id = some (writtenBack action outcome d current)) := by
  have hsound := leaseReachable_sound h
  refine ⟨?_, hsound.tables.total, ?_, ?_⟩
  · rintro key ⟨hreads, hholder⟩
    cases hlookup : w.repositoryJobs.lookup key with
    | none => simp [LeaseWorld.holder, hlookup] at hholder
    | some j =>
      have hzero := hsound.tables.exclusive key j hlookup
      omega
  · intro key j hkey hactive
    rcases hsound.tables.locked key j hkey with hterminal | hlocked
    · exact absurd hterminal hactive
    · exact (hsound.tables.locks.inverse _ j).mpr hlocked
  · intro i outcome w' hstep
    unfold LeaseWorld.writeBack at hstep
    split at hstep
    next j id action d refreshes hi =>
      cases hstep
      obtain ⟨-, hread⟩ := hsound.stages i _ hi
      refine ⟨j, id, action, d, refreshes, _, hi, hread, rfl, ?_⟩
      change (w.setDestination id _).destinations.lookup id = _
      rw [LeaseWorld.lookup_setDestination, if_pos rfl]
      simp only [LeaseWorld.destination, hread, Option.getD_some]
    · cases hstep

/-- A destination is saved, read and checked, up to the refresh of its inventory. -/
def checkedRun : List LeaseStep :=
  let manual : Schedule := ⟨.manual, "", 0, "", 0⟩
  let input : DestinationInput :=
    ⟨"Disk", "local", "/srv", "", "", true, manual, .metadata, manual⟩
  [.saveDestination "" "d" input 0 true,
    .beginRepositoryRead "d",
    .releaseRead 0,
    .startRepositoryJob "d" .check true .stored "t",
    .executeRepositoryJob 0,
    .jobRefreshes 0 (.reconciled 60)]

def checkedStep (w : LeaseWorld) (step : LeaseStep) : Option LeaseWorld :=
  w.next (fun kind repository => kind ++ repository) ⟨fun _ => none, .utc⟩ step

theorem checkedRun_runs : (checkedRun.foldlM checkedStep .new).isSome = true := by
  decide +kernel

/-- The check holds its repository and writes back over what it refreshed itself. -/
theorem checked_lease_exclusive : ∃ (w : LeaseWorld) (j : String),
    w.repositoryJobs.lookup "local/srv" = some j ∧
    w.locks.lockedByResource.lookup (backupRepositoryResource "local/srv") = some j ∧
    (w.writeBack 0 ⟨none, 60, .metadata, none, none⟩).isSome = true := by
  have hrun := (Option.some_get checkedRun_runs).symm
  have hreach : LeaseReachable (fun kind repository => kind ++ repository)
      ⟨fun _ => none, .utc⟩ ((checkedRun.foldlM checkedStep .new).get checkedRun_runs) := by
    refine ⟨.new, ⟨rfl, ?_, ?_⟩, checkedRun, Lts.mTr_of_foldlM (fun _ _ _ h => h) hrun⟩
    · intro id d hd
      cases hd
    · intro id p hp
      cases hp
  have hheld : ((checkedRun.foldlM checkedStep .new).get checkedRun_runs).repositoryJobs.lookup
      "local/srv" = some "job_t" := by
    decide +kernel
  have hsafe := repository_leases_exclusive hreach
  refine ⟨_, "job_t", hheld, hsafe.2.2.1 _ _ hheld ?_, ?_⟩
  · decide +kernel
  · decide +kernel

/-- The run that a job works on is stored as running, and no other job works on it. -/
theorem runs_have_one_executor (h : LeaseReachable digest zones w) {i : ℕ} {runID : String}
    (hi : w.threads[i]?.bind (activeRun ·.stage) = some runID) :
    (∃ p, w.runs.lookup runID = some p ∧ p.run.state = .running) ∧
      ∀ k : ℕ, w.threads[k]?.bind (activeRun ·.stage) = some runID → k = i := by
  have hsound := leaseReachable_sound h
  obtain ⟨t, ht, hrun⟩ := Option.bind_eq_some_iff.mp hi
  refine ⟨hsound.active_running ht hrun, fun k hk => ?_⟩
  obtain ⟨u, hu, hrun'⟩ := Option.bind_eq_some_iff.mp hk
  exact hsound.runs k i u t runID hu ht hrun' hrun

/-- A loaded run that failed after its capture. -/
def loadedRun : LeaseWorld :=
  let run := { newRun "r" "" "" "" 0 1 ["d"] with
    state := .failed, captureState := .succeeded, capturedAt := some 0
    manifest := some ⟨1, "r", "", 0⟩ }
  { LeaseWorld.new with runs := AList.insert "r" ⟨run, ⟨"", "", true, "", [], []⟩⟩ ∅ }

theorem retried_run_has_one_executor :
    let retry := .startRetry "r" [] ⟨0, true, fun _ => none, none, .ok ""⟩ .stored "t" true
    ∃ w, (checkedRun.take 1 ++ [retry]).foldlM checkedStep loadedRun = some w ∧
      ∃ p, w.runs.lookup "r" = some p ∧ p.run.state = .running := by
  intro retry
  have hrun := (Option.some_get (show ((checkedRun.take 1 ++ [retry]).foldlM checkedStep
    loadedRun).isSome = true by decide +kernel)).symm
  refine ⟨_, hrun, (runs_have_one_executor ⟨loadedRun, ⟨rfl, ?_, ?_⟩, _,
    Lts.mTr_of_foldlM (fun _ _ _ h => h) hrun⟩ (i := 0) (by decide +kernel)).1⟩
  · rintro _ _ ⟨⟩
  · intro id p hp
    obtain ⟨rfl, rfl⟩ | hp := lookup_insert_cases hp
    · rfl
    · cases hp

end Stacklab.Backup
