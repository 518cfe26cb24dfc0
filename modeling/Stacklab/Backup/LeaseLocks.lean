import Stacklab.Backup.LeaseTables

/-! How the lease tables follow the lock table of the job service. -/
namespace Stacklab.Backup

open Lib
open Jobs LockTable

section Normalized

variable {requested resources : List Resource} {r : Resource}

theorem collectRequested_mono {unique : List Resource}
    (h : collectRequested unique requested = .ok resources) (hr : r ∈ unique ∨ r ∈ requested) :
    r ∈ resources := by
  induction requested generalizing unique with
  | nil =>
    cases h
    simpa using hr
  | cons q rest ih =>
    simp only [collectRequested] at h
    split at h
    · cases h
    · refine ih h ?_
      rcases hr with hr | hr
      · exact .inl (List.mem_insert_of_mem hr)
      · rcases List.mem_cons.mp hr with rfl | hr
        · exact .inl List.mem_insert_self
        · exact .inr hr

/-- A repository is kept even next to the host. -/
theorem mem_normalizeResources {stackID : String}
    (h : normalizeResources stackID requested = .ok resources) (hr : r ∈ requested)
    (hkind : r.kind = .backupRepository) : r ∈ resources := by
  simp only [normalizeResources] at h
  split at h
  · cases h
  next unique hunique =>
    have hmem : r ∈ unique := collectRequested_mono hunique (.inr hr)
    split at h
    · cases h
    · cases h
      rw [List.mem_mergeSort]
      split
      · simp [hmem, hkind]
      · exact hmem

end Normalized

/-- A call for one job: the repositories that it asked for are granted, and the other jobs keep
their resources. -/
structure Granted (s t : LockTable) (jobID : String) (requested : List Resource) : Prop where
  invariant : t.Invariant
  granted : ∀ key, backupRepositoryResource key ∈ requested →
    backupRepositoryResource key ∈ t.resourcesOf jobID
  others : ∀ j, j ≠ jobID → t.resourcesOf j = s.resourcesOf j
  known : ∀ j, t.resourcesByJob.lookup j ≠ none → j = jobID ∨ s.resourcesByJob.lookup j ≠ none

variable {s t : LockTable} {ro : RangeOrder Jobs.Holding} {jobID stackID : String}
  {requested : List Resource}

theorem granted_of_insert {resources : List Resource} (hinv : t.Invariant)
    (hnorm : normalizeResources stackID requested = .ok resources)
    (ht : ∀ j, t.resourcesByJob.lookup j =
      if j = jobID then some resources else s.resourcesByJob.lookup j) :
    Granted s t jobID requested := by
  refine ⟨hinv, ?_, ?_, ?_⟩
  · intro key hkey
    simp only [resourcesOf, ht, if_true, Option.getD_some]
    exact mem_normalizeResources hnorm hkey rfl
  · intro j hj
    simp only [resourcesOf, ht, if_neg hj]
  · intro j hj
    rw [ht] at hj
    split at hj
    next heq => exact .inl heq
    · exact .inr hj

theorem granted_of_start {token : String} {draining : Bool} (hinv : s.Invariant)
    (hfresh : s.resourcesByJob.lookup (newJobID token) = none)
    (h : (LockCall.start token stackID requested draining).run ro s = (.ok (), t)) :
    Granted s t (newJobID token) requested := by
  have hinv' := lockCall_invariant (c := .start token stackID requested draining) ro hfresh hinv
  rw [h] at hinv'
  simp only [LockCall.run] at h
  split at h
  · cases h
  next resources hnorm =>
    refine granted_of_insert hinv' hnorm ?_
    intro j
    have hok : (s.lockMany ro (newJobID token) resources draining).1 = .ok () := by rw [h]
    have hlookup := lockMany_lookup hok j
    rw [h] at hlookup
    exact hlookup

theorem granted_of_replace (hinv : s.Invariant)
    (h : s.replaceResources ro jobID requested = (.ok (), t)) : Granted s t jobID requested := by
  have hinv' : (s.replaceResources ro jobID requested).2.Invariant :=
    replaceResources_invariant hinv
  rw [h] at hinv'
  simp only [LockTable.replaceResources] at h
  split at h
  · cases h
  next resources hnorm =>
    refine granted_of_insert hinv' hnorm ?_
    intro j
    split at h
    · cases h
    · split at h
      · cases h
      · split at h
        · cases h
        · cases h
          rw [clearDrain_resourcesByJob]
          exact GoMap.lookup_insert _ _ _ _

/-- A refused replacement changes nothing. -/
theorem replaceResources_snd (hinv : s.Invariant) (requested : List Resource) :
    (s.replaceResources ro jobID requested).2 = s ∨
      Granted s (s.replaceResources ro jobID requested).2 jobID requested := by
  cases h : s.replaceResources ro jobID requested with
  | mk result t =>
    cases result with
    | error err =>
      have herr : ((LockCall.replaceResources jobID requested).run ro s).1 = .error err := by
        simp [LockCall.run, h]
      have hfailed := lockCall_failed herr
      simp only [LockCall.run, h] at hfailed
      exact .inl hfailed
    | ok => exact .inr (granted_of_replace hinv h)

namespace LeaseWorld

variable {digest : String → String → String} {w w' : LeaseWorld} {j : String}
  {repositoryJobs : GoMap String String} {locks : LockTable} {requested : List Resource}

theorem startWithResources_eq_some {token : String} {resources : List Resource}
    (h : w.Tables digest) (hstart : w.startWithResources ro token resources = some w') :
    newJobID token ∉ w.issued ∧ ∃ locks, Granted w.locks locks (newJobID token) resources ∧
      w' = { w with locks := locks, issued := newJobID token :: w.issued } := by
  unfold startWithResources at hstart
  split at hstart
  · cases hstart
  next hissued =>
    have hnew : newJobID token ∉ w.issued := by simpa using hissued
    refine ⟨hnew, ?_⟩
    split at hstart
    · cases hstart
    next locks hrun =>
      cases hstart
      refine ⟨locks, granted_of_start h.locks ?_ hrun, rfl⟩
      by_contra hne
      exact hnew (h.lockIssued _ hne)

/-- The tables after a job was granted the repositories that it reserves. -/
theorem Tables.grant (h : w.Tables digest) (hg : Granted w.locks locks j requested) (hj : j ≠ "")
    (hjobs : ∀ key holder, repositoryJobs.lookup key = some holder →
      (holder = j ∧ w.reads key ≤ 0 ∧ backupRepositoryResource key ∈ requested) ∨
        (holder ≠ j ∧ w.repositoryJobs.lookup key = some holder)) :
    { w with repositoryJobs := repositoryJobs, locks := locks,
             issued := j :: w.issued }.Tables digest := by
  refine h.jobs ?_ hg.invariant ?_
  · intro key holder hkey
    rcases hjobs key holder hkey with ⟨rfl, hreads, hmem⟩ | ⟨hne, hold⟩
    · exact ⟨hj, hreads, .inr (hg.granted key hmem)⟩
    · rw [hg.others holder hne]
      exact ⟨h.named key holder hold, h.exclusive key holder hold, h.locked key holder hold⟩
  · intro holder hholder
    rcases hg.known holder hholder with rfl | hholder
    · exact List.mem_cons_self
    · exact List.mem_cons_of_mem _ (h.lockIssued holder hholder)

/-- The tables after a job with a known id was granted what it keeps reserved. -/
theorem Tables.regrant (h : w.Tables digest) (hissued : j ∈ w.issued)
    (hg : Granted w.locks locks j requested) (hjobs : ∀ key holder,
      repositoryJobs.lookup key = some holder → w.repositoryJobs.lookup key = some holder ∧
        (holder = j → backupRepositoryResource key ∈ requested)) :
    { w with repositoryJobs := repositoryJobs, locks := locks }.Tables digest := by
  refine h.jobs ?_ hg.invariant ?_
  · intro key holder hkey
    obtain ⟨hold, hmem⟩ := hjobs key holder hkey
    refine ⟨h.named key holder hold, h.exclusive key holder hold, ?_⟩
    by_cases hholder : holder = j
    · subst hholder
      exact .inr (hg.granted key (hmem rfl))
    · rw [hg.others holder hholder]
      exact h.locked key holder hold
  · intro holder hholder
    rcases hg.known holder hholder with rfl | hholder
    · exact hissued
    · exact h.lockIssued holder hholder

/-- Reservations may always be dropped. -/
theorem Tables.drop (h : w.Tables digest)
    (hjobs : ∀ key holder, repositoryJobs.lookup key = some holder →
      w.repositoryJobs.lookup key = some holder) :
    { w with repositoryJobs := repositoryJobs }.Tables digest := by
  refine h.jobs ?_ h.locks h.lockIssued
  intro key holder hkey
  have hold := hjobs key holder hkey
  exact ⟨h.named key holder hold, h.exclusive key holder hold, h.locked key holder hold⟩

end LeaseWorld

end Stacklab.Backup
