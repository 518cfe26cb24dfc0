import Stacklab.Lib.Lts
import Stacklab.Jobs.Lifecycle

/-! The lock-table invariant over every interleaving of the mutex-atomic calls. -/
namespace Stacklab.Jobs

open Lib LockTable GoMap

variable {s : LockTable} {c : LockCall}

/-- The calls that change the lock table. `start` is the locking part of the source's
`start`; its job id is the fixed text followed by a random token. -/
inductive LockCall
  | start (token stackID : String) (requested : List Resource) (draining : Bool)
  | replaceResources (jobID : String) (requested : List Resource)
  | unlockAll (jobID : String)

def LockCall.run (ro : RangeOrder Holding) (s : LockTable) :
    LockCall → Except JobsError Unit × LockTable
  | .start token stackID requested draining =>
    match normalizeResources stackID requested with
    | .error err => (.error err, s)
    | .ok resources => s.lockMany ro (newJobID token) resources draining
  | .replaceResources jobID requested => s.replaceResources ro jobID requested
  | .unlockAll jobID => (.ok (), s.unlockAll jobID)

/-- A started job has an id that holds no lease yet. -/
def LockCall.Fresh (s : LockTable) : LockCall → Prop
  | .start token _ _ _ => s.resourcesByJob.lookup (newJobID token) = none
  | _ => True

def lockLts : Lts LockTable (RangeOrder Holding × LockCall) where
  Tr s l t := l.2.Fresh s ∧ t = (l.2.run l.1 s).2

def LockReachable (s : LockTable) : Prop := lockLts.Reachable (· = .new) s

namespace LockTable

variable {s t : LockTable} {jobID : String} {resources : List Resource} {ro : RangeOrder Holding}
  {draining : Bool}

/-- Reading an absent key of the Go map yields the empty slice. -/
def resourcesOf (s : LockTable) (jobID : String) : List Resource :=
  (s.resourcesByJob.lookup jobID).getD []

def InverseViews (s : LockTable) : Prop :=
  ∀ r j, s.lockedByResource.lookup r = some j ↔ r ∈ s.resourcesOf j

def Exclusive (s : LockTable) : Prop :=
  ∀ r r' j j', s.lockedByResource.lookup r = some j → s.lockedByResource.lookup r' = some j' →
    j ≠ j' → resourcesConflict r r' = false

def DrainOwnsAll (s : LockTable) : Prop :=
  s.drainingJobID ≠ "" → s.drainingResource ∈ s.resourcesOf s.drainingJobID ∧
    ∀ r j, s.lockedByResource.lookup r = some j → j = s.drainingJobID

structure Invariant (s : LockTable) : Prop where
  inverse : s.InverseViews
  exclusive : s.Exclusive
  drain : s.DrainOwnsAll
  named : s.resourcesByJob.lookup "" = none

/-- No other job holds a resource that conflicts with a requested one. -/
def Free (s : LockTable) (jobID : String) (resources : List Resource) : Prop :=
  ∀ q ∈ resources, ∀ r j, s.lockedByResource.lookup r = some j → j ≠ jobID →
    resourcesConflict q r = false

/-- What each call does to the two maps: the job's resources become exactly `resources`. -/
structure Reassigned (s t : LockTable) (jobID : String) (resources : List Resource) : Prop where
  locked : ∀ r, t.lockedByResource.lookup r =
    if r ∈ resources then some jobID
    else if s.lockedByResource.lookup r = some jobID then none
    else s.lockedByResource.lookup r
  held : ∀ j, t.resourcesOf j = if j = jobID then resources else s.resourcesOf j

theorem invariant_new : Invariant .new := by
  refine ⟨?_, ?_, ?_, ?_⟩
  · intro r j
    simp [new, resourcesOf]
  · intro r r' j j' h
    simp [new] at h
  · intro h
    exact absurd rfl h
  · simp [new]

theorem resourcesOf_insert {m : GoMap String (List Resource)}
    (ht : t.resourcesByJob = m.insert jobID resources) (j : String) :
    t.resourcesOf j = if j = jobID then resources else (m.lookup j).getD [] := by
  unfold resourcesOf
  rw [ht, lookup_insert]
  split <;> rfl

namespace Reassigned

/-- A holder after the change is the job itself or an earlier holder. -/
theorem holder (h : Reassigned s t jobID resources) {r : Resource} {j : String}
    (hr : t.lockedByResource.lookup r = some j) :
    (r ∈ resources ∧ j = jobID) ∨ (j ≠ jobID ∧ s.lockedByResource.lookup r = some j) := by
  rw [h.locked] at hr
  split at hr
  next hmem =>
    exact .inl ⟨hmem, (Option.some.inj hr).symm⟩
  · split at hr
    · cases hr
    next hne =>
      exact .inr ⟨fun hj => hne (hj ▸ hr), hr⟩

theorem exclusive (h : Reassigned s t jobID resources) (hf : s.Free jobID resources)
    (he : s.Exclusive) : t.Exclusive := by
  intro r r' j j' hr hr' hne
  rcases h.holder hr with ⟨hmem, rfl⟩ | ⟨hj, hs⟩ <;>
    rcases h.holder hr' with ⟨hmem', hj'⟩ | ⟨hj', hs'⟩
  · exact absurd hj'.symm hne
  · exact hf r hmem r' j' hs' hj'
  · rw [resourcesConflict_comm]
    exact hf r' hmem' r j hs hj
  · exact he r r' j j' hs hs' hne

theorem inverse (h : Reassigned s t jobID resources) (hf : s.Free jobID resources)
    (hi : s.InverseViews) : t.InverseViews := by
  intro r j
  rw [h.held]
  by_cases hj : j = jobID
  · subst hj
    rw [if_pos rfl]
    constructor
    · intro hr
      rcases h.holder hr with ⟨hmem, _⟩ | ⟨hne, _⟩
      · exact hmem
      · exact absurd rfl hne
    · intro hmem
      rw [h.locked, if_pos hmem]
  · rw [if_neg hj, ← hi r j]
    constructor
    · intro hr
      rcases h.holder hr with ⟨_, hj'⟩ | ⟨_, hs⟩
      · exact absurd hj' hj
      · exact hs
    · intro hs
      -- a requested resource conflicts with itself, so nobody else holds it
      have hmem : r ∉ resources := by
        intro hmem
        have hself := hf r hmem r j hs hj
        rw [resourcesConflict_self] at hself
        cases hself
      rw [h.locked, if_neg hmem, if_neg (by simp [hs, hj]), hs]

end Reassigned

theorem holder_ne_empty (hinv : s.Invariant) {r : Resource} {j : String}
    (hr : s.lockedByResource.lookup r = some j) : j ≠ "" := by
  rintro rfl
  have hmem := (hinv.inverse r "").mp hr
  simp [resourcesOf, hinv.named] at hmem

/-- A free job id owns no lock and no barrier. -/
theorem fresh_not_holder (hinv : s.Invariant) (hfresh : s.resourcesByJob.lookup jobID = none)
    (r : Resource) : s.lockedByResource.lookup r ≠ some jobID := by
  intro hr
  have hmem := (hinv.inverse r jobID).mp hr
  simp [resourcesOf, hfresh] at hmem

theorem fresh_not_draining (hinv : s.Invariant)
    (hfresh : s.resourcesByJob.lookup jobID = none) (hne : s.drainingJobID ≠ "") :
    s.drainingJobID ≠ jobID := by
  rintro rfl
  have hmem := (hinv.drain hne).1
  simp [resourcesOf, hfresh] at hmem

theorem leaseConflict_eq_none (h : leaseConflict ro s jobID resources draining = none) :
    (s.drainingJobID = "" ∨ s.drainingJobID = jobID) ∧
      (draining = true → ∀ r, s.lockedByResource.lookup r = none) ∧
      firstConflict ro s (fun holder => holder ≠ "" && holder ≠ jobID) 1 resources = none := by
  unfold leaseConflict at h
  split at h
  · cases h
  next hdrain =>
    split at h
    · cases h
    next hlocked =>
      refine ⟨by tauto, ?_, h⟩
      intro hd
      exact firstLocked_eq_none (by simpa [hd] using hlocked)

theorem lockMany_failed {err : JobsError}
    (h : (s.lockMany ro jobID resources draining).1 = .error err) :
    (s.lockMany ro jobID resources draining).2 = s := by
  unfold lockMany at h ⊢
  split at h
  · rfl
  · split at h <;> cases h

theorem lockMany_reassigned (hinv : s.Invariant) (hfresh : s.resourcesByJob.lookup jobID = none)
    (h : leaseConflict ro s jobID resources draining = none) :
    Reassigned s (s.lockMany ro jobID resources draining).2 jobID resources := by
  have hl : (s.lockMany ro jobID resources draining).2.lockedByResource =
      s.lockedByResource.insertAll jobID resources := by
    simp only [lockMany, h]
    split <;> rfl
  have hr : (s.lockMany ro jobID resources draining).2.resourcesByJob =
      s.resourcesByJob.insert jobID resources := by
    simp only [lockMany, h]
    split <;> rfl
  refine ⟨?_, resourcesOf_insert hr⟩
  intro r
  rw [hl, lookup_insertAll, if_neg (fresh_not_holder hinv hfresh r)]

theorem lockMany_invariant (hinv : s.Invariant) (hfresh : s.resourcesByJob.lookup jobID = none)
    (hid : jobID ≠ "") (hne : resources ≠ []) :
    (s.lockMany ro jobID resources draining).2.Invariant := by
  cases h : leaseConflict ro s jobID resources draining with
  | some conflict => simpa [lockMany, h] using hinv
  | none =>
    obtain ⟨hdrain, hempty, hconflict⟩ := leaseConflict_eq_none h
    have hre := lockMany_reassigned hinv hfresh h
    have hfree : s.Free jobID resources := by
      intro q hq r j hr hj
      exact firstConflict_eq_none hconflict hq hr (by simp [holder_ne_empty hinv hr, hj])
    refine ⟨hre.inverse hfree hinv.inverse, hre.exclusive hfree hinv.exclusive, ?_, ?_⟩
    · intro hd
      cases draining with
      | true =>
        have hjob : (s.lockMany ro jobID resources true).2.drainingJobID = jobID := by
          simp [lockMany, h]
        have hres : (s.lockMany ro jobID resources true).2.drainingResource =
            resources.headD .zero := by
          simp [lockMany, h]
        rw [hjob, hres, hre.held, if_pos rfl]
        refine ⟨?_, ?_⟩
        · obtain ⟨head, rest, rfl⟩ := List.exists_cons_of_ne_nil hne
          exact List.mem_cons_self
        · intro r j hr
          rcases hre.holder hr with ⟨_, hj⟩ | ⟨_, hs⟩
          · exact hj
          · simp [hempty rfl r] at hs
      | false =>
        have hsame : (s.lockMany ro jobID resources false).2.drainingJobID =
            s.drainingJobID := by
          simp [lockMany, h]
        rw [hsame] at hd
        rcases hdrain with hd' | hd'
        · exact absurd hd' hd
        · exact absurd hd' (fresh_not_draining hinv hfresh hd)
    · simp only [lockMany, h]
      split <;> simp [hid.symm, hinv.named]

theorem replaceResources_cases (ro : RangeOrder Holding) (s : LockTable) (jobID : String)
    (requested : List Resource) :
    (∃ err, s.replaceResources ro jobID requested = (.error err, s)) ∨
    ∃ resources old, s.resourcesByJob.lookup jobID = some old ∧
      (s.drainingJobID = "" ∨ s.drainingJobID = jobID) ∧
      firstConflict ro s (fun holder => holder ≠ jobID) 0 resources = none ∧
      s.replaceResources ro jobID requested = (.ok (), clearDrain jobID
        { s with
          lockedByResource := (s.lockedByResource.eraseAll jobID old).insertAll jobID resources
          resourcesByJob := s.resourcesByJob.insert jobID resources }) := by
  unfold replaceResources
  cases hn : normalizeResources "" requested with
  | error err => exact .inl ⟨err, rfl⟩
  | ok resources =>
    cases hold : s.resourcesByJob.lookup jobID with
    | none => exact .inl ⟨_, rfl⟩
    | some old =>
      by_cases hdrain : s.drainingJobID ≠ "" ∧ s.drainingJobID ≠ jobID
      · exact .inl ⟨_, if_pos hdrain⟩
      · simp only [if_neg hdrain]
        cases hc : firstConflict ro s (fun holder => holder ≠ jobID) 0 resources with
        | some conflict => exact .inl ⟨_, rfl⟩
        | none => exact .inr ⟨resources, old, rfl, by tauto, hc, rfl⟩

theorem replaceResources_invariant {requested : List Resource} (hinv : s.Invariant) :
    (s.replaceResources ro jobID requested).2.Invariant := by
  rcases replaceResources_cases ro s jobID requested with
    ⟨err, h⟩ | ⟨resources, old, hold, hdrain, hconflict, h⟩
  · rw [h]
    exact hinv
  · rw [h]
    set t : LockTable := { s with
      lockedByResource := (s.lockedByResource.eraseAll jobID old).insertAll jobID resources
      resourcesByJob := s.resourcesByJob.insert jobID resources } with ht
    have hid : jobID ≠ "" := by
      rintro rfl
      simp [hinv.named] at hold
    have hfree : s.Free jobID resources := by
      intro q hq r j hr hj
      exact firstConflict_eq_none hconflict hq hr (by simp [hj])
    have hre : Reassigned s (clearDrain jobID t) jobID resources := by
      refine ⟨?_, resourcesOf_insert clearDrain_resourcesByJob⟩
      intro r
      rw [clearDrain_lockedByResource, lookup_insertAll, lookup_eraseAll]
      have hmem := hinv.inverse r jobID
      simp only [resourcesOf, hold, Option.getD_some] at hmem
      simp [← hmem]
    refine ⟨hre.inverse hfree hinv.inverse, hre.exclusive hfree hinv.exclusive, ?_, ?_⟩
    · intro hd
      obtain ⟨hne, heq⟩ := clearDrain_drainingJobID hd
      rw [heq] at hd
      rcases hdrain with hd' | hd'
      · exact absurd hd' hd
      · exact absurd hd' hne
    · simp [ht, clearDrain_resourcesByJob, hid.symm, hinv.named]

theorem unlockAll_lookup (hinv : s.Invariant) (r : Resource) :
    (s.unlockAll jobID).lockedByResource.lookup r =
      if s.lockedByResource.lookup r = some jobID then none
      else s.lockedByResource.lookup r := by
  have hmem := hinv.inverse r jobID
  simp only [unlockAll, clearDrain_resourcesByJob]
  split
  next hnone =>
    rw [clearDrain_lockedByResource, if_neg (fresh_not_holder hinv hnone r)]
  next resources hsome =>
    simp only [resourcesOf, hsome, Option.getD_some] at hmem
    simp [clearDrain_lockedByResource, lookup_eraseAll, ← hmem]

theorem unlockAll_resourcesByJob (s : LockTable) (jobID j : String) :
    (s.unlockAll jobID).resourcesByJob.lookup j =
      if j = jobID then none else s.resourcesByJob.lookup j := by
  simp only [unlockAll, clearDrain_resourcesByJob]
  split
  next hnone =>
    rw [clearDrain_resourcesByJob]
    split
    next hj =>
      rw [hj, hnone]
    · rfl
  · simp [lookup_erase]

theorem unlockAll_drain (s : LockTable) (jobID : String) :
    (s.unlockAll jobID).drainingJobID = (clearDrain jobID s).drainingJobID ∧
      (s.unlockAll jobID).drainingResource = (clearDrain jobID s).drainingResource := by
  simp only [unlockAll]
  split <;> exact ⟨rfl, rfl⟩

theorem unlockAll_invariant (hinv : s.Invariant) : (s.unlockAll jobID).Invariant := by
  have hre : Reassigned s (s.unlockAll jobID) jobID [] := by
    refine ⟨by simpa using unlockAll_lookup hinv, ?_⟩
    intro j
    simp only [resourcesOf, unlockAll_resourcesByJob]
    split <;> rfl
  have hfree : s.Free jobID [] := by
    intro q hq
    cases hq
  refine ⟨hre.inverse hfree hinv.inverse, hre.exclusive hfree hinv.exclusive, ?_, ?_⟩
  · intro hd
    obtain ⟨hjob, hres⟩ := unlockAll_drain s jobID
    rw [hjob] at hd ⊢
    obtain ⟨hne, heq⟩ := clearDrain_drainingJobID hd
    rw [heq] at hd hres ⊢
    rw [hres, hre.held, if_neg hne]
    refine ⟨(hinv.drain hd).1, ?_⟩
    intro r j hr
    rcases hre.holder hr with ⟨hmem, _⟩ | ⟨_, hs⟩
    · cases hmem
    · exact (hinv.drain hd).2 r j hs
  · rw [unlockAll_resourcesByJob]
    split
    · rfl
    · exact hinv.named

end LockTable

theorem newJobID_ne_empty (token : String) : newJobID token ≠ "" := by
  simp [newJobID]

theorem lockCall_invariant (ro : RangeOrder Holding) (hfresh : c.Fresh s) (hinv : s.Invariant) :
    (c.run ro s).2.Invariant := by
  cases c with
  | start token stackID requested draining =>
    simp only [LockCall.run]
    split
    · exact hinv
    next resources hn =>
      exact lockMany_invariant hinv hfresh (newJobID_ne_empty token)
        (normalizeResources_ne_nil hn)
  | replaceResources jobID requested => exact replaceResources_invariant hinv
  | unlockAll jobID => exact unlockAll_invariant hinv

theorem lockReachable_invariant (h : LockReachable s) : s.Invariant := by
  refine Lts.reachable_of_trInv ?_ ?_ h
  · rintro _ rfl
    exact invariant_new
  · rintro s ⟨ro, c⟩ t ⟨hfresh, rfl⟩ hinv
    exact lockCall_invariant ro hfresh hinv

theorem lockCall_failed {ro : RangeOrder Holding} {err : JobsError}
    (h : (c.run ro s).1 = .error err) : (c.run ro s).2 = s := by
  cases c with
  | start token stackID requested draining =>
    simp only [LockCall.run] at h ⊢
    split at h
    · rfl
    · exact lockMany_failed h
  | replaceResources jobID requested =>
    rcases replaceResources_cases ro s jobID requested with
      ⟨_, hr⟩ | ⟨_, _, _, _, _, hr⟩
    · simp [LockCall.run, hr]
    · simp [LockCall.run, hr] at h
  | unlockAll jobID => cases h

/-- In every reachable state the two maps are inverse views, different jobs hold no
conflicting resources, a draining job owns every lock, and a refused call changes nothing. -/
theorem lock_table_safety {s : LockTable} (h : LockReachable s) :
    s.InverseViews ∧ s.Exclusive ∧ s.DrainOwnsAll ∧
      ∀ ro (c : LockCall) err, (c.run ro s).1 = .error err → (c.run ro s).2 = s := by
  have hinv := lockReachable_invariant h
  exact ⟨hinv.inverse, hinv.exclusive, hinv.drain, fun _ _ _ => lockCall_failed⟩

/-- A draining job holds the only lock and the next start is refused. -/
theorem lock_table_safety_draining :
    let start := fun token draining => LockCall.start token "" [selfUpdateResource] draining
    let s := ((start "a" true).run .stored .new).2
    s.drainingJobID = "job_a" ∧ s.InverseViews ∧ s.DrainOwnsAll ∧
      ((start "b" false).run .stored s).2 = s := by
  intro start s
  have hreach : LockReachable s := by
    refine ⟨.new, rfl, [(.stored, start "a" true)], .stepL ⟨?_, rfl⟩ .refl⟩
    rfl
  have hs : s.drainingJobID = "job_a" := by
    decide +kernel
  obtain ⟨hi, _, hd, hf⟩ := lock_table_safety hreach
  exact ⟨hs, hi, hd, hf .stored (start "b" false)
    (.resourceConflict ⟨.drainActive, selfUpdateResource, selfUpdateResource, "job_a"⟩)
    (by decide +kernel)⟩

end Stacklab.Jobs
