import Stacklab.Jobs.Resource

/-! The lock table of the job service. Every definition is one critical section of its mutex. -/
namespace Stacklab.Jobs

open Lib

/-- The fields of `jobs.Service` that the mutex protects and the locks read or write. -/
structure LockTable where
  lockedByResource : GoMap Resource String
  resourcesByJob : GoMap String (List Resource)
  drainingJobID : String
  drainingResource : Resource

def LockTable.new : LockTable := ⟨∅, ∅, "", .zero⟩

abbrev Holding : Type := Sigma fun _ : Resource => String

namespace LockTable

variable {s : LockTable} {jobID : String} {resources : List Resource} {ro : RangeOrder Holding}

/-- Whether some requested resource conflicts with one held by a job that `blocks`. The
map is iterated anew for each requested resource. -/
def firstConflict (ro : RangeOrder Holding) (s : LockTable) (blocks : String → Bool) :
    ℕ → List Resource → Option ResourceConflictError
  | _, [] => none
  | n, requested :: rest =>
    match (ro.order n s.lockedByResource.entries).find?
        fun e => blocks e.2 && resourcesConflict requested e.1 with
    | some e => some ⟨.resourceHeld, requested, e.1, e.2⟩
    | none => firstConflict ro s blocks (n + 1) rest

/-- One round of the selection loop: keep the entry whose text is smaller. -/
def selectSmaller (selected : Option Holding) (e : Holding) : Option Holding :=
  match selected with
  | none => some e
  | some found => if e.1.string < found.1.string then some e else some found

def firstLockedResourceLocked (ro : RangeOrder Holding) (s : LockTable) : Option Holding :=
  (ro.order 0 s.lockedByResource.entries).foldl selectSmaller none

/-- The conflict a lease request meets, in the order the source tests for it. -/
def leaseConflict (ro : RangeOrder Holding) (s : LockTable) (jobID : String)
    (resources : List Resource) (draining : Bool) : Option ResourceConflictError :=
  if s.drainingJobID ≠ "" ∧ s.drainingJobID ≠ jobID then
    some ⟨.drainActive, resources.headD .zero, s.drainingResource, s.drainingJobID⟩
  else
    match if draining then firstLockedResourceLocked ro s else none with
    | some e => some ⟨.drainBlocked, resources.headD .zero, e.1, e.2⟩
    | none => firstConflict ro s (fun holder => holder ≠ "" && holder ≠ jobID) 1 resources

def lockMany (ro : RangeOrder Holding) (jobID : String) (resources : List Resource)
    (draining : Bool) (s : LockTable) : Except JobsError Unit × LockTable :=
  match leaseConflict ro s jobID resources draining with
  | some conflict => (.error (.resourceConflict conflict), s)
  | none =>
    let s := { s with lockedByResource := s.lockedByResource.insertAll jobID resources }
    let s := { s with resourcesByJob := s.resourcesByJob.insert jobID resources }
    if draining then
      (.ok (), { s with drainingJobID := jobID, drainingResource := resources.headD .zero })
    else (.ok (), s)

/-- Drop the drain barrier if this job owns it. -/
def clearDrain (jobID : String) (s : LockTable) : LockTable :=
  if s.drainingJobID = jobID then
    { s with drainingJobID := "", drainingResource := .zero }
  else s

def replaceResources (ro : RangeOrder Holding) (jobID : String) (requested : List Resource)
    (s : LockTable) : Except JobsError Unit × LockTable :=
  match normalizeResources "" requested with
  | .error err => (.error err, s)
  | .ok resources =>
    match s.resourcesByJob.lookup jobID with
    | none => (.error .leaseInactive, s)
    | some old =>
      if s.drainingJobID ≠ "" ∧ s.drainingJobID ≠ jobID then
        (.error (.resourceConflict
          ⟨.drainActive, resources.headD .zero, s.drainingResource, s.drainingJobID⟩), s)
      else
        match firstConflict ro s (fun holder => holder ≠ jobID) 0 resources with
        | some conflict => (.error (.resourceConflict conflict), s)
        | none =>
          let s := { s with lockedByResource := s.lockedByResource.eraseAll jobID old }
          let s := { s with lockedByResource := s.lockedByResource.insertAll jobID resources }
          let s := { s with resourcesByJob := s.resourcesByJob.insert jobID resources }
          (.ok (), clearDrain jobID s)

def unlockAll (jobID : String) (s : LockTable) : LockTable :=
  let s := clearDrain jobID s
  match s.resourcesByJob.lookup jobID with
  | none => s
  | some resources =>
    let s := { s with lockedByResource := s.lockedByResource.eraseAll jobID resources }
    { s with resourcesByJob := s.resourcesByJob.erase jobID }

theorem clearDrain_lockedByResource :
    (clearDrain jobID s).lockedByResource = s.lockedByResource := by
  unfold clearDrain
  split <;> rfl

theorem clearDrain_resourcesByJob :
    (clearDrain jobID s).resourcesByJob = s.resourcesByJob := by
  unfold clearDrain
  split <;> rfl

/-- A barrier that survives belongs to another job. -/
theorem clearDrain_drainingJobID (h : (clearDrain jobID s).drainingJobID ≠ "") :
    s.drainingJobID ≠ jobID ∧ clearDrain jobID s = s := by
  unfold clearDrain at h ⊢
  split at h
  · exact absurd rfl h
  next hne =>
    simp [hne]

/-- No reported conflict means that no entry of a blocking job conflicts with a request. -/
theorem firstConflict_eq_none {blocks : String → Bool} {n : ℕ}
    (h : firstConflict ro s blocks n resources = none) {requested r : Resource} {j : String}
    (hq : requested ∈ resources) (hr : s.lockedByResource.lookup r = some j)
    (hb : blocks j = true) : resourcesConflict requested r = false := by
  induction resources generalizing n with
  | nil => cases hq
  | cons q rest ih =>
    simp only [firstConflict] at h
    split at h
    · cases h
    next hnone =>
      rcases List.mem_cons.mp hq with rfl | hq
      · have hmem := (ro.mem_order (n := n)).mpr (GoMap.lookup_eq_some_iff.mp hr)
        simpa [hb] using List.find?_eq_none.mp hnone _ hmem
      · exact ih h hq

theorem foldl_selectSmaller_isSome (l : List Holding) (x : Holding) :
    (l.foldl selectSmaller (some x)).isSome = true := by
  induction l generalizing x with
  | nil => rfl
  | cons e l ih =>
    simp only [List.foldl_cons, selectSmaller]
    split <;> exact ih _

theorem firstLocked_eq_none (h : firstLockedResourceLocked ro s = none) (r : Resource) :
    s.lockedByResource.lookup r = none := by
  have hperm := ro.perm 0 s.lockedByResource.entries
  unfold firstLockedResourceLocked at h
  cases horder : ro.order 0 s.lockedByResource.entries with
  | nil =>
    rw [horder] at hperm
    exact GoMap.entries_eq_nil_iff.mp hperm.nil_eq.symm r
  | cons e l =>
    have hsome := foldl_selectSmaller_isSome l e
    rw [horder, List.foldl_cons] at h
    change l.foldl selectSmaller (some e) = none at h
    simp [h] at hsome

end LockTable

end Stacklab.Jobs
