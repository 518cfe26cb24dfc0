import Stacklab.Lib.Tally
import Stacklab.Jobs.LifeRules
import Stacklab.Backup.Leases

/-! What the lease tables, the lock table and the stage of each job keep true of each other. -/
namespace Stacklab.Backup

open Lib
open Jobs

variable {digest : String → String → String} {w w' : LeaseWorld} {j : String}

/-- The run that a job works on. -/
def activeRun : LeaseStage → Option String
  | .runReserved runID => some runID
  | .capturing run _ => some run.id
  | .requesting run _ _ => some run.id
  | .transferring run _ _ => some run.id
  | _ => none

namespace LeaseWorld

/-- The repository of each of these destinations is reserved for the job. -/
def Owns (digest : String → String → String) (w : LeaseWorld) (j : String) (ids : List String) :
    Prop :=
  ∀ id ∈ ids, (w.destinations.lookup id).isSome ∧
    w.repositoryJobs.lookup (w.keyOf digest id) = some j

/-- The job has reserved these repositories and no other. -/
structure Holds (digest : String → String → String) (w : LeaseWorld) (j : String)
    (ids : List String) : Prop where
  owns : w.Owns digest j ids
  distinct : (ids.map (w.keyOf digest)).Nodup
  only : ∀ key, w.repositoryJobs.lookup key = some j → key ∈ ids.map (w.keyOf digest)

/-- The run is saved as running, so neither a retry nor the pruning of summaries touches it. -/
def RunStored (w : LeaseWorld) (run : Run) : Prop :=
  run.state = .running ∧ ∃ p, w.runs.lookup run.id = some p ∧ p.run.state = .running

def StageSound (digest : String → String → String) (w : LeaseWorld) (j : String) :
    LeaseStage → Prop
  | .reserved id _ listed => w.Holds digest j [id] ∧
      ∀ d action, listed = some (d, action) → d.id = id ∧ repositoryKey digest d = w.keyOf digest id
  | .executing id _ d refreshes => w.Holds digest j [id] ∧
      w.destinations.lookup id = some (refreshes.foldl (fun d update => update.apply d) d)
  | .runReserved runID => ∃ p, w.runs.lookup runID = some p ∧ p.run.state = .running ∧
      w.Holds digest j (pendingIDs p.run.copies)
  | .capturing run _ => w.RunStored run ∧ w.Holds digest j (pendingIDs run.copies)
  | .requesting run _ resources => w.RunStored run ∧ w.Holds digest j (pendingIDs run.copies) ∧
      resources = (pendingIDs run.copies).map fun id =>
        backupRepositoryResource (w.keyOf digest id)
  | .transferring run _ todo => w.RunStored run ∧ w.Owns digest j todo ∧
      (todo.map (w.keyOf digest)).Nodup
  | .unlocking => j ∈ w.terminal
  | .finishing | .releasing | .done => True

/-- What holds of the tables whatever the jobs are doing. -/
structure Tables (digest : String → String → String) (w : LeaseWorld) : Prop where
  named : ∀ key j, w.repositoryJobs.lookup key = some j → j ≠ ""
  exclusive : ∀ key j, w.repositoryJobs.lookup key = some j → w.reads key ≤ 0
  locked : ∀ key j, w.repositoryJobs.lookup key = some j → j ∈ w.terminal ∨
    backupRepositoryResource key ∈ w.locks.resourcesOf j
  locks : w.locks.Invariant
  lockIssued : ∀ j, w.locks.resourcesByJob.lookup j ≠ none → j ∈ w.issued
  counted : ∀ key, w.reads key = w.readers.countP fun r => r.any (·.key = key)
  total : w.activeRepositoryReads = GoMap.total w.repositoryReads
  active : w.activeRepositoryReads = w.readers.countP Option.isSome
  leases : ∀ lease, some lease ∈ w.readers →
    (w.destinations.lookup lease.destination.id).isSome ∧
      w.keyOf digest lease.destination.id = lease.key
  ids : ∀ id d, w.destinations.lookup id = some d → d.id = id ∧ id ∈ w.savedIDs
  runIDs : ∀ id p, w.runs.lookup id = some p → p.run.id = id
  listed : ∀ d ∈ w.listed, d.id ∈ w.savedIDs ∧ ((w.destinations.lookup d.id).isSome →
    w.keyOf digest d.id = repositoryKey digest d)

structure Sound (digest : String → String → String) (w : LeaseWorld) : Prop where
  tables : w.Tables digest
  stages : ∀ (i : ℕ) (t : LeaseThread), w.threads[i]? = some t → w.StageSound digest t.jobID t.stage
  jobs : ∀ (i k : ℕ) (t u : LeaseThread), w.threads[i]? = some t →
    w.threads[k]? = some u → t.jobID = u.jobID → i = k
  issued : ∀ (i : ℕ) (t : LeaseThread), w.threads[i]? = some t → t.jobID ∈ w.issued
  holders : ∀ key j, w.repositoryJobs.lookup key = some j →
    ∃ i : ℕ, ∃ t : LeaseThread, w.threads[i]? = some t ∧ t.jobID = j
  runs : ∀ (i k : ℕ) (t u : LeaseThread) runID, w.threads[i]? = some t → w.threads[k]? = some u →
    activeRun t.stage = some runID → activeRun u.stage = some runID → i = k

section Frames

variable {id : String}

theorem keyOf_congr (h : w'.destinations.lookup id = w.destinations.lookup id) :
    w'.keyOf digest id = w.keyOf digest id := by
  simp only [keyOf, destination, h]

/-- A step of another job leaves alone what this job relies on. -/
structure Keeps (digest : String → String → String) (w w' : LeaseWorld) (j : String)
    (stage : LeaseStage) : Prop where
  destinations : ∀ id, w.repositoryJobs.lookup (w.keyOf digest id) = some j →
    w'.destinations.lookup id = w.destinations.lookup id
  jobs : ∀ key, w'.repositoryJobs.lookup key = some j ↔ w.repositoryJobs.lookup key = some j
  runs : ∀ runID, activeRun stage = some runID → w'.runs.lookup runID = w.runs.lookup runID
  terminal : j ∈ w.terminal → j ∈ w'.terminal

variable {stage : LeaseStage} {ids : List String}

/-- A step that leaves all of it alone. -/
theorem Keeps.of_eq (hdestinations : w'.destinations = w.destinations)
    (hjobs : w'.repositoryJobs = w.repositoryJobs) (hruns : w'.runs = w.runs)
    (hterminal : w.terminal ⊆ w'.terminal) : Keeps digest w w' j stage := by
  refine ⟨?_, ?_, ?_, fun hj => hterminal hj⟩
  · intro id _
    rw [hdestinations]
  · intro key
    rw [hjobs]
  · intro runID _
    rw [hruns]

theorem Owns.congr (h : w.Owns digest j ids) (hk : Keeps digest w w' j stage) (hid : id ∈ ids) :
    w'.destinations.lookup id = w.destinations.lookup id :=
  hk.destinations id (h id hid).2

theorem Owns.map_keyOf (h : w.Owns digest j ids) (hk : Keeps digest w w' j stage) :
    ids.map (w'.keyOf digest) = ids.map (w.keyOf digest) :=
  List.map_congr_left fun _ hid => keyOf_congr (h.congr hk hid)

theorem Owns.frame (h : w.Owns digest j ids) (hk : Keeps digest w w' j stage) :
    w'.Owns digest j ids := by
  intro id hid
  have hlookup := h.congr hk hid
  rw [hlookup, keyOf_congr hlookup]
  exact ⟨(h id hid).1, (hk.jobs _).mpr (h id hid).2⟩

theorem Holds.frame (h : w.Holds digest j ids) (hk : Keeps digest w w' j stage) :
    w'.Holds digest j ids := by
  have hmap := h.owns.map_keyOf hk
  refine ⟨h.owns.frame hk, hmap ▸ h.distinct, ?_⟩
  intro key hkey
  rw [hmap]
  exact h.only key ((hk.jobs key).mp hkey)

theorem RunStored.frame {run : Run} (h : w.RunStored run) (hk : Keeps digest w w' j stage)
    (hrun : activeRun stage = some run.id) : w'.RunStored run := by
  obtain ⟨hstate, p, hp, hrunning⟩ := h
  exact ⟨hstate, p, (hk.runs _ hrun).trans hp, hrunning⟩

theorem StageSound.frame (h : w.StageSound digest j stage) (hk : Keeps digest w w' j stage) :
    w'.StageSound digest j stage := by
  cases stage with
  | reserved id action listed =>
    obtain ⟨hholds, hlisted⟩ := h
    refine ⟨hholds.frame hk, ?_⟩
    rw [keyOf_congr (hholds.owns.congr hk List.mem_cons_self)]
    exact hlisted
  | executing id action d refreshes =>
    obtain ⟨hholds, hread⟩ := h
    exact ⟨hholds.frame hk, (hholds.owns.congr hk List.mem_cons_self).trans hread⟩
  | runReserved runID =>
    obtain ⟨p, hp, hstate, hholds⟩ := h
    exact ⟨p, (hk.runs runID rfl).trans hp, hstate, hholds.frame hk⟩
  | capturing run plan =>
    obtain ⟨hstored, hholds⟩ := h
    exact ⟨hstored.frame hk rfl, hholds.frame hk⟩
  | requesting run plan resources =>
    obtain ⟨hstored, hholds, hres⟩ := h
    refine ⟨hstored.frame hk rfl, hholds.frame hk, hres.trans ?_⟩
    apply List.map_congr_left
    intro id hid
    rw [keyOf_congr (hholds.owns.congr hk hid)]
  | transferring run plan todo =>
    obtain ⟨hstored, howns, hdistinct⟩ := h
    exact ⟨hstored.frame hk rfl, howns.frame hk, howns.map_keyOf hk ▸ hdistinct⟩
  | unlocking => exact hk.terminal h
  | finishing => trivial
  | releasing => trivial
  | done => trivial

end Frames

section Threads

variable {i : ℕ} {stage stage' : LeaseStage}

/-- The tables do not mention the threads. -/
theorem Tables.threads (h : w.Tables digest) (threads : List LeaseThread) :
    { w with threads := threads }.Tables digest :=
  { h with }

theorem StageSound.threads (h : w.StageSound digest j stage) (threads : List LeaseThread) :
    { w with threads := threads }.StageSound digest j stage :=
  h.frame (.of_eq rfl rfl rfl fun _ h => h)

/-- No job starts or moves, and none gets hold of a repository. -/
structure Unmoved (w w' : LeaseWorld) : Prop where
  threads : w'.threads = w.threads
  issued : w.issued ⊆ w'.issued
  holders : ∀ key j, w'.repositoryJobs.lookup key = some j → w.repositoryJobs.lookup key = some j

/-- A step that moves no job. -/
theorem Sound.quiet (h : w.Sound digest) (htables : w'.Tables digest)
    (hkeeps : ∀ (i : ℕ) (t : LeaseThread), w.threads[i]? = some t →
      Keeps digest w w' t.jobID t.stage) (hstill : Unmoved w w') : w'.Sound digest := by
  obtain ⟨hthreads, hissued, hholders⟩ := hstill
  refine ⟨htables, ?_, ?_, ?_, ?_, ?_⟩
  · intro i t ht
    rw [hthreads] at ht
    exact (h.stages i t ht).frame (hkeeps i t ht)
  · rw [hthreads]
    exact h.jobs
  · intro i t ht
    rw [hthreads] at ht
    exact hissued (h.issued i t ht)
  · intro key j hkey
    rw [hthreads]
    exact h.holders key j (hholders key j hkey)
  · rw [hthreads]
    exact h.runs

/-- A step of one job, which stays with its run or is done with it. -/
theorem Sound.move (h : w.Sound digest) (hi : w.threads[i]? = some ⟨j, stage⟩)
    (htables : w'.Tables digest) (hown : w'.StageSound digest j stage')
    (hrun : ∀ runID, activeRun stage' = some runID → activeRun stage = some runID)
    (hkeeps : ∀ (k : ℕ) (t : LeaseThread), w.threads[k]? = some t → t.jobID ≠ j →
      (∀ runID, activeRun stage = some runID → activeRun t.stage ≠ some runID) →
      Keeps digest w w' t.jobID t.stage) (hstill : Unmoved w w') :
    (w'.setStage i j stage').Sound digest := by
  obtain ⟨hthreads, hissued, hholders⟩ := hstill
  have hlt : i < w.threads.length := (List.getElem?_eq_some_iff.mp hi).1
  -- a thread of the new list is the moved one or an old one
  have hcases : ∀ k t, (w'.threads.set i ⟨j, stage'⟩)[k]? = some t →
      (k = i ∧ t = ⟨j, stage'⟩) ∨ (k ≠ i ∧ w.threads[k]? = some t) := by
    intro k t ht
    rw [hthreads, List.getElem?_set] at ht
    by_cases hk : i = k
    · rw [if_pos hk, if_pos hlt] at ht
      exact .inl ⟨hk.symm, (Option.some.inj ht).symm⟩
    · rw [if_neg hk] at ht
      exact .inr ⟨fun he => hk he.symm, ht⟩
  have hmoved : (w'.threads.set i ⟨j, stage'⟩)[i]? = some ⟨j, stage'⟩ := by
    rw [hthreads]
    exact List.getElem?_set_self hlt
  refine ⟨htables.threads _, ?_, ?_, ?_, ?_, ?_⟩
  · intro k t ht
    rcases hcases k t ht with ⟨-, rfl⟩ | ⟨hk, ht⟩
    · exact hown.threads _
    · refine StageSound.threads ((h.stages k t ht).frame (hkeeps k t ht ?_ ?_)) _
      · intro heq
        exact hk (h.jobs k i t _ ht hi heq)
      · intro runID hstage ht'
        exact hk (h.runs k i t _ runID ht hi ht' hstage)
  · intro k l t u ht hu heq
    rcases hcases k t ht with ⟨rfl, rfl⟩ | ⟨-, hkt⟩ <;>
      rcases hcases l u hu with ⟨rfl, rfl⟩ | ⟨-, hlu⟩
    · rfl
    · exact h.jobs _ _ _ _ hi hlu heq
    · exact h.jobs _ _ _ _ hkt hi heq
    · exact h.jobs _ _ _ _ hkt hlu heq
  · intro k t ht
    rcases hcases k t ht with ⟨-, rfl⟩ | ⟨-, hkt⟩
    · have hmem : j ∈ w.issued := h.issued i _ hi
      exact hissued hmem
    · exact hissued (h.issued k t hkt)
  · intro key holder hkey
    obtain ⟨k, t, ht, hjob⟩ := h.holders key holder (hholders key holder hkey)
    by_cases hk : k = i
    · subst hk
      rw [hi] at ht
      cases ht
      exact ⟨k, _, hmoved, hjob⟩
    · refine ⟨k, t, ?_, hjob⟩
      change (w'.threads.set i _)[k]? = some t
      rw [hthreads, List.getElem?_set_ne (Ne.symm hk)]
      exact ht
  · intro k l t u runID ht hu htrun hurun
    rcases hcases k t ht with ⟨rfl, rfl⟩ | ⟨-, hkt⟩ <;>
      rcases hcases l u hu with ⟨rfl, rfl⟩ | ⟨-, hlu⟩
    · rfl
    · exact h.runs _ _ _ _ runID hi hlu (hrun runID htrun) hurun
    · exact h.runs _ _ _ _ runID hkt hi htrun (hrun runID hurun)
    · exact h.runs _ _ _ _ runID hkt hlu htrun hurun

/-- A step of one job that touches no table. -/
theorem Sound.advance (h : w.Sound digest) (hi : w.threads[i]? = some ⟨j, stage⟩)
    (hown : w.StageSound digest j stage')
    (hrun : ∀ runID, activeRun stage' = some runID → activeRun stage = some runID) :
    (w.setStage i j stage').Sound digest :=
  h.move hi h.tables hown hrun (fun _ _ _ _ _ => .of_eq rfl rfl rfl fun _ h => h)
    ⟨rfl, fun _ h => h, fun _ _ h => h⟩

/-- A step that starts a job under a new id. -/
theorem Sound.start (h : w.Sound digest) (hfresh : j ∉ w.issued)
    (hthreads : w'.threads = w.threads) (htables : w'.Tables digest)
    (hissued : w'.issued = j :: w.issued)
    (hholders : ∀ key holder, w'.repositoryJobs.lookup key = some holder →
      holder = j ∨ w.repositoryJobs.lookup key = some holder)
    (hkeeps : ∀ (k : ℕ) (t : LeaseThread), w.threads[k]? = some t → t.jobID ≠ j →
      Keeps digest w w' t.jobID t.stage)
    (hown : w'.StageSound digest j stage')
    (hrun : ∀ (k : ℕ) (t : LeaseThread) runID, w.threads[k]? = some t →
      activeRun stage' = some runID → activeRun t.stage ≠ some runID) :
    (w'.addThread j stage').Sound digest := by
  have hold : ∀ (k : ℕ) (t : LeaseThread), w.threads[k]? = some t → t.jobID ≠ j := by
    intro k t ht heq
    exact hfresh (heq ▸ h.issued k t ht)
  have hcases : ∀ k t, (w'.threads ++ [⟨j, stage'⟩])[k]? = some t →
      (k = w.threads.length ∧ t = ⟨j, stage'⟩) ∨ w.threads[k]? = some t := by
    intro k t ht
    rw [hthreads, List.getElem?_append] at ht
    split at ht
    · exact .inr ht
    next hk =>
      obtain ⟨hlt, heq⟩ := List.getElem?_eq_some_iff.mp ht
      simp only [List.length_singleton] at hlt
      refine .inl ⟨by omega, ?_⟩
      simp only [show k - w.threads.length = 0 by omega, List.getElem_cons_zero] at heq
      exact heq.symm
  have hlt : ∀ (k : ℕ) t, w.threads[k]? = some t → k < w.threads.length := fun k t ht =>
    (List.getElem?_eq_some_iff.mp ht).1
  have hkept : ∀ (k : ℕ) t, w.threads[k]? = some t →
      (w'.threads ++ [⟨j, stage'⟩])[k]? = some t := by
    intro k t ht
    rw [hthreads, List.getElem?_append_left (hlt k t ht)]
    exact ht
  refine ⟨htables.threads _, ?_, ?_, ?_, ?_, ?_⟩
  · intro k t ht
    rcases hcases k t ht with ⟨-, rfl⟩ | ht
    · exact hown.threads _
    · exact StageSound.threads ((h.stages k t ht).frame (hkeeps k t ht (hold k t ht))) _
  · intro k l t u ht hu heq
    rcases hcases k t ht with ⟨hk, rfl⟩ | ht <;> rcases hcases l u hu with ⟨hl, rfl⟩ | hu
    · omega
    · exact absurd heq.symm (hold l u hu)
    · exact absurd heq (hold k t ht)
    · exact h.jobs k l t u ht hu heq
  · intro k t ht
    change t.jobID ∈ w'.issued
    rw [hissued]
    rcases hcases k t ht with ⟨-, rfl⟩ | ht
    · exact List.mem_cons_self
    · exact List.mem_cons_of_mem _ (h.issued k t ht)
  · intro key holder hkey
    rcases hholders key holder hkey with rfl | hkey
    · refine ⟨w.threads.length, ⟨holder, stage'⟩, ?_, rfl⟩
      change (w'.threads ++ [_])[w.threads.length]? = _
      rw [hthreads]
      simp
    · obtain ⟨k, t, ht, hjob⟩ := h.holders key holder hkey
      exact ⟨k, t, hkept k t ht, hjob⟩
  · intro k l t u runID ht hu htrun hurun
    rcases hcases k t ht with ⟨hk, rfl⟩ | ht <;> rcases hcases l u hu with ⟨hl, rfl⟩ | hu
    · omega
    · exact absurd hurun (hrun l u runID hu htrun)
    · exact absurd htrun (hrun k t runID ht hurun)
    · exact h.runs k l t u runID ht hu htrun hurun

end Threads

variable {id : String} {d : LeasedDestination}

/-- A change of the reservations and of the job service. -/
theorem Tables.jobs (h : w.Tables digest) {repositoryJobs : GoMap String String}
    {locks : LockTable} {terminal issued : List String}
    (hjobs : ∀ key j, repositoryJobs.lookup key = some j → j ≠ "" ∧ w.reads key ≤ 0 ∧
      (j ∈ terminal ∨ backupRepositoryResource key ∈ locks.resourcesOf j))
    (hlocks : locks.Invariant)
    (hissued : ∀ j, locks.resourcesByJob.lookup j ≠ none → j ∈ issued) :
    { w with repositoryJobs := repositoryJobs, locks := locks, terminal := terminal,
             issued := issued }.Tables digest :=
  { h with
    named := fun key j hkey => (hjobs key j hkey).1
    exclusive := fun key j hkey => (hjobs key j hkey).2.1
    locked := fun key j hkey => (hjobs key j hkey).2.2
    locks := hlocks
    lockIssued := hissued }

theorem lookup_setDestination (w : LeaseWorld) (id id' : String) (d : LeasedDestination) :
    (w.setDestination id d).destinations.lookup id' =
      if id' = id then some d else w.destinations.lookup id' :=
  GoMap.lookup_insert _ _ _ _

/-- A destination that is rewritten keeps its repository. -/
theorem keyOf_setDestination (hkey : repositoryKey digest d = w.keyOf digest id) (id' : String) :
    (w.setDestination id d).keyOf digest id' = w.keyOf digest id' := by
  unfold keyOf destination
  rw [lookup_setDestination]
  split
  next heq => rw [heq]; exact hkey
  · rfl

theorem isSome_setDestination (d : LeasedDestination) (hid : (w.destinations.lookup id).isSome)
    (id' : String) :
    ((w.setDestination id d).destinations.lookup id').isSome =
      (w.destinations.lookup id').isSome := by
  rw [lookup_setDestination]
  split
  next heq => rw [heq, hid]; rfl
  · rfl

theorem Tables.setDestination (h : w.Tables digest) (hlookup : (w.destinations.lookup id).isSome)
    (hid : d.id = id) (hkey : repositoryKey digest d = w.keyOf digest id) :
    (w.setDestination id d).Tables digest := by
  refine { h with leases := ?_, ids := ?_, listed := ?_ }
  · intro lease hlease
    rw [isSome_setDestination d hlookup, keyOf_setDestination hkey]
    exact h.leases lease hlease
  · intro id' d' hd'
    rw [lookup_setDestination] at hd'
    split at hd'
    next heq =>
      obtain ⟨old, hold⟩ := Option.isSome_iff_exists.mp hlookup
      cases hd'
      exact ⟨hid.trans heq.symm, heq ▸ (h.ids id old hold).2⟩
    · exact h.ids id' d' hd'
  · intro d' hd'
    rw [isSome_setDestination d hlookup, keyOf_setDestination hkey]
    exact h.listed d' hd'

theorem Tables.saveRun (h : w.Tables digest) {p : PersistedRun} (hid : p.run.id = id) :
    { w with runs := w.runs.insert id p }.Tables digest :=
  { h with runIDs := GoMap.forall_insert h.runIDs hid }

end LeaseWorld

end Stacklab.Backup
