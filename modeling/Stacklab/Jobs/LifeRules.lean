import Stacklab.Jobs.Live
import Stacklab.Jobs.LockSafety

/-! How the calls of the job service tie the locks of a job to its row. -/
namespace Stacklab.Jobs

open Lib Store JobTable LockTable

namespace LockTable

variable {s : LockTable} {ro : RangeOrder Holding} {jobID : String}

/-- Replacing resources keeps which jobs have a lease, and no lease becomes empty. -/
theorem replaceResources_lookup (s : LockTable) (ro : RangeOrder Holding) (jobID : String)
    (requested : List Resource) (j : String) :
    (s.replaceResources ro jobID requested).2.resourcesByJob.lookup j =
        s.resourcesByJob.lookup j ∨
      s.resourcesByJob.lookup j ≠ none ∧ ∃ resources, resources ≠ [] ∧
        (s.replaceResources ro jobID requested).2.resourcesByJob.lookup j = some resources := by
  unfold replaceResources
  split
  · exact .inl rfl
  next resources hnorm =>
    split
    · exact .inl rfl
    next old hold =>
      split
      · exact .inl rfl
      · split
        · exact .inl rfl
        · dsimp only
          rw [clearDrain_resourcesByJob]
          rw [GoMap.lookup_insert]
          split
          next heq =>
            subst heq
            rw [hold]
            exact .inr ⟨by simp, resources, normalizeResources_ne_nil hnorm, rfl⟩
          · exact .inl rfl

theorem lockMany_lookup {resources : List Resource} {draining : Bool}
    (h : (s.lockMany ro jobID resources draining).1 = .ok ()) (j : String) :
    (s.lockMany ro jobID resources draining).2.resourcesByJob.lookup j =
      if j = jobID then some resources else s.resourcesByJob.lookup j := by
  unfold lockMany at h ⊢
  split at h
  · cases h
  · dsimp only
    split <;> exact GoMap.lookup_insert _ _ _ _

end LockTable

namespace Live

/-- The ids of started jobs are new: not drawn before and in no row. -/
def LiveCmd.fresh : LiveCmd → LiveOut → LiveWorld → Bool
  | .randomToken _, o, w =>
    decide (newJobID o.token ∉ w.drawn.map Prod.fst) &&
      (w.table.rows.lookup (newJobID o.token)).isNone
  | _, _, _ => true

def LifeAllowed (c : LiveCmd) (o : LiveOut) (w : LiveWorld) : Prop :=
  c.ready w = true ∧ c.fresh o w = true

def Unleased (id : String) (w : LiveWorld) : Prop := w.locks.resourcesByJob.lookup id = none

/-- The row is in a terminal state. -/
def Finished (id : String) (w : LiveWorld) : Prop :=
  ∃ state, w.table.stateOf id = some state ∧ state.isTerminal = true

def Clean (id : String) (w : LiveWorld) : Prop := Finished id w → Unleased id w

/-- What a returning call may leave of its job. -/
def LifeEvent.Tidy : LifeEvent → Prop
  | .finishReturned id state holds draining =>
    id ≠ "" → (∃ st, state = some st ∧ st.isTerminal = true) → holds = false ∧ draining = false
  | .startFailed _ state holds draining => state = none ∧ holds = false ∧ draining = false

structure LifeInv (w : LiveWorld) : Prop where
  locks : w.locks.Invariant
  nonempty : ∀ id resources, w.locks.resourcesByJob.lookup id = some resources → resources ≠ []
  drawnOnce : (w.drawn.map Prod.fst).Nodup
  leased : ∀ id, ¬Unleased id w → id ∈ w.drawn.map Prod.fst
  active : ∀ id state, id ∈ w.drawn.map Prod.fst → w.table.stateOf id = some state →
    state.isTerminal = false → ¬Unleased id w
  clean : ∀ id, w.eventLocks (eventLockIndex id) = none → Clean id w
  log : ∀ e ∈ w.log, e.Tidy

/-- What other calls leave alone: the absence of a lease once there is a row, a job that a call
is about to start, and under an event lock the states of its rows. -/
structure LifeRely (call : ℕ) (w w' : LiveWorld) : Prop where
  drawn : w.drawn ⊆ w'.drawn
  rows : ∀ id, w.table.stateOf id ≠ none → w'.table.stateOf id ≠ none
  unleased : ∀ id, w.table.stateOf id ≠ none → Unleased id w → Unleased id w'
  owned : ∀ id, (id, call) ∈ w.drawn → w.table.stateOf id = none →
    w'.table.stateOf id = none ∧ (Unleased id w' ↔ Unleased id w)
  held : ∀ id, HoldsEvents call id w →
    HoldsEvents call id w' ∧ w'.table.stateOf id = w.table.stateOf id

def LifeGuarantee (call : ℕ) (w w' : LiveWorld) : Prop :=
  ∀ other, other ≠ call → LifeRely other w w'

variable {w w' u : LiveWorld} {call : ℕ} {id : String} {o : LiveOut} {t : JobTable}
  {new : List JobEvent} {commits : List (String × JobState)}

theorem LifeRely.refl (call : ℕ) (w : LiveWorld) : LifeRely call w w :=
  ⟨List.Subset.refl _, fun _ h => h, fun _ _ h => h, fun _ _ h => ⟨h, Iff.rfl⟩,
    fun _ h => ⟨h, rfl⟩⟩

theorem LifeRely.trans (h : LifeRely call w w') (h' : LifeRely call w' u) :
    LifeRely call w u := by
  refine ⟨List.Subset.trans h.drawn h'.drawn, fun id hrow => h'.rows id (h.rows id hrow), ?_, ?_, ?_⟩
  · exact fun id hrow hun => h'.unleased id (h.rows id hrow) (h.unleased id hrow hun)
  · intro id hown hnone
    obtain ⟨hnone', hiff⟩ := h.owned id hown hnone
    obtain ⟨hnone'', hiff'⟩ := h'.owned id (h.drawn hown) hnone'
    exact ⟨hnone'', hiff'.trans hiff⟩
  · intro id hheld
    obtain ⟨hmid, hstate⟩ := h.held id hheld
    obtain ⟨hend, hstate'⟩ := h'.held id hmid
    exact ⟨hend, hstate'.trans hstate⟩

theorem lifeRely_compatible : Pool.Compatible LifeRely LifeGuarantee where
  refl := LifeRely.refl
  trans := fun _ _ _ _ => LifeRely.trans
  other := fun _ t' _ _ ht h => h t' (Ne.symm ht)

/-- Commands that touch neither a row's state nor which jobs have a lease. -/
def LiveCmd.IsAside : LiveCmd → Prop
  | .now | .jobByID _ | .cancelRegistered _ | .subscribers _ | .registerCancel _
  | .unregisterCancel _ | .subscribe _ | .unsubscribe _ _ | .send _ _ | .receive _
  | .appendJobEvent _ | .replaceResources _ _ => True
  | _ => False

/-- A change that no condition on rows and leases notices. -/
structure Aside (w w' : LiveWorld) : Prop where
  states : ∀ id, w'.table.stateOf id = w.table.stateOf id
  leases : ∀ id, Unleased id w' ↔ Unleased id w
  eventLocks : w'.eventLocks = w.eventLocks
  drawn : w'.drawn = w.drawn
  log : w'.log = w.log

theorem Aside.rely (h : Aside w w') (call : ℕ) : LifeRely call w w' := by
  refine ⟨?_, fun id hrow => ?_, fun id _ hun => (h.leases id).mpr hun, fun id _ hnone => ?_,
    fun id hheld => ⟨?_, h.states id⟩⟩
  · rw [h.drawn]
    exact List.Subset.refl _
  · rw [h.states]
    exact hrow
  · rw [h.states]
    exact ⟨hnone, h.leases id⟩
  · unfold HoldsEvents at hheld ⊢
    rw [h.eventLocks]
    exact hheld

theorem Aside.finished (h : Aside w w') (id : String) : Finished id w' ↔ Finished id w := by
  unfold Finished
  rw [h.states]

theorem Aside.inv (h : Aside w w') (hI : LifeInv w) (hlocks : w'.locks.Invariant)
    (hne : ∀ id resources, w'.locks.resourcesByJob.lookup id = some resources → resources ≠ []) :
    LifeInv w' := by
  refine ⟨hlocks, hne, ?_, fun id hle => ?_, fun id state hdrawn hstate hact => ?_,
    fun id hfree hfin => ?_, ?_⟩
  · rw [h.drawn]
    exact hI.drawnOnce
  · rw [h.leases] at hle
    rw [h.drawn]
    exact hI.leased id hle
  · rw [h.drawn] at hdrawn
    rw [h.states] at hstate
    rw [h.leases]
    exact hI.active id state hdrawn hstate hact
  · rw [h.eventLocks] at hfree
    rw [h.finished] at hfin
    exact (h.leases id).mpr (hI.clean id hfree hfin)
  · rw [h.log]
    exact hI.log

theorem Aside.of_eq (ht : w'.table = w.table) (hl : w'.locks = w.locks)
    (he : w'.eventLocks = w.eventLocks) (hd : w'.drawn = w.drawn) (hg : w'.log = w.log) :
    Aside w w' := by
  refine ⟨fun id => by rw [ht], fun id => ?_, he, hd, hg⟩
  unfold Unleased
  rw [hl]

theorem appendJobEvent_stateOf {event e : JobEvent} {u : JobTable}
    (h : t.appendJobEvent event = .ok (e, u)) (id : String) : u.stateOf id = t.stateOf id := by
  unfold appendJobEvent at h
  split at h
  · cases h
  next row hrow =>
    dsimp only at h
    split at h
    · cases h
    next t' ht =>
      cases h
      obtain ⟨hothers, hnew⟩ := rows_insert (createJobEventRow_ok ht).1
      unfold stateOf
      by_cases hid : id = event.jobID
      · subst hid
        rw [hnew, hrow]
        rfl
      · rw [hothers id hid]

theorem aside_exec {c : LiveCmd} (hc : c.IsAside) (hI : LifeInv w) :
    Aside w (liveExec c o w).2 ∧ LifeInv (liveExec c o w).2 := by
  suffices h : Aside w (liveExec c o w).2 ∧ (liveExec c o w).2.locks.Invariant ∧
      ∀ id resources, (liveExec c o w).2.locks.resourcesByJob.lookup id = some resources →
        resources ≠ [] from ⟨h.1, h.1.inv hI h.2.1 h.2.2⟩
  cases c with
  | now | jobByID | cancelRegistered | subscribers | registerCancel | unregisterCancel
  | subscribe => exact ⟨.of_eq rfl rfl rfl rfl rfl, hI.locks, hI.nonempty⟩
  | unsubscribe jobID channel =>
    dsimp only [liveExec, LiveWorld.dropChannel]
    split <;> exact ⟨.of_eq rfl rfl rfl rfl rfl, hI.locks, hI.nonempty⟩
  | send channel event =>
    dsimp only [liveExec, LiveWorld.put]
    split
    · exact ⟨.of_eq rfl rfl rfl rfl rfl, hI.locks, hI.nonempty⟩
    · split <;> exact ⟨.of_eq rfl rfl rfl rfl rfl, hI.locks, hI.nonempty⟩
  | receive channel =>
    dsimp only [liveExec, LiveWorld.take]
    split <;> exact ⟨.of_eq rfl rfl rfl rfl rfl, hI.locks, hI.nonempty⟩
  | appendJobEvent event =>
    dsimp only [liveExec]
    split
    · exact ⟨.of_eq rfl rfl rfl rfl rfl, hI.locks, hI.nonempty⟩
    · exact ⟨.of_eq rfl rfl rfl rfl rfl, hI.locks, hI.nonempty⟩
    next e t _ ht =>
      exact ⟨⟨appendJobEvent_stateOf ht, fun _ => Iff.rfl, rfl, rfl, rfl⟩, hI.locks, hI.nonempty⟩
  | replaceResources jobID requested =>
    have hlookup := w.locks.replaceResources_lookup o.holdings jobID requested
    refine ⟨⟨fun _ => rfl, fun id => ?_, rfl, rfl, rfl⟩,
      replaceResources_invariant hI.locks, fun id resources hres => ?_⟩
    · unfold Unleased
      dsimp only [liveExec]
      rcases hlookup id with heq | ⟨hold, resources, -, hnew⟩
      · rw [heq]
      · rw [hnew]
        simp [hold]
    · dsimp only [liveExec] at hres
      rcases hlookup id with heq | ⟨-, resources', hne, hnew⟩
      · rw [heq] at hres
        exact hI.nonempty id resources hres
      · rw [hnew] at hres
        cases hres
        exact hne
  | _ => exact hc.elim

theorem owner_unique {other : ℕ} (h : LifeInv w) (hid : (id, call) ∈ w.drawn)
    (hid' : (id, other) ∈ w.drawn) : other = call :=
  congrArg Prod.snd (List.inj_on_of_nodup_map h.drawnOnce hid' hid rfl)

/-- A statement on the row of a job, under its event lock. A job without a row is created only
by its own start. -/
theorem guarantee_commit (hI : LifeInv w) (hheld : HoldsEvents call id w)
    (hown : w.table.stateOf id = none → (id, call) ∈ w.drawn)
    (hc : JobTable.Commit w.table t id new) :
    LifeGuarantee call w { w with table := t, commits := commits } := by
  intro other hne
  refine ⟨List.Subset.refl _, fun j hrow => ?_, fun _ _ h => h, fun j hdrawn hnone => ?_,
    fun j hj => ⟨hj, ?_⟩⟩
  · by_cases hj : j = id
    · subst hj
      exact hc.kept hrow
    · exact (stateOf_commit_of_ne hc hj).trans_ne hrow
  · have hj : j ≠ id := by
      rintro rfl
      exact hne (owner_unique hI (hown hnone) hdrawn)
    exact ⟨(stateOf_commit_of_ne hc hj).trans hnone, Iff.rfl⟩
  · refine stateOf_commit_of_ne hc ?_
    rintro rfl
    exact other_lock hne hheld hj rfl

theorem LifeInv.commit {state : JobState} (hI : LifeInv w) (hheld : HoldsEvents call id w)
    (hc : JobTable.Commit w.table t id new) (hstate : t.stateOf id = some state)
    (hactive : id ∈ w.drawn.map Prod.fst → state.isTerminal = false → ¬Unleased id w) :
    LifeInv { w with table := t, commits := commits } := by
  refine { hI with active := fun j st hj hst hact => ?_, clean := fun j hfree hfin => ?_ }
  · by_cases hid : j = id
    · subst hid
      cases hstate.symm.trans hst
      exact hactive hj hact
    · exact hI.active j st hj ((stateOf_commit_of_ne hc hid).symm.trans hst) hact
  · have hid : j ≠ id := by
      rintro rfl
      exact free_lock hfree hheld rfl
    refine hI.clean j hfree ?_
    obtain ⟨st, hst, hterm⟩ := hfin
    exact ⟨st, (stateOf_commit_of_ne hc hid).symm.trans hst, hterm⟩

theorem unleased_unlockAll {j : String} :
    Unleased j { w with locks := w.locks.unlockAll id } ↔ j = id ∨ Unleased j w := by
  unfold Unleased
  rw [unlockAll_resourcesByJob]
  by_cases hj : j = id
  · simp [hj]
  · simp [hj]

/-- Only the locks of a finished job, or of a start that failed, are released. -/
theorem unlockAll_exec (call : ℕ) (hI : LifeInv w)
    (h : Finished id w ∨ (id, call) ∈ w.drawn ∧ w.table.stateOf id = none) :
    LifeGuarantee call w { w with locks := w.locks.unlockAll id } ∧
      LifeInv { w with locks := w.locks.unlockAll id } := by
  refine ⟨fun other hne => ⟨List.Subset.refl _, fun _ h => h,
    fun _ _ hun => unleased_unlockAll.mpr (.inr hun), fun j hdrawn hnone => ⟨hnone, ?_⟩,
    fun _ hj => ⟨hj, rfl⟩⟩, unlockAll_invariant hI.locks, ?_, hI.drawnOnce, ?_, ?_, ?_,
    hI.log⟩
  · have hj : j ≠ id := by
      rintro rfl
      rcases h with ⟨state, hstate, -⟩ | ⟨hown, -⟩
      · rw [hnone] at hstate
        cases hstate
      · exact hne (owner_unique hI hown hdrawn)
    rw [unleased_unlockAll]
    simp [hj]
  · intro j resources hres
    rw [unlockAll_resourcesByJob] at hres
    split at hres
    · cases hres
    · exact hI.nonempty j resources hres
  · intro j hle
    exact hI.leased j fun hun => hle (unleased_unlockAll.mpr (.inr hun))
  · intro j state hj hstate hact hun
    rcases unleased_unlockAll.mp hun with rfl | hun
    · rcases h with ⟨st, hst, hterm⟩ | ⟨-, hnone⟩
      · cases hst.symm.trans hstate
        rw [hact] at hterm
        cases hterm
      · cases hnone.symm.trans hstate
    · exact hI.active j state hj hstate hact hun
  · intro j hfree hfin
    exact unleased_unlockAll.mpr (.inr (hI.clean j hfree hfin))

end Live

end Stacklab.Jobs
