import Stacklab.Jobs.LifeRules
import Stacklab.Jobs.EventSafety

/-! Locks follow the rows of their jobs under every interleaving of the job service's calls. -/
namespace Stacklab.Jobs.Live

open Lib Store Prog LockTable JobTable

abbrev LifeSafe (call : ℕ) {α : Type} (p : LiveProg α) (Q : α → LiveWorld → Prop)
    (w : LiveWorld) : Prop :=
  p.Safe liveMachine LifeAllowed LifeInv (LifeRely call) (LifeGuarantee call) Q w

/-- A condition on rows and leases that no other call can end. -/
def Durable (call : ℕ) (P : LiveWorld → Prop) : Prop := ∀ u v, P u → LifeRely call u v → P v

/-- A job that its start is about to lock. -/
structure Drawn (call : ℕ) (id : String) (w : LiveWorld) : Prop where
  drawn : (id, call) ∈ w.drawn
  noRow : w.table.stateOf id = none
  unleased : Unleased id w

/-- A job that its start is about to create. -/
structure Leased (call : ℕ) (id : String) (w : LiveWorld) : Prop where
  drawn : (id, call) ∈ w.drawn
  noRow : w.table.stateOf id = none
  leased : ¬Unleased id w

/-- Under an event lock, every finished job of that lock is without a lease. -/
structure Tidied (call : ℕ) (id : String) (w : LiveWorld) : Prop where
  held : HoldsEvents call id w
  clean : ∀ j, eventLockIndex j = eventLockIndex id → Clean j w

/-- The job has finished and may still have its lease. -/
structure Ending (call : ℕ) (id : String) (w : LiveWorld) : Prop where
  held : HoldsEvents call id w
  clean : ∀ j, eventLockIndex j = eventLockIndex id → j ≠ id → Clean j w
  finished : Finished id w

variable {w w' : LiveWorld} {call : ℕ} {id j : String} {o : LiveOut} {event : JobEvent}
  {events : List JobEvent} {α : Type} {Q : α → LiveWorld → Prop} {P : LiveWorld → Prop}
  {c : LiveCmd} {a : α} {k : Unit → LiveProg α}
  {make : String → Option JobState → Bool → Bool → LifeEvent} {resources : List Resource}
  {draining : Bool} {t : JobTable} {commits : List (String × JobState)} {job : Job}
  {allowed : List JobState}

theorem durable_true : Durable call fun _ => True := fun _ _ _ _ => trivial

theorem durable_drawn : Durable call (Drawn call id) := by
  intro u v hu hR
  obtain ⟨hnone, hiff⟩ := hR.owned id hu.drawn hu.noRow
  exact ⟨hR.drawn hu.drawn, hnone, hiff.mpr hu.unleased⟩

theorem durable_leased : Durable call (Leased call id) := by
  intro u v hu hR
  obtain ⟨hnone, hiff⟩ := hR.owned id hu.drawn hu.noRow
  exact ⟨hR.drawn hu.drawn, hnone, fun hun => hu.leased (hiff.mp hun)⟩

/-- The lock that covers a job covers every job with the same index. -/
theorem holdsEvents_of_index (h : HoldsEvents call id w)
    (hj : eventLockIndex j = eventLockIndex id) : HoldsEvents call j w := by
  unfold HoldsEvents at h ⊢
  rw [hj]
  exact h

theorem finished_of_rely (h : HoldsEvents call id w) (hR : LifeRely call w w') :
    Finished id w' ↔ Finished id w := by
  unfold Finished
  rw [(hR.held id h).2]

theorem Clean.of_rely (hc : Clean id w) (h : HoldsEvents call id w) (hR : LifeRely call w w') :
    Clean id w' := by
  intro hfin
  rw [finished_of_rely h hR] at hfin
  have hrow : w.table.stateOf id ≠ none := by
    obtain ⟨state, hstate, -⟩ := hfin
    simp [hstate]
  exact hR.unleased id hrow (hc hfin)

theorem durable_tidied : Durable call (Tidied call id) := fun _ _ hu hR =>
  ⟨(hR.held id hu.held).1,
    fun j hj => (hu.clean j hj).of_rely (holdsEvents_of_index hu.held hj) hR⟩

theorem durable_ending : Durable call (Ending call id) := fun _ _ hu hR =>
  ⟨(hR.held id hu.held).1,
    fun j hj hne => (hu.clean j hj hne).of_rely (holdsEvents_of_index hu.held hj) hR,
    (finished_of_rely hu.held hR).mpr hu.finished⟩

theorem durable_and {P' : LiveWorld → Prop} (h : Durable call P) (h' : Durable call P') :
    Durable call fun w => P w ∧ P' w :=
  fun u v hu hR => ⟨h u v hu.1 hR, h' u v hu.2 hR⟩

theorem life_aside {k : LiveAns c → LiveProg α} (P : LiveWorld → Prop) (hc : c.IsAside) (hP : P w)
    (hP' : Durable call P) (hk : ∀ u o, P u → LifeInv u → P (liveExec c o u).2 →
      LifeSafe call (k (liveExec c o u).1) Q (liveExec c o u).2) :
    LifeSafe call (c.issue >>= k) Q w := by
  refine safe_issue_bind hP hP' ?_
  intro u o hu hI _
  obtain ⟨haside, hinv⟩ := aside_exec (o := o) hc hI
  have hafter := hP' u _ hu (haside.rely call)
  exact ⟨fun other _ => haside.rely other, hinv, hk u o hu hI hafter⟩

/-- A command that keeps the condition, whatever it answers. -/
theorem life_keep {k : LiveAns c → LiveProg α} (hc : c.IsAside) (hP : P w) (hP' : Durable call P)
    (hk : ∀ a u, P u → LifeSafe call (k a) Q u) : LifeSafe call (c.issue >>= k) Q w :=
  life_aside P hc hP hP' fun _ _ _ _ hu => hk _ _ hu

theorem life_sendAll (hP' : Durable call P) :
    ∀ {channels : List ℕ} {w : LiveWorld}, P w →
      LifeSafe call (sendAll event channels) (fun _ => P) w
  | [], _, h => safe_pure fun _ hR _ => hP' _ _ h hR
  | _ :: _, _, h => life_keep trivial h hP' fun _ _ hu => life_sendAll hP' hu

theorem life_publishLive (hP : P w) (hP' : Durable call P) :
    LifeSafe call (publishLive event) (fun _ => P) w :=
  life_keep trivial hP hP' fun _ _ hu => life_sendAll hP' hu

theorem life_publishCommittedEvents (hP' : Durable call P) :
    ∀ {events : List JobEvent} {w : LiveWorld}, P w →
      LifeSafe call (publishCommittedEvents events) (fun _ => P) w
  | [], _, h => safe_pure fun _ hR _ => hP' _ _ h hR
  | _ :: _, _, h => safe_bind (LifeRely.refl call)
      ((life_publishLive h hP').post fun _ _ _ hu => life_publishCommittedEvents hP' hu)

theorem life_return : LifeSafe call (pure a) (fun _ _ => True) w :=
  safe_pure fun _ _ _ => trivial

/-- Taking the event lock, with a condition of the call's own. -/
theorem life_lockJobEvents (hP : P w) (hP' : Durable call P)
    (hlock : ∀ u, P u → P (u.setEventLock (eventLockIndex id) (some call)))
    (hk : ∀ u, P u → Tidied call id u → LifeSafe call (k ()) Q u) :
    LifeSafe call (LiveCmd.issue (.lockJobEvents call id) >>= k) Q w := by
  refine safe_issue_bind hP hP' ?_
  intro u o hu hI hallowed
  have hfree : u.eventLocks (eventLockIndex id) = none := Option.isNone_iff_eq_none.mp hallowed.1
  refine ⟨fun other _ => { LifeRely.refl other u with
    held := fun j hj => ⟨holdsEvents_setEventLock hj (free_lock hfree hj), rfl⟩ },
    { hI with clean := fun j hj => ?_ },
    hk _ (hlock u hu) ⟨holdsEvents_self, fun j hj => ?_⟩⟩
  · change Function.update u.eventLocks _ _ _ = none at hj
    by_cases heq : eventLockIndex j = eventLockIndex id
    · rw [heq, Function.update_self] at hj
      cases hj
    · rw [Function.update_of_ne heq] at hj
      exact hI.clean j hj
  · rw [← hj] at hfree
    exact hI.clean j hfree

theorem life_unlockJobEvents (h : Tidied call id w) (hk : ∀ u, LifeSafe call (k ()) Q u) :
    LifeSafe call (LiveCmd.issue (.unlockJobEvents id) >>= k) Q w := by
  refine safe_issue_bind h durable_tidied ?_
  intro u o hu hI _
  refine ⟨fun other hne => { LifeRely.refl other u with
    held := fun j hj => ⟨holdsEvents_setEventLock hj (other_lock hne hu.held hj), rfl⟩ },
    { hI with clean := fun j hj => ?_ }, hk _⟩
  change Function.update u.eventLocks _ _ _ = none at hj
  by_cases heq : eventLockIndex j = eventLockIndex id
  · exact hu.clean j heq
  · rw [Function.update_of_ne heq] at hj
    exact hI.clean j hj

/-- A job without a lease holds no resource and is not the draining one. -/
theorem holds_of_unleased (hI : LifeInv w) (h : Unleased id w) : w.holds id = false := by
  unfold LiveWorld.holds
  rw [List.any_eq_false]
  intro e he
  have hlookup : w.locks.lockedByResource.lookup e.1 = some e.2 := GoMap.lookup_eq_some_iff.mpr he
  simp only [decide_eq_true_eq]
  rintro rfl
  exact fresh_not_holder hI.locks h e.1 hlookup

theorem isDraining_of_unleased (hI : LifeInv w) (h : Unleased id w) (hid : id ≠ "") :
    w.isDraining id = false := by
  unfold LiveWorld.isDraining
  rw [decide_eq_false_iff_not]
  intro heq
  exact fresh_not_draining hI.locks h (by rw [heq]; exact hid) heq

theorem holds_of_leased (hI : LifeInv w) (h : ¬Unleased id w) : w.holds id = true := by
  obtain ⟨resources, hres⟩ := Option.ne_none_iff_exists'.mp h
  obtain ⟨r, rest, rfl⟩ := List.exists_cons_of_ne_nil (hI.nonempty id resources hres)
  have hheld : w.locks.lockedByResource.lookup r = some id := by
    rw [hI.locks.inverse, resourcesOf, hres]
    exact List.mem_cons_self
  unfold LiveWorld.holds
  rw [List.any_eq_true]
  exact ⟨⟨r, id⟩, GoMap.lookup_eq_some_iff.mp hheld, by simp⟩

theorem observe_rely (call : ℕ) : LifeRely call w (w.observe id make) :=
  { LifeRely.refl call w with }

theorem LifeInv.observe (hI : LifeInv w)
    (h : (make id (w.table.stateOf id) (w.holds id) (w.isDraining id)).Tidy) :
    LifeInv (w.observe id make) :=
  { hI with log := List.forall_mem_cons.mpr ⟨h, hI.log⟩ }

theorem life_finishReturned (h : Tidied call id w)
    (hk : ∀ u, Tidied call id u → LifeSafe call (k ()) Q u) :
    LifeSafe call (LiveCmd.issue (.finishReturned id) >>= k) Q w := by
  refine safe_issue_bind h durable_tidied ?_
  intro u o hu hI _
  refine ⟨fun other _ => observe_rely other, hI.observe fun hid hfin => ?_,
    hk _ (durable_tidied _ _ hu (observe_rely call))⟩
  have hun : Unleased id u := hu.clean id rfl hfin
  exact ⟨holds_of_unleased hI hun, isDraining_of_unleased hI hun hid⟩

theorem life_startFailed {token : String} (hdrawn : ∀ u, P u → Drawn call (newJobID token) u)
    (hP : P w) (hP' : Durable call P) (hk : ∀ u, P u → LifeSafe call (k ()) Q u) :
    LifeSafe call (LiveCmd.issue (.startFailed (newJobID token)) >>= k) Q w := by
  refine safe_issue_bind hP hP' ?_
  intro u o hu hI _
  have hun := (hdrawn u hu).unleased
  refine ⟨fun other _ => observe_rely other, hI.observe ?_, hk _ (hP' _ _ hu (observe_rely call))⟩
  exact ⟨(hdrawn u hu).noRow, holds_of_unleased hI hun,
    isDraining_of_unleased hI hun (newJobID_ne_empty token)⟩

theorem life_randomToken {k : String → LiveProg α}
    (hk : ∀ token u, Drawn call (newJobID token) u → LifeSafe call (k token) Q u) :
    LifeSafe call (LiveCmd.issue (.randomToken call) >>= k) Q w := by
  refine safe_issue_any ?_
  intro u o hI hallowed
  obtain ⟨hnew, hrow⟩ := Bool.and_eq_true_iff.mp hallowed.2
  have hfresh : newJobID o.token ∉ u.drawn.map Prod.fst := of_decide_eq_true hnew
  have hnone : u.table.stateOf (newJobID o.token) = none := by
    unfold stateOf
    rw [Option.isNone_iff_eq_none.mp hrow]
    rfl
  have hun : Unleased (newJobID o.token) u := by
    by_contra hle
    exact hfresh (hI.leased _ hle)
  refine ⟨fun other _ => { LifeRely.refl other u with drawn := List.subset_cons_self _ _ },
    { hI with
      drawnOnce := List.nodup_cons.mpr ⟨hfresh, hI.drawnOnce⟩
      leased := fun id hle => List.mem_cons_of_mem _ (hI.leased id hle)
      active := fun id state hid hstate hact => ?_ }, hk _ _ ⟨List.mem_cons_self, hnone, hun⟩⟩
  rcases List.mem_cons.mp hid with rfl | hid
  · cases hnone.symm.trans hstate
  · exact hI.active id state hid hstate hact

theorem unleased_lockMany (h : (w.locks.lockMany o.holdings id resources draining).1 = .ok ()) :
    Unleased j { w with locks := (w.locks.lockMany o.holdings id resources draining).2 } ↔
      j ≠ id ∧ Unleased j w := by
  unfold Unleased
  rw [lockMany_lookup h]
  by_cases hj : j = id
  · simp [hj]
  · simp [hj]

theorem lockMany_exec (hI : LifeInv w) (hd : Drawn call id w) (hid : id ≠ "") (hne : resources ≠ [])
    (h : (w.locks.lockMany o.holdings id resources draining).1 = .ok ()) :
    LifeGuarantee call w
        { w with locks := (w.locks.lockMany o.holdings id resources draining).2 } ∧
      LifeInv { w with locks := (w.locks.lockMany o.holdings id resources draining).2 } := by
  refine ⟨fun other hother => ⟨List.Subset.refl _, fun _ h => h, fun j hrow hun => ?_,
    fun j hdrawn hnone => ⟨hnone, ?_⟩, fun _ h => ⟨h, rfl⟩⟩,
    lockMany_invariant hI.locks hd.unleased hid hne, ?_, hI.drawnOnce, ?_, ?_, ?_, hI.log⟩
  · refine (unleased_lockMany h).mpr ⟨?_, hun⟩
    rintro rfl
    exact hrow hd.noRow
  · have hj : j ≠ id := by
      rintro rfl
      exact hother (owner_unique hI hd.drawn hdrawn)
    rw [unleased_lockMany h]
    simp [hj]
  · intro j held hheld
    rw [lockMany_lookup h] at hheld
    split at hheld
    · cases hheld
      exact hne
    · exact hI.nonempty j held hheld
  · intro j hle
    by_cases hj : j = id
    · subst hj
      exact List.mem_map_of_mem (f := Prod.fst) hd.drawn
    · exact hI.leased j fun hun => hle ((unleased_lockMany h).mpr ⟨hj, hun⟩)
  · intro j state hj hstate hact hun
    exact hI.active j state hj hstate hact ((unleased_lockMany h).mp hun).2
  · intro j hfree hfin
    refine (unleased_lockMany h).mpr ⟨?_, hI.clean j hfree hfin⟩
    rintro rfl
    obtain ⟨state, hstate, -⟩ := hfin
    cases hd.noRow.symm.trans hstate

theorem life_lockMany {k : Except JobsError Unit → LiveProg α} (hid : id ≠ "")
    (hne : resources ≠ []) (h : Drawn call id w)
    (hok : ∀ u, Leased call id u → LifeSafe call (k (.ok ())) Q u)
    (herr : ∀ err u, Drawn call id u → LifeSafe call (k (.error err)) Q u) :
    LifeSafe call (LiveCmd.issue (.lockMany id resources draining) >>= k) Q w := by
  refine safe_issue_bind h durable_drawn ?_
  intro u o hu hI _
  cases hr : (u.locks.lockMany o.holdings id resources draining).1 with
  | error err =>
    have hsame := lockMany_failed hr
    dsimp only [liveMachine, liveExec]
    rw [hr, hsame]
    exact ⟨fun other _ => LifeRely.refl other u, hI, herr err u hu⟩
  | ok =>
    obtain ⟨hG, hinv⟩ := lockMany_exec hI hu hid hne hr
    dsimp only [liveMachine, liveExec]
    rw [hr]
    refine ⟨hG, hinv, hok _ ⟨hu.drawn, hu.noRow, fun hun => ?_⟩⟩
    exact ((unleased_lockMany hr).mp hun).1 rfl

theorem Clean.unlockAll (h : Clean j w) : Clean j { w with locks := w.locks.unlockAll id } :=
  fun hfin => unleased_unlockAll.mpr (.inr (h hfin))

theorem life_unlockAll_ending (h : Ending call id w)
    (hk : ∀ u, Tidied call id u → LifeSafe call (k ()) Q u) :
    LifeSafe call (LiveCmd.issue (.unlockAll id) >>= k) Q w := by
  refine safe_issue_bind h durable_ending ?_
  intro u o hu hI _
  obtain ⟨hG, hinv⟩ := unlockAll_exec call hI (.inl hu.finished)
  refine ⟨hG, hinv, hk _ ⟨hu.held, fun j hj => ?_⟩⟩
  by_cases hid : j = id
  · exact fun _ => unleased_unlockAll.mpr (.inl hid)
  · exact (hu.clean j hj hid).unlockAll

theorem life_unlockAll_start (h : Tidied call id w) (hl : Leased call id w)
    (hk : ∀ u, Tidied call id u ∧ Drawn call id u → LifeSafe call (k ()) Q u) :
    LifeSafe call (LiveCmd.issue (.unlockAll id) >>= k) Q w := by
  refine safe_issue_bind (And.intro h hl) (durable_and durable_tidied durable_leased) ?_
  intro u o ⟨hu, hl⟩ hI _
  obtain ⟨hG, hinv⟩ := unlockAll_exec call hI (.inr ⟨hl.drawn, hl.noRow⟩)
  exact ⟨hG, hinv, hk _ ⟨⟨hu.held, fun j hj => (hu.clean j hj).unlockAll⟩,
    ⟨hl.drawn, hl.noRow, unleased_unlockAll.mpr (.inl rfl)⟩⟩⟩

/-- Under the event lock of a job, the other rows of that lock stay. -/
theorem Clean.commit {new : List JobEvent} (h : Clean j w) (hc : JobTable.Commit w.table t id new)
    (hj : j ≠ id) : Clean j { w with table := t, commits := commits } := by
  rintro ⟨state, hstate, hterm⟩
  exact h ⟨state, (stateOf_commit_of_ne hc hj).symm.trans hstate, hterm⟩

/-- A job that is not finished needs no cleaning. -/
theorem tidied_of_active {state : JobState} (hheld : HoldsEvents call id w)
    (hclean : ∀ j, eventLockIndex j = eventLockIndex id → j ≠ id → Clean j w)
    (hrow : w.table.stateOf id = some state) (hactive : state.isTerminal = false) :
    Tidied call id w := by
  refine ⟨hheld, fun j hj => ?_⟩
  by_cases hid : j = id
  · rintro ⟨st, hst, hterm⟩
    subst hid
    cases hrow.symm.trans hst
    rw [hactive] at hterm
    cases hterm
  · exact hclean j hj hid

theorem life_create {k : Except StoreError Unit → LiveProg α} (hstate : event.state = job.state)
    (hactive : job.state.isTerminal = false) (h : Tidied call job.id w) (hl : Leased call job.id w)
    (hok : ∀ u, Tidied call job.id u → LifeSafe call (k (.ok ())) Q u)
    (herr : ∀ err u, Tidied call job.id u → Leased call job.id u →
      LifeSafe call (k (.error err)) Q u) :
    LifeSafe call (LiveCmd.issue (.createJobWithInitialEvent job event) >>= k) Q w := by
  refine safe_issue_bind (And.intro h hl) (durable_and durable_tidied durable_leased) ?_
  intro u o ⟨hu, hl⟩ hI _
  dsimp only [liveMachine, liveExec]
  split
  · exact ⟨fun other _ => LifeRely.refl other u, hI, herr _ u hu hl⟩
  · exact ⟨fun other _ => LifeRely.refl other u, hI, herr _ u hu hl⟩
  next t _ ht =>
    have hcommit := (createJobWithInitialEvent_commit hstate ht).1
    have hrow : t.stateOf job.id = some job.state :=
      (hcommit.stored event List.mem_cons_self).2.trans (congrArg some hstate)
    exact ⟨guarantee_commit hI hu.held (fun _ => hl.drawn) hcommit,
      hI.commit hu.held hcommit hrow fun _ _ => hl.leased, hok _ (tidied_of_active hu.held
        (fun j hj hne => (hu.clean j hj).commit hcommit hne) hrow hactive)⟩

/-- A transition from a state that is not terminal. -/
theorem transition_exec (hI : LifeInv w) (h : Tidied call job.id w)
    (hallowed : ∀ state ∈ allowed, state.isTerminal = false)
    (ht : w.table.transitionJobWithEvents job allowed events = .ok (true, t)) :
    LifeGuarantee call w { w with table := t, commits := commits } ∧
      LifeInv { w with table := t, commits := commits } ∧ t.stateOf job.id = some job.state ∧
      ∀ j, eventLockIndex j = eventLockIndex job.id → j ≠ job.id →
        Clean j { w with table := t, commits := commits } := by
  obtain ⟨hcommit, hrow, old, hmem, hold⟩ := transitionJobWithEvents_commit ht hallowed
  refine ⟨guarantee_commit hI h.held (fun hnone => ?_) hcommit,
    hI.commit h.held hcommit hrow fun hdrawn _ => ?_, hrow,
    fun j hj hne => (h.clean j hj).commit hcommit hne⟩
  · cases hnone.symm.trans hold
  · exact hI.active job.id old hdrawn hold (hallowed old hmem)

theorem life_transition {k : Except StoreError (Option (List JobEvent)) → LiveProg α}
    (hallowed : ∀ state ∈ allowed, state.isTerminal = false) (h : Tidied call job.id w)
    (hok : ∀ committed u, HoldsEvents call job.id u →
      (∀ j, eventLockIndex j = eventLockIndex job.id → j ≠ job.id → Clean j u) →
      u.table.stateOf job.id = some job.state → LifeSafe call (k (.ok (some committed))) Q u)
    (hnone : ∀ u, Tidied call job.id u → LifeSafe call (k (.ok none)) Q u)
    (herr : ∀ err u, Tidied call job.id u → LifeSafe call (k (.error err)) Q u) :
    LifeSafe call (LiveCmd.issue (.transitionJobWithEvents job allowed events) >>= k) Q w := by
  refine safe_issue_bind h durable_tidied ?_
  intro u o hu hI _
  dsimp only [liveMachine, liveExec]
  split
  · exact ⟨fun other _ => LifeRely.refl other u, hI, herr _ u hu⟩
  · exact ⟨fun other _ => LifeRely.refl other u, hI, herr _ u hu⟩
  · exact ⟨fun other _ => LifeRely.refl other u, hI, hnone u hu⟩
  next t _ ht =>
    obtain ⟨hG, hinv, hrow, hclean⟩ := transition_exec hI hu hallowed ht
    exact ⟨hG, hinv, hok _ _ hu.held hclean hrow⟩

theorem life_endTransition {result : Except LiveError Job} (h : Tidied call id w) :
    LifeSafe call (endTransition id result) (fun _ _ => True) w :=
  life_finishReturned h fun _ hu => life_unlockJobEvents hu fun _ => life_return

theorem life_release (h : Tidied call id w) :
    LifeSafe call (LiveCmd.issue (.unlockJobEvents id) >>= fun _ => pure a) (fun _ _ => True) w :=
  life_unlockJobEvents h fun _ => life_return

theorem life_free {k : LiveAns c → LiveProg α} (hc : c.IsAside)
    (hk : ∀ a u, LifeSafe call (k a) Q u) : LifeSafe call (c.issue >>= k) Q w :=
  life_keep (P := fun _ => True) hc trivial durable_true fun a u _ => hk a u

section Programs

variable {job : Job} {stackID action requestedBy requestID : String}
  {requestedResources : List Resource} {draining : Bool} {workflow : List WorkflowStep}

theorem life_startLocked {token : String} (hid : job.id = newJobID token)
    (hstate : event.state = job.state) (hactive : job.state.isTerminal = false)
    (h : Leased call job.id w) :
    LifeSafe call (startLocked call job event) (fun _ _ => True) w := by
  refine life_lockJobEvents h durable_leased (fun u hu => ⟨hu.drawn, hu.noRow, hu.leased⟩) ?_
  intro u hl hu
  refine life_create hstate hactive hu hl ?_ ?_
  · intro u hu
    refine safe_bind (LifeRely.refl call) ?_
    exact (life_publishLive hu durable_tidied).post fun _ _ _ hu => life_release hu
  · intro err u hu hl
    refine life_unlockAll_start hu hl fun u hu => ?_
    rw [hid] at hu ⊢
    exact life_startFailed (fun _ h => h.2) hu (durable_and durable_tidied durable_drawn)
      fun _ hu => life_release hu.1

theorem life_start : LifeSafe call (start call stackID action requestedBy requestID
    requestedResources draining workflow) (fun _ _ => True) w := by
  refine life_free trivial fun now _ => life_randomToken fun token u hu => ?_
  split
  · exact life_startFailed (fun _ h => h) hu durable_drawn fun _ _ => life_return
  next resources hnorm =>
    refine life_lockMany (newJobID_ne_empty token) (normalizeResources_ne_nil hnorm) hu ?_ ?_
    · exact fun u hu => life_startLocked rfl rfl rfl hu
    · exact fun err u hu =>
        life_startFailed (fun _ h => h) hu durable_drawn fun _ _ => life_return

/-- Reading the row under the event lock. -/
theorem life_jobByID {k : Except StoreError Job → LiveProg α} (h : Tidied call id w)
    (hok : ∀ current u, Tidied call id u → u.table.stateOf id = some current.state →
      LifeSafe call (k (.ok current)) Q u)
    (herr : ∀ err u, Tidied call id u → LifeSafe call (k (.error err)) Q u) :
    LifeSafe call (LiveCmd.issue (.jobByID id) >>= k) Q w := by
  refine life_aside (Tidied call id) trivial h durable_tidied ?_
  intro u o hu hI _
  dsimp only [liveExec]
  split
  · exact herr _ u hu
  · cases hrow : u.table.rows.lookup id with
    | none =>
      rw [jobByID, hrow]
      exact herr _ u hu
    | some row =>
      rw [jobByID, hrow]
      refine hok _ u hu ?_
      unfold stateOf
      rw [hrow]
      rfl

theorem life_commitTerminalTransition (hterm : job.state.isTerminal = true) :
    LifeSafe call (commitTerminalTransition call job events) (fun _ _ => True) w := by
  refine life_lockJobEvents (P := fun _ => True) trivial durable_true (fun _ _ => trivial) ?_
  intro u _ hu
  refine life_transition (by decide) hu ?_ ?_ ?_
  · intro committed u hheld hclean hrow
    refine safe_bind (LifeRely.refl call) ?_
    have hending : Ending call job.id u := ⟨hheld, hclean, job.state, hrow, hterm⟩
    refine (life_publishCommittedEvents durable_ending hending).post fun _ u _ hu => ?_
    exact life_unlockAll_ending hu fun u hu => life_endTransition hu
  · intro u hu
    refine life_jobByID hu ?_ ?_
    · intro current u hu hrow
      dsimp only
      split
      next hfin =>
        have hending : Ending call job.id u :=
          ⟨hu.held, fun j hj _ => hu.clean j hj, current.state, hrow, hfin⟩
        refine life_unlockAll_ending hending fun u hu => ?_
        split <;> exact life_endTransition hu
      · exact life_endTransition hu
    · exact fun err u hu => life_endTransition hu
  · exact fun err u hu => life_endTransition hu

theorem life_finishTerminal {state : JobState} {errorCode errorMessage finishMessage : String}
    (hterm : state.isTerminal = true) :
    LifeSafe call (finishTerminal call job state errorCode errorMessage finishMessage)
      (fun _ _ => True) w :=
  life_free trivial fun _ _ => life_commitTerminalTransition hterm

theorem life_cancelLocked (hactive : job.state.isTerminal = false) :
    LifeSafe call (cancelLocked call id job) (fun _ _ => True) w := by
  refine life_free trivial fun now u => ?_
  refine life_lockJobEvents (P := fun _ => True) trivial durable_true (fun _ _ => trivial) ?_
  intro u _ hu
  refine life_transition (by decide) hu ?_ ?_ ?_
  · intro committed u hheld hclean hrow
    have htidied := tidied_of_active hheld hclean hrow hactive
    refine safe_bind (LifeRely.refl call) ?_
    exact (life_publishCommittedEvents durable_tidied htidied).post fun _ _ _ hu => life_release hu
  · intro u hu
    refine life_unlockJobEvents hu fun u => life_free trivial fun loaded u => ?_
    cases loaded with
    | error err => exact life_return
    | ok current =>
      dsimp only
      split <;> exact life_return
  · exact fun err u hu => life_release hu

theorem life_cancel : LifeSafe call (cancel call id) (fun _ _ => True) w := by
  refine life_free trivial fun loaded u => ?_
  cases loaded with
  | error err => exact life_return
  | ok job =>
    dsimp only
    split
    · exact life_return
    · split
      · refine life_free trivial fun registered u => ?_
        split
        · exact life_return
        · exact life_cancelLocked rfl
      · exact life_return

theorem life_publishEvent {kind : JobEventKind} {message data : String}
    {step : Option JobEventStep} :
    LifeSafe call (publishEvent call job kind message data step) (fun _ _ => True) w := by
  refine life_lockJobEvents (P := fun _ => True) trivial durable_true (fun _ _ => trivial) ?_
  intro u _ hu
  refine life_keep trivial hu durable_tidied fun now u hu => ?_
  refine life_keep trivial hu durable_tidied fun appended u hu => ?_
  cases appended with
  | error err => exact life_release hu
  | ok event =>
    refine safe_bind (LifeRely.refl call) ?_
    exact (life_publishLive hu durable_tidied).post fun _ _ _ hu => life_release hu

theorem life_discard {p : LiveProg α} (h : LifeSafe call p (fun _ _ => True) w) :
    LifeSafe call (discard p) (fun _ _ => True) w :=
  safe_bind (LifeRely.refl call) (h.post fun _ _ _ _ => life_return)

end Programs

theorem life_program (c : LiveCall) : LifeSafe call (c.program call) (fun _ _ => True) w := by
  cases c with
  | start => exact life_discard life_start
  | finishSucceeded job =>
    exact life_discard (life_free trivial fun _ _ => life_commitTerminalTransition rfl)
  | finishFailed | finishTimedOut | finishCancelled => exact life_discard (life_finishTerminal rfl)
  | reconcileInterruptedJob job =>
    exact life_discard (life_free trivial fun _ _ => life_commitTerminalTransition rfl)
  | cancel id => exact life_discard life_cancel
  | publishEvent => exact life_discard life_publishEvent
  | replaceResources => exact life_discard (life_free (k := pure) trivial fun _ _ => life_return)
  | registerCancel | unregisterCancel | subscribe | unsubscribe | receive =>
    exact life_free (k := pure) trivial fun _ _ => life_return

/-- The steps of the service in which `start` draws new ids. -/
def lifeEnabled (s : LivePool) (l : LiveLabel) : Bool :=
  liveEnabled s l &&
    match l with
    | .invoke _ _ => true
    | .step call o =>
      match s.threads call with
      | some (.call c _) => c.fresh o s.world
      | _ => true

def lifeLts : Lts LivePool LiveLabel := Lts.ofNext lifeEnabled liveNext

def LifePool (s : LivePool) : Prop :=
  s.Safe liveMachine LifeAllowed LifeInv LifeRely LifeGuarantee

variable {s : LivePool}

theorem lifePool_start (h : FreshProcess s) : LifePool s := by
  have hun : ∀ id, Unleased id s.world := fun id => by
    unfold Unleased
    rw [h.locks]
    rfl
  refine ⟨⟨?_, fun id resources hres => ?_, ?_, fun id hle => absurd (hun id) hle, ?_,
    fun id _ _ => hun id, ?_⟩, fun call p hp => ?_⟩
  · rw [h.locks]
    exact invariant_new
  · cases (hun id).symm.trans hres
  · simp [h.observed.2.1]
  · simp [h.observed.2.1]
  · simp [h.observed.2.2]
  · rw [h.threads call] at hp
    cases hp

theorem lifePool_trInv : lifeLts.TrInv LifePool := by
  rintro s l _ ⟨hen, rfl⟩ hs
  obtain ⟨hlive, hfresh⟩ := Bool.and_eq_true_iff.mp hen
  cases l with
  | invoke call c => exact hs.set (life_program c)
  | step call o =>
    refine hs.step lifeRely_compatible fun c k hc => ⟨permits_of_enabled hlive c k hc, ?_⟩
    simp only [hc] at hfresh
    exact hfresh

/-- Over every interleaving: a started job whose row is not terminal holds a resource; when a
finishing call returns with a terminal row, the job holds none and does not drain; and a start
that fails leaves neither a row nor a lock. No id that `start` draws is empty. -/
theorem locks_follow_rows (h : lifeLts.Reachable FreshProcess s) :
    (∀ id state, id ∈ s.world.drawn.map Prod.fst → s.world.table.stateOf id = some state →
      state.isTerminal = false → s.world.holds id = true) ∧
    (∀ id state holds draining, .finishReturned id (some state) holds draining ∈ s.world.log →
      id ≠ "" → state.isTerminal = true → holds = false ∧ draining = false) ∧
    ∀ id state holds draining, .startFailed id state holds draining ∈ s.world.log →
      state = none ∧ holds = false ∧ draining = false := by
  have hinv : LifeInv s.world :=
    (Lts.reachable_of_trInv (fun _ hs => lifePool_start hs) lifePool_trInv h).1
  refine ⟨fun id state hid hstate hact => ?_, fun id state holds draining hlog hid hterm => ?_,
    fun id state holds draining hlog => hinv.log _ hlog⟩
  · exact holds_of_leased hinv (hinv.active id state hid hstate hact)
  · exact hinv.log _ hlog hid ⟨state, rfl, hterm⟩

def webStart : LiveCall := .start "web" "deploy" "admin" "request" [] false []

/-- The first start cannot write its row; the second one succeeds, loses a first attempt to
finish to a database error and then finishes. -/
def retriedRun : List LiveLabel :=
  .invoke 0 webStart :: .step 0 {} :: .step 0 { token := "b" } :: stepsOf 0 2 ++
    .step 0 { failure := some "disk full" } :: stepsOf 0 3 ++
    .invoke 1 webStart :: .step 1 {} :: .step 1 { token := "a" } :: stepsOf 1 5 ++
    .invoke 2 (.finishSucceeded deployed) :: stepsOf 2 2 ++
    .step 2 { failure := some "locked" } :: stepsOf 2 2 ++
    .invoke 3 (.finishSucceeded deployed) :: stepsOf 3 6

def afterRetry : LivePool := retriedRun.foldl liveNext idleProcess

theorem retried_finish_releases :
    afterRetry.world.log =
      [.finishReturned "job_a" (some .succeeded) false false,
        .finishReturned "job_a" (some .running) true false,
        .startFailed "job_b" none false false] ∧
    ∀ id state holds draining, .finishReturned id (some state) holds draining ∈
      afterRetry.world.log → id ≠ "" → state.isTerminal = true →
        holds = false ∧ draining = false :=
  ⟨by decide +kernel, (locks_follow_rows ⟨idleProcess, freshProcess_idleProcess, retriedRun,
    Lts.mTr_ofNext (by decide +kernel)⟩).2.1⟩

/-- While a job drains, no other job that the process started is unfinished. -/
theorem drain_leaves_one_job (h : lifeLts.Reachable FreshProcess s) {state : JobState}
    (hd : s.world.locks.drainingJobID ≠ "") (hid : id ∈ s.world.drawn.map Prod.fst)
    (hrow : s.world.table.stateOf id = some state) (hact : state.isTerminal = false) :
    id = s.world.locks.drainingJobID := by
  obtain ⟨hI, -⟩ := Lts.reachable_of_trInv (fun _ => lifePool_start) lifePool_trInv h
  obtain ⟨held, hheld⟩ := Option.ne_none_iff_exists'.mp (hI.active id state hid hrow hact)
  obtain ⟨r, rest, rfl⟩ := List.exists_cons_of_ne_nil (hI.nonempty id held hheld)
  refine (hI.locks.drain hd).2 r id ?_
  rw [hI.locks.inverse, resourcesOf, hheld]
  exact List.mem_cons_self

/-- A draining start. -/
theorem draining_job_is_alone :
    let s := (.invoke 0 (.start "" "update" "" "" [selfUpdateResource] true []) :: .step 0 {} ::
      .step 0 { token := "a" } :: stepsOf 0 3).foldl liveNext idleProcess
    "job_a" = s.world.locks.drainingJobID :=
  drain_leaves_one_job ⟨idleProcess, freshProcess_idleProcess, _,
    Lts.mTr_ofNext (by decide +kernel)⟩ (by decide +kernel) (by decide +kernel)
    (show _ = some .running by decide +kernel) rfl

end Stacklab.Jobs.Live
