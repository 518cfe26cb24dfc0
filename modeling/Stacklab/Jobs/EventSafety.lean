import Stacklab.Jobs.EventOrder

/-! The event log of a job under every interleaving of the job service's calls. -/
namespace Stacklab.Jobs.Live

open Lib Store Prog

abbrev EventSafe (call : ℕ) {α : Type} (p : LiveProg α) (Q : α → LiveWorld → Prop)
    (w : LiveWorld) : Prop :=
  p.Safe liveMachine LiveAllowed EventInv (EventRely call) (EventGuarantee call) Q w

/-- A condition that no other call can end. -/
def Lasting (call : ℕ) (P : LiveWorld → Prop) : Prop := ∀ u v, P u → EventRely call u v → P v

/-- Committed events that are still to be published, under their event lock. -/
structure Pending (call : ℕ) (id : String) (events : List JobEvent) (w : LiveWorld) : Prop where
  held : HoldsEvents call id w
  stored : ∀ e ∈ events, e ∈ w.table.events ∧ e.jobID = id
  increasing : events.Pairwise fun e e' => e.sequence < e'.sequence
  unsent : ∀ (ch : ℕ) (c : Channel), w.channels[ch]? = some c → c.jobID = id →
    ∀ e ∈ c.sent, ∀ e' ∈ events, e.sequence < e'.sequence

/-- An event on its way to the channels, before the other pending ones. -/
structure Sending (call : ℕ) (event : JobEvent) (rest : List JobEvent) (channels : List ℕ)
    (w : LiveWorld) : Prop where
  pending : Pending call event.jobID rest w
  stored : event ∈ w.table.events
  first : ∀ e ∈ rest, event.sequence < e.sequence
  nodup : channels.Nodup
  ready : ∀ ch ∈ channels, ∃ c, w.channels[ch]? = some c ∧ c.jobID = event.jobID ∧
    ∀ e ∈ c.sent, e.sequence < event.sequence

variable {w : LiveWorld} {call ch : ℕ} {id : String} {o : LiveOut} {event : JobEvent}
  {events rest : List JobEvent} {channels : List ℕ} {α : Type} {Q : α → LiveWorld → Prop}
  {c : LiveCmd} {k : Unit → LiveProg α} {a : α} {job : Job}

theorem lasting_true : Lasting call fun _ => True := fun _ _ _ _ => trivial

theorem lasting_held : Lasting call (HoldsEvents call id) := fun _ _ hu hR => (hR.held id hu).1

theorem lasting_pending : Lasting call (Pending call id events) := by
  intro u v hu hR
  obtain ⟨hheld, hsent⟩ := hR.held id hu.held
  refine ⟨hheld, fun e he => ⟨hR.events (hu.stored e he).1, (hu.stored e he).2⟩, hu.increasing, ?_⟩
  intro ch c' hc' hid e he
  obtain ⟨c, hc, hmem⟩ := hsent ch c' hc' hid e he
  obtain ⟨c'', hc'', hjob⟩ := hR.channels ch c hc
  rw [hc'] at hc''
  cases hc''
  exact hu.unsent ch c hc (hjob ▸ hid) e hmem

theorem lasting_sending : Lasting call (Sending call event rest channels) := by
  intro u v hu hR
  refine ⟨lasting_pending u v hu.pending hR, hR.events hu.stored, hu.first, hu.nodup, ?_⟩
  intro ch hch
  obtain ⟨c, hc, hid, hlt⟩ := hu.ready ch hch
  obtain ⟨c', hc', hjob⟩ := hR.channels ch c hc
  refine ⟨c', hc', hjob.trans hid, fun e he => ?_⟩
  obtain ⟨d, hd, hmem⟩ := (hR.held _ hu.pending.held).2 ch c' hc' (hjob.trans hid) e he
  rw [hc] at hd
  cases hd
  exact hlt e hmem

/-- What a statement commits is newer than everything that its job's subscribers received. -/
theorem pending_commit {t : JobTable} {new : List JobEvent} {commits : List (String × JobState)}
    (hI : EventInv w) (hheld : HoldsEvents call id w) (hc : JobTable.Commit w.table t id new) :
    Pending call id new { w with table := t, commits := commits } := by
  have hnew : ∀ e ∈ new, w.table.sequenceOf id < e.sequence := by
    intro e he
    have hmem := List.mem_map_of_mem (f := JobEvent.sequence) he
    rw [hc.sequences, List.mem_range'_1] at hmem
    omega
  refine ⟨hheld, fun e he => ⟨?_, (hc.stored e he).1⟩, ?_, fun ch c hch hid e he e' he' => ?_⟩
  · change e ∈ t.events
    rw [hc.events]
    exact List.mem_append_right _ he
  · rw [← List.pairwise_map (f := JobEvent.sequence) (R := (· < ·)), hc.sequences]
    exact List.pairwise_lt_range'
  · obtain ⟨hstored, hjob⟩ := (hI.channels c (List.mem_of_getElem? hch)).stored e he
    have hmem : e ∈ w.table.eventsOf id :=
      List.mem_filter.mpr ⟨hstored, decide_eq_true (hjob.trans hid)⟩
    have hseq := List.mem_map_of_mem (f := JobEvent.sequence) hmem
    rw [hI.recorded.sequences, List.mem_range'_1] at hseq
    have hlt := hnew e' he'
    omega

theorem guarantee_setEventLock {holder : Option ℕ}
    (h : ∀ other id', other ≠ call → HoldsEvents other id' w →
      eventLockIndex id' ≠ eventLockIndex id) :
    EventGuarantee call w (w.setEventLock (eventLockIndex id) holder) := by
  refine ⟨.of_eq rfl, fun other hne => ⟨List.Subset.refl _, fun _ c hc => ⟨c, hc, rfl⟩, ?_⟩⟩
  intro id' hid'
  exact ⟨holdsEvents_setEventLock hid' (h other id' hne hid'), nothingSent_refl⟩

theorem safe_plain {k : LiveAns c → LiveProg α} {P : LiveWorld → Prop} (hc : c.IsPlain) (hP : P w)
    (hP' : Lasting call P) (hk : ∀ u o, P u → EventInv u → P (liveExec c o u).2 →
      EventSafe call (k (liveExec c o u).1) Q (liveExec c o u).2) :
    EventSafe call (c.issue >>= k) Q w := by
  refine safe_issue_bind hP hP' ?_
  intro u o hu hI _
  obtain ⟨hplain, hinv⟩ := plain_exec (o := o) hc hI
  have hafter := hP' u _ hu (hplain.rely call)
  exact ⟨⟨hplain.logged, fun other _ => hplain.rely other⟩, hinv, hk u o hu hI hafter⟩

theorem safe_lockJobEvents (hk : ∀ u, HoldsEvents call id u → EventSafe call (k ()) Q u) :
    EventSafe call (LiveCmd.issue (.lockJobEvents call id) >>= k) Q w := by
  refine safe_issue_any ?_
  intro u o hI hfree
  replace hfree : u.eventLocks (eventLockIndex id) = none := Option.isNone_iff_eq_none.mp hfree
  exact ⟨guarantee_setEventLock fun _ _ _ hid' => free_lock hfree hid', hI.other,
    hk _ holdsEvents_self⟩

theorem safe_unlockJobEvents (h : HoldsEvents call id w) (hk : ∀ u, EventSafe call (k ()) Q u) :
    EventSafe call (LiveCmd.issue (.unlockJobEvents id) >>= k) Q w := by
  refine safe_issue_bind h lasting_held ?_
  intro u o hu hI _
  refine ⟨guarantee_setEventLock fun other id' hne hid' => other_lock hne hu hid', hI.other, hk _⟩

/-- Sending reaches one channel of the job only. -/
theorem guarantee_put (h : HoldsEvents call event.jobID w) {c c' : Channel}
    (hc : w.channels[ch]? = some c) (hjob : c.jobID = event.jobID) (hid : c'.jobID = c.jobID) :
    EventGuarantee call w { w with channels := w.channels.set ch c' } := by
  refine ⟨.of_eq rfl, fun other hne => ⟨List.Subset.refl _, getElem?_set_channel hc hid, ?_⟩⟩
  intro id' hid'
  refine ⟨hid', fun i d hd hdid e he => ?_⟩
  have hdiff := other_lock hne h hid'
  by_cases hi : ch = i
  · subst hi
    obtain ⟨hlt, -⟩ := List.getElem?_eq_some_iff.mp hc
    rw [List.getElem?_set_self hlt] at hd
    cases hd
    rw [← hdid, hid, hjob] at hdiff
    exact absurd rfl hdiff
  · rw [List.getElem?_set_ne hi] at hd
    exact ⟨d, hd, he⟩

theorem send_exec (hI : EventInv w) (h : Sending call event rest (ch :: channels) w) :
    EventGuarantee call w (w.put ch event) ∧ EventInv (w.put ch event) ∧
      Sending call event rest channels (w.put ch event) := by
  have htail : ∀ i ∈ channels, ∃ c, w.channels[i]? = some c ∧ c.jobID = event.jobID ∧
      ∀ e ∈ c.sent, e.sequence < event.sequence :=
    fun i hi => h.ready i (List.mem_cons_of_mem _ hi)
  obtain ⟨hnotin, hnodup⟩ := List.nodup_cons.mp h.nodup
  obtain ⟨c, hc, hjob, hlt⟩ := h.ready ch List.mem_cons_self
  unfold LiveWorld.put
  rw [hc]
  dsimp only
  split
  · have hold := hI.channels c (List.mem_of_getElem? hc)
    refine ⟨guarantee_put h.pending.held hc hjob rfl, hI.setChannel hc rfl ⟨?_, ?_⟩,
      ⟨h.pending.held, h.pending.stored, h.pending.increasing, ?_⟩, h.stored, h.first, hnodup, ?_⟩
    · exact List.forall_mem_cons.mpr ⟨⟨h.stored, hjob.symm⟩, hold.stored⟩
    · exact List.pairwise_cons.mpr ⟨hlt, hold.increasing⟩
    · intro i d hd hid e he e' he'
      by_cases hi : ch = i
      · subst hi
        obtain ⟨hlen, -⟩ := List.getElem?_eq_some_iff.mp hc
        rw [List.getElem?_set_self hlen] at hd
        cases hd
        rcases List.mem_cons.mp he with rfl | he
        · exact h.first e' he'
        · exact h.pending.unsent ch c hc hjob e he e' he'
      · rw [List.getElem?_set_ne hi] at hd
        exact h.pending.unsent i d hd hid e he e' he'
    · intro i hi
      have hne : ch ≠ i := fun heq => hnotin (heq ▸ hi)
      rw [List.getElem?_set_ne hne]
      exact htail i hi
  · refine ⟨⟨.of_eq rfl, fun other _ => EventRely.refl other w⟩, hI, h.pending, h.stored, h.first,
      hnodup, htail⟩

theorem safe_sendAll :
    ∀ {channels : List ℕ} {w : LiveWorld}, Sending call event rest channels w →
      EventSafe call (sendAll event channels) (fun _ => Pending call event.jobID rest) w
  | [], _, h => safe_pure fun _ hR _ => lasting_pending _ _ h.pending hR
  | ch :: channels, _, h => by
    refine safe_issue_bind h lasting_sending ?_
    intro u o hu hI _
    obtain ⟨hG, hinv, hnext⟩ := send_exec hI hu
    exact ⟨hG, hinv, safe_sendAll hnext⟩

theorem safe_publishLive (h : Pending call id (event :: rest) w) :
    EventSafe call (publishLive event) (fun _ => Pending call id rest) w := by
  obtain ⟨hstored, rfl⟩ := h.stored event List.mem_cons_self
  refine safe_plain trivial h lasting_pending ?_
  intro u o hu hI _
  obtain ⟨hfirst, hincreasing⟩ := List.pairwise_cons.mp hu.increasing
  obtain ⟨hnodup, hsubs⟩ := hI.subscribed event.jobID
  refine safe_sendAll ⟨⟨hu.held, fun e he => hu.stored e (List.mem_cons_of_mem _ he), hincreasing,
    fun ch c hc hid e he e' he' => hu.unsent ch c hc hid e he e' (List.mem_cons_of_mem _ he')⟩,
    (hu.stored event List.mem_cons_self).1, hfirst, ?_, fun ch hch => ?_⟩
  · exact ((o.channels.perm 0 _).nodup_iff).mpr hnodup
  · obtain ⟨c, hc, hid⟩ := hsubs ch (o.channels.mem_order.mp hch)
    exact ⟨c, hc, hid, fun e he => hu.unsent ch c hc hid e he event List.mem_cons_self⟩

theorem safe_publishCommittedEvents :
    ∀ {events : List JobEvent} {w : LiveWorld}, Pending call id events w →
      EventSafe call (publishCommittedEvents events) (fun _ => HoldsEvents call id) w
  | [], _, h => safe_pure fun _ hR _ => lasting_held _ _ h.held hR
  | _ :: _, _, h => safe_bind (EventRely.refl call)
      ((safe_publishLive h).post fun _ _ _ hnext => safe_publishCommittedEvents hnext)

/-- A call ends without a condition on the state. -/
theorem safe_return : EventSafe call (pure a) (fun _ _ => True) w :=
  safe_pure fun _ _ _ => trivial

/-- Commands that need no event lock. -/
theorem safe_free {k : LiveAns c → LiveProg α} (hc : c.IsPlain)
    (hk : ∀ a u, EventSafe call (k a) Q u) : EventSafe call (c.issue >>= k) Q w :=
  safe_plain (P := fun _ => True) hc trivial lasting_true fun _ _ _ _ _ => hk _ _

/-- Commands under the event lock. -/
theorem safe_under {k : LiveAns c → LiveProg α} (hc : c.IsPlain) (h : HoldsEvents call id w)
    (hk : ∀ a u, HoldsEvents call id u → EventSafe call (k a) Q u) :
    EventSafe call (c.issue >>= k) Q w :=
  safe_plain hc h lasting_held fun _ _ _ _ hu => hk _ _ hu

/-- Releasing the event lock and returning. -/
theorem safe_release (h : HoldsEvents call id w) :
    EventSafe call (LiveCmd.issue (.unlockJobEvents id) >>= fun _ => pure a) (fun _ _ => True) w :=
  safe_unlockJobEvents h fun _ => safe_return

theorem safe_transition {allowed : List JobState}
    {k : Except StoreError (Option (List JobEvent)) → LiveProg α}
    (hallowed : ∀ state ∈ allowed, state.isTerminal = false) (h : HoldsEvents call job.id w)
    (hok : ∀ committed u, Pending call job.id committed u →
      EventSafe call (k (.ok (some committed))) Q u)
    (hnone : ∀ u, HoldsEvents call job.id u → EventSafe call (k (.ok none)) Q u)
    (herr : ∀ err u, HoldsEvents call job.id u → EventSafe call (k (.error err)) Q u) :
    EventSafe call (LiveCmd.issue (.transitionJobWithEvents job allowed events) >>= k) Q w := by
  refine safe_plain hallowed h lasting_held ?_
  intro u o hu hI _
  dsimp only [liveExec]
  split
  · exact herr _ _ hu
  · exact herr _ _ hu
  · exact hnone _ hu
  next t _ ht =>
    exact hok _ _ (pending_commit hI hu (JobTable.transitionJobWithEvents_commit ht hallowed).1)

theorem safe_create {k : Except StoreError Unit → LiveProg α} (hstate : event.state = job.state)
    (h : HoldsEvents call job.id w)
    (hok : ∀ u, Pending call job.id [event] u → EventSafe call (k (.ok ())) Q u)
    (herr : ∀ err u, HoldsEvents call job.id u → EventSafe call (k (.error err)) Q u) :
    EventSafe call (LiveCmd.issue (.createJobWithInitialEvent job event) >>= k) Q w := by
  refine safe_plain hstate h lasting_held ?_
  intro u o hu hI _
  dsimp only [liveExec]
  split
  · exact herr _ _ hu
  · exact herr _ _ hu
  next t _ ht =>
    exact hok _ (pending_commit hI hu (JobTable.createJobWithInitialEvent_commit hstate ht).1)

theorem safe_append {k : Except StoreError JobEvent → LiveProg α}
    (h : HoldsEvents call event.jobID w)
    (hok : ∀ e u, Pending call event.jobID [e] u → EventSafe call (k (.ok e)) Q u)
    (herr : ∀ err u, HoldsEvents call event.jobID u → EventSafe call (k (.error err)) Q u) :
    EventSafe call (LiveCmd.issue (.appendJobEvent event) >>= k) Q w := by
  refine safe_plain trivial h lasting_held ?_
  intro u o hu hI _
  dsimp only [liveExec]
  split
  · exact herr _ _ hu
  · exact herr _ _ hu
  next e t _ ht => exact hok _ _ (pending_commit hI hu (JobTable.appendJobEvent_commit ht))

theorem safe_endTransition {result : Except LiveError Job} (h : HoldsEvents call id w) :
    EventSafe call (endTransition id result) (fun _ _ => True) w :=
  safe_under trivial h fun _ _ hu => safe_release hu

section Programs

variable {job : Job} {stackID action requestedBy requestID : String}
  {requestedResources : List Resource} {draining : Bool} {workflow : List WorkflowStep}

/-- Publishing the one committed event and releasing the event lock. -/
theorem safe_publish_release {a : α} (h : Pending call id [event] w) :
    EventSafe call (publishLive event >>= fun _ => LiveCmd.issue (.unlockJobEvents id) >>=
      fun _ => pure a) (fun _ _ => True) w :=
  safe_bind (EventRely.refl call)
    ((safe_publishLive h).post fun _ _ _ hu => safe_release hu.held)

theorem safe_startLocked (hstate : event.state = job.state) :
    EventSafe call (startLocked call job event) (fun _ _ => True) w := by
  refine safe_lockJobEvents fun u hu => safe_create hstate hu ?_ ?_
  · exact fun u hu => safe_publish_release hu
  · intro err u hu
    refine safe_under trivial hu fun _ _ hu => safe_under trivial hu fun _ _ hu => ?_
    exact safe_release hu

theorem safe_start : EventSafe call (start call stackID action requestedBy requestID
    requestedResources draining workflow) (fun _ _ => True) w := by
  refine safe_free trivial fun now _ => safe_free trivial fun token _ => ?_
  split
  · exact safe_free trivial fun _ _ => safe_return
  · refine safe_free trivial fun locked _ => ?_
    cases locked with
    | error err => exact safe_free trivial fun _ _ => safe_return
    | ok => exact safe_startLocked rfl

theorem safe_commitTerminalTransition :
    EventSafe call (commitTerminalTransition call job events) (fun _ _ => True) w := by
  refine safe_lockJobEvents fun u hu => safe_transition (by decide) hu ?_ ?_ ?_
  · intro committed u hu
    refine safe_bind (EventRely.refl call) ((safe_publishCommittedEvents hu).post ?_)
    intro _ u _ hu
    exact safe_under trivial hu fun _ _ hu => safe_endTransition hu
  · intro u hu
    refine safe_under trivial hu fun loaded u hu => ?_
    cases loaded with
    | error err => exact safe_endTransition hu
    | ok current =>
      dsimp only
      split
      · refine safe_under trivial hu fun _ _ hu => ?_
        split <;> exact safe_endTransition hu
      · exact safe_endTransition hu
  · intro err u hu
    exact safe_endTransition hu

theorem safe_finishTerminal {state : JobState} {errorCode errorMessage finishMessage : String} :
    EventSafe call (finishTerminal call job state errorCode errorMessage finishMessage)
      (fun _ _ => True) w :=
  safe_free trivial fun _ _ => safe_commitTerminalTransition

theorem safe_cancelLocked : EventSafe call (cancelLocked call id job) (fun _ _ => True) w := by
  refine safe_free trivial fun now u => ?_
  refine safe_lockJobEvents fun u hu => safe_transition (by decide) hu ?_ ?_ ?_
  · intro committed u hu
    refine safe_bind (EventRely.refl call) ((safe_publishCommittedEvents hu).post ?_)
    exact fun _ u _ hu => safe_release hu
  · intro u hu
    refine safe_unlockJobEvents hu fun u => safe_free trivial fun loaded u => ?_
    cases loaded with
    | error err => exact safe_return
    | ok current =>
      dsimp only
      split <;> exact safe_return
  · exact fun err u hu => safe_release hu

theorem safe_cancel : EventSafe call (cancel call id) (fun _ _ => True) w := by
  refine safe_free trivial fun loaded u => ?_
  cases loaded with
  | error err => exact safe_return
  | ok job =>
    dsimp only
    split
    · exact safe_return
    · split
      · refine safe_free trivial fun registered u => ?_
        split
        · exact safe_return
        · exact safe_cancelLocked
      · exact safe_return

theorem safe_publishEvent {kind : JobEventKind} {message data : String}
    {step : Option JobEventStep} :
    EventSafe call (publishEvent call job kind message data step) (fun _ _ => True) w := by
  refine safe_lockJobEvents fun u hu => safe_under trivial hu fun now u hu => safe_append hu ?_ ?_
  · exact fun e u hu => safe_publish_release hu
  · exact fun err u hu => safe_release hu

theorem safe_discard {p : LiveProg α} (h : EventSafe call p (fun _ _ => True) w) :
    EventSafe call (discard p) (fun _ _ => True) w :=
  safe_bind (EventRely.refl call) (h.post fun _ _ _ _ => safe_return)

end Programs

/-- Every call may start in every state. -/
theorem safe_program (c : LiveCall) : EventSafe call (c.program call) (fun _ _ => True) w := by
  cases c with
  | start => exact safe_discard safe_start
  | finishSucceeded job =>
    exact safe_discard (safe_free trivial fun _ _ => safe_commitTerminalTransition)
  | finishFailed | finishTimedOut | finishCancelled => exact safe_discard safe_finishTerminal
  | reconcileInterruptedJob job =>
    exact safe_discard (safe_free trivial fun _ _ => safe_commitTerminalTransition)
  | cancel id => exact safe_discard safe_cancel
  | publishEvent => exact safe_discard safe_publishEvent
  | replaceResources =>
    exact safe_discard (safe_free (k := pure) trivial fun _ _ => safe_return)
  | registerCancel | unregisterCancel | subscribe | unsubscribe | receive =>
    exact safe_free (k := pure) trivial fun _ _ => safe_return

/-- A process starts over a database whose logs are recorded. -/
structure LiveStart (s : LivePool) : Prop extends FreshProcess s where
  recorded : s.world.table.Recorded

def EventPool (s : LivePool) : Prop :=
  s.Safe liveMachine LiveAllowed EventInv EventRely EventGuarantee

variable {s s' : LivePool} {l : LiveLabel}

theorem eventPool_start (h : LiveStart s) : EventPool s := by
  refine ⟨⟨h.recorded, ?_, ?_, ?_, fun id => ?_⟩, fun call p hp => ?_⟩
  · simp [h.observed.1]
  · simp [h.observed.1]
  · simp [h.channels]
  · simp [LiveWorld.subscribersOf, h.subsByJob]
  · rw [h.threads call] at hp
    cases hp

theorem permits_of_enabled (h : liveEnabled s (.step call o) = true) :
    s.Permits LiveAllowed call o := by
  intro c k hc
  simp only [liveEnabled, hc] at h
  exact h

theorem eventPool_trInv : liveLts.TrInv EventPool := by
  rintro s l _ ⟨hen, rfl⟩ hs
  cases l with
  | invoke call c => exact hs.set (safe_program c)
  | step call o => exact hs.step eventRely_compatible (permits_of_enabled hen)

/-- One step of one call. -/
theorem logged_step (hs : EventPool s) (h : liveLts.Tr s l s') : Logged s.world s'.world := by
  obtain ⟨hen, rfl⟩ := h
  cases l with
  | invoke call c => exact .of_eq rfl
  | step call o =>
    rcases hs.guarantee eventRely_compatible (permits_of_enabled hen) with heq | hG
    · exact .of_eq (congrArg LiveWorld.table heq)
    · exact hG.1

/-- Over every interleaving: the log of every job is numbered from one without gaps; each step
appends only events with the state of their row at that commit, and keeps terminal states; at
most one terminal transition of a job commits; no event with another state follows a terminal
one; and every channel receives a strictly increasing part of its job's log. -/
theorem event_logs_are_recorded (h : liveLts.Reachable LiveStart s) :
    (∀ id, (s.world.table.eventsOf id).map JobEvent.sequence =
      List.range' 1 (s.world.table.eventsOf id).length) ∧
    (∀ l s', liveLts.Tr s l s' → Logged s.world s'.world) ∧
    (s.world.commits.Pairwise fun later earlier =>
      later.1 = earlier.1 → earlier.2.isTerminal = false) ∧
    (∀ id, (s.world.table.eventsOf id).Pairwise fun earlier later =>
      earlier.state.isTerminal = true → later.state.isTerminal = true) ∧
    ∀ c ∈ s.world.channels, (c.sent.reverse.map JobEvent.sequence).Pairwise (· < ·) ∧
      ∀ e ∈ c.sent, e ∈ s.world.table.eventsOf c.jobID := by
  have hsafe : EventPool s :=
    Lts.reachable_of_trInv (fun _ hs => eventPool_start hs) eventPool_trInv h
  have hinv := hsafe.1
  refine ⟨fun id => ?_, fun l s' htr => logged_step hsafe htr, hinv.onceTerminal,
    hinv.recorded.ordered, fun c hc => ⟨?_, fun e he => ?_⟩⟩
  · have hseq := hinv.recorded.sequences id
    have hlen := congrArg List.length hseq
    rw [List.length_map, List.length_range'] at hlen
    rw [hseq, hlen]
  · rw [List.pairwise_map, List.pairwise_reverse]
    exact (hinv.channels c hc).increasing
  · obtain ⟨hstored, hid⟩ := (hinv.channels c hc).stored e he
    exact List.mem_filter.mpr ⟨hstored, decide_eq_true hid⟩

def deployed : Job := newJob "a" "web" "deploy" "admin" "request" [] 0

def stepsOf (call n : ℕ) : List LiveLabel := List.replicate n (.step call {})

/-- While the job finishes, a log event holds its event lock; another one comes later. -/
def deployRun : List LiveLabel :=
  .invoke 0 (.start "web" "deploy" "admin" "request" [] false []) ::
    .step 0 {} :: .step 0 { token := "a" } :: stepsOf 0 5 ++
    [.invoke 1 (.subscribe "job_a"), .step 1 {},
      .invoke 2 (.publishEvent deployed .log "pulling" "" none), .step 2 {},
      .invoke 3 (.finishSucceeded deployed), .step 3 {}] ++ stepsOf 2 5 ++ stepsOf 3 7 ++
    .invoke 4 (.publishEvent deployed .log "late" "" none) :: stepsOf 4 6

def idleProcess : LivePool where
  threads _ := none
  world := ⟨.new, ⟨∅, []⟩, fun _ => none, [], ∅, [], [], [], []⟩

theorem freshProcess_idleProcess : FreshProcess idleProcess :=
  ⟨fun _ => rfl, rfl, fun _ => rfl, rfl, rfl, rfl, ⟨rfl, rfl, rfl⟩⟩

theorem liveStart_idleProcess : LiveStart idleProcess :=
  ⟨freshProcess_idleProcess,
    ⟨fun _ => rfl, fun _ he => (List.not_mem_nil he).elim, fun _ => List.Pairwise.nil⟩⟩

def afterDeploy : LivePool := deployRun.foldl liveNext idleProcess

theorem late_event_follows_finish :
    (afterDeploy.world.table.eventsOf "job_a").map (fun e => (e.sequence, e.state)) =
      [(1, .running), (2, .running), (3, .succeeded), (4, .succeeded)] ∧
    afterDeploy.world.channels.map (fun c => c.sent.map JobEvent.sequence) = [[4, 3, 2]] ∧
    (afterDeploy.world.table.eventsOf "job_a").map JobEvent.sequence =
      List.range' 1 (afterDeploy.world.table.eventsOf "job_a").length :=
  ⟨by decide +kernel, by decide +kernel, (event_logs_are_recorded ⟨idleProcess,
    liveStart_idleProcess, deployRun, Lts.mTr_ofNext (by decide +kernel)⟩).1 "job_a"⟩

end Stacklab.Jobs.Live
