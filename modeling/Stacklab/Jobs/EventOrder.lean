import Stacklab.Jobs.Live

/-! What the calls of the job service keep of the event log and of its live subscribers. -/
namespace Stacklab.Jobs.Live

open Lib Store LiveWorld JobTable

/-- A channel has received stored events of its job, in increasing order. -/
structure Channel.InOrder (t : JobTable) (c : Channel) : Prop where
  stored : ∀ e ∈ c.sent, e ∈ t.events ∧ e.jobID = c.jobID
  increasing : c.sent.Pairwise fun later earlier => earlier.sequence < later.sequence

structure EventInv (w : LiveWorld) : Prop where
  recorded : w.table.Recorded
  commits : ∀ c ∈ w.commits, c.2.isTerminal = true → w.table.stateOf c.1 = some c.2
  onceTerminal : w.commits.Pairwise fun later earlier =>
    later.1 = earlier.1 → earlier.2.isTerminal = false
  channels : ∀ c ∈ w.channels, c.InOrder w.table
  subscribed : ∀ id, (w.subscribersOf id).Nodup ∧
    ∀ ch ∈ w.subscribersOf id, ∃ c, w.channels[ch]? = some c ∧ c.jobID = id

/-- Nothing is sent to the job's subscribers. -/
def NothingSent (id : String) (w w' : LiveWorld) : Prop :=
  ∀ (ch : ℕ) (c' : Channel), w'.channels[ch]? = some c' → c'.jobID = id →
    ∀ e ∈ c'.sent, ∃ c : Channel, w.channels[ch]? = some c ∧ e ∈ c.sent

/-- What other calls leave alone: stored events, channels, and under an event lock what the
subscribers of its jobs have received. -/
structure EventRely (call : ℕ) (w w' : LiveWorld) : Prop where
  events : w.table.events ⊆ w'.table.events
  channels : ∀ (ch : ℕ) (c : Channel), w.channels[ch]? = some c →
    ∃ c' : Channel, w'.channels[ch]? = some c' ∧ c'.jobID = c.jobID
  held : ∀ id, HoldsEvents call id w → HoldsEvents call id w' ∧ NothingSent id w w'

/-- The log only grows, by events with the state that the row then has, and a terminal state
stays. -/
structure Logged (w w' : LiveWorld) : Prop where
  appended : ∃ new, w'.table.events = w.table.events ++ new ∧
    ∀ e ∈ new, w'.table.stateOf e.jobID = some e.state
  final : ∀ id state, w.table.stateOf id = some state → state.isTerminal = true →
    w'.table.stateOf id = some state

def EventGuarantee (call : ℕ) (w w' : LiveWorld) : Prop :=
  Logged w w' ∧ ∀ other, other ≠ call → EventRely other w w'

def LiveAllowed (c : LiveCmd) (_ : LiveOut) (w : LiveWorld) : Prop := c.ready w = true

/-- Commands that take no event lock and send nothing. -/
def LiveCmd.IsPlain : LiveCmd → Prop
  | .lockJobEvents _ _ | .unlockJobEvents _ | .send _ _ => False
  | .createJobWithInitialEvent job event => event.state = job.state
  | .transitionJobWithEvents _ allowed _ => ∀ state ∈ allowed, state.isTerminal = false
  | _ => True

/-- A change without sending. -/
structure Plain (w w' : LiveWorld) : Prop where
  logged : Logged w w'
  channels : ∀ (ch : ℕ) (c : Channel), w.channels[ch]? = some c →
    ∃ c' : Channel, w'.channels[ch]? = some c' ∧ c'.jobID = c.jobID
  eventLocks : w'.eventLocks = w.eventLocks
  sent : ∀ id, NothingSent id w w'

variable {w w' u : LiveWorld} {call : ℕ} {id jobID : String} {o : LiveOut} {ch : ℕ} {t : JobTable}
  {new : List JobEvent} {commits : List (String × JobState)} {c c' : Channel}

theorem nothingSent_refl : NothingSent id w w := fun _ c' h _ _ he => ⟨c', h, he⟩

theorem EventRely.refl (call : ℕ) (w : LiveWorld) : EventRely call w w :=
  ⟨List.Subset.refl _, fun _ c h => ⟨c, h, rfl⟩, fun _ h => ⟨h, nothingSent_refl⟩⟩

theorem NothingSent.trans (h : NothingSent id w w') (h' : NothingSent id w' u)
    (hc : ∀ (ch : ℕ) (c : Channel), w'.channels[ch]? = some c →
      ∃ c' : Channel, u.channels[ch]? = some c' ∧ c'.jobID = c.jobID) : NothingSent id w u := by
  intro ch c'' hc'' hid e he
  obtain ⟨c', hc', he'⟩ := h' ch c'' hc'' hid e he
  obtain ⟨c, hcu, hjob⟩ := hc ch c' hc'
  rw [hc''] at hcu
  cases hcu
  exact h ch c' hc' (hjob ▸ hid) e he'

theorem EventRely.trans (h : EventRely call w w') (h' : EventRely call w' u) :
    EventRely call w u := by
  refine ⟨List.Subset.trans h.events h'.events, fun ch c hc => ?_, fun id hid => ?_⟩
  · obtain ⟨c', hc', heq⟩ := h.channels ch c hc
    obtain ⟨c'', hc'', heq'⟩ := h'.channels ch c' hc'
    exact ⟨c'', hc'', heq'.trans heq⟩
  · obtain ⟨hmid, hsent⟩ := h.held id hid
    obtain ⟨hend, hsent'⟩ := h'.held id hmid
    exact ⟨hend, hsent.trans hsent' h'.channels⟩

theorem eventRely_compatible : Pool.Compatible EventRely EventGuarantee where
  refl := EventRely.refl
  trans := fun _ _ _ _ => EventRely.trans
  other := fun _ t' _ _ ht h => h.2 t' (Ne.symm ht)

theorem Logged.of_eq (h : w'.table = w.table) : Logged w w' :=
  ⟨⟨[], by simp [h], by simp⟩, fun id state hs _ => h ▸ hs⟩

theorem Logged.subset (h : Logged w w') : w.table.events ⊆ w'.table.events := by
  obtain ⟨new, hnew, -⟩ := h.appended
  rw [hnew]
  exact List.subset_append_left _ _

theorem logged_commit (hc : JobTable.Commit w.table t id new) :
    Logged w { w with table := t, commits := commits } := by
  refine ⟨⟨new, hc.events, fun e he => ?_⟩, fun j state hs hterm => ?_⟩
  · obtain ⟨hid, hstate⟩ := hc.stored e he
    rw [hid]
    exact hstate
  · by_cases hj : j = id
    · subst hj
      exact hc.final state hs hterm
    · exact (stateOf_commit_of_ne hc hj).trans hs

theorem Plain.rely (h : Plain w w') (call : ℕ) : EventRely call w w' := by
  refine ⟨h.logged.subset, h.channels, fun id hid => ⟨?_, h.sent id⟩⟩
  unfold HoldsEvents at hid ⊢
  rw [h.eventLocks]
  exact hid

theorem Plain.refl (w : LiveWorld) : Plain w w :=
  ⟨.of_eq rfl, fun _ c h => ⟨c, h, rfl⟩, rfl, fun _ => nothingSent_refl⟩

theorem Channel.InOrder.mono {u : JobTable} (h : c.InOrder t) (hs : t.events ⊆ u.events) :
    c.InOrder u :=
  ⟨fun e he => ⟨hs (h.stored e he).1, (h.stored e he).2⟩, h.increasing⟩

section

variable (hc : JobTable.Commit w.table t id new)
include hc

/-- A commit changes neither locks nor channels. -/
theorem plain_commit : Plain w { w with table := t, commits := commits } :=
  ⟨logged_commit hc, fun _ c hc => ⟨c, hc, rfl⟩, rfl, fun _ => nothingSent_refl⟩

theorem EventInv.commit (h : EventInv w) : EventInv { w with table := t } := by
  refine ⟨hc.recorded h.recorded, fun c hm hterm => ?_, h.onceTerminal,
    fun c hm => (h.channels c hm).mono hc.subset, h.subscribed⟩
  have hold := h.commits c hm hterm
  by_cases hid : c.1 = id
  · rw [hid] at hold ⊢
    exact hc.final c.2 hold hterm
  · exact (stateOf_commit_of_ne hc hid).trans hold

/-- A committed transition is the first terminal one of its job. -/
theorem EventInv.transition {state old : JobState} (h : EventInv w)
    (hold : w.table.stateOf id = some old) (hactive : old.isTerminal = false)
    (hstate : t.stateOf id = some state) :
    EventInv { w with table := t, commits := (id, state) :: w.commits } := by
  have hinv := h.commit hc
  refine { hinv with commits := ?_, onceTerminal := ?_ }
  · exact List.forall_mem_cons.mpr ⟨fun _ => hstate, hinv.commits⟩
  · refine List.pairwise_cons.mpr ⟨fun c hm heq => ?_, h.onceTerminal⟩
    cases hterm : c.2.isTerminal with
    | false => rfl
    | true =>
      have hstored := h.commits c hm hterm
      rw [← heq, hold] at hstored
      rw [Option.some.inj hstored, hterm] at hactive
      cases hactive

end

theorem subscribersOf_addChannel :
    (w.addChannel jobID).subscribersOf id =
      if id = jobID then w.channels.length :: w.subscribersOf jobID else w.subscribersOf id := by
  unfold subscribersOf addChannel
  rw [GoMap.lookup_insert]
  split
  next heq =>
    subst heq
    rfl
  · rfl

theorem subscribersOf_dropChannel (w : LiveWorld) (jobID : String) (ch : ℕ) (id : String) :
    ((w.dropChannel jobID ch).subscribersOf id).Sublist (w.subscribersOf id) := by
  unfold dropChannel
  split
  · unfold subscribersOf
    rw [GoMap.lookup_erase]
    split
    · exact List.nil_sublist _
    · exact List.Sublist.refl _
  · unfold subscribersOf
    rw [GoMap.lookup_insert]
    split
    next heq =>
      subst heq
      exact List.filter_sublist
    · exact List.Sublist.refl _

theorem channels_dropChannel (w : LiveWorld) (jobID : String) (ch : ℕ) :
    (w.dropChannel jobID ch).channels = w.channels ∧
      (w.dropChannel jobID ch).table = w.table ∧
      (w.dropChannel jobID ch).commits = w.commits ∧
      (w.dropChannel jobID ch).eventLocks = w.eventLocks := by
  unfold dropChannel
  split <;> exact ⟨rfl, rfl, rfl, rfl⟩

theorem getElem?_append_channel (hc : w.channels[ch]? = some c) (new : Channel) :
    (w.channels ++ [new])[ch]? = some c := by
  obtain ⟨hlt, hget⟩ := List.getElem?_eq_some_iff.mp hc
  rw [List.getElem?_append_left hlt, hc]

theorem plain_addChannel (h : EventInv w) :
    Plain w (w.addChannel jobID) ∧ EventInv (w.addChannel jobID) := by
  have hkeep : ∀ (ch : ℕ) (c : Channel), w.channels[ch]? = some c →
      (w.addChannel jobID).channels[ch]? = some c := fun _ _ hc => getElem?_append_channel hc _
  refine ⟨⟨.of_eq rfl, fun ch c hc => ⟨c, hkeep ch c hc, rfl⟩, rfl,
    fun id ch c' hc' _ e he => ?_⟩, h.recorded, h.commits, h.onceTerminal, ?_, fun id => ?_⟩
  · change (w.channels ++ _)[ch]? = _ at hc'
    by_cases hlt : ch < w.channels.length
    · rw [List.getElem?_append_left hlt] at hc'
      exact ⟨c', hc', he⟩
    · rw [List.getElem?_append_right (by omega), List.getElem?_singleton] at hc'
      split at hc'
      · cases hc'
        cases he
      · cases hc'
  · refine List.forall_mem_append.mpr ⟨h.channels, ?_⟩
    simp only [List.mem_singleton, forall_eq]
    exact ⟨by simp, List.Pairwise.nil⟩
  · rw [subscribersOf_addChannel]
    obtain ⟨hnodup, hmem⟩ := h.subscribed id
    split
    next heq =>
      subst heq
      refine ⟨List.nodup_cons.mpr ⟨fun hin => ?_, hnodup⟩, List.forall_mem_cons.mpr ⟨?_, ?_⟩⟩
      · obtain ⟨c, hc, -⟩ := hmem _ hin
        simp at hc
      · exact ⟨⟨id, [], []⟩, by simp [addChannel], rfl⟩
      · intro ch hch
        obtain ⟨c, hc, hid⟩ := hmem ch hch
        exact ⟨c, hkeep ch c hc, hid⟩
    · refine ⟨hnodup, fun ch hch => ?_⟩
      obtain ⟨c, hc, hid⟩ := hmem ch hch
      exact ⟨c, hkeep ch c hc, hid⟩

theorem plain_dropChannel (h : EventInv w) :
    Plain w (w.dropChannel jobID ch) ∧ EventInv (w.dropChannel jobID ch) := by
  obtain ⟨hchannels, htable, hcommits, hlocks⟩ := channels_dropChannel w jobID ch
  refine ⟨⟨.of_eq htable, ?_, hlocks, fun id => ?_⟩, ?_, ?_, ?_, ?_, fun id => ?_⟩
  · rw [hchannels]
    exact fun _ c hc => ⟨c, hc, rfl⟩
  · unfold NothingSent
    rw [hchannels]
    exact nothingSent_refl
  · rw [htable]
    exact h.recorded
  · rw [htable, hcommits]
    exact h.commits
  · rw [hcommits]
    exact h.onceTerminal
  · rw [hchannels, htable]
    exact h.channels
  · obtain ⟨hnodup, hmem⟩ := h.subscribed id
    have hsub := subscribersOf_dropChannel w jobID ch id
    rw [hchannels]
    exact ⟨hnodup.sublist hsub, fun ch' hch => hmem ch' (hsub.subset hch)⟩

/-- One channel replaced by one of the same job. -/
theorem getElem?_set_channel (hc : w.channels[ch]? = some c) (hid : c'.jobID = c.jobID) (i : ℕ)
    (d : Channel) (hd : w.channels[i]? = some d) :
    ∃ d', (w.channels.set ch c')[i]? = some d' ∧ d'.jobID = d.jobID := by
  by_cases hi : ch = i
  · subst hi
    rw [hc] at hd
    cases hd
    obtain ⟨hlt, -⟩ := List.getElem?_eq_some_iff.mp hc
    exact ⟨c', List.getElem?_set_self hlt, hid⟩
  · exact ⟨d, by rw [List.getElem?_set_ne hi, hd], rfl⟩

theorem EventInv.setChannel (h : EventInv w) (hc : w.channels[ch]? = some c)
    (hid : c'.jobID = c.jobID) (ho : c'.InOrder w.table) :
    EventInv { w with channels := w.channels.set ch c' } := by
  refine { h with channels := fun d hd => ?_, subscribed := fun id => ?_ }
  · rcases List.mem_or_eq_of_mem_set hd with hd | rfl
    · exact h.channels d hd
    · exact ho
  · obtain ⟨hnodup, hmem⟩ := h.subscribed id
    refine ⟨hnodup, fun i hi => ?_⟩
    obtain ⟨d, hd, hjob⟩ := hmem i hi
    obtain ⟨d', hd', heq⟩ := getElem?_set_channel hc hid i d hd
    exact ⟨d', hd', heq.trans hjob⟩

theorem plain_take (h : EventInv w) : Plain w (w.take ch) ∧ EventInv (w.take ch) := by
  unfold take
  split
  · exact ⟨.refl w, h⟩
  next c hc =>
    have hmem := h.channels c (List.mem_of_getElem? hc)
    refine ⟨⟨.of_eq rfl, getElem?_set_channel hc rfl, rfl, fun id i d hd _ e he => ?_⟩,
      h.setChannel hc rfl ⟨hmem.stored, hmem.increasing⟩⟩
    by_cases hi : ch = i
    · subst hi
      obtain ⟨hlt, -⟩ := List.getElem?_eq_some_iff.mp hc
      rw [List.getElem?_set_self hlt] at hd
      cases hd
      exact ⟨c, hc, he⟩
    · rw [List.getElem?_set_ne hi] at hd
      exact ⟨d, hd, he⟩

theorem EventInv.other {locks : LockTable} {cancelByJob : List String} {drawn : List (String × ℕ)}
    {log : List LifeEvent} {eventLocks : ℕ → Option ℕ} (h : EventInv w) :
    EventInv { w with
      locks := locks, cancelByJob := cancelByJob, drawn := drawn, log := log,
      eventLocks := eventLocks } :=
  { h with }

theorem plain_exec {c : LiveCmd} (hc : c.IsPlain) (h : EventInv w) :
    Plain w (liveExec c o w).2 ∧ EventInv (liveExec c o w).2 := by
  cases c with
  | now | jobByID | cancelRegistered | subscribers => exact ⟨.refl w, h⟩
  | randomToken | lockMany | replaceResources | unlockAll | registerCancel | unregisterCancel
  | finishReturned | startFailed =>
    exact ⟨⟨.of_eq rfl, fun _ c h => ⟨c, h, rfl⟩, rfl, fun _ => nothingSent_refl⟩, h.other⟩
  | lockJobEvents | unlockJobEvents | send => exact hc.elim
  | subscribe jobID => exact plain_addChannel h
  | unsubscribe jobID channel => exact plain_dropChannel h
  | receive channel => exact plain_take h
  | createJobWithInitialEvent job event =>
    dsimp only [liveExec]
    split
    · exact ⟨.refl w, h⟩
    · exact ⟨.refl w, h⟩
    next t _ ht =>
      have hcommit := (createJobWithInitialEvent_commit hc ht).1
      exact ⟨plain_commit hcommit, h.commit hcommit⟩
  | appendJobEvent event =>
    dsimp only [liveExec]
    split
    · exact ⟨.refl w, h⟩
    · exact ⟨.refl w, h⟩
    next e t _ ht =>
      have hcommit := appendJobEvent_commit ht
      exact ⟨plain_commit hcommit, h.commit hcommit⟩
  | transitionJobWithEvents job allowed events =>
    dsimp only [liveExec]
    split
    · exact ⟨.refl w, h⟩
    · exact ⟨.refl w, h⟩
    · exact ⟨.refl w, h⟩
    next t _ ht =>
      obtain ⟨hcommit, hstate, old, hallowed, hold⟩ :=
        transitionJobWithEvents_commit ht hc
      exact ⟨plain_commit hcommit, h.transition hcommit hold (hc old hallowed) hstate⟩

end Stacklab.Jobs.Live
