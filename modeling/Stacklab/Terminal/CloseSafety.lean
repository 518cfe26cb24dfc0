import Stacklab.Terminal.Service

/-! Closing the sessions of an owner beside calls that open, attach, detach and close them. -/
namespace Stacklab.Terminal

open Lib Prog GoMap TerminalWorld

variable {configured : ℤ} {w w' u : TerminalWorld} {call other : ℕ}
  {id ownerID sessionID x : String} {slot : Slot} {session : Session} {o : TerminalOut}
  {ids covered : List String} {α : Type} {owners : GoMap String (List String)} {once : CloseOnce}

/-- The `Open` of a session has registered it, or has failed. -/
def Settled (w : TerminalWorld) (id : String) : Prop :=
  ∃ slot ∈ w.reservations, slot.sessionID = id ∧ slot ∉ w.opening

structure TerminalInv (w : TerminalWorld) : Prop where
  unique : ∀ a ∈ w.reservations, ∀ b ∈ w.reservations, a.sessionID = b.sessionID → a = b
  opening : ∀ slot ∈ w.opening, slot ∈ w.reservations ∧
    slot.sessionID ∈ w.ownedBy slot.ownerID ∧ w.sessions.lookup slot.sessionID = none ∧
    w.closeOnce slot.sessionID = .fresh
  registered : ∀ id session, w.sessions.lookup id = some session →
    (∃ slot ∈ w.reservations, slot.sessionID = id ∧ slot.ownerID = session.ownerID) ∧
      id ∈ w.ownedBy session.ownerID
  started : ∀ id, w.closeOnce id ≠ .fresh → Settled w id
  done : ∀ id, w.closeOnce id = .done → w.sessions.lookup id = none
  closed : ∀ id ∈ w.closed, Settled w id ∧ w.sessions.lookup id = none

/-- Slots stay reserved, and a session that is settled is never registered again. -/
structure Frame (w w' : TerminalWorld) : Prop where
  reservations : ∀ slot ∈ w.reservations, slot ∈ w'.reservations
  settled : ∀ id, Settled w id → Settled w' id
  registered : ∀ id, Settled w id → w.sessions.lookup id = none → w'.sessions.lookup id = none

/-- What the other calls leave to a call. -/
structure TerminalRely (call : ℕ) (w w' : TerminalWorld) : Prop extends Frame w w' where
  opening : ∀ slot ∈ w.opening, slot.call = call → slot ∈ w'.opening
  running : ∀ id, w.closeOnce id = .running call → w'.closeOnce id = .running call

def TerminalGuarantee (call : ℕ) (w w' : TerminalWorld) : Prop :=
  ∀ other, other ≠ call → TerminalRely other w w'

def TerminalAllowed (c : TerminalCmd) (o : TerminalOut) (w : TerminalWorld) : Prop :=
  c.ready o w = true ∧ c.settled w = true

abbrev TerminalSafe (configured : ℤ) (call : ℕ) (p : TerminalProg α)
    (Q : α → TerminalWorld → Prop) (w : TerminalWorld) : Prop :=
  p.Safe (terminalMachine configured) TerminalAllowed TerminalInv (TerminalRely call)
    (TerminalGuarantee call) Q w

/-- The call runs, whatever it returns. -/
abbrev TerminalRuns (configured : ℤ) (call : ℕ) (p : TerminalProg α) (w : TerminalWorld) : Prop :=
  TerminalSafe configured call p (fun _ _ => True) w

/-- A command of the call leaves to the others what they rely on, and keeps the invariant. -/
abbrev Moves (call : ℕ) (w w' : TerminalWorld) : Prop :=
  TerminalGuarantee call w w' ∧ TerminalInv w'

theorem Frame.refl (w : TerminalWorld) : Frame w w :=
  ⟨fun _ h => h, fun _ h => h, fun _ _ h => h⟩

theorem Frame.trans (h : Frame w w') (h' : Frame w' u) : Frame w u := by
  refine ⟨fun slot hs => h'.reservations slot (h.reservations slot hs),
    fun id hid => h'.settled id (h.settled id hid), fun id hid hnone => ?_⟩
  exact h'.registered id (h.settled id hid) (h.registered id hid hnone)

theorem TerminalRely.refl (call : ℕ) (w : TerminalWorld) : TerminalRely call w w :=
  ⟨.refl w, fun _ h _ => h, fun _ h => h⟩

theorem TerminalRely.trans (h : TerminalRely call w w') (h' : TerminalRely call w' u) :
    TerminalRely call w u := by
  refine ⟨h.toFrame.trans h'.toFrame, fun slot hs hcall => ?_, fun id hid => ?_⟩
  · exact h'.opening slot (h.opening slot hs hcall) hcall
  · exact h'.running id (h.running id hid)

theorem terminalRely_compatible : Pool.Compatible TerminalRely TerminalGuarantee where
  refl := TerminalRely.refl
  trans _ _ _ _ := TerminalRely.trans
  other _ other _ _ hne hG := hG other (Ne.symm hne)

/-- The frame holds of a call's own commands too. -/
theorem TerminalGuarantee.frame (h : TerminalGuarantee call w w') : Frame w w' :=
  (h (call + 1) (by omega)).toFrame

theorem guarantee_refl (call : ℕ) (w : TerminalWorld) : TerminalGuarantee call w w :=
  fun other _ => .refl other w

/-- A settled session is not being opened. -/
theorem Settled.ne (hI : TerminalInv w) (h : Settled w id) (hslot : slot ∈ w.opening) :
    slot.sessionID ≠ id := by
  rintro rfl
  obtain ⟨slot', hmem, hid, hout⟩ := h
  have heq := hI.unique slot' hmem slot (hI.opening slot hslot).1 hid
  exact hout (heq ▸ hslot)

theorem settled_of_registered (hI : TerminalInv w) (h : w.sessions.lookup id = some session) :
    Settled w id := by
  obtain ⟨⟨slot, hmem, hid, -⟩, -⟩ := hI.registered id session h
  refine ⟨slot, hmem, hid, fun hopen => ?_⟩
  rw [← hid, (hI.opening slot hopen).2.2.1] at h
  cases h

/-- Dropping one session keeps the other ones of every owner. -/
theorem mem_dropOwned (hx : x ∈ w.ownedBy id) (hne : x ≠ sessionID) :
    x ∈ ((w.dropOwned ownerID sessionID).lookup id).getD [] := by
  unfold dropOwned
  cases howned : w.owners.lookup ownerID with
  | none => exact hx
  | some owned =>
    have hsame : id = ownerID → x ∈ owned.filter (· ≠ sessionID) := by
      rintro rfl
      rw [ownedBy, howned] at hx
      exact List.mem_filter.mpr ⟨hx, decide_eq_true hne⟩
    dsimp only
    split
    next hnil =>
      rw [lookup_erase, if_neg]
      · exact hx
      · intro heq
        have hmem := hsame heq
        rw [hnil] at hmem
        cases hmem
    next rest =>
      rw [lookup_insert]
      split
      next heq => exact hsame heq
      next => exact hx

/-- The sessions may change hands within their owner, and none is added. -/
theorem sessions_spec (sessions : GoMap String Session) (hI : TerminalInv w)
    (h : ∀ id session, sessions.lookup id = some session →
      ∃ old, w.sessions.lookup id = some old ∧ old.ownerID = session.ownerID) (call : ℕ) :
    Moves call w { w with sessions } := by
  have hnone : ∀ id, w.sessions.lookup id = none → sessions.lookup id = none := by
    intro id hid
    cases hs : sessions.lookup id with
    | none => rfl
    | some session =>
      obtain ⟨old, hold, -⟩ := h id session hs
      rw [hid] at hold
      cases hold
  refine ⟨fun other _ => { TerminalRely.refl other w with registered := fun id _ => hnone id },
    { hI with
      opening := fun slot hs => ?_
      registered := fun id session hs => ?_
      done := fun id hid => hnone id (hI.done id hid)
      closed := fun id hid => ?_ }⟩
  · obtain ⟨hmem, howned, hoff, hfresh⟩ := hI.opening slot hs
    exact ⟨hmem, howned, hnone _ hoff, hfresh⟩
  · obtain ⟨old, hold, howner⟩ := h id session hs
    rw [← howner]
    exact hI.registered id old hold
  · obtain ⟨hsettled, hgone⟩ := hI.closed id hid
    exact ⟨hsettled, hnone id hgone⟩

theorem setCurrent_spec (hI : TerminalInv w) (id : String) (current : Option Attachment)
    (call : ℕ) : Moves call w (w.setCurrent id current) := by
  unfold setCurrent
  split
  · exact ⟨guarantee_refl call w, hI⟩
  next old hold =>
    refine sessions_spec _ hI (forall_insert (fun _ session hs => ⟨session, hs, rfl⟩) ?_) call
    exact ⟨old, hold, rfl⟩

theorem detach_spec (hI : TerminalInv w) (id attachmentID : String) (call : ℕ) :
    Moves call w (w.detach id attachmentID) := by
  unfold TerminalWorld.detach
  split
  · exact ⟨guarantee_refl call w, hI⟩
  · split
    · exact setCurrent_spec hI id none call
    · exact ⟨guarantee_refl call w, hI⟩

/-- The owners' sets may grow, or lose a session that is neither registered nor being opened. -/
theorem owners_inv (hI : TerminalInv w) (h : ∀ owner x, x ∈ w.ownedBy owner →
      (w.sessions.lookup x ≠ none ∨ ∃ slot ∈ w.opening, slot.sessionID = x) →
      x ∈ (owners.lookup owner).getD []) : TerminalInv { w with owners } := by
  refine { hI with opening := fun slot hs => ?_, registered := fun id session hs => ?_ }
  · obtain ⟨hmem, howned, hrest⟩ := hI.opening slot hs
    exact ⟨hmem, h _ _ howned (.inr ⟨slot, hs, rfl⟩), hrest⟩
  · obtain ⟨hslot, howned⟩ := hI.registered id session hs
    exact ⟨hslot, h _ _ howned (.inl (by rw [hs]; exact Option.some_ne_none _))⟩

theorem owners_guarantee (call : ℕ) : TerminalGuarantee call w { w with owners } :=
  fun other _ => { TerminalRely.refl other w with }

theorem mem_insertOwned {owner : String} (hx : x ∈ w.ownedBy owner) {owned : List String}
    (hsub : ∀ y ∈ w.ownedBy ownerID, y ∈ owned) :
    x ∈ ((w.owners.insert ownerID owned).lookup owner).getD [] := by
  rw [lookup_insert]
  split
  next heq =>
    subst heq
    exact hsub x hx
  next => exact hx

theorem reserve_spec (configured : ℤ) (call : ℕ) (ownerID : String) (hI : TerminalInv w)
    (hfresh : ∀ slot ∈ w.reservations, slot.sessionID ≠ sessionID) :
    TerminalGuarantee call w (w.reserve configured call ownerID sessionID).2 ∧
    TerminalInv (w.reserve configured call ownerID sessionID).2 ∧
    ∀ id, (w.reserve configured call ownerID sessionID).1 = some id →
      ⟨call, ownerID, id⟩ ∈ (w.reserve configured call ownerID sessionID).2.opening := by
  unfold reserve
  dsimp only
  split
  · refine ⟨owners_guarantee call, owners_inv hI fun owner x hx _ => ?_, fun id hid => by cases hid⟩
    exact mem_insertOwned hx fun y hy => hy
  · have hsettled : ∀ id, Settled w id → id ≠ sessionID ∧ Settled
        { w with
          owners := w.owners.insert ownerID (sessionID :: w.ownedBy ownerID)
          reservations := ⟨call, ownerID, sessionID⟩ :: w.reservations
          opening := ⟨call, ownerID, sessionID⟩ :: w.opening } id := by
      rintro id ⟨slot, hmem, rfl, hout⟩
      refine ⟨hfresh slot hmem, slot, List.mem_cons_of_mem _ hmem, rfl, fun hopen => ?_⟩
      rcases List.mem_cons.mp hopen with rfl | hopen
      · exact hfresh _ hmem rfl
      · exact hout hopen
    have hunused : ∀ id, Settled w id → id ≠ sessionID := fun id h => (hsettled id h).1
    have hoff : w.sessions.lookup sessionID = none := by
      cases hs : w.sessions.lookup sessionID with
      | none => rfl
      | some session => exact absurd rfl (hunused _ (settled_of_registered hI hs))
    have honce : w.closeOnce sessionID = .fresh := by
      by_contra hne
      exact hunused _ (hI.started _ hne) rfl
    refine ⟨fun other hne => ⟨⟨fun _ h => List.mem_cons_of_mem _ h,
        fun id h => (hsettled id h).2, fun _ _ h => h⟩,
        fun _ h _ => List.mem_cons_of_mem _ h, fun _ h => h⟩, ?_, fun id hid => ?_⟩
    · refine ⟨?_, fun slot hs => ?_, fun id session hs => ?_, fun id hid => ?_, hI.done,
        fun id hid => ?_⟩
      · intro a ha b hb heq
        rcases List.mem_cons.mp ha with rfl | ha <;> rcases List.mem_cons.mp hb with rfl | hb
        · rfl
        · exact absurd heq.symm (hfresh b hb)
        · exact absurd heq (hfresh a ha)
        · exact hI.unique a ha b hb heq
      · rcases List.mem_cons.mp hs with rfl | hs
        · refine ⟨List.mem_cons_self, ?_, hoff, honce⟩
          simp [ownedBy]
        · obtain ⟨hmem, howned, hrest⟩ := hI.opening slot hs
          exact ⟨List.mem_cons_of_mem _ hmem,
            mem_insertOwned howned fun _ => List.mem_cons_of_mem _, hrest⟩
      · obtain ⟨⟨slot, hmem, hslot⟩, howned⟩ := hI.registered id session hs
        exact ⟨⟨slot, List.mem_cons_of_mem _ hmem, hslot⟩,
          mem_insertOwned howned fun _ => List.mem_cons_of_mem _⟩
      · exact (hsettled id (hI.started id hid)).2
      · obtain ⟨hid, hgone⟩ := hI.closed id hid
        exact ⟨(hsettled id hid).2, hgone⟩
    · cases hid
      exact List.mem_cons_self

theorem mem_leaveOpening {slot' : Slot} :
    slot' ∈ (w.leaveOpening slot).opening ↔ slot' ∈ w.opening ∧ slot' ≠ slot := by
  simp [leaveOpening]

theorem settled_leaveOpening (h : Settled w id) : Settled (w.leaveOpening slot) id := by
  obtain ⟨slot', hmem, hid, hout⟩ := h
  exact ⟨slot', hmem, hid, fun hopen => hout (mem_leaveOpening.mp hopen).1⟩

theorem leaveOpening_inv (hI : TerminalInv w) : TerminalInv (w.leaveOpening slot) := by
  refine ⟨hI.unique, fun slot' hs => hI.opening slot' (mem_leaveOpening.mp hs).1, hI.registered,
    fun id hid => settled_leaveOpening (hI.started id hid), hI.done, fun id hid => ?_⟩
  obtain ⟨hsettled, hgone⟩ := hI.closed id hid
  exact ⟨settled_leaveOpening hsettled, hgone⟩

theorem leaveOpening_guarantee (hcall : slot.call = call) :
    TerminalGuarantee call w (w.leaveOpening slot) := by
  intro other hne
  refine ⟨⟨fun _ h => h, fun _ h => settled_leaveOpening h, fun _ _ h => h⟩,
    fun slot' hs hother => mem_leaveOpening.mpr ⟨hs, ?_⟩, fun _ h => h⟩
  rintro rfl
  exact hne (hother.symm.trans hcall)

theorem guarantee_trans (h : TerminalGuarantee call w w') (h' : TerminalGuarantee call w' u) :
    TerminalGuarantee call w u :=
  fun other hne => (h other hne).trans (h' other hne)

theorem releaseOwnerSession_spec (hI : TerminalInv w) (hs : slot ∈ w.opening)
    (hcall : slot.call = call) :
    Moves call w
      { w.leaveOpening slot with owners := w.dropOwned slot.ownerID slot.sessionID } := by
  have hI' : TerminalInv (w.leaveOpening slot) := leaveOpening_inv hI
  obtain ⟨hmem, -, hoff, -⟩ := hI.opening slot hs
  refine ⟨guarantee_trans (leaveOpening_guarantee hcall) (owners_guarantee call),
    owners_inv hI' fun owner x hx hused => mem_dropOwned hx ?_⟩
  rintro rfl
  rcases hused with hreg | ⟨slot', hopen, hid⟩
  · exact hreg hoff
  · obtain ⟨hopen, hne⟩ := mem_leaveOpening.mp hopen
    exact hne (hI.unique slot' (hI.opening slot' hopen).1 slot hmem hid)

theorem register_spec (session : Session) (hI : TerminalInv w) (hs : slot ∈ w.opening)
    (hcall : slot.call = call) (howner : session.ownerID = slot.ownerID) :
    Moves call w
      { w.leaveOpening slot with sessions := w.sessions.insert slot.sessionID session } := by
  obtain ⟨hmem, howned, -, honce⟩ := hI.opening slot hs
  have hkeep : ∀ id, Settled w id → w.sessions.lookup id = none →
      (w.sessions.insert slot.sessionID session).lookup id = none := by
    intro id hid hnone
    rw [lookup_insert, if_neg (Ne.symm (hid.ne hI hs))]
    exact hnone
  have hG := leaveOpening_guarantee (w := w) hcall
  refine ⟨fun other hne => ⟨⟨fun _ h => h, fun _ h => settled_leaveOpening h, hkeep⟩,
    (hG other hne).opening, fun _ h => h⟩, hI.unique, fun slot' hs' => ?_,
    forall_insert hI.registered ⟨⟨slot, hmem, rfl, howner.symm⟩, howner ▸ howned⟩,
    fun id hid => settled_leaveOpening (hI.started id hid),
    fun id hid => ?_, fun id hid => ?_⟩
  · obtain ⟨hopen, hne⟩ := mem_leaveOpening.mp hs'
    obtain ⟨hmem', howned', hoff', hfresh'⟩ := hI.opening slot' hopen
    refine ⟨hmem', howned', ?_, hfresh'⟩
    rw [lookup_insert, if_neg fun heq => hne (hI.unique slot' hmem' slot hmem heq)]
    exact hoff'
  · refine hkeep id (hI.started id ?_) (hI.done id hid)
    intro hfresh
    rw [show w.closeOnce id = .done from hid] at hfresh
    cases hfresh
  · obtain ⟨hsettled, hgone⟩ := hI.closed id hid
    exact ⟨settled_leaveOpening hsettled, hkeep id hsettled hgone⟩

theorem setOnce_ne (h : id ≠ sessionID) :
    (w.setOnce sessionID once).closeOnce id = w.closeOnce id :=
  Function.update_of_ne h _ _

theorem setOnce_self : (w.setOnce sessionID once).closeOnce sessionID = once :=
  Function.update_self _ _ _

/-- The once of a settled session moves on; it is done only when the session is gone. -/
theorem setOnce_spec (once : CloseOnce) (hI : TerminalInv w) (hs : Settled w sessionID)
    (hmine : ∀ other, w.closeOnce sessionID = .running other → other = call)
    (hdone : once = .done → w.sessions.lookup sessionID = none) :
    Moves call w (w.setOnce sessionID once) := by
  refine ⟨fun other hne => { TerminalRely.refl other w with running := fun id hid => ?_ },
    { hI with
      opening := fun slot hslot => ?_
      started := fun id hid => ?_
      done := fun id hid => ?_ }⟩
  · rw [setOnce_ne]
    · exact hid
    · rintro rfl
      exact hne (hmine other hid)
  · obtain ⟨hmem, howned, hoff, hfresh⟩ := hI.opening slot hslot
    exact ⟨hmem, howned, hoff, (setOnce_ne (hs.ne hI hslot)).trans hfresh⟩
  · by_cases heq : id = sessionID
    · exact heq ▸ hs
    · rw [setOnce_ne heq] at hid
      exact hI.started id hid
  · by_cases heq : id = sessionID
    · subst heq
      rw [setOnce_self] at hid
      exact hdone hid
    · rw [setOnce_ne heq] at hid
      exact hI.done id hid

theorem deleteSession_spec (hI : TerminalInv w) (hs : Settled w sessionID) (call : ℕ)
    (ownerID : String) :
    Moves call w
      { w with
        sessions := w.sessions.erase sessionID
        owners := w.dropOwned ownerID sessionID } := by
  obtain ⟨hG, hI'⟩ := sessions_spec (w.sessions.erase sessionID) hI
    (fun _ session h => ⟨session, lookup_of_lookup_erase h, rfl⟩) call
  refine ⟨guarantee_trans hG (owners_guarantee call), ?_⟩
  refine owners_inv hI' fun owner x hx hused => mem_dropOwned hx ?_
  rintro rfl
  rcases hused with hreg | ⟨slot, hopen, hid⟩
  · refine hreg ?_
    rw [lookup_erase, if_pos rfl]
  · exact hs.ne hI hopen hid

/-- The session was opened, or was to be, and is not registered any more. -/
def Gone (w : TerminalWorld) (id : String) : Prop := Settled w id ∧ w.sessions.lookup id = none

theorem Gone.frame (h : Gone w id) (hf : Frame w w') : Gone w' id :=
  ⟨hf.settled id h.1, hf.registered id h.1 h.2⟩

section Programs

variable {P : TerminalWorld → Prop} {Q : Unit → TerminalWorld → Prop} {c : TerminalCmd}
  {owner : Option String} {stackID containerID shell connectionID : String}

theorem safe_ret (a : α) : TerminalRuns configured call (pure a) w :=
  fun _ _ _ => trivial

/-- A command that changes nothing, under a condition that every call keeps. -/
theorem look_bind {k : TerminalAns c → TerminalProg α} {R : α → TerminalWorld → Prop} (hP : P w)
    (hframe : ∀ u v, P u → Frame u v → P v)
    (hc : ∀ o u, ((terminalMachine configured).exec c o u).2 = u)
    (hk : ∀ u o, P u → TerminalInv u → TerminalAllowed c o u →
      TerminalSafe configured call (k ((terminalMachine configured).exec c o u).1) R u) :
    TerminalSafe configured call (TerminalCmd.issue c >>= k) R w := by
  refine safe_issue_bind hP (fun u v hu hR => hframe u v hu hR.toFrame) ?_
  intro u o hu hI hallowed
  rw [hc o u]
  exact ⟨guarantee_refl call u, hI, hk u o hu hI hallowed⟩

theorem look_any {k : TerminalAns c → TerminalProg α} {R : α → TerminalWorld → Prop}
    (hc : ∀ o u, ((terminalMachine configured).exec c o u).2 = u)
    (hk : ∀ u o, TerminalSafe configured call (k ((terminalMachine configured).exec c o u).1) R u) :
    TerminalSafe configured call (TerminalCmd.issue c >>= k) R w :=
  look_bind (P := fun _ => True) trivial (fun _ _ _ _ => trivial) hc fun u o _ _ _ => hk u o

/-- The call runs the once of a session. -/
structure Running (call : ℕ) (id : String) (P : TerminalWorld → Prop) (w : TerminalWorld) :
    Prop where
  kept : P w
  settled : Settled w id
  once : w.closeOnce id = .running call

theorem Running.stable (h : Running call id P w) (hframe : ∀ u v, P u → Frame u v → P v)
    (hR : TerminalRely call w w') : Running call id P w' :=
  ⟨hframe w w' h.kept hR.toFrame, hR.settled id h.settled, hR.running id h.once⟩

theorem closeOnce_setCurrent (current : Option Attachment) :
    (w.setCurrent id current).closeOnce = w.closeOnce := by
  unfold setCurrent
  split <;> rfl

/-- The body of the once leaves the session gone. -/
theorem runOnce_safe (hframe : ∀ u v, P u → Frame u v → P v) (h : Running call id P w)
    (hQ : ∀ u, P u → Gone u id → Q () u) :
    TerminalSafe configured call (do
      TerminalCmd.issue (.endAttachment id)
      TerminalCmd.issue .closePty
      TerminalCmd.issue (.deleteSession id ownerID)
      TerminalCmd.issue (.leaveOnce id)) Q w := by
  refine safe_issue_bind h (fun _ _ hu hR => hu.stable hframe hR) ?_
  intro u o hu hI _
  obtain ⟨hG, hI'⟩ := setCurrent_spec hI id none call
  refine ⟨hG, hI', ?_⟩
  have hu' : Running call id P (u.setCurrent id none) :=
    ⟨hframe _ _ hu.kept hG.frame, hG.frame.settled id hu.settled,
      (congrFun (closeOnce_setCurrent none) id).trans hu.once⟩
  refine safe_issue_bind hu' (fun _ _ hu hR => hu.stable hframe hR) ?_
  intro v o hv hI _
  refine ⟨guarantee_refl call v, hI, ?_⟩
  refine safe_issue_bind hv (fun _ _ hu hR => hu.stable hframe hR) ?_
  intro x o hx hI _
  obtain ⟨hG, hI'⟩ := deleteSession_spec hI hx.settled call ownerID
  refine ⟨hG, hI', ?_⟩
  -- from here on the session is gone, and the once is still this call's
  refine safe_issue_bind (P := fun y => Running call id P y ∧ Gone y id)
    ⟨⟨hframe _ _ hx.kept hG.frame, hx.settled, hx.once⟩, hx.settled, ?_⟩
    (fun _ _ hu hR => ⟨hu.1.stable hframe hR, hu.2.frame hR.toFrame⟩) ?_
  · change (x.sessions.erase id).lookup id = none
    rw [lookup_erase, if_pos rfl]
  · intro y o hy hI _
    have hmine : ∀ other, y.closeOnce id = .running other → other = call := by
      intro other hother
      rw [hy.1.once] at hother
      cases hother
      rfl
    obtain ⟨hG, hI'⟩ := setOnce_spec .done hI hy.2.1 hmine fun _ => hy.2.2
    refine ⟨hG, hI', fun z hR _ => ?_⟩
    have hf : Frame y z := hG.frame.trans hR.toFrame
    exact hQ z (hframe _ _ hy.1.kept hf) (hy.2.frame hf)

theorem enterOnce_safe {k : Bool → TerminalProg Unit} (hP : P w)
    (hframe : ∀ u v, P u → Frame u v → P v) (hs : Settled w id)
    (hfirst : ∀ u, Running call id P u → TerminalSafe configured call (k true) Q u)
    (hlate : ∀ u, P u → Gone u id → TerminalSafe configured call (k false) Q u) :
    TerminalSafe configured call (TerminalCmd.issue (.enterOnce call id) >>= k) Q w := by
  refine safe_issue_bind (P := fun u => P u ∧ Settled u id) ⟨hP, hs⟩
    (fun u v hu hR => ⟨hframe u v hu.1 hR.toFrame, hR.settled id hu.2⟩) ?_
  intro u o hu hI hallowed
  have hready := hallowed.1
  cases honce : u.closeOnce id with
  | fresh =>
    have hexec : (terminalMachine configured).exec (.enterOnce call id) o u =
        (true, u.setOnce id (.running call)) := by
      simp [terminalMachine, terminalExec, honce]
    have hmine : ∀ other, u.closeOnce id = .running other → other = call := by
      intro other hother
      rw [honce] at hother
      cases hother
    have hopen : CloseOnce.running call = .done → u.sessions.lookup id = none := by
      intro hdone
      cases hdone
    obtain ⟨hG, hI'⟩ := setOnce_spec (.running call) hI hu.2 hmine hopen
    rw [hexec]
    refine ⟨hG, hI', hfirst _ ⟨hframe _ _ hu.1 hG.frame, hG.frame.settled id hu.2, ?_⟩⟩
    exact setOnce_self
  | running other => simp [TerminalCmd.ready, honce] at hready
  | done =>
    have hexec : (terminalMachine configured).exec (.enterOnce call id) o u = (false, u) := by
      simp [terminalMachine, terminalExec, honce]
    rw [hexec]
    exact ⟨guarantee_refl call u, hI, hlate u hu.1 ⟨hu.2, hI.done id honce⟩⟩

/-- `endSession` leaves a session that was settled before gone. -/
theorem endSession_safe (hP : P w) (hframe : ∀ u v, P u → Frame u v → P v)
    (hQ : ∀ u, P u → (Settled w id → Gone u id) → Q () u) :
    TerminalSafe configured call (endSession call id) Q w := by
  refine look_bind (P := fun u => P u ∧ Frame w u) ⟨hP, .refl w⟩
    (fun u v hu hf => ⟨hframe u v hu.1 hf, hu.2.trans hf⟩) (fun _ _ => rfl) ?_
  intro u o hu hI _
  have hanswer : ((terminalMachine configured).exec (.session id) o u).1 =
      u.sessions.lookup id := rfl
  cases hfound : u.sessions.lookup id with
  | none =>
    rw [hanswer, hfound]
    intro v hR _
    refine hQ v (hframe u v hu.1 hR.toFrame) fun hs => ?_
    exact Gone.frame ⟨hu.2.settled id hs, hfound⟩ hR.toFrame
  | some session =>
    rw [hanswer, hfound]
    refine enterOnce_safe hu.1 hframe (settled_of_registered hI hfound) (fun v hv => ?_) ?_
    · exact runOnce_safe hframe hv fun x hx hgone => hQ x hx fun _ => hgone
    · intro v hv hgone x hR _
      exact hQ x (hframe v x hv hR.toFrame) fun _ => hgone.frame hR.toFrame

/-- The sessions to close are settled, and those still registered are yet to be ended. -/
def Closing (covered ids : List String) (w : TerminalWorld) : Prop :=
  ∀ id ∈ covered, Settled w id ∧ (w.sessions.lookup id ≠ none → id ∈ ids)

theorem Closing.frame (h : Closing covered ids w) (hf : Frame w w') : Closing covered ids w' := by
  intro id hid
  obtain ⟨hs, hreg⟩ := h id hid
  refine ⟨hf.settled id hs, fun hne => hreg fun hnone => ?_⟩
  exact hne (hf.registered id hs hnone)

theorem endSessions_safe (h : Closing covered ids w) :
    TerminalSafe configured call (endSessions call ids) (fun _ => Closing covered []) w := by
  induction ids generalizing w with
  | nil => exact fun u hR _ => h.frame hR.toFrame
  | cons id rest ih =>
    refine safe_bind (TerminalRely.refl call) ?_
    refine endSession_safe (P := fun u => Closing covered (id :: rest) u ∧ Frame w u) ⟨h, .refl w⟩
      (fun u v hu hf => ⟨hu.1.frame hf, hu.2.trans hf⟩) fun u hu hgone => ih ?_
    intro x hx
    obtain ⟨hs, hreg⟩ := hu.1 x hx
    refine ⟨hs, fun hne => ?_⟩
    rcases List.mem_cons.mp (hreg hne) with rfl | hrest
    · exact absurd (hgone (h x hx).1).2 hne
    · exact hrest

/-- Once all of them are ended, the call returns. -/
theorem returnClosed_safe (h : Closing covered ids w) :
    TerminalRuns configured call
      (endSessions call ids >>= fun _ => TerminalCmd.issue (.returned covered)) w := by
  refine safe_bind (TerminalRely.refl call) ((endSessions_safe h).post ?_)
  rintro _ u _ hu
  refine safe_issue_bind hu (fun _ _ hv hR => hv.frame hR.toFrame) ?_
  intro v o hv hI _
  refine ⟨fun other _ => { TerminalRely.refl other v with },
    { hI with closed := fun id hid => ?_ }, safe_ret ()⟩
  rcases List.mem_append.mp hid with hid | hid
  · obtain ⟨hs, hreg⟩ := hv id hid
    refine ⟨hs, ?_⟩
    by_contra hne
    cases hreg hne
  · exact hI.closed id hid

theorem mem_covered :
    id ∈ w.covered owner ↔ ∃ slot ∈ w.reservations,
      (∀ ownerID, owner = some ownerID → slot.ownerID = ownerID) ∧ slot.sessionID = id := by
  cases owner <;> simp [covered, and_assoc]

/-- The sessions that a call is to close have their slots. -/
def Reserved (owner : Option String) (covered : List String) (w : TerminalWorld) : Prop :=
  ∀ id ∈ covered, id ∈ w.covered owner

theorem Reserved.frame (h : Reserved owner covered w) (hf : Frame w w') :
    Reserved owner covered w' := by
  intro id hid
  obtain ⟨slot, hmem, hslot⟩ := mem_covered.mp (h id hid)
  exact mem_covered.mpr ⟨slot, hf.reservations slot hmem, hslot⟩

/-- When none of them is being opened, the list has every one that is registered. -/
theorem closing_of_listed (hI : TerminalInv w) (h : Reserved owner covered w)
    (hsettled : ∀ slot ∈ w.opening, slot.sessionID ∉ covered)
    (hlist : ∀ id session, w.sessions.lookup id = some session →
      (∀ ownerID, owner = some ownerID → session.ownerID = ownerID) → id ∈ ids) :
    Closing covered ids w := by
  intro id hid
  obtain ⟨slot, hmem, howner, rfl⟩ := mem_covered.mp (h id hid)
  refine ⟨⟨slot, hmem, rfl, fun hopen => hsettled slot hopen hid⟩, fun hne => ?_⟩
  obtain ⟨session, hs⟩ := Option.ne_none_iff_exists'.mp hne
  refine hlist _ session hs fun ownerID hsome => ?_
  obtain ⟨⟨slot', hmem', hid', hown'⟩, -⟩ := hI.registered _ session hs
  rw [← hown', hI.unique slot' hmem' slot hmem hid']
  exact howner ownerID hsome

theorem settled_of_allowed (h : TerminalAllowed c o w)
    (hc : c.settled w = w.opening.all fun slot => decide (slot.sessionID ∉ covered)) :
    ∀ slot ∈ w.opening, slot.sessionID ∉ covered := by
  intro slot hslot
  have hall := h.2
  rw [hc] at hall
  exact of_decide_eq_true (List.all_eq_true.mp hall slot hslot)

theorem closeOwner_safe : TerminalRuns configured call (closeOwner call ownerID) w := by
  refine look_any (fun _ _ => rfl) fun u o => ?_
  refine look_bind (P := Reserved (some ownerID) (u.covered (some ownerID))) (fun _ h => h)
    (fun _ _ h hf => h.frame hf) (fun _ _ => rfl) ?_
  intro v o' hv hI hallowed
  refine returnClosed_safe (closing_of_listed hI hv (settled_of_allowed hallowed rfl) ?_)
  intro id session hs howner
  have howned := (hI.registered id session hs).2
  rw [howner ownerID rfl] at howned
  exact o'.order.mem_order.mpr howned

theorem closeAll_safe : TerminalRuns configured call (closeAll call) w := by
  refine look_any (fun _ _ => rfl) fun u o => ?_
  refine look_bind (P := Reserved none (u.covered none)) (fun _ h => h)
    (fun _ _ h hf => h.frame hf) (fun _ _ => rfl) ?_
  intro v o' hv hI hallowed
  refine returnClosed_safe (closing_of_listed hI hv (settled_of_allowed hallowed rfl) ?_)
  intro id session hs _
  refine o'.order.mem_order.mpr ?_
  exact AList.mem_keys.mpr (AList.lookup_isSome.mp (by rw [hs]; rfl))

/-- The call has a slot and its session is not registered yet. -/
def Opening (call : ℕ) (slot : Slot) (w : TerminalWorld) : Prop :=
  slot ∈ w.opening ∧ slot.call = call

theorem Opening.stable (h : Opening call slot w) (hR : TerminalRely call w w') :
    Opening call slot w' :=
  ⟨hR.opening slot h.1 h.2, h.2⟩

theorem register_safe (h : Opening call slot w) (howner : session.ownerID = slot.ownerID)
    (a : α) :
    TerminalRuns configured call (TerminalCmd.issue (.register slot session) >>= fun _ => pure a)
      w := by
  refine safe_issue_bind h (fun _ _ => Opening.stable) ?_
  intro u o hu hI _
  obtain ⟨hG, hI'⟩ := register_spec session hI hu.1 hu.2 howner
  exact ⟨hG, hI', safe_ret a⟩

theorem openReserved_safe (h : Opening call slot w) :
    TerminalRuns configured call (openReserved slot stackID containerID shell connectionID)
      w := by
  refine safe_issue_bind h (fun _ _ => Opening.stable) ?_
  intro u o hu hI _
  refine ⟨guarantee_refl call u, hI, ?_⟩
  split
  · refine safe_issue_bind hu (fun _ _ => Opening.stable) ?_
    intro v o hv hI _
    obtain ⟨hG, hI'⟩ := releaseOwnerSession_spec hI hv.1 hv.2
    exact ⟨hG, hI', safe_ret _⟩
  · refine safe_issue_bind hu (fun _ _ => Opening.stable) ?_
    intro v o hv hI _
    refine ⟨guarantee_refl call v, hI, ?_⟩
    exact register_safe hv rfl _

theorem openTerminal_safe :
    TerminalRuns configured call
      (openTerminal call ownerID stackID containerID shell connectionID) w := by
  unfold openTerminal
  split
  · exact safe_ret _
  · refine safe_issue_any ?_
    intro u o hI hallowed
    have hfresh : ∀ slot ∈ u.reservations, slot.sessionID ≠ newSessionID o.random := by
      intro slot hslot
      exact of_decide_eq_true (List.all_eq_true.mp hallowed.1 slot hslot)
    obtain ⟨hG, hI', hslot⟩ := reserve_spec configured call ownerID hI hfresh
    refine ⟨hG, hI', ?_⟩
    have hanswer : ((terminalMachine configured).exec (.reserve call ownerID) o u).1 =
        (u.reserve configured call ownerID (newSessionID o.random)).1 := rfl
    cases hreserved : (u.reserve configured call ownerID (newSessionID o.random)).1 with
    | none =>
      rw [hanswer, hreserved]
      exact safe_ret _
    | some sessionID =>
      rw [hanswer, hreserved]
      exact openReserved_safe ⟨hslot sessionID hreserved, rfl⟩

/-- A failed resize drops the attachment that was just made. -/
theorem attach_exec {attachment : Attachment} (o : TerminalOut) (w : TerminalWorld) :
    ∃ current, ((terminalMachine configured).exec (.attach sessionID attachment) o w).2 =
      w.setCurrent sessionID current := by
  cases hf : o.failure with
  | none => exact ⟨some attachment, by simp [terminalMachine, terminalExec, hf]⟩
  | some err => exact ⟨none, by simp [terminalMachine, terminalExec, hf]⟩

theorem attach_safe : TerminalRuns configured call (attach ownerID sessionID connectionID) w := by
  refine look_any (fun _ _ => rfl) fun u o => ?_
  split
  · exact safe_ret _
  · split
    · exact safe_ret _
    · refine look_any (fun _ _ => rfl) fun v o' => ?_
      refine safe_issue_any ?_
      intro x o'' hI _
      obtain ⟨current, hcurrent⟩ :
          ∃ current, ((terminalMachine configured).exec (.attach sessionID _) o'' x).2 =
            x.setCurrent sessionID current := attach_exec o'' x
      rw [hcurrent]
      obtain ⟨hG, hI'⟩ := setCurrent_spec hI sessionID current call
      refine ⟨hG, hI', ?_⟩
      split <;> exact safe_ret _

theorem detach_safe {attachmentID : String} :
    TerminalRuns configured call (detach ownerID sessionID attachmentID) w := by
  refine look_any (fun _ _ => rfl) fun u o => ?_
  split
  · exact safe_ret ()
  · split
    · exact safe_ret ()
    · intro v _ hI o' _
      obtain ⟨hG, hI'⟩ := detach_spec hI sessionID attachmentID call
      exact ⟨hG, hI', safe_ret ()⟩

/-- `endSession` by itself, as a timer or the exit of the process calls it. -/
theorem endSession_any : TerminalRuns configured call (endSession call id) w :=
  endSession_safe (P := fun _ => True) trivial (fun _ _ _ _ => trivial) fun _ _ _ => trivial

theorem close_safe : TerminalRuns configured call (close call ownerID sessionID) w := by
  refine look_any (fun _ _ => rfl) fun u o => ?_
  split
  · exact safe_ret _
  · split
    · exact safe_ret _
    · exact safe_bind (TerminalRely.refl call) (endSession_any.post fun _ _ _ _ => safe_ret _)

theorem discard_safe {p : TerminalProg α}
    (h : TerminalRuns configured call p w) :
    TerminalRuns configured call (discard p) w :=
  safe_bind (TerminalRely.refl call) (h.post fun _ _ _ _ => safe_ret ())

theorem program_safe (c : TerminalCall) :
    TerminalRuns configured call (c.program call) w := by
  cases c with
  | openTerminal ownerID stackID containerID shell connectionID =>
    exact discard_safe openTerminal_safe
  | attach ownerID sessionID connectionID => exact discard_safe attach_safe
  | detach ownerID sessionID attachmentID => exact detach_safe
  | close ownerID sessionID => exact discard_safe close_safe
  | endSession sessionID => exact endSession_any
  | closeOwner ownerID => exact closeOwner_safe
  | closeAll => exact closeAll_safe

end Programs

variable {s t : TerminalPool} {l : TerminalLabel}

abbrev TerminalsSafe (configured : ℤ) (s : TerminalPool) : Prop :=
  s.Safe (terminalMachine configured) TerminalAllowed TerminalInv TerminalRely TerminalGuarantee

theorem terminalsSafe_new (h : NewService s) : TerminalsSafe configured s := by
  obtain ⟨hreservations, hopening, hclosed⟩ := h.observed
  refine ⟨⟨fun a ha => ?_, fun slot hs => ?_, fun id session hs => ?_, fun id hid => ?_,
    fun id hid => ?_, fun id hid => ?_⟩, fun call p hp => ?_⟩
  · rw [hreservations] at ha
    cases ha
  · rw [hopening] at hs
    cases hs
  · rw [h.sessions] at hs
    cases hs
  · exact absurd (h.closeOnce id) hid
  · rw [h.sessions]
    rfl
  · rw [hclosed] at hid
    cases hid
  · rw [h.threads call] at hp
    cases hp

theorem terminalsSafe_step (h : (settledLts configured).Tr s l t)
    (hs : TerminalsSafe configured s) : TerminalsSafe configured t := by
  obtain ⟨henabled, rfl⟩ := h
  obtain ⟨hready, hsettled⟩ := Bool.and_eq_true_iff.mp henabled
  cases l with
  | invoke call c => exact Pool.Safe.set hs (program_safe c)
  | step call o =>
    refine hs.step terminalRely_compatible ?_
    intro c k hthread
    simp only [terminalEnabled, settledAt, hthread] at hready hsettled
    exact ⟨hready, hsettled⟩

/-- In every run in which `CloseOwner` and `CloseAll` list the sessions while none of those they
are to close is between its slot and its registration, what they returned from stays closed. -/
theorem settled_closes_leave_no_shell
    (h : (settledLts configured).Reachable NewService s) : NoShellSurvives s.world := by
  have hsafe : TerminalsSafe configured s :=
    Lts.reachable_of_trInv (fun _ => terminalsSafe_new) (fun _ _ _ => terminalsSafe_step) h
  intro id hid
  exact (hsafe.1.closed id hid).2

def newTerminals : TerminalPool where
  threads _ := none
  world := ⟨∅, ∅, fun _ => .fresh, [], [], []⟩

theorem newTerminals_new : NewService newTerminals :=
  ⟨fun _ => rfl, rfl, rfl, fun _ => rfl, rfl, rfl, rfl⟩

def openShell : TerminalCall := .openTerminal "owner" "web" "web-1" "/bin/sh" "connection"

/-- `CloseOwner` runs while the process of a reserved session is being started. -/
def closeBeforeRegistration : List TerminalLabel :=
  [.invoke 0 openShell, .step 0 {}, .invoke 1 (.closeOwner "owner")] ++
    List.replicate 4 (.step 1 {}) ++ List.replicate 3 (.step 0 {})

/-- `CloseOwner` runs once the session is registered. -/
def closeAfterRegistration : List TerminalLabel :=
  .invoke 0 openShell :: List.replicate 4 (.step 0 {}) ++
    .invoke 1 (.closeOwner "owner") :: List.replicate 9 (.step 1 {})

theorem shell_survives_close_owner :
    ∃ s, (terminalLts 5).Reachable NewService s ∧ "term_" ∈ s.world.closed ∧
      ¬ NoShellSurvives s.world := by
  have hrun : (terminalLts 5).MTr newTerminals closeBeforeRegistration
      (closeBeforeRegistration.foldl (terminalNext 5) newTerminals) :=
    Lts.mTr_ofNext (by decide +kernel)
  have hclosed : "term_" ∈ (closeBeforeRegistration.foldl (terminalNext 5)
      newTerminals).world.closed := by decide +kernel
  have hregistered : (closeBeforeRegistration.foldl (terminalNext 5)
      newTerminals).world.sessions.lookup "term_" ≠ none := by decide +kernel
  exact ⟨_, ⟨newTerminals, newTerminals_new, _, hrun⟩, hclosed, fun h => hregistered (h _ hclosed)⟩

theorem registered_shell_is_closed :
    ∃ s : TerminalPool, s.world.closed = ["term_"] ∧ NoShellSurvives s.world := by
  have hrun : (settledLts 5).MTr newTerminals closeAfterRegistration
      (closeAfterRegistration.foldl (terminalNext 5) newTerminals) :=
    Lts.mTr_ofNext (by decide +kernel)
  refine ⟨_, ?_, settled_closes_leave_no_shell ⟨newTerminals, newTerminals_new, _, hrun⟩⟩
  decide +kernel

end Stacklab.Terminal
