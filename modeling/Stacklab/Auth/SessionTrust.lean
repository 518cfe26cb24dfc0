import Stacklab.Auth.Service

/-! What the calls of the authentication service keep of each other: sessions are trusted only
while they are newer than every answered password change. -/
namespace Stacklab.Auth

open Lib Store Prog

/-- The session's row is newer than every password that has been changed. -/
def Trusted (id : String) (w : AuthWorld) : Prop :=
  ∃ row, w.tables.sessions.lookup id = some row ∧
    ∀ v n, .changed v n ∈ w.log → v < row.passwordVersion

structure AuthInv (w : AuthWorld) : Prop where
  changed : ∀ v n, .changed v n ∈ w.log →
    v < n ∧ ∃ credentials, w.tables.password = some credentials ∧ n ≤ credentials.version
  ordered : w.log.Pairwise fun later earlier =>
    ∀ v n v' n', later = .changed v n → earlier = .changed v' n' → n' ≤ v
  created : ∀ id u, .created id u ∈ w.log →
    ∃ row, w.tables.sessions.lookup id = some row ∧ row.passwordVersion = u
  accepted : w.log.Pairwise fun later earlier =>
    ∀ id v n, later = .accepted id → earlier = .changed v n →
      ∃ row, w.tables.sessions.lookup id = some row ∧ v < row.passwordVersion
  hub : ∀ id, (w.hub.sessions.lookup id).isSome → Trusted id w

/-- What other calls leave alone: the session rows, and under the lock also the password, the
tracked sessions and the answered changes. -/
structure AuthRely (call : ℕ) (w w' : AuthWorld) : Prop where
  sessions : w.tables.KeepsSessions w'.tables
  held : w.transitionMu = some call → w'.transitionMu = some call ∧
    w'.tables.password = w.tables.password ∧ w'.hub.Within w.hub ∧
      ∀ v n, .changed v n ∈ w'.log → .changed v n ∈ w.log

def AuthGuarantee (call : ℕ) (w w' : AuthWorld) : Prop := ∀ other, other ≠ call → AuthRely other w w'

/-- A change that needs no lock. -/
structure Quiet (w w' : AuthWorld) : Prop where
  sessions : w.tables.KeepsSessions w'.tables
  password : w'.tables.password = w.tables.password
  transitionMu : w'.transitionMu = w.transitionMu
  hub : w'.hub.Within w.hub
  log : ∀ v n, .changed v n ∈ w'.log → .changed v n ∈ w.log

def AuthCmd.IsQuiet : AuthCmd → Prop
  | .lock _ | .unlock | .updatePassword _ _ _ | .subscribe _ | .accept _ | .passwordChanged _ =>
    False
  | _ => True

variable {cfg : AuthConfig} {w w' u : AuthWorld} {call : ℕ}
  {id : String} {o : AuthOut} {α : Type} {Q : α → AuthWorld → Prop}
  {result : Except SessionError AuthTables} {version v : ℤ} {c : AuthCmd} {k : Unit → AuthProg α}

theorem AuthRely.refl (call : ℕ) (w : AuthWorld) : AuthRely call w w :=
  ⟨.refl _, fun h => ⟨h, rfl, .refl _, fun _ _ h => h⟩⟩

theorem AuthRely.trans (h : AuthRely call w w') (h' : AuthRely call w' u) :
    AuthRely call w u := by
  refine ⟨h.sessions.trans h'.sessions, fun hw => ?_⟩
  obtain ⟨hmu, hpw, hhub, hlog⟩ := h.held hw
  obtain ⟨hmu', hpw', hhub', hlog'⟩ := h'.held hmu
  exact ⟨hmu', hpw'.trans hpw, fun id hid => hhub id (hhub' id hid),
    fun v n hv => hlog v n (hlog' v n hv)⟩

theorem authRely_compatible : Pool.Compatible AuthRely AuthGuarantee where
  refl := AuthRely.refl
  trans := fun _ _ _ _ => AuthRely.trans
  other := fun _ t' _ _ ht h => h t' (Ne.symm ht)

theorem Quiet.rely (h : Quiet w w') (call : ℕ) : AuthRely call w w' :=
  ⟨h.sessions, fun hmu => ⟨h.transitionMu.trans hmu, h.password, h.hub, h.log⟩⟩

theorem Trusted.keeps (h : Trusted id w) (hk : w.tables.KeepsSessions w'.tables)
    (hlog : ∀ v n, .changed v n ∈ w'.log → .changed v n ∈ w.log) : Trusted id w' := by
  obtain ⟨row, hrow, hnew⟩ := h
  obtain ⟨row', hrow', heq⟩ := hk id row hrow
  exact ⟨row', hrow', fun v n hv => heq ▸ hnew v n (hlog v n hv)⟩

/-- The rows behind the log and the hub stay as they were judged. -/
theorem AuthInv.keeps (h : AuthInv w) (hk : w.tables.KeepsSessions w'.tables)
    (hlog : w'.log = w.log) (hhub : w'.hub.Within w.hub)
    (hpw : ∀ credentials, w.tables.password = some credentials →
      ∃ credentials', w'.tables.password = some credentials' ∧
        credentials.version ≤ credentials'.version) : AuthInv w' := by
  refine ⟨fun v n hv => ?_, hlog ▸ h.ordered, fun id u hu => ?_, ?_, fun id hid => ?_⟩
  · rw [hlog] at hv
    obtain ⟨hlt, credentials, hc, hle⟩ := h.changed v n hv
    obtain ⟨credentials', hc', hle'⟩ := hpw credentials hc
    exact ⟨hlt, credentials', hc', Int.le_trans hle hle'⟩
  · rw [hlog] at hu
    obtain ⟨row, hrow, hv⟩ := h.created id u hu
    obtain ⟨row', hrow', heq⟩ := hk id row hrow
    exact ⟨row', hrow', heq.trans hv⟩
  · rw [hlog]
    refine h.accepted.imp fun hp id v n hl he => ?_
    obtain ⟨row, hrow, hv⟩ := hp id v n hl he
    obtain ⟨row', hrow', heq⟩ := hk id row hrow
    exact ⟨row', hrow', heq ▸ hv⟩
  · exact (h.hub id (hhub id hid)).keeps hk fun v n hv => hlog ▸ hv

theorem AuthInv.quiet (h : AuthInv w) (hq : Quiet w w') (hlog : w'.log = w.log) : AuthInv w' :=
  h.keeps hq.sessions hlog hq.hub fun credentials hc =>
    ⟨credentials, hq.password.trans hc, Int.le_refl _⟩

theorem quiet_tables {tables : AuthTables} (hk : w.tables.KeepsSessions tables)
    (hpw : tables.password = w.tables.password) : Quiet w { w with tables := tables } :=
  ⟨hk, hpw, rfl, .refl _, fun _ _ h => h⟩

theorem quiet_hub {hub : SessionHub} (h : hub.Within w.hub) : Quiet w { w with hub := hub } :=
  ⟨.refl _, rfl, rfl, h, fun _ _ h => h⟩

theorem Quiet.refl (w : AuthWorld) : Quiet w w := ⟨.refl _, rfl, rfl, .refl _, fun _ _ h => h⟩

/-- A statement either fails without effect or leaves the tables it computed. -/
theorem write_cases (w : AuthWorld) (o : AuthOut) (result : Except SessionError AuthTables) :
    (∃ err, w.write o result = (.error err, w)) ∨
      ∃ tables, result = .ok tables ∧ w.write o result = (.ok (), { w with tables := tables }) := by
  unfold AuthWorld.write
  split
  · exact .inl ⟨_, rfl⟩
  · exact .inl ⟨_, rfl⟩
  next tables _ => exact .inr ⟨tables, rfl, rfl⟩

theorem quiet_write (h : ∀ tables, result = .ok tables →
      w.tables.KeepsSessions tables ∧ tables.password = w.tables.password) :
    Quiet w (w.write o result).2 := by
  rcases write_cases w o result with ⟨err, heq⟩ | ⟨tables, hr, heq⟩
  · rw [heq]
    exact Quiet.refl w
  · rw [heq]
    exact quiet_tables (h tables hr).1 (h tables hr).2

theorem log_write : (w.write o result).2.log = w.log := by
  rcases write_cases w o result with ⟨err, heq⟩ | ⟨tables, hr, heq⟩ <;>
    rw [heq]

/-- An event that answers no password change. -/
theorem AuthInv.observe {e : AuthEvent} (h : AuthInv w) (hchanged : ∀ v n, .changed v n ≠ e)
    (hcreated : ∀ id u, .created id u = e →
      ∃ row, w.tables.sessions.lookup id = some row ∧ row.passwordVersion = u)
    (haccepted : ∀ id, e = .accepted id → Trusted id w) : AuthInv (w.observe e) := by
  have hlog : ∀ v n, .changed v n ∈ e :: w.log → .changed v n ∈ w.log :=
    fun v n hv => (List.mem_cons.mp hv).resolve_left (hchanged v n)
  refine ⟨fun v n hv => h.changed v n (hlog v n hv), ?_, fun id u hu => ?_, ?_, fun id hid => ?_⟩
  · exact List.pairwise_cons.mpr ⟨fun _ _ v n _ _ hl => absurd hl.symm (hchanged v n), h.ordered⟩
  · exact (List.mem_cons.mp hu).elim (hcreated id u) (h.created id u)
  · refine List.pairwise_cons.mpr ⟨fun e' he' id v n hl hc => ?_, h.accepted⟩
    obtain ⟨row, hrow, hnew⟩ := haccepted id hl
    exact ⟨row, hrow, hnew v n (hc ▸ he')⟩
  · exact (h.hub id hid).keeps (.refl _) hlog

theorem AuthInv.observe_accepted (h : AuthInv w) (ht : Trusted id w) :
    AuthInv (w.observe (.accepted id)) := by
  refine h.observe (by simp) (by simp) ?_
  rintro _ ⟨⟩
  exact ht

theorem quiet_exec (cfg : AuthConfig) (o : AuthOut) (hc : c.IsQuiet) (h : AuthInv w) :
    Quiet w (authExec cfg c o w).2 ∧ AuthInv (authExec cfg c o w).2 := by
  have hsame : Quiet w w ∧ AuthInv w := ⟨Quiet.refl w, h⟩
  have hhub {hub : SessionHub} (hw : hub.Within w.hub) :
      Quiet w { w with hub := hub } ∧ AuthInv { w with hub := hub } :=
    ⟨quiet_hub hw, h.quiet (quiet_hub hw) rfl⟩
  cases c with
  | now | loginLocked | acquireLoginVerification | newSessionID | hashPassword
  | passwordCredentials | sessionAtCurrentVersion => exact hsame
  | createSession session version =>
    simp only [authExec]
    rcases write_cases w o (w.tables.createSessionAtPasswordVersion session version) with
      ⟨err, heq⟩ | ⟨tables, hr, heq⟩
    · rw [heq]
      exact hsame
    · rw [heq]
      obtain ⟨hk, hpw, -, hrow⟩ := AuthTables.createSession_ok hr
      have hq := quiet_tables hk hpw
      refine ⟨⟨hk, hpw, rfl, .refl _, fun v n hv => ?_⟩, (h.quiet hq rfl).observe (by simp) ?_
        (by simp)⟩
      · simpa [AuthWorld.observeOk, AuthWorld.observe] using hv
      · rintro _ _ ⟨⟩
        exact hrow
  | touchSession id expected seen expires =>
    have hq : Quiet w (w.write o (w.tables.touchSession id expected seen expires)).2 :=
      quiet_write fun tables hr =>
        ⟨(AuthTables.touchSession_ok hr).1, (AuthTables.touchSession_ok hr).2.1⟩
    exact ⟨hq, h.quiet hq log_write⟩
  | revokeSession id revokedAt =>
    have hq : Quiet w (w.write o (w.tables.revokeSession id revokedAt)).2 :=
      quiet_write fun tables hr => AuthTables.revokeSession_ok hr
    exact ⟨hq, h.quiet hq log_write⟩
  | touch id =>
    have hw : (w.hub.touch cfg o.time id).2.Within w.hub := SessionHub.within_touch
    simp only [authExec]
    split
    next hacc =>
      have hin : (w.hub.sessions.lookup id).isSome := by
        cases ha : (w.hub.touch cfg o.time id).1 with
        | inactive =>
          rw [ha] at hacc
          cases hacc
        | expired reason =>
          rw [ha] at hacc
          cases hacc
        | active touch => exact SessionHub.tracked_of_touch ha
      refine ⟨⟨.refl _, rfl, rfl, hw, fun v n hv => ?_⟩, (hhub hw).2.observe_accepted (h.hub id hin)⟩
      simpa [AuthWorld.observe] using hv
    next => exact hhub hw
  | unsubscribe id subscriber => exact hhub SessionHub.within_unsubscribe
  | touchLease id expiresAt => exact hhub SessionHub.within_touchLease
  | touchPersisted id seen expiresAt => exact hhub SessionHub.within_touchPersisted
  | terminate id reason => exact hhub SessionHub.within_terminate
  | terminateAll reason => exact hhub SessionHub.within_terminateAll
  | expire id => exact hhub SessionHub.within_expire
  | shutdown => exact hhub SessionHub.within_shutdown
  | lock | unlock | updatePassword | subscribe | accept | passwordChanged => exact hc.elim

abbrev CallSafe (cfg : AuthConfig) (call : ℕ) (p : AuthProg α) (Q : α → AuthWorld → Prop)
    (w : AuthWorld) : Prop :=
  p.Safe (authMachine cfg) AuthAllowed AuthInv (AuthRely call) (AuthGuarantee call) Q w

/-- A condition that the other calls cannot break. -/
def Stable (call : ℕ) (P : AuthWorld → Prop) : Prop :=
  ∀ u v, P u → AuthRely call u v → P v

def Held (call : ℕ) (w : AuthWorld) : Prop := w.transitionMu = some call

/-- The call holds the lock and the session is of the stored version. -/
def Current (call : ℕ) (id : String) (w : AuthWorld) : Prop :=
  Held call w ∧ ∃ row, w.tables.sessions.lookup id = some row ∧ w.tables.isCurrent row = true

/-- The call holds the lock and has counted the stored version up from `v`. -/
def Committed (call : ℕ) (v : ℤ) (w : AuthWorld) : Prop :=
  Held call w ∧ (∃ credentials, w.tables.password = some credentials ∧
    credentials.version = v + 1) ∧ ∀ v' n', .changed v' n' ∈ w.log → n' ≤ v

def CutOff (call : ℕ) (v : ℤ) (w : AuthWorld) : Prop :=
  Committed call v w ∧ ∀ id, (w.hub.sessions.lookup id).isSome = false

theorem stable_held : Stable call (Held call) := fun _ _ h hR => (hR.held h).1

theorem stable_current : Stable call (Current call id) := by
  rintro u v ⟨hheld, row, hrow, hc⟩ hR
  obtain ⟨hmu, hpw, -, -⟩ := hR.held hheld
  obtain ⟨row', hrow', heq⟩ := hR.sessions id row hrow
  refine ⟨hmu, row', hrow', ?_⟩
  unfold AuthTables.isCurrent at hc ⊢
  rw [hpw, heq]
  exact hc

theorem stable_committed : Stable call (Committed call v) := by
  rintro u u' ⟨hheld, hpw, hlog⟩ hR
  obtain ⟨hmu, hpw', -, hlog'⟩ := hR.held hheld
  exact ⟨hmu, hpw' ▸ hpw, fun v' n' h => hlog v' n' (hlog' v' n' h)⟩

theorem stable_cutOff : Stable call (CutOff call v) := by
  rintro u u' ⟨hc, hhub⟩ hR
  refine ⟨stable_committed u u' hc hR, fun id => ?_⟩
  cases hid : (u'.hub.sessions.lookup id).isSome with
  | false => rfl
  | true =>
    have hsome := (hR.held hc.1).2.2.1 id hid
    rw [hhub id] at hsome
    cases hsome

theorem Current.trusted (h : Current call id w) (hi : AuthInv w) : Trusted id w := by
  obtain ⟨-, row, hrow, hc⟩ := h
  refine ⟨row, hrow, fun v n hv => ?_⟩
  obtain ⟨hlt, credentials, hpw, hle⟩ := hi.changed v n hv
  simp only [AuthTables.isCurrent, hpw, decide_eq_true_eq] at hc
  omega

/-- A command that needs no lock keeps every condition that other calls keep. -/
theorem safe_quiet {k : AuthAns c → AuthProg α} {P : AuthWorld → Prop} (hc : c.IsQuiet) (hP : P w)
    (hstable : Stable call P) (hk : ∀ a u, P u → CallSafe cfg call (k a) Q u) :
    CallSafe cfg call (c.issue >>= k) Q w := by
  refine safe_issue_bind hP hstable ?_
  intro u o hu hI _
  obtain ⟨hq, hinv⟩ := quiet_exec cfg o hc hI
  exact ⟨fun other _ => hq.rely other, hinv, hk _ _ (hstable u _ hu (hq.rely call))⟩

theorem safe_free {k : AuthAns c → AuthProg α} (hc : c.IsQuiet)
    (hk : ∀ a u, CallSafe cfg call (k a) Q u) : CallSafe cfg call (c.issue >>= k) Q w :=
  safe_quiet (P := fun _ => True) hc trivial (fun _ _ _ _ => trivial) fun a u _ => hk a u

/-- While one call holds the lock, no other can tell what it does to the password. -/
theorem guarantee_held (h : Held call w) (hk : w.tables.KeepsSessions w'.tables) :
    AuthGuarantee call w w' := by
  intro other hne
  refine ⟨hk, fun hother => ?_⟩
  rw [Held] at h
  rw [h] at hother
  exact absurd (Option.some.inj hother).symm hne

theorem safe_lock (hk : ∀ u, Held call u → CallSafe cfg call (k ()) Q u) :
    CallSafe cfg call (AuthCmd.issue (.lock call) >>= k) Q w := by
  refine safe_issue_any ?_
  intro u o hI hfree
  replace hfree : u.transitionMu = none := of_decide_eq_true hfree
  refine ⟨fun other _ => ⟨.refl _, fun hother => ?_⟩, ?_, hk _ rfl⟩
  · rw [hfree] at hother
    cases hother
  · exact hI.keeps (.refl _) rfl (.refl _) fun credentials hc => ⟨credentials, hc, Int.le_refl _⟩

theorem safe_unlock (h : Held call w) (hk : ∀ u, CallSafe cfg call (k ()) Q u) :
    CallSafe cfg call (AuthCmd.issue .unlock >>= k) Q w := by
  refine safe_issue_bind h stable_held ?_
  intro u o hu hI _
  refine ⟨guarantee_held hu (.refl _), ?_, hk _⟩
  exact hI.keeps (.refl _) rfl (.refl _) fun credentials hc => ⟨credentials, hc, Int.le_refl _⟩

theorem safe_accept (h : Current call id w) (hk : ∀ u, Held call u → CallSafe cfg call (k ()) Q u) :
    CallSafe cfg call (AuthCmd.issue (.accept id) >>= k) Q w := by
  refine safe_issue_bind h stable_current ?_
  intro u o hu hI _
  exact ⟨guarantee_held hu.1 (.refl _), hI.observe_accepted (hu.trusted hI), hk _ hu.1⟩

theorem safe_subscribe {session : Session} (h : Current call session.id w)
    (hk : ∀ u, Current call session.id u → CallSafe cfg call (k ()) Q u) :
    CallSafe cfg call (AuthCmd.issue (.subscribe session) >>= k) Q w := by
  refine safe_issue_bind h stable_current ?_
  intro u o hu hI _
  refine ⟨guarantee_held hu.1 (.refl _), { hI with hub := fun id hid => ?_ }, hk _ hu⟩
  rcases SessionHub.mem_subscribe hid with rfl | hid
  · exact hu.trusted hI
  · exact hI.hub id hid

/-- Reading a session row at the stored version, under the lock. -/
theorem safe_sessionAtCurrentVersion {k : Except SessionError SessionRow → AuthProg α}
    (h : Held call w)
    (hok : ∀ record u, record.id = id → Current call id u → CallSafe cfg call (k (.ok record)) Q u)
    (herr : ∀ err u, Held call u → CallSafe cfg call (k (.error err)) Q u) :
    CallSafe cfg call (AuthCmd.issue (.sessionAtCurrentVersion id) >>= k) Q w := by
  refine safe_issue_bind h stable_held ?_
  intro u o hu hI _
  refine ⟨fun other _ => AuthRely.refl other u, hI, ?_⟩
  simp only [authMachine, authExec]
  cases o.failure with
  | some text => exact herr _ u hu
  | none =>
    cases hs : u.tables.sessionAtCurrentPasswordVersion id with
    | error err => exact herr err u hu
    | ok record =>
      obtain ⟨hid, hrow⟩ := AuthTables.sessionAtCurrentPasswordVersion_ok hs
      exact hok record u hid ⟨hu, hrow⟩

/-- Touching a session row under the lock: it goes through only at the stored version. -/
theorem safe_touchSession {k : Except SessionError Unit → AuthProg α} {expected seen expires : Time}
    (h : Held call w) (hok : ∀ u, Current call id u → CallSafe cfg call (k (.ok ())) Q u)
    (herr : ∀ err u, Held call u → CallSafe cfg call (k (.error err)) Q u) :
    CallSafe cfg call (AuthCmd.issue (.touchSession id expected seen expires) >>= k) Q w := by
  refine safe_issue_bind h stable_held ?_
  intro u o hu hI _
  obtain ⟨hq, hinv⟩ := quiet_exec cfg o
    (c := .touchSession id expected seen expires) trivial hI
  refine ⟨fun other _ => hq.rely other, hinv, ?_⟩
  simp only [authMachine, authExec]
  rcases write_cases u o (u.tables.touchSession id expected seen expires) with ⟨err, heq⟩ | ⟨tables, hr, heq⟩
  · rw [heq]
    exact herr err u hu
  · rw [heq]
    exact hok _ ⟨hu, (AuthTables.touchSession_ok hr).2.2⟩

/-- The update goes through only at the verified version, which it counts up. -/
theorem safe_updatePassword {k : Except SessionError Unit → AuthProg α} {hash : String} {now : Time}
    (h : Held call w) (hok : ∀ u, Committed call version u → CallSafe cfg call (k (.ok ())) Q u)
    (herr : ∀ err u, Held call u → CallSafe cfg call (k (.error err)) Q u) :
    CallSafe cfg call (AuthCmd.issue (.updatePassword version hash now) >>= k) Q w := by
  refine safe_issue_bind h stable_held ?_
  intro u o hu hI _
  simp only [authMachine, authExec]
  rcases write_cases u o (u.tables.updatePasswordAndRevokeSessions version hash now) with
    ⟨err, heq⟩ | ⟨tables, hr, heq⟩
  · rw [heq]
    exact ⟨fun other _ => AuthRely.refl other u, hI, herr err u hu⟩
  · rw [heq]
    obtain ⟨hk, ⟨old, hold, hversion⟩, hnew⟩ := AuthTables.updatePassword_ok hr
    refine ⟨guarantee_held hu hk, hI.keeps hk rfl (.refl _) fun credentials hc => ?_, hok _ ?_⟩
    · rw [hold] at hc
      cases hc
      refine ⟨_, hnew, ?_⟩
      dsimp only
      omega
    · refine ⟨hu, ⟨_, hnew, rfl⟩, fun v' n' hv => ?_⟩
      obtain ⟨-, credentials, hc, hle⟩ := hI.changed v' n' hv
      rw [hold] at hc
      cases hc
      omega

theorem safe_terminateAll {reason : TerminationReason} (h : Committed call version w)
    (hk : ∀ u, CutOff call version u → CallSafe cfg call (k ()) Q u) :
    CallSafe cfg call (AuthCmd.issue (.terminateAll reason) >>= k) Q w := by
  refine safe_issue_bind h stable_committed ?_
  intro u o hu hI _
  obtain ⟨hq, hinv⟩ := quiet_exec cfg o (c := .terminateAll reason) trivial hI
  exact ⟨fun other _ => hq.rely other, hinv, hk _ ⟨hu, fun _ => rfl⟩⟩

/-- The answered change is the newest one, and no tracked session is left to distrust. -/
theorem safe_passwordChanged (h : CutOff call version w)
    (hk : ∀ u, Held call u → CallSafe cfg call (k ()) Q u) :
    CallSafe cfg call (AuthCmd.issue (.passwordChanged version) >>= k) Q w := by
  refine safe_issue_bind h stable_cutOff ?_
  intro u o hu hI _
  obtain ⟨⟨hheld, ⟨credentials, hpw, hversion⟩, hlog⟩, hhub⟩ := hu
  have hstored : u.storedVersion = version + 1 := by
    simp [AuthWorld.storedVersion, hpw, hversion]
  refine ⟨guarantee_held hheld (.refl _), ⟨fun v n hv => ?_, ?_, fun id' u' hu' => ?_, ?_,
    fun id hid => ?_⟩, hk _ hheld⟩
  · rcases List.mem_cons.mp hv with heq | hv
    · cases heq
      exact ⟨by omega, credentials, hpw, by omega⟩
    · exact hI.changed v n hv
  · refine List.pairwise_cons.mpr ⟨fun e he v n v' n' hl hc => ?_, hI.ordered⟩
    cases hl
    subst hc
    exact hlog v' n' he
  · exact hI.created id' u' (by simpa [authMachine, authExec, AuthWorld.observe] using hu')
  · exact List.pairwise_cons.mpr ⟨fun _ _ id v n hl => (by cases hl), hI.accepted⟩
  · have hid' : (u.hub.sessions.lookup id).isSome = true := hid
    rw [hhub id] at hid'
    cases hid'

end Stacklab.Auth
