import Stacklab.Auth.SessionTrust

/-! A changed password cuts off every session of an older one, over every interleaving of the
service's calls. -/
namespace Stacklab.Auth

open Lib Store Prog

variable {cfg : AuthConfig} {verify : String → String → Bool} {w : AuthWorld} {call : ℕ}
  {id password : String} {α : Type} {a : α} {cookie : Option String} {reason : TerminationReason}

theorem safe_done : CallSafe cfg call (pure a) (fun _ _ => True) w :=
  safe_pure fun _ _ _ => trivial

/-- Release the lock and answer. -/
theorem safe_unlock_done (h : Held call w) :
    CallSafe cfg call (do AuthCmd.issue .unlock; pure a) (fun _ _ => True) w :=
  safe_unlock h fun _ => safe_done

theorem safe_verifiedCredentials :
    CallSafe cfg call (verifiedCredentials verify password) (fun _ _ => True) w := by
  refine safe_free trivial fun loaded u => ?_
  rcases loaded with err | credentials
  · exact safe_done
  · cases credentials with
    | none => exact safe_done
    | some credentials =>
      dsimp only
      split
      · exact safe_done
      · split <;> exact safe_done

theorem safe_login {userAgent ipAddress : String} :
    CallSafe cfg call (login cfg verify password userAgent ipAddress) (fun _ _ => True) w := by
  refine safe_free trivial fun now u => ?_
  refine safe_free trivial fun locked u => ?_
  cases locked with
  | true => exact safe_done
  | false =>
    refine safe_free trivial fun acquired u => ?_
    cases acquired with
    | false => exact safe_done
    | true =>
      refine safe_bind (AuthRely.refl call) ?_
      refine safe_verifiedCredentials.post fun verified u _ _ => ?_
      rcases verified with err | credentials
      · exact safe_done
      · refine safe_free trivial fun drawn u => ?_
        rcases drawn with err | sessionID
        · exact safe_done
        · refine safe_free trivial fun created u => ?_
          rcases created with (_ | _ | _ | _) | _ <;> exact safe_done

theorem safe_logout : CallSafe cfg call (logout call id) (fun _ _ => True) w := by
  unfold logout
  split
  · exact safe_done
  · refine safe_lock fun u hu => ?_
    refine safe_quiet trivial hu stable_held fun now u hu => ?_
    refine safe_quiet trivial hu stable_held fun revoked u hu => ?_
    rcases revoked with (_ | _ | _ | _) | _
    · exact safe_unlock_done hu
    · exact safe_unlock_done hu
    · exact safe_unlock_done hu
    · exact safe_unlock_done hu
    · exact safe_quiet trivial hu stable_held fun _ u hu => safe_unlock_done hu

theorem safe_updatePassword_call {current new : String} :
    CallSafe cfg call (updatePassword verify call current new) (fun _ _ => True) w := by
  refine safe_bind (AuthRely.refl call) ?_
  refine safe_verifiedCredentials.post fun verified u _ _ => ?_
  rcases verified with err | credentials
  · exact safe_done
  · refine safe_free trivial fun hashed u => ?_
    rcases hashed with err | updatedHash
    · exact safe_done
    · refine safe_lock fun u hu => ?_
      refine safe_quiet trivial hu stable_held fun now u hu => ?_
      refine safe_updatePassword hu (fun u hu => ?_) fun err u hu => ?_
      · refine safe_terminateAll hu fun u hu => ?_
        exact safe_passwordChanged hu fun u hu => safe_unlock_done hu
      · cases err <;> exact safe_unlock_done hu

/-- The call holds the lock, and a session that authenticates is of the stored version. -/
def Authenticated (call : ℕ) (result : Except AuthError Session) (w : AuthWorld) : Prop :=
  Held call w ∧ ∀ session, result = .ok session → Current call session.id w

theorem safe_refuse {err : AuthError} (h : Held call w) :
    CallSafe cfg call (pure (.error err)) (Authenticated call) w :=
  safe_pure fun v hR _ => ⟨stable_held w v h hR, fun _ he => by cases he⟩

theorem safe_authenticateSession (attempts : ℕ) (h : Held call w) :
    CallSafe cfg call (authenticateSession cfg id attempts) (Authenticated call) w := by
  have haccept {session : Session} {u : AuthWorld} (hu : Current call session.id u) :
      CallSafe cfg call (pure (.ok session)) (Authenticated call) u := by
    refine safe_pure fun v hR _ => ⟨stable_held u v hu.1 hR, fun session' he => ?_⟩
    cases he
    exact stable_current u v hu hR
  induction attempts generalizing w with
  | zero => exact safe_refuse h
  | succ attempts ih =>
    refine safe_sessionAtCurrentVersion h (fun record u hid hu => ?_) fun err u hu => ?_
    · refine safe_quiet trivial hu stable_current fun now u hu => ?_
      split
      · refine safe_quiet trivial hu.1 stable_held fun _ u hu => ?_
        exact safe_quiet trivial hu stable_held fun _ u hu => safe_refuse hu
      · subst hid
        split
        · refine safe_touchSession hu.1 (fun u hu => ?_) fun err u hu => ?_
          · exact safe_quiet trivial hu stable_current fun _ u hu => haccept hu
          · cases err with
            | sessionChanged => exact ih hu
            | notFound | passwordVersionChanged | failed => exact safe_refuse hu
        · exact safe_quiet trivial hu stable_current fun _ u hu => haccept hu
    · cases err with
      | notFound => exact safe_quiet trivial hu stable_held fun _ u hu => safe_refuse hu
      | sessionChanged | passwordVersionChanged | failed => exact safe_refuse hu

theorem safe_authenticate (h : Held call w) :
    CallSafe cfg call (authenticate cfg cookie) (Authenticated call) w := by
  cases cookie with
  | none => exact safe_refuse h
  | some value =>
    unfold authenticate
    dsimp only
    split
    · exact safe_refuse h
    · exact safe_authenticateSession 2 h

theorem safe_authenticateRequest :
    CallSafe cfg call (authenticateRequest cfg call cookie) (fun _ _ => True) w := by
  refine safe_lock fun u hu => ?_
  refine safe_bind (AuthRely.refl call) ?_
  refine (safe_authenticate hu).post fun result u _ ⟨hu, hcurrent⟩ => ?_
  rcases result with err | session
  · exact safe_unlock_done hu
  · exact safe_accept (hcurrent session rfl) fun u hu => safe_unlock_done hu

theorem safe_authenticateWebSocket :
    CallSafe cfg call (authenticateWebSocket cfg call cookie) (fun _ _ => True) w := by
  refine safe_lock fun u hu => ?_
  refine safe_bind (AuthRely.refl call) ?_
  refine (safe_authenticate hu).post fun result u _ ⟨hu, hcurrent⟩ => ?_
  rcases result with err | session
  · exact safe_unlock_done hu
  · refine safe_subscribe (hcurrent session rfl) fun u hu => ?_
    exact safe_accept hu fun u hu => safe_unlock_done hu

theorem safe_expireSession :
    CallSafe cfg call (expireSession call id reason) (fun _ _ => True) w := by
  refine safe_lock fun u hu => ?_
  refine safe_quiet trivial hu stable_held fun now u hu => ?_
  refine safe_quiet trivial hu stable_held fun _ u hu => ?_
  refine safe_quiet trivial hu stable_held fun _ u hu => ?_
  exact safe_unlock (k := pure) hu fun _ => safe_done

theorem safe_refuseTouch (h : Held call w) :
    CallSafe cfg call (refuseTouch id reason) (fun _ _ => True) w :=
  safe_quiet trivial h stable_held fun _ _ hu => safe_unlock_done hu

theorem safe_acceptTouch {seen expires : Time} (h : Current call id w) :
    CallSafe cfg call (acceptTouch id seen expires) (fun _ _ => True) w := by
  refine safe_quiet trivial h stable_current fun _ u hu => ?_
  exact safe_accept hu fun u hu => safe_unlock_done hu

theorem safe_persistTouch {touch : ActivityTouch} :
    CallSafe cfg call (persistTouch cfg call id touch) (fun _ _ => True) w := by
  refine safe_lock fun u hu => ?_
  refine safe_touchSession hu (fun u hu => safe_acceptTouch hu) fun err u hu => ?_
  cases err with
  | notFound => exact safe_refuseTouch hu
  | passwordVersionChanged => exact safe_unlock_done hu
  | failed text => exact safe_unlock_done hu
  | sessionChanged =>
    refine safe_sessionAtCurrentVersion hu (fun record u _ hu => ?_) fun err u hu => ?_
    · refine safe_quiet trivial hu stable_current fun now u hu => ?_
      split
      · exact safe_refuseTouch hu.1
      · exact safe_acceptTouch hu
    · cases err with
      | notFound => exact safe_refuseTouch hu
      | passwordVersionChanged | sessionChanged | failed => exact safe_unlock_done hu

theorem safe_touchSessionActivity :
    CallSafe cfg call (touchSessionActivity cfg call id) (fun _ _ => True) w := by
  refine safe_free trivial fun answer u => ?_
  cases answer with
  | inactive => exact safe_done
  | expired reason =>
    refine safe_bind (AuthRely.refl call) ?_
    exact safe_expireSession.post fun _ _ _ _ => safe_done
  | active touch =>
    dsimp only
    split
    · exact safe_done
    · exact safe_persistTouch

theorem safe_expirationTimer :
    CallSafe cfg call (expirationTimer call id) (fun _ _ => True) w := by
  refine safe_free trivial fun expired u => ?_
  cases expired with
  | some reason => exact safe_expireSession
  | none => exact safe_done

theorem safe_discard {p : AuthProg α} (h : CallSafe cfg call p (fun _ _ => True) w) :
    CallSafe cfg call (discard p) (fun _ _ => True) w :=
  safe_bind (AuthRely.refl call) (h.post fun _ _ _ _ => safe_done)

/-- Every call may start in every state. -/
theorem safe_program (c : AuthCall) :
    CallSafe cfg call (c.program cfg verify call) (fun _ _ => True) w := by
  cases c with
  | login password userAgent ipAddress => exact safe_discard safe_login
  | logout sessionID => exact safe_discard safe_logout
  | updatePassword current new => exact safe_discard safe_updatePassword_call
  | authenticateRequest cookie => exact safe_discard safe_authenticateRequest
  | authenticateWebSocket cookie => exact safe_discard safe_authenticateWebSocket
  | touchSessionActivity sessionID => exact safe_discard safe_touchSessionActivity
  | expirationTimer sessionID => exact safe_expirationTimer
  | unsubscribe sessionID subscriber =>
    exact safe_free (k := pure) trivial fun _ _ => safe_done
  | shutdown =>
    exact safe_free (k := pure) trivial fun _ _ => safe_done

/-- A process starts with an empty hub over any database. -/
structure AuthStart (s : AuthPool) : Prop where
  threads : ∀ call, s.threads call = none
  hub : s.world.hub.sessions = ∅
  transitionMu : s.world.transitionMu = none
  log : s.world.log = []

def AuthSafe (cfg : AuthConfig) (s : AuthPool) : Prop :=
  s.Safe (authMachine cfg) AuthAllowed AuthInv AuthRely AuthGuarantee

variable {s : AuthPool}

theorem authSafe_start (h : AuthStart s) : AuthSafe cfg s := by
  refine ⟨⟨?_, ?_, ?_, ?_, fun id hid => ?_⟩, fun call p hp => ?_⟩
  · simp [h.log]
  · simp [h.log]
  · simp [h.log]
  · simp [h.log]
  · rw [h.hub] at hid
    cases hid
  · rw [h.threads call] at hp
    cases hp

theorem authSafe_trInv : (authLts cfg verify).TrInv (AuthSafe cfg) := by
  rintro s l _ ⟨hen, rfl⟩ hs
  cases l with
  | invoke call c => exact hs.set (safe_program c)
  | step call o =>
    refine hs.step authRely_compatible fun c k hc => ?_
    simp only [authEnabled, hc] at hen
    exact hen

/-- Over every interleaving: a session that is accepted after an answered password change is of
a newer version than the one the change verified, which is the version that its login had
verified; and each answered change verified, and stored, a version above all earlier ones. -/
theorem password_change_cuts_off_sessions (h : (authLts cfg verify).Reachable AuthStart s) :
    (s.world.log.Pairwise fun later earlier =>
      ∀ id v n row, later = .accepted id → earlier = .changed v n →
        s.world.tables.sessions.lookup id = some row → v < row.passwordVersion) ∧
    (∀ id u, .created id u ∈ s.world.log →
      ∃ row, s.world.tables.sessions.lookup id = some row ∧ row.passwordVersion = u) ∧
    (s.world.log.Pairwise fun later earlier =>
      ∀ v n v' n', later = .changed v n → earlier = .changed v' n' → v' < v ∧ n' < n) ∧
    ∀ v n, .changed v n ∈ s.world.log → v < n ∧ n ≤ s.world.storedVersion := by
  have hsafe : AuthSafe cfg s :=
    Lts.reachable_of_trInv (fun s hs => authSafe_start hs) authSafe_trInv h
  have hinv := hsafe.1
  refine ⟨hinv.accepted.imp fun hp id v n row hl he hrow => ?_, hinv.created, ?_, fun v n hv => ?_⟩
  · obtain ⟨row', hrow', hv⟩ := hp id v n hl he
    rw [hrow] at hrow'
    cases hrow'
    exact hv
  · refine hinv.ordered.imp_of_mem fun hlater hearlier hp v n v' n' hl he => ?_
    have hle := hp v n v' n' hl he
    have hlt := (hinv.changed v n (hl ▸ hlater)).1
    have hlt' := (hinv.changed v' n' (he ▸ hearlier)).1
    omega
  · obtain ⟨hlt, credentials, hpw, hle⟩ := hinv.changed v n hv
    simp only [AuthWorld.storedVersion, hpw, Option.map_some, Option.getD_some]
    exact ⟨hlt, hle⟩

/-- Sessions last an hour idle and a day in all. -/
def hourly : AuthConfig := ⟨60 * minuteDuration, 24 * 60 * minuteDuration⟩

def freshProcess : AuthPool where
  threads _ := none
  world :=
    { tables := ⟨some ⟨"old", 1⟩, ∅⟩, hub := ⟨∅, 0, false⟩, transitionMu := none, log := [] }

def loginSteps (call : ℕ) (password sessionID : String) : List AuthLabel :=
  [.invoke call (.login password "agent" "127.0.0.1"), .step call {}, .step call { flag := false },
    .step call {}, .step call {}, .step call { text := sessionID }, .step call {}]

/-- A login, a password change, the refused old session, and a login with the new password. -/
def changedPassword : List AuthLabel :=
  loginSteps 0 "old" "s1" ++ [.invoke 1 (.updatePassword "old" "new"), .step 1 {}] ++
    List.replicate 7 (.step 1 { text := "new" }) ++
    .invoke 2 (.authenticateRequest (some "s1")) :: List.replicate 4 (.step 2 {}) ++
    loginSteps 3 "new" "s2" ++
    .invoke 4 (.authenticateRequest (some "s2")) :: List.replicate 6 (.step 4 {})

def afterChange : AuthPool :=
  changedPassword.foldl (authNext hourly fun hash password => hash = password) freshProcess

theorem changed_password_accepts_new_session :
    afterChange.world.log = [.accepted "s2", .created "s2" 2, .changed 1 2, .created "s1" 1] ∧
      afterChange.world.log.Pairwise fun later earlier =>
        ∀ id v n row, later = .accepted id → earlier = .changed v n →
          afterChange.world.tables.sessions.lookup id = some row → v < row.passwordVersion :=
  ⟨by decide +kernel, (@password_change_cuts_off_sessions hourly _ _ ⟨freshProcess,
    ⟨fun _ => rfl, rfl, rfl, rfl⟩, changedPassword, Lts.mTr_ofNext (by decide +kernel)⟩).1⟩

/-- Over every interleaving, a session with live sockets is newer than every answered change. -/
theorem tracked_sessions_are_trusted (h : (authLts cfg verify).Reachable AuthStart s)
    (hid : (s.world.hub.sessions.lookup id).isSome) : Trusted id s.world := by
  obtain ⟨hinv, -⟩ := Lts.reachable_of_trInv (fun _ => authSafe_start) authSafe_trInv h
  exact hinv.hub id hid

theorem new_session_with_socket :
    let run := changedPassword ++ .invoke 5 (.authenticateWebSocket (some "s2")) ::
      List.replicate 7 (.step 5 {})
    Trusted "s2" (run.foldl (authNext hourly fun hash password => hash = password)
      freshProcess).world :=
  @tracked_sessions_are_trusted hourly _ _ _ ⟨freshProcess, ⟨fun _ => rfl, rfl, rfl, rfl⟩, _,
    Lts.mTr_ofNext (by decide +kernel)⟩ (by decide +kernel)

end Stacklab.Auth
