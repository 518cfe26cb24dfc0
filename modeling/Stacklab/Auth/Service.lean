import Stacklab.Auth.SessionHub
import Stacklab.Lib.Lts
import Stacklab.Lib.Threads

/-! The authentication service: its calls as programs over the database, the session hub and
the lock `sessionTransitionMu`. -/
namespace Stacklab.Auth

open Lib Store

/-- What the calls of the service have answered so far. `created` and `accepted` name a
session; `changed` has the version that `UpdatePassword` verified and the one stored then. -/
inductive AuthEvent
  | created (sessionID : String) (version : ℤ)
  | changed (verified stored : ℤ)
  | accepted (sessionID : String)
  deriving DecidableEq, Repr

/-- `log` only observes; the newest event comes first. -/
structure AuthWorld where
  tables : AuthTables
  hub : SessionHub
  transitionMu : Option ℕ
  log : List AuthEvent

inductive AuthError
  | unauthorized
  | invalidCredentials
  | notConfigured
  | tooManyAttempts
  | failed (text : String)
  deriving DecidableEq, Repr

inductive AuthCmd
  | now
  | loginLocked (ipAddress : String)
  | acquireLoginVerification (ipAddress : String)
  | newSessionID
  | hashPassword (password : String)
  | passwordCredentials
  | createSession (session : SessionRow) (passwordVersion : ℤ)
  | updatePassword (expectedVersion : ℤ) (passwordHash : String) (updatedAt : Time)
  | sessionAtCurrentVersion (id : String)
  | touchSession (id : String) (expectedLastSeenAt lastSeenAt expiresAt : Time)
  | revokeSession (id : String) (revokedAt : Time)
  | lock (call : ℕ)
  | unlock
  | subscribe (session : Session)
  | unsubscribe (id : String) (subscriber : ℕ)
  | touch (id : String)
  | touchLease (id : String) (expiresAt : Time)
  | touchPersisted (id : String) (lastSeenAt expiresAt : Time)
  | terminate (id : String) (reason : TerminationReason)
  | terminateAll (reason : TerminationReason)
  | expire (id : String)
  | shutdown
  | accept (id : String)
  | passwordChanged (verified : ℤ)

@[reducible] def AuthAns : AuthCmd → Type
  | .now => Time
  | .loginLocked _ | .acquireLoginVerification _ => Bool
  | .newSessionID | .hashPassword _ => Except String String
  | .passwordCredentials => Except String (Option PasswordCredentials)
  | .createSession _ _ | .updatePassword _ _ _ | .touchSession _ _ _ _
  | .revokeSession _ _ => Except SessionError Unit
  | .sessionAtCurrentVersion _ => Except SessionError SessionRow
  | .touch _ => TouchAnswer
  | .expire _ => Option TerminationReason
  | .lock _ | .unlock | .subscribe _ | .unsubscribe _ _ | .touchLease _ _
  | .touchPersisted _ _ _ | .terminate _ _ | .terminateAll _ | .shutdown | .accept _
  | .passwordChanged _ => Unit

/-- The clock's reading, whether a statement fails, and what is drawn at random. -/
structure AuthOut where
  time : Time := 0
  failure : Option String := none
  text : String := ""
  flag : Bool := true

namespace AuthWorld

/-- A statement that fails has no effect. -/
def write (w : AuthWorld) (o : AuthOut) (result : Except SessionError AuthTables) :
    Except SessionError Unit × AuthWorld :=
  match o.failure, result with
  | some text, _ => (.error (.failed text), w)
  | none, .error err => (.error err, w)
  | none, .ok tables => (.ok (), { w with tables := tables })

def observe (w : AuthWorld) (event : AuthEvent) : AuthWorld := { w with log := event :: w.log }

/-- Observe an event if the statement went through. -/
def observeOk (event : AuthEvent) :
    Except SessionError Unit × AuthWorld → Except SessionError Unit × AuthWorld
  | (.ok (), w) => (.ok (), w.observe event)
  | (.error err, w) => (.error err, w)

def storedVersion (w : AuthWorld) : ℤ := (w.tables.password.map (·.version)).getD 0

end AuthWorld

/-- A touch that need not be persisted is itself the answer of `TouchSessionActivity`. -/
def touchAccepts : TouchAnswer → Bool
  | .active touch => !touch.shouldPersist
  | _ => false

def authExec (cfg : AuthConfig) : (c : AuthCmd) → AuthOut → AuthWorld → AuthAns c × AuthWorld
  | .now, o, w => (o.time, w)
  | .loginLocked _, o, w => (o.flag, w)
  | .acquireLoginVerification _, o, w => (o.flag, w)
  | .newSessionID, o, w | .hashPassword _, o, w =>
    (match o.failure with | some err => .error err | none => .ok o.text, w)
  | .passwordCredentials, o, w =>
    (match o.failure with | some err => .error err | none => .ok w.tables.password, w)
  | .createSession session version, o, w =>
    AuthWorld.observeOk (.created session.id version)
      (w.write o (w.tables.createSessionAtPasswordVersion session version))
  | .updatePassword expected hash updatedAt, o, w =>
    w.write o (w.tables.updatePasswordAndRevokeSessions expected hash updatedAt)
  | .sessionAtCurrentVersion id, o, w =>
    (match o.failure with
      | some text => .error (.failed text)
      | none => w.tables.sessionAtCurrentPasswordVersion id, w)
  | .touchSession id expected seen expires, o, w =>
    w.write o (w.tables.touchSession id expected seen expires)
  | .revokeSession id revokedAt, o, w => w.write o (w.tables.revokeSession id revokedAt)
  | .lock call, _, w => ((), { w with transitionMu := some call })
  | .unlock, _, w => ((), { w with transitionMu := none })
  | .subscribe session, o, w => ((), { w with hub := w.hub.subscribe cfg o.time session })
  | .unsubscribe id subscriber, _, w => ((), { w with hub := w.hub.unsubscribe id subscriber })
  | .touch id, o, w =>
    let (answer, hub) := w.hub.touch cfg o.time id
    let w' := { w with hub := hub }
    (answer, if touchAccepts answer then w'.observe (.accepted id) else w')
  | .touchLease id expiresAt, _, w => ((), { w with hub := w.hub.touchLease id expiresAt })
  | .touchPersisted id seen expiresAt, _, w =>
    ((), { w with hub := w.hub.touchPersisted id seen expiresAt })
  | .terminate id _, _, w => ((), { w with hub := w.hub.terminate id })
  | .terminateAll _, _, w => ((), { w with hub := w.hub.terminateAll })
  | .expire id, o, w => ((w.hub.expire o.time id).1, { w with hub := (w.hub.expire o.time id).2 })
  | .shutdown, _, w => ((), { w with hub := w.hub.shutdown })
  | .accept id, _, w => ((), w.observe (.accepted id))
  | .passwordChanged verified, _, w => ((), w.observe (.changed verified w.storedVersion))

def authMachine (cfg : AuthConfig) : Machine AuthCmd AuthAns AuthOut AuthWorld := ⟨authExec cfg⟩

/-- The lock is taken only when it is free. -/
def AuthCmd.ready : AuthCmd → AuthWorld → Bool
  | .lock _, w => w.transitionMu = none
  | _, _ => true

def AuthAllowed (c : AuthCmd) (_ : AuthOut) (w : AuthWorld) : Prop := c.ready w = true

abbrev AuthProg (α : Type) : Type := Prog AuthCmd AuthAns α

abbrev AuthCmd.issue (c : AuthCmd) : AuthProg (AuthAns c) := Prog.issue c

section Calls

variable (cfg : AuthConfig) (verify : String → String → Bool)

def localUserID : String := "local"

def SessionError.text : SessionError → String
  | .notFound => "not found"
  | .passwordVersionChanged => "password version changed"
  | .sessionChanged => "session changed"
  | .failed text => text

/-- The row that `Login` inserts for the credentials it has verified. -/
def newSession (sessionID userAgent ipAddress : String) (now : Time) (version : ℤ) : SessionRow where
  id := sessionID
  userID := localUserID
  createdAt := now
  lastSeenAt := now
  expiresAt := min (now + cfg.sessionIdleTimeout) (now + cfg.sessionAbsoluteLifetime)
  userAgent := userAgent
  ipAddress := ipAddress
  revokedAt := none
  passwordVersion := version

/-- The session that an accepted record stands for. -/
def sessionOf (record : SessionRow) (lastSeenAt expiresAt : Time) : Session where
  id := record.id
  userID := record.userID
  createdAt := record.createdAt
  lastSeenAt := lastSeenAt
  expiresAt := expiresAt

/-- The credentials, if one is configured and the password matches its hash. -/
def verifiedCredentials (password : String) : AuthProg (Except AuthError PasswordCredentials) := do
  let loaded ← AuthCmd.issue .passwordCredentials
  match loaded with
  | .error err => pure (.error (.failed err))
  | .ok none => pure (.error .notConfigured)
  | .ok (some credentials) =>
    if credentials.hash = "" then pure (.error .notConfigured)
    else if verify credentials.hash password then pure (.ok credentials)
    else pure (.error .invalidCredentials)

def login (password userAgent ipAddress : String) : AuthProg (Except AuthError Session) := do
  let now ← AuthCmd.issue .now
  let locked ← AuthCmd.issue (.loginLocked ipAddress)
  if locked then pure (.error .tooManyAttempts)
  else
    let acquired ← AuthCmd.issue (.acquireLoginVerification ipAddress)
    if !acquired then pure (.error .tooManyAttempts)
    else
      let verified ← verifiedCredentials verify password
      match verified with
      | .error err => pure (.error err)
      | .ok credentials =>
        let drawn ← AuthCmd.issue .newSessionID
        match drawn with
        | .error err => pure (.error (.failed err))
        | .ok sessionID =>
          let row := newSession cfg sessionID userAgent ipAddress now credentials.version
          let created ← AuthCmd.issue (.createSession row credentials.version)
          match created with
          | .error .passwordVersionChanged => pure (.error .invalidCredentials)
          | .error err => pure (.error (.failed (SessionError.text err)))
          | .ok () => pure (.ok (sessionOf row row.lastSeenAt row.expiresAt))

def logout (call : ℕ) (sessionID : String) : AuthProg (Except AuthError Unit) :=
  if sessionID = "" then pure (.error .unauthorized)
  else do
    AuthCmd.issue (.lock call)
    let now ← AuthCmd.issue .now
    let revoked ← AuthCmd.issue (.revokeSession sessionID now)
    match revoked with
    | .error .notFound => do
      AuthCmd.issue .unlock
      pure (.error .unauthorized)
    | .error err => do
      AuthCmd.issue .unlock
      pure (.error (.failed (SessionError.text err)))
    | .ok () => do
      AuthCmd.issue (.terminate sessionID .logout)
      AuthCmd.issue .unlock
      pure (.ok ())

def updatePassword (call : ℕ) (currentPassword newPassword : String) :
    AuthProg (Except AuthError Unit) := do
  let verified ← verifiedCredentials verify currentPassword
  match verified with
  | .error err => pure (.error err)
  | .ok credentials =>
    let hashed ← AuthCmd.issue (.hashPassword newPassword)
    match hashed with
    | .error err => pure (.error (.failed err))
    | .ok updatedHash =>
      AuthCmd.issue (.lock call)
      let now ← AuthCmd.issue .now
      let updated ← AuthCmd.issue (.updatePassword credentials.version updatedHash now)
      match updated with
      | .error .passwordVersionChanged => do
        AuthCmd.issue .unlock
        pure (.error .invalidCredentials)
      | .error err => do
        AuthCmd.issue .unlock
        pure (.error (.failed (SessionError.text err)))
      | .ok () => do
        AuthCmd.issue (.terminateAll .passwordChanged)
        AuthCmd.issue (.passwordChanged credentials.version)
        AuthCmd.issue .unlock
        pure (.ok ())

def invalidSessionReason (record : SessionRow) (now : Time) : Option TerminationReason :=
  if record.revokedAt.isSome then some .revoked
  else if record.createdAt + cfg.sessionAbsoluteLifetime ≤ now then some .absoluteExpired
  else if record.expiresAt ≤ now then some .idleExpired
  else none

/-- The attempts of `authenticateRequest`; a concurrent touch uses one up. -/
def authenticateSession (sessionID : String) : ℕ → AuthProg (Except AuthError Session)
  | 0 => pure (.error (.failed "authenticate session after concurrent touches: session changed"))
  | attempts + 1 => do
    let loaded ← AuthCmd.issue (.sessionAtCurrentVersion sessionID)
    match loaded with
    | .error .notFound => do
      AuthCmd.issue (.terminate sessionID .revoked)
      pure (.error .unauthorized)
    | .error err => pure (.error (.failed (SessionError.text err)))
    | .ok record =>
      let now ← AuthCmd.issue .now
      match invalidSessionReason cfg record now with
      | some reason => do
        let _ ← AuthCmd.issue (.revokeSession record.id now)
        AuthCmd.issue (.terminate record.id reason)
        pure (.error .unauthorized)
      | none =>
        let nextExpiresAt :=
          min (now + cfg.sessionIdleTimeout) (record.createdAt + cfg.sessionAbsoluteLifetime)
        if now - record.lastSeenAt ≥ sessionTouchInterval cfg.sessionIdleTimeout then do
          let touched ←
            AuthCmd.issue (.touchSession record.id record.lastSeenAt now nextExpiresAt)
          match touched with
          | .error .sessionChanged => authenticateSession sessionID attempts
          | .error err => pure (.error (.failed (SessionError.text err)))
          | .ok () => do
            AuthCmd.issue (.touchPersisted record.id now nextExpiresAt)
            pure (.ok (sessionOf record now nextExpiresAt))
        else do
          AuthCmd.issue (.touchLease record.id nextExpiresAt)
          pure (.ok (sessionOf record record.lastSeenAt nextExpiresAt))

def authenticate (cookie : Option String) : AuthProg (Except AuthError Session) :=
  match cookie with
  | none => pure (.error .unauthorized)
  | some value =>
    if value = "" then pure (.error .unauthorized) else authenticateSession cfg value 2

def authenticateRequest (call : ℕ) (cookie : Option String) :
    AuthProg (Except AuthError Session) := do
  AuthCmd.issue (.lock call)
  let result ← authenticate cfg cookie
  match result with
  | .error err => do
    AuthCmd.issue .unlock
    pure (.error err)
  | .ok session => do
    AuthCmd.issue (.accept session.id)
    AuthCmd.issue .unlock
    pure (.ok session)

def authenticateWebSocket (call : ℕ) (cookie : Option String) :
    AuthProg (Except AuthError Session) := do
  AuthCmd.issue (.lock call)
  let result ← authenticate cfg cookie
  match result with
  | .error err => do
    AuthCmd.issue .unlock
    pure (.error err)
  | .ok session => do
    AuthCmd.issue (.subscribe session)
    AuthCmd.issue (.accept session.id)
    AuthCmd.issue .unlock
    pure (.ok session)

def expireSession (call : ℕ) (sessionID : String) (reason : TerminationReason) :
    AuthProg Unit := do
  AuthCmd.issue (.lock call)
  let now ← AuthCmd.issue .now
  let _ ← AuthCmd.issue (.revokeSession sessionID now)
  AuthCmd.issue (.terminate sessionID reason)
  AuthCmd.issue .unlock

/-- The end of a touch that the database accepted. -/
def acceptTouch (sessionID : String) (lastSeenAt expiresAt : Time) :
    AuthProg (Except AuthError Unit) := do
  AuthCmd.issue (.touchPersisted sessionID lastSeenAt expiresAt)
  AuthCmd.issue (.accept sessionID)
  AuthCmd.issue .unlock
  pure (.ok ())

def refuseTouch (sessionID : String) (reason : TerminationReason) :
    AuthProg (Except AuthError Unit) := do
  AuthCmd.issue (.terminate sessionID reason)
  AuthCmd.issue .unlock
  pure (.error .unauthorized)

def failTouch (text : String) : AuthProg (Except AuthError Unit) := do
  AuthCmd.issue .unlock
  pure (.error (.failed text))

def persistTouch (call : ℕ) (sessionID : String) (touch : ActivityTouch) :
    AuthProg (Except AuthError Unit) := do
  AuthCmd.issue (.lock call)
  let touched ← AuthCmd.issue
    (.touchSession sessionID touch.expectedLastSeenAt touch.activityAt touch.expiresAt)
  match touched with
  | .ok () => acceptTouch sessionID touch.activityAt touch.expiresAt
  | .error .notFound => refuseTouch sessionID .revoked
  | .error .sessionChanged => do
    let loaded ← AuthCmd.issue (.sessionAtCurrentVersion sessionID)
    match loaded with
    | .error .notFound => refuseTouch sessionID .revoked
    | .error err => failTouch (SessionError.text err)
    | .ok record =>
      let now ← AuthCmd.issue .now
      match invalidSessionReason cfg record now with
      | some reason => refuseTouch sessionID reason
      | none => acceptTouch sessionID record.lastSeenAt record.expiresAt
  | .error err => failTouch (SessionError.text err)

def touchSessionActivity (call : ℕ) (sessionID : String) : AuthProg (Except AuthError Unit) := do
  let answer ← AuthCmd.issue (.touch sessionID)
  match answer with
  | .inactive => pure (.error .unauthorized)
  | .expired reason => do
    expireSession call sessionID reason
    pure (.error .unauthorized)
  | .active touch =>
    if !touch.shouldPersist then pure (.ok ()) else persistTouch cfg call sessionID touch

/-- The timer of a tracked session. -/
def expirationTimer (call : ℕ) (sessionID : String) : AuthProg Unit := do
  let expired ← AuthCmd.issue (.expire sessionID)
  match expired with
  | some reason => expireSession call sessionID reason
  | none => pure ()

end Calls

inductive AuthCall
  | login (password userAgent ipAddress : String)
  | logout (sessionID : String)
  | updatePassword (currentPassword newPassword : String)
  | authenticateRequest (cookie : Option String)
  | authenticateWebSocket (cookie : Option String)
  | touchSessionActivity (sessionID : String)
  | expirationTimer (sessionID : String)
  | unsubscribe (sessionID : String) (subscriber : ℕ)
  | shutdown

def discard {α : Type} (p : AuthProg α) : AuthProg Unit := p >>= fun _ => pure ()

def AuthCall.program (cfg : AuthConfig) (verify : String → String → Bool) (call : ℕ) :
    AuthCall → AuthProg Unit
  | .login password userAgent ipAddress => discard (Auth.login cfg verify password userAgent ipAddress)
  | .logout sessionID => discard (Auth.logout call sessionID)
  | .updatePassword current new => discard (Auth.updatePassword verify call current new)
  | .authenticateRequest cookie => discard (Auth.authenticateRequest cfg call cookie)
  | .authenticateWebSocket cookie => discard (Auth.authenticateWebSocket cfg call cookie)
  | .touchSessionActivity sessionID => discard (Auth.touchSessionActivity cfg call sessionID)
  | .expirationTimer sessionID => Auth.expirationTimer call sessionID
  | .unsubscribe sessionID subscriber => AuthCmd.issue (.unsubscribe sessionID subscriber)
  | .shutdown => AuthCmd.issue .shutdown

abbrev AuthPool : Type := Pool ℕ AuthCmd AuthAns AuthWorld

inductive AuthLabel
  | invoke (call : ℕ) (c : AuthCall)
  | step (call : ℕ) (o : AuthOut)

/-- A call number is used once, and a call that waits for the lock does not step. -/
def authEnabled (s : AuthPool) : AuthLabel → Bool
  | .invoke call _ => (s.threads call).isNone
  | .step call _ =>
    match s.threads call with
    | some (.call c _) => c.ready s.world
    | _ => true

def authNext (cfg : AuthConfig) (verify : String → String → Bool) (s : AuthPool) :
    AuthLabel → AuthPool
  | .invoke call c => s.set call (c.program cfg verify call) s.world
  | .step call o => s.step (authMachine cfg) call o

def authLts (cfg : AuthConfig) (verify : String → String → Bool) : Lts AuthPool AuthLabel :=
  Lts.ofNext authEnabled (authNext cfg verify)

end Stacklab.Auth
