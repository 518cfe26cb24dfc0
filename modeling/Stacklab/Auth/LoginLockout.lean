import Stacklab.Lib.GoText
import Stacklab.Lib.Lts
import Stacklab.Lib.Threads
import Stacklab.Store.JobTable

/-! The login attempts of each client: the lockout, and `Login` as a program over them. -/
namespace Stacklab.Auth.Lockout

open Lib Store

/-- `lockedUntil` is `none` while the time is the zero value. -/
structure LoginAttemptState where
  firstFailedAt : Time
  failedCount : ℕ
  lockedUntil : Option Time
  updatedAt : Time
  deriving DecidableEq, Repr

structure LoginConfig where
  loginMaxFailures : ℤ
  loginFailureWindow : ℤ
  loginLockoutDuration : ℤ
  maxTrackedLoginClients : ℤ

def fiveMinutes : ℤ := 300000000000

def defaultLoginVerificationConcurrency : ℕ := 2

def defaultMaxTrackedLoginClients : ℕ := 4096

namespace LoginConfig

variable (cfg : LoginConfig)

def maxFailures : ℕ := if cfg.loginMaxFailures ≤ 0 then 5 else cfg.loginMaxFailures.toNat

def failureWindow : ℤ := if cfg.loginFailureWindow ≤ 0 then fiveMinutes else cfg.loginFailureWindow

def lockoutDuration : ℤ :=
  if cfg.loginLockoutDuration ≤ 0 then fiveMinutes else cfg.loginLockoutDuration

def maxTrackedClients : ℕ :=
  if cfg.maxTrackedLoginClients ≤ 0 then defaultMaxTrackedLoginClients
  else cfg.maxTrackedLoginClients.toNat

theorem maxFailures_pos : 0 < cfg.maxFailures := by
  unfold maxFailures
  split <;> omega

end LoginConfig

def loginAttemptKey (ipAddress : String) : String :=
  let trimmed := trimSpace ipAddress
  if trimmed = "" then "unknown" else trimmed

abbrev LoginAttempts : Type := GoMap String LoginAttemptState

def loginAttemptExpired (attempt : LoginAttemptState) (now : Time) (failureWindow : ℤ) : Bool :=
  match attempt.lockedUntil with
  | some lockedUntil => lockedUntil ≤ now
  | none => 0 < attempt.failedCount ∧ failureWindow < now - attempt.firstFailedAt

def expiredClients (attempts : LoginAttempts) (now : Time) (failureWindow : ℤ) (key : String) :
    Bool :=
  (attempts.lookup key).any fun attempt => loginAttemptExpired attempt now failureWindow

def pruneLoginAttempts (attempts : LoginAttempts) (now : Time) (failureWindow : ℤ) :
    LoginAttempts :=
  attempts.eraseWhere (expiredClients attempts now failureWindow)

/-- The client that was updated longest ago; the smaller key of two updated together. -/
def oldestLoginAttempt (attempts : LoginAttempts) : Option (String × Time) :=
  attempts.entries.foldl (fun oldest e =>
    match oldest with
    | none => some (e.1, e.2.updatedAt)
    | some (key, updatedAt) =>
      if e.2.updatedAt < updatedAt ∨ (e.2.updatedAt = updatedAt ∧ e.1 < key) then
        some (e.1, e.2.updatedAt)
      else oldest) none

def evictOldestLoginAttempt (attempts : LoginAttempts) : LoginAttempts :=
  match oldestLoginAttempt attempts with
  | none => attempts
  | some (key, _) => attempts.erase key

section Failure

variable (cfg : LoginConfig) (attempts : LoginAttempts) (key : String) (now : Time)

/-- Whether a failure starts a new window: there is none, or it is over. -/
def startsWindow : Bool :=
  match (pruneLoginAttempts attempts now cfg.failureWindow).lookup key with
  | none => true
  | some attempt =>
    attempt.failedCount = 0 ∨ cfg.failureWindow < now - attempt.firstFailedAt

/-- The attempts of a client once another failure is counted. -/
def countFailure (attempt : LoginAttemptState) : LoginAttemptState where
  firstFailedAt := attempt.firstFailedAt
  failedCount := attempt.failedCount + 1
  updatedAt := now
  lockedUntil :=
    if cfg.maxFailures ≤ attempt.failedCount + 1 then some (now + cfg.lockoutDuration)
    else attempt.lockedUntil

def failedAttempt : LoginAttemptState :=
  match (pruneLoginAttempts attempts now cfg.failureWindow).lookup key with
  | none => countFailure cfg now ⟨now, 0, none, now⟩
  | some attempt =>
    if startsWindow cfg attempts key now then countFailure cfg now ⟨now, 0, none, now⟩
    else countFailure cfg now attempt

/-- Recording a failure of a new client takes the place of another one's. -/
def evicts : Bool :=
  let pruned := pruneLoginAttempts attempts now cfg.failureWindow
  (pruned.lookup key).isNone && decide (cfg.maxTrackedClients ≤ pruned.entries.length)

def recordFailure : LoginAttempts :=
  let pruned := pruneLoginAttempts attempts now cfg.failureWindow
  let kept := if evicts cfg attempts key now then evictOldestLoginAttempt pruned else pruned
  kept.insert key (failedAttempt cfg attempts key now)

end Failure

/-- A password verification that has begun: the client, its recorded lockout and the time. -/
structure Verification where
  client : String
  lockedUntil : Option Time
  startedAt : Time
  deriving DecidableEq, Repr

/-- `loginInFlight` has the call that made the reservation, which only observes, as do the last
four fields: the calls between their lock check and their reservation, the failed verifications
of each client since its failures were last cleared or expired, the clients with a failed
verification that is not recorded yet, and the verifications. -/
structure LoginWorld where
  clock : Time
  loginAttempts : LoginAttempts
  loginInFlight : GoMap String ℕ
  loginVerificationSlots : ℕ
  checking : List (ℕ × String)
  failures : String → ℕ
  unrecorded : String → Bool
  begun : List Verification

inductive LoginError
  | tooManyAttempts
  | notConfigured
  | invalidCredentials
  | failed (text : String)
  deriving DecidableEq, Repr

inductive LoginCmd
  | now
  | loginLocked (call : ℕ) (ipAddress : String) (now : Time)
  | acquireSlot (call : ℕ)
  | reserve (call : ℕ) (ipAddress : String)
  | passwordCredentials
  | beginVerification (ipAddress : String)
  | verifyPassword (ipAddress hash password : String)
  | recordLoginFailure (ipAddress : String) (now : Time)
  | clearLoginFailures (ipAddress : String)
  | createSession
  | unreserve (ipAddress : String)
  | releaseSlot

@[reducible] def LoginAns : LoginCmd → Type
  | .now => Time
  | .loginLocked _ _ _ | .reserve _ _ | .verifyPassword _ _ _ => Bool
  | .acquireSlot _ => Except LoginError Unit
  | .createSession => Except String Unit
  | .passwordCredentials => Except String (Option String)
  | .beginVerification _ | .recordLoginFailure _ _ | .clearLoginFailures _ | .unreserve _
  | .releaseSlot => Unit

/-- Whether the context is cancelled or a statement fails, and the hash that is stored. -/
structure LoginOut where
  failure : Option String := none
  hash : Option String := some "hash"

namespace LoginWorld

variable (w : LoginWorld) (cfg : LoginConfig)

def lockedUntil (client : String) : Option Time :=
  (w.loginAttempts.lookup client).bind LoginAttemptState.lockedUntil

def leaveCheck (call : ℕ) : LoginWorld :=
  { w with checking := w.checking.filter fun c => c.1 ≠ call }

def forget (client : String) : LoginWorld :=
  { w with
    loginAttempts := w.loginAttempts.erase client
    failures := Function.update w.failures client 0 }

def loginLocked (call : ℕ) (client : String) (now : Time) : Bool × LoginWorld :=
  match w.loginAttempts.lookup client with
  | none => (false, { w with checking := (call, client) :: w.checking })
  | some attempt =>
    if loginAttemptExpired attempt now cfg.failureWindow then
      (false, { w.forget client with checking := (call, client) :: w.checking })
    else if attempt.lockedUntil.any fun lockedUntil => now < lockedUntil then (true, w)
    else (false, { w with checking := (call, client) :: w.checking })

def reserve (call : ℕ) (client : String) : Bool × LoginWorld :=
  match w.loginInFlight.lookup client with
  | some _ => (false, w.leaveCheck call)
  | none =>
    (true, { w.leaveCheck call with loginInFlight := w.loginInFlight.insert client call })

def beginVerification (client : String) : LoginWorld :=
  { w with begun := ⟨client, w.lockedUntil client, w.clock⟩ :: w.begun }

def failVerification (client : String) : LoginWorld :=
  { w with
    failures := Function.update w.failures client (w.failures client + 1)
    unrecorded := Function.update w.unrecorded client true }

/-- The failures of the expired clients count no more; a new window has one. -/
def recordLoginFailure (client : String) (now : Time) : LoginWorld :=
  { w with
    loginAttempts := recordFailure cfg w.loginAttempts client now
    failures := fun c =>
      if c = client then
        if startsWindow cfg w.loginAttempts client now then 1 else w.failures client
      else if expiredClients w.loginAttempts now cfg.failureWindow c then 0 else w.failures c
    unrecorded := Function.update w.unrecorded client false }

end LoginWorld

section Machine

variable (cfg : LoginConfig) (verify : String → String → Bool)

def loginExec : (c : LoginCmd) → LoginOut → LoginWorld → LoginAns c × LoginWorld
  | .now, _, w => (w.clock, w)
  | .loginLocked call ipAddress now, _, w => w.loginLocked cfg call (loginAttemptKey ipAddress) now
  | .acquireSlot call, o, w =>
    match o.failure with
    | some err => (.error (.failed err), w.leaveCheck call)
    | none =>
      if w.loginVerificationSlots < defaultLoginVerificationConcurrency then
        (.ok (), { w with loginVerificationSlots := w.loginVerificationSlots + 1 })
      else (.error .tooManyAttempts, w.leaveCheck call)
  | .reserve call ipAddress, _, w => w.reserve call (loginAttemptKey ipAddress)
  | .passwordCredentials, o, w =>
    (match o.failure with | some err => .error err | none => .ok o.hash, w)
  | .beginVerification ipAddress, _, w => ((), w.beginVerification (loginAttemptKey ipAddress))
  | .verifyPassword ipAddress hash password, _, w =>
    if verify hash password then (true, w)
    else (false, w.failVerification (loginAttemptKey ipAddress))
  | .recordLoginFailure ipAddress now, _, w =>
    ((), w.recordLoginFailure cfg (loginAttemptKey ipAddress) now)
  | .clearLoginFailures ipAddress, _, w => ((), w.forget (loginAttemptKey ipAddress))
  | .createSession, o, w => (match o.failure with | some err => .error err | none => .ok (), w)
  | .unreserve ipAddress, _, w =>
    ((), { w with loginInFlight := w.loginInFlight.erase (loginAttemptKey ipAddress) })
  | .releaseSlot, _, w => ((), { w with loginVerificationSlots := w.loginVerificationSlots - 1 })

def loginMachine : Machine LoginCmd LoginAns LoginOut LoginWorld := ⟨loginExec cfg verify⟩

end Machine

abbrev LoginProg (α : Type) : Type := Prog LoginCmd LoginAns α

abbrev LoginCmd.issue (c : LoginCmd) : LoginProg (LoginAns c) := Prog.issue c

/-- The deferred release of a verification. -/
def releaseVerification (ipAddress : String) (result : Except LoginError Unit) :
    LoginProg (Except LoginError Unit) := do
  LoginCmd.issue (.unreserve ipAddress)
  LoginCmd.issue .releaseSlot
  pure result

def acquireLoginVerification (call : ℕ) (ipAddress : String) : LoginProg (Except LoginError Unit) :=
  do
  let slot ← LoginCmd.issue (.acquireSlot call)
  match slot with
  | .error err => pure (.error err)
  | .ok () =>
    let reserved ← LoginCmd.issue (.reserve call ipAddress)
    if reserved then pure (.ok ())
    else do
      LoginCmd.issue .releaseSlot
      pure (.error .tooManyAttempts)

/-- `Login` once it has its reservation. -/
def loginReserved (password ipAddress : String) (now : Time) : LoginProg (Except LoginError Unit) :=
  do
  let credentials ← LoginCmd.issue .passwordCredentials
  match credentials with
  | .error err => releaseVerification ipAddress (.error (.failed err))
  | .ok hash =>
    match hash with
    | none => releaseVerification ipAddress (.error .notConfigured)
    | some hash =>
      if hash = "" then releaseVerification ipAddress (.error .notConfigured)
      else do
        LoginCmd.issue (.beginVerification ipAddress)
        let verified ← LoginCmd.issue (.verifyPassword ipAddress hash password)
        if verified then do
          LoginCmd.issue (.clearLoginFailures ipAddress)
          let created ← LoginCmd.issue .createSession
          match created with
          | .error err => releaseVerification ipAddress (.error (.failed err))
          | .ok () => releaseVerification ipAddress (.ok ())
        else do
          LoginCmd.issue (.recordLoginFailure ipAddress now)
          releaseVerification ipAddress (.error .invalidCredentials)

def login (call : ℕ) (password ipAddress : String) : LoginProg (Except LoginError Unit) := do
  let now ← LoginCmd.issue .now
  let locked ← LoginCmd.issue (.loginLocked call ipAddress now)
  if locked then pure (.error .tooManyAttempts)
  else
    let acquired ← acquireLoginVerification call ipAddress
    match acquired with
    | .error err => pure (.error err)
    | .ok () => loginReserved password ipAddress now

abbrev LoginPool : Type := Pool ℕ LoginCmd LoginAns LoginWorld

inductive LoginLabel
  | invoke (call : ℕ) (password ipAddress : String)
  | step (call : ℕ) (o : LoginOut)
  | tick (clock : Time)

/-- The clients are few enough that no attempts are evicted. -/
def LoginCmd.fits (cfg : LoginConfig) (w : LoginWorld) : LoginCmd → Bool
  | .recordLoginFailure ipAddress failedAt =>
    !evicts cfg w.loginAttempts (loginAttemptKey ipAddress) failedAt
  | _ => true

/-- No other call of the client is between its lock check and its reservation. -/
def LoginCmd.alone (w : LoginWorld) : LoginCmd → Bool
  | .recordLoginFailure ipAddress _ => w.checking.all fun c => c.2 ≠ loginAttemptKey ipAddress
  | _ => true

section Runs

variable (cfg : LoginConfig) (verify : String → String → Bool)

/-- A call number is used once, and the clock does not go back. -/
def loginEnabled (s : LoginPool) : LoginLabel → Bool
  | .invoke call _ _ => (s.threads call).isNone
  | .step call _ =>
    match s.threads call with
    | some (.call c _) => c.fits cfg s.world
    | _ => true
  | .tick clock => s.world.clock ≤ clock

def loginNext (s : LoginPool) : LoginLabel → LoginPool
  | .invoke call password ipAddress =>
    s.set call (login call password ipAddress >>= fun _ => pure ()) s.world
  | .step call o => s.step (loginMachine cfg verify) call o
  | .tick clock => { s with world := { s.world with clock } }

def loginLts : Lts LoginPool LoginLabel := Lts.ofNext (loginEnabled cfg) (loginNext cfg verify)

/-- A failure is recorded only while no call of the client can still pass on an older check. -/
def aloneAt (s : LoginPool) : LoginLabel → Bool
  | .step call _ =>
    match s.threads call with
    | some (.call c _) => c.alone s.world
    | _ => true
  | _ => true

def carefulLoginLts : Lts LoginPool LoginLabel :=
  Lts.ofNext (fun s l => loginEnabled cfg s l && aloneAt s l) (loginNext cfg verify)

end Runs

/-- The service as `NewService` makes it, at any time. -/
structure NewService (s : LoginPool) : Prop where
  threads : ∀ call, s.threads call = none
  loginAttempts : s.world.loginAttempts = ∅
  loginInFlight : s.world.loginInFlight = ∅
  observed : s.world.checking = [] ∧ (∀ c, s.world.failures c = 0) ∧
    (∀ c, s.world.unrecorded c = false) ∧ s.world.begun = []

/-- No verification begins under a lockout, and a client without one has failed at most as often
as it may since its failures were cleared or expired. -/
structure LockoutHolds (cfg : LoginConfig) (w : LoginWorld) : Prop where
  begun : ∀ v ∈ w.begun, ∀ t, v.lockedUntil = some t → t ≤ v.startedAt
  bounded : ∀ client, w.lockedUntil client = none → w.failures client ≤ cfg.maxFailures

end Stacklab.Auth.Lockout
