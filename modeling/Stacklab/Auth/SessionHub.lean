import Stacklab.Store.Sessions

/-! The in-memory leases of active transports: `sessionLifecycleHub`. -/
namespace Stacklab.Auth

open Lib Store

structure AuthConfig where
  sessionIdleTimeout : ℤ
  sessionAbsoluteLifetime : ℤ

/-- The part of a session that the service hands out. -/
structure Session where
  id : String
  userID : String
  createdAt : Time
  lastSeenAt : Time
  expiresAt : Time
  deriving DecidableEq, Repr

inductive TerminationReason
  | logout
  | passwordChanged
  | revoked
  | idleExpired
  | absoluteExpired
  deriving DecidableEq, Repr

structure TrackedSession where
  idleDeadline : Time
  absoluteDeadline : Time
  lastPersistedAt : Time
  subscribers : List ℕ
  deriving DecidableEq, Repr

structure SessionHub where
  sessions : GoMap String TrackedSession
  nextSubscriberID : ℕ
  closing : Bool

structure ActivityTouch where
  activityAt : Time
  expiresAt : Time
  expectedLastSeenAt : Time
  shouldPersist : Bool
  deriving DecidableEq, Repr

/-- What `Touch` finds: no lease, a lease that has run out, or an active one. -/
inductive TouchAnswer
  | inactive
  | expired (reason : TerminationReason)
  | active (touch : ActivityTouch)
  deriving DecidableEq, Repr

def minuteDuration : ℤ := 60 * 1000000000

def sessionTouchInterval (idleTimeout : ℤ) : ℤ :=
  let interval := idleTimeout.tdiv 2
  if interval ≤ 0 || interval > minuteDuration then minuteDuration else interval

def TrackedSession.expirationReason (tracked : TrackedSession) (now : Time) :
    Option TerminationReason :=
  if tracked.absoluteDeadline ≤ now then some .absoluteExpired
  else if tracked.idleDeadline ≤ now then some .idleExpired
  else none

namespace SessionHub

variable {hub : SessionHub} {id : String} {cfg : AuthConfig} {now expiresAt : Time}

/-- The session's subscribers are told and its lease ends. -/
def terminate (id : String) (hub : SessionHub) : SessionHub :=
  { hub with sessions := hub.sessions.erase id }

def terminateAll (hub : SessionHub) : SessionHub := { hub with sessions := ∅ }

def shutdown (hub : SessionHub) : SessionHub := { hub with sessions := ∅, closing := true }

/-- A later deadline or write is kept, an earlier one ignored. -/
def TrackedSession.advance (tracked : TrackedSession) (idleDeadline lastPersistedAt : Time) :
    TrackedSession :=
  { tracked with idleDeadline := max tracked.idleDeadline idleDeadline
                 lastPersistedAt := max tracked.lastPersistedAt lastPersistedAt }

def subscribe (cfg : AuthConfig) (now : Time) (session : Session) (hub : SessionHub) :
    SessionHub :=
  let absoluteDeadline := session.createdAt + cfg.sessionAbsoluteLifetime
  let idleDeadline := min session.expiresAt absoluteDeadline
  if hub.closing || idleDeadline ≤ now then hub
  else
    let tracked : TrackedSession := match hub.sessions.lookup session.id with
      | none => ⟨idleDeadline, absoluteDeadline, session.lastSeenAt, []⟩
      | some tracked => TrackedSession.advance tracked idleDeadline session.lastSeenAt
    let subscriber := hub.nextSubscriberID + 1
    let joined := { tracked with subscribers := subscriber :: tracked.subscribers }
    { hub with sessions := hub.sessions.insert session.id joined, nextSubscriberID := subscriber }

def unsubscribe (id : String) (subscriber : ℕ) (hub : SessionHub) : SessionHub :=
  match hub.sessions.lookup id with
  | none => hub
  | some tracked =>
    let remaining := tracked.subscribers.filter (· ≠ subscriber)
    if remaining = [] then hub.terminate id
    else { hub with sessions := hub.sessions.insert id { tracked with subscribers := remaining } }

def touch (cfg : AuthConfig) (now : Time) (id : String) (hub : SessionHub) :
    TouchAnswer × SessionHub :=
  match hub.sessions.lookup id with
  | none => (.inactive, hub)
  | some tracked =>
    if hub.closing then (.inactive, hub)
    else
      match tracked.expirationReason now with
      | some reason => (.expired reason, hub.terminate id)
      | none =>
        let idleDeadline := min (now + cfg.sessionIdleTimeout) tracked.absoluteDeadline
        let extended := { tracked with idleDeadline := idleDeadline }
        let shouldPersist :=
          now - tracked.lastPersistedAt ≥ sessionTouchInterval cfg.sessionIdleTimeout
        (.active ⟨now, idleDeadline, tracked.lastPersistedAt, shouldPersist⟩,
          { hub with sessions := hub.sessions.insert id extended })

def touchLease (id : String) (expiresAt : Time) (hub : SessionHub) : SessionHub :=
  match hub.sessions.lookup id with
  | none => hub
  | some tracked =>
    if hub.closing then hub
    else
      let deadline := min expiresAt tracked.absoluteDeadline
      let advanced := TrackedSession.advance tracked deadline tracked.lastPersistedAt
      { hub with sessions := hub.sessions.insert id advanced }

def touchPersisted (id : String) (lastSeenAt expiresAt : Time) (hub : SessionHub) : SessionHub :=
  match hub.sessions.lookup id with
  | none => hub
  | some tracked =>
    if hub.closing then hub
    else
      let deadline := min expiresAt tracked.absoluteDeadline
      let advanced := TrackedSession.advance tracked deadline lastSeenAt
      { hub with sessions := hub.sessions.insert id advanced }

/-- A timer fires: the lease ends if it has really run out. -/
def expire (now : Time) (id : String) (hub : SessionHub) :
    Option TerminationReason × SessionHub :=
  match hub.sessions.lookup id with
  | none => (none, hub)
  | some tracked =>
    match tracked.expirationReason now with
    | some reason => (some reason, hub.terminate id)
    | none => (none, hub)

/-- The hub tracks no session that it did not track before. -/
def Within (hub' hub : SessionHub) : Prop :=
  ∀ id, (hub'.sessions.lookup id).isSome → (hub.sessions.lookup id).isSome

theorem Within.refl (hub : SessionHub) : Within hub hub := fun _ h => h

theorem within_terminate : Within (hub.terminate id) hub := by
  intro id' h
  rw [terminate, GoMap.lookup_erase] at h
  split at h
  · cases h
  · exact h

theorem within_terminateAll : Within hub.terminateAll hub := fun _ h => by cases h

theorem within_shutdown : Within hub.shutdown hub := fun _ h => by cases h

theorem within_insert {tracked tracked' : TrackedSession}
    (h : hub.sessions.lookup id = some tracked) :
    Within { hub with sessions := hub.sessions.insert id tracked' } hub := by
  intro id' hid
  rw [GoMap.lookup_insert] at hid
  split at hid
  next heq =>
    rw [heq, h]
    rfl
  · exact hid

theorem within_unsubscribe {subscriber : ℕ} : Within (hub.unsubscribe id subscriber) hub := by
  unfold unsubscribe
  split
  · exact Within.refl hub
  next tracked h =>
    dsimp only
    split
    · exact within_terminate
    · exact within_insert h

theorem within_touch : Within (hub.touch cfg now id).2 hub := by
  unfold touch
  split
  · exact Within.refl hub
  next tracked h =>
    split
    · exact Within.refl hub
    · split
      · exact within_terminate
      · exact within_insert h

/-- Only a tracked session is found active. -/
theorem tracked_of_touch {touch : ActivityTouch} (h : (hub.touch cfg now id).1 = .active touch) :
    (hub.sessions.lookup id).isSome := by
  unfold SessionHub.touch at h
  split at h
  · cases h
  next tracked hid => rw [hid]; rfl

theorem within_touchLease : Within (hub.touchLease id expiresAt) hub := by
  unfold touchLease
  split
  · exact Within.refl hub
  next tracked h =>
    split
    · exact Within.refl hub
    · exact within_insert h

theorem within_touchPersisted {seen : Time} :
    Within (hub.touchPersisted id seen expiresAt) hub := by
  unfold touchPersisted
  split
  · exact Within.refl hub
  next tracked h =>
    split
    · exact Within.refl hub
    · exact within_insert h

theorem within_expire : Within (hub.expire now id).2 hub := by
  unfold expire
  split
  · exact Within.refl hub
  · split
    · exact within_terminate
    · exact Within.refl hub

/-- Subscribing tracks the session itself at most. -/
theorem mem_subscribe {session : Session}
    (h : ((hub.subscribe cfg now session).sessions.lookup id).isSome) :
    id = session.id ∨ (hub.sessions.lookup id).isSome := by
  unfold subscribe at h
  dsimp only at h
  split at h
  · exact .inr h
  · rw [GoMap.lookup_insert] at h
    split at h
    next heq => exact .inl heq
    · exact .inr h

end SessionHub

end Stacklab.Auth
