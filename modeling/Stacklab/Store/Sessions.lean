import Stacklab.Store.JobTable

/-! The password row and the session rows of the database, with the statements on them. -/
namespace Stacklab.Store

open Lib

structure PasswordCredentials where
  hash : String
  version : ℤ
  deriving DecidableEq, Repr

structure SessionRow where
  id : String
  userID : String
  createdAt : Time
  lastSeenAt : Time
  expiresAt : Time
  userAgent : String
  ipAddress : String
  revokedAt : Option Time
  passwordVersion : ℤ
  deriving DecidableEq, Repr

/-- The tables `auth_password`, which has at most one row, and `auth_sessions`. -/
structure AuthTables where
  password : Option PasswordCredentials
  sessions : GoMap String SessionRow

inductive SessionError
  | notFound
  | passwordVersionChanged
  | sessionChanged
  | failed (text : String)
  deriving DecidableEq, Repr

namespace AuthTables

variable {t u : AuthTables} {id : String} {row : SessionRow} {at' : Time}

/-- `UPDATE auth_sessions SET revoked_at = ? WHERE revoked_at IS NULL` -/
def revokeAll (at' : Time) (t : AuthTables) : AuthTables :=
  { t with sessions := t.sessions.mapValues fun row =>
      { row with revokedAt := row.revokedAt.or (some at') } }

def updatePasswordAndRevokeSessions (expectedVersion : ℤ) (passwordHash : String)
    (updatedAt : Time) (t : AuthTables) : Except SessionError AuthTables :=
  match t.password with
  | some credentials =>
    if credentials.version = expectedVersion then
      .ok (revokeAll updatedAt
        { t with password := some ⟨passwordHash, credentials.version + 1⟩ })
    else .error .passwordVersionChanged
  | none => .error .passwordVersionChanged

/-- The statement inserts no row unless the version is current; the id is the primary key. -/
def createSessionAtPasswordVersion (session : SessionRow) (passwordVersion : ℤ)
    (t : AuthTables) : Except SessionError AuthTables :=
  match t.password with
  | some credentials =>
    if credentials.version = passwordVersion then
      match t.sessions.lookup session.id with
      | some _ => .error (.failed "create versioned session: UNIQUE constraint failed")
      | none =>
        let row := { session with revokedAt := none, passwordVersion := passwordVersion }
        .ok { t with sessions := t.sessions.insert session.id row }
    else .error .passwordVersionChanged
  | none => .error .passwordVersionChanged

/-- The session has the password version that is stored now. -/
def isCurrent (t : AuthTables) (row : SessionRow) : Bool :=
  match t.password with
  | some credentials => credentials.version = row.passwordVersion
  | none => false

/-- The id that is read is the key. -/
def sessionAtCurrentPasswordVersion (id : String) (t : AuthTables) :
    Except SessionError SessionRow :=
  match t.sessions.lookup id with
  | some row => if t.isCurrent row then .ok { row with id := id } else .error .notFound
  | none => .error .notFound

def touchSession (id : String) (expectedLastSeenAt lastSeenAt expiresAt : Time)
    (t : AuthTables) : Except SessionError AuthTables :=
  match t.sessions.lookup id with
  | some row =>
    if row.revokedAt = none && row.lastSeenAt = expectedLastSeenAt && t.isCurrent row then
      let touched := { row with lastSeenAt := lastSeenAt, expiresAt := expiresAt }
      .ok { t with sessions := t.sessions.insert id touched }
    else .error .sessionChanged
  | none => .error .sessionChanged

def revokeSession (id : String) (revokedAt : Time) (t : AuthTables) :
    Except SessionError AuthTables :=
  match t.sessions.lookup id with
  | some row =>
    if row.revokedAt = none then
      .ok { t with sessions := t.sessions.insert id { row with revokedAt := some revokedAt } }
    else .error .notFound
  | none => .error .notFound

/-- No session row disappears or changes its password version. -/
def KeepsSessions (t u : AuthTables) : Prop :=
  ∀ id row, t.sessions.lookup id = some row →
    ∃ row', u.sessions.lookup id = some row' ∧ row'.passwordVersion = row.passwordVersion

theorem KeepsSessions.refl (t : AuthTables) : KeepsSessions t t :=
  fun _ row h => ⟨row, h, rfl⟩

theorem KeepsSessions.trans {v : AuthTables} (h : KeepsSessions t u) (h' : KeepsSessions u v) :
    KeepsSessions t v := by
  intro id row hrow
  obtain ⟨row', hrow', heq⟩ := h id row hrow
  obtain ⟨row'', hrow'', heq'⟩ := h' id row' hrow'
  exact ⟨row'', hrow'', heq'.trans heq⟩

theorem keepsSessions_insert {row' : SessionRow} (h : t.sessions.lookup id = some row)
    (hv : row'.passwordVersion = row.passwordVersion) :
    KeepsSessions t { t with sessions := t.sessions.insert id row' } := by
  intro id' r hr
  rw [GoMap.lookup_insert]
  by_cases hid : id' = id
  · subst hid
    rw [h] at hr
    cases hr
    exact ⟨row', if_pos rfl, hv⟩
  · rw [if_neg hid]
    exact ⟨r, hr, rfl⟩

theorem revokeSession_ok (h : revokeSession id at' t = .ok u) :
    KeepsSessions t u ∧ u.password = t.password := by
  unfold revokeSession at h
  split at h
  next row hrow =>
    split at h
    · cases h
      exact ⟨keepsSessions_insert hrow rfl, rfl⟩
    · cases h
  next => cases h

/-- A touched session is of the stored version. -/
theorem touchSession_ok {expected seen expires : Time}
    (h : touchSession id expected seen expires t = .ok u) :
    KeepsSessions t u ∧ u.password = t.password ∧
      ∃ row, u.sessions.lookup id = some row ∧ u.isCurrent row = true := by
  unfold touchSession at h
  split at h
  next row hrow =>
    split at h
    next hcond =>
      cases h
      refine ⟨keepsSessions_insert hrow rfl, rfl, _, by rw [GoMap.lookup_insert, if_pos rfl], ?_⟩
      simp only [Bool.and_eq_true] at hcond
      exact hcond.2
    · cases h
  next => cases h

theorem createSession_ok {version : ℤ} (h : createSessionAtPasswordVersion row version t = .ok u) :
    KeepsSessions t u ∧ u.password = t.password ∧ t.sessions.lookup row.id = none ∧
      ∃ row', u.sessions.lookup row.id = some row' ∧ row'.passwordVersion = version := by
  unfold createSessionAtPasswordVersion at h
  split at h
  next credentials hpw =>
    split at h
    · split at h
      · cases h
      next hnone =>
        cases h
        refine ⟨fun id r hr => ?_, rfl, hnone, _, by rw [GoMap.lookup_insert, if_pos rfl], rfl⟩
        rw [GoMap.lookup_insert]
        by_cases hid : id = row.id
        · subst hid
          rw [hnone] at hr
          cases hr
        · rw [if_neg hid]
          exact ⟨r, hr, rfl⟩
    · cases h
  next => cases h

/-- A password update counts the stored version up from the expected one. -/
theorem updatePassword_ok {expected : ℤ} {hash : String}
    (h : updatePasswordAndRevokeSessions expected hash at' t = .ok u) :
    KeepsSessions t u ∧ (∃ old, t.password = some old ∧ old.version = expected) ∧
      u.password = some ⟨hash, expected + 1⟩ := by
  unfold updatePasswordAndRevokeSessions at h
  split at h
  next credentials hpw =>
    split at h
    next hv =>
      cases h
      refine ⟨fun id row hrow => ?_, ⟨credentials, hpw, hv⟩, by rw [revokeAll, hv]⟩
      refine ⟨{ row with revokedAt := row.revokedAt.or (some at') }, ?_, rfl⟩
      dsimp only [revokeAll]
      rw [GoMap.lookup_mapValues, hrow]
      rfl
    · cases h
  next => cases h

theorem sessionAtCurrentPasswordVersion_ok (h : sessionAtCurrentPasswordVersion id t = .ok row) :
    row.id = id ∧ ∃ stored, t.sessions.lookup id = some stored ∧ t.isCurrent stored = true := by
  unfold sessionAtCurrentPasswordVersion at h
  split at h
  next r hr =>
    split at h
    next hc =>
      cases h
      exact ⟨rfl, r, hr, hc⟩
    · cases h
  next => cases h

end AuthTables

end Stacklab.Store
