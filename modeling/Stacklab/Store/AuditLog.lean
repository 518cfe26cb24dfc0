import Stacklab.Store.JobTable
import Stacklab.Lib.GoText
import Stacklab.Lib.GoTime
import Stacklab.Lib.SortedPage
import Stacklab.Lib.TimeText
import Mathlib.Data.Prod.Lex

/-! The audit entries of the database and the queries that list them. -/
namespace Stacklab.Store

open Lib

structure AuditEntry where
  id : String
  stackID : Option String
  jobID : Option String
  action : String
  requestedBy : String
  result : String
  requestedAt : Time
  finishedAt : Option Time
  durationMS : Option ℤ
  targetType : String
  targetID : Option String
  detailJSON : Option String
  deriving DecidableEq, Repr

/-- The rows of `audit_entries`; the id is the primary key. -/
structure AuditTable where
  entries : List AuditEntry
  ids : (entries.map AuditEntry.id).Nodup

structure AuditQuery where
  stackID : String := ""
  cursor : String := ""
  search : String := ""
  results : List String := []
  requestedFrom : Option Time := none
  requestedBefore : Option Time := none
  limit : ℤ := 0

structure AuditListResult where
  items : List AuditEntry
  nextCursor : Option String
  deriving DecidableEq, Repr

/-- What the queries use of the Go library and of SQLite. -/
structure AuditLib where
  toLower : String → String
  like : String → String → Bool
  lower : String → String
  julianday : String → Option ℚ
  encodeBase64 : String → String
  decodeBase64 : String → Option String
  parseTime : String → Option Time

/-- The column text of a time. -/
def timeText (t : Time) : String := rfc3339Nano (t + unixTime)

/-- `time.Parse` reads back only years of four digits. -/
def readable (t : Time) : Bool :=
  0 ≤ yearOf (t + unixTime) && yearOf (t + unixTime) ≤ 9999

/-- An empty text is stored as NULL. -/
def nullIfPtr (value : Option String) : Option String := value.filter fun text => text ≠ ""

def AuditTable.createAuditEntry (entry : AuditEntry) (t : AuditTable) :
    Except StoreError AuditTable :=
  let row := { entry with
    stackID := nullIfPtr entry.stackID
    jobID := nullIfPtr entry.jobID
    targetID := nullIfPtr entry.targetID
    detailJSON := nullIfPtr entry.detailJSON }
  if h : row.id ∈ t.entries.map AuditEntry.id then
    .error (.failed "create audit entry: UNIQUE constraint failed")
  else .ok ⟨row :: t.entries, List.nodup_cons.mpr ⟨h, t.ids⟩⟩

/-- The key that `ORDER BY requested_at DESC, id DESC` compares. -/
def textKey (e : AuditEntry) : String ×ₗ String := toLex (timeText e.requestedAt, e.id)

def scanAuditEntry (e : AuditEntry) : Except StoreError AuditEntry :=
  if !readable e.requestedAt then .error (.failed "parse audit requested_at")
  else if e.finishedAt.any fun t => !readable t then .error (.failed "parse audit finished_at")
  else .ok e

section Queries

variable (lib : AuditLib)

def encodeAuditCursor (requestedAt : Time) (id : String) : String :=
  lib.encodeBase64 (timeText requestedAt ++ "|" ++ id)

/-- `strings.SplitN(text, "|", 2)`, if there are two parts. -/
def splitCursor (text : List Char) : Option (List Char × List Char) :=
  if '|' ∈ text then some (text.takeWhile (· ≠ '|'), (text.dropWhile (· ≠ '|')).tail) else none

def decodeAuditCursor (value : String) : Except StoreError (Time × String) :=
  match lib.decodeBase64 value with
  | none => .error (.failed "decode audit cursor")
  | some decoded =>
    match splitCursor decoded.toList with
    | none => .error (.failed "decode audit cursor: invalid cursor")
    | some (time, id) =>
      match lib.parseTime (String.ofList time) with
      | none => .error (.failed "decode audit cursor")
      | some requestedAt => .ok (requestedAt, String.ofList id)

def queryCursor (query : AuditQuery) : Except StoreError (Option (Time × String)) :=
  if query.cursor = "" then .ok none else (decodeAuditCursor lib query.cursor).map some

def escapeLikePattern (value : String) : String :=
  replaceAll (replaceAll (replaceAll value '\\' "\\\\") '%' "\\%") '_' "\\_"

def queryLimit (query : AuditQuery) : ℕ :=
  if query.limit ≤ 0 then 50 else if query.limit > 100 then 100 else query.limit.toNat

/-- A comparison in SQL, which is not true of NULL. -/
def compared (rel : ℚ → ℚ → Bool) (a b : Option ℚ) : Bool :=
  match a, b with
  | some a, some b => rel a b
  | _, _ => false

/-- The `WHERE` clause. -/
def AuditQuery.selects (query : AuditQuery) (cursor : Option (Time × String)) (e : AuditEntry) :
    Bool :=
  let pattern := "%" ++ escapeLikePattern (lib.toLower (trimSpace query.search)) ++ "%"
  (query.stackID = "" || e.stackID = some query.stackID) &&
  (query.search = "" || lib.like pattern (lib.lower e.action) ||
    lib.like pattern (lib.lower (e.stackID.getD ""))) &&
  (query.results.isEmpty || query.results.contains e.result) &&
  (query.requestedFrom.all fun t =>
    compared (fun a b => a ≥ b) (lib.julianday (timeText e.requestedAt))
      (lib.julianday (timeText t))) &&
  (query.requestedBefore.all fun t =>
    compared (fun a b => a < b) (lib.julianday (timeText e.requestedAt))
      (lib.julianday (timeText t))) &&
  (cursor.all fun c => timeText e.requestedAt < timeText c.1 ||
    (timeText e.requestedAt = timeText c.1 && e.id < c.2))

/-- The page of a listing, with a cursor if there was one row more. -/
def auditPage (limit : ℕ) (items : List AuditEntry) : AuditListResult :=
  if items.length > limit then
    ⟨items.take limit, items[limit - 1]?.map fun last =>
      encodeAuditCursor lib last.requestedAt last.id⟩
  else ⟨items, none⟩

def listAuditEntries (query : AuditQuery) (t : AuditTable) : Except StoreError AuditListResult := do
  let cursor ← queryCursor lib query
  let limit := queryLimit query
  let rows := (descending textKey (t.entries.filter (query.selects lib cursor))).take (limit + 1)
  let items ← rows.mapM scanAuditEntry
  .ok (auditPage lib limit items)

end Queries

def firstByStack (rows : List AuditEntry) : GoMap String AuditEntry :=
  rows.foldl (fun result e =>
    match e.stackID with
    | none => result
    | some id => if (result.lookup id).isSome then result else result.insert id e) ∅

def latestAuditEntriesByStackIDs (stackIDs : List String) (t : AuditTable) :
    Except StoreError (GoMap String AuditEntry) := do
  let rows := descending textKey (t.entries.filter fun e => e.stackID.any stackIDs.contains)
  let items ← rows.mapM scanAuditEntry
  .ok (firstByStack items)

end Stacklab.Store
