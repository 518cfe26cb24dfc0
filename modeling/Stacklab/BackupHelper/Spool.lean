import Stacklab.Lib.GoMap
import Stacklab.Lib.Prog

/-! The backup helper's spool of prepared restores, and the commands that apply one. -/
namespace Stacklab.BackupHelper

open Lib

inductive RestorePhase
  | prepared
  | moving
  | writing
  | completed
  | rolledBack
  | other (text : String)
  deriving DecidableEq, Repr

def RestorePhase.text : RestorePhase → String
  | .prepared => "prepared"
  | .moving => "moving"
  | .writing => "writing"
  | .completed => "completed"
  | .rolledBack => "rolled_back"
  | .other text => text

inductive RestoreMode
  | replace
  | merge
  | other (text : String)
  deriving DecidableEq, Repr

structure PreparedRestore where
  target : String
  mode : RestoreMode
  phase : RestorePhase
  rollback : String
  moved : List String
  authorizationRoot : String
  rootMetadata : Bool
  sourceScope : String
  deriving DecidableEq, Repr

/-- The file `state.json` of a record. -/
inductive StateFile
  | missing
  | invalid
  | saved (state : PreparedRestore)
  deriving DecidableEq, Repr

/-- An entry of the spool; `members` are the top level names in its `source.tar`. -/
structure Record where
  isDir : Bool
  state : StateFile
  members : List String
  deriving DecidableEq, Repr

/-- An entry of the target: one that was there before, or one that an extraction wrote. -/
inductive Item (α : Type)
  | original (content : α)
  | restored (content : α)
  deriving DecidableEq, Repr

/-- The target directory: its entries, and apart from them the directory that was made under the
rollback name. -/
structure Target (α : Type) where
  entries : GoMap String (Item α)
  rollback : Option (String × GoMap String (Item α))

inductive Event
  | deleted (token : String) (phase : Option RestorePhase)
  | wrote (token : String)
  | extracted (token : String)
  | rootRestored (token : String)
  | saving (token : String) (phase : RestorePhase)
  deriving DecidableEq, Repr

structure World (α : Type) where
  spool : GoMap String Record
  target : Target α
  log : List Event

/-- The calls that only allow or refuse to go on. -/
inductive Check
  | trustedRoots
  | validateRestoreSpool
  | createSpool
  | chmodSpool
  | authorizePath (target : String)
  | rejectRecoveryPrivateTarget (target : String)
  | validateRestoreScope (state : PreparedRestore)
  | validatePreparedTarget (token : String) (state : PreparedRestore)
  | validateAuthorizationRoot (target : String)
  | pinRestoreTarget (state : PreparedRestore)
  | saveRootMetadata (token : String)
  | sync (path : String)
  | readRootHeader (token : String)
  | restoreRootMetadata (token : String)
  | chtimes

inductive Cmd
  | check (what : Check)
  | readSpool
  | aged (name : String)
  | approvedRecoveryRoot (target : String)
  | readState (token : String)
  | removeRecord (token : String)
  | savePrepared (token : String) (state : PreparedRestore)
  | readTarget
  | absent (name : String)
  | mkdir (token name : String)
  | moveAside (rollback name : String)
  | moveBack (rollback name : String)
  | extract (token : String)
  | restoreArchiveRootMetadata (token : String)
  | removeAll (name : String)
  | readRollback (name : String)
  | remove (name : String)

inductive ReadError
  | notExist
  | failed (message : String)
  | invalid
  deriving DecidableEq, Repr

def Ans : Cmd → Type
  | .readSpool => Except String (List (String × Bool))
  | .aged _ | .absent _ => Bool
  | .approvedRecoveryRoot _ => String
  | .readState _ => Except ReadError PreparedRestore
  | .readTarget | .readRollback _ => Except String (List String)
  | _ => Option String

/-- How the environment behaves at one call. What fails may have been done in part: `partly` says
so of the two changes of a record, the other fields say what an extraction or a removal of a tree
leaves. -/
structure Out (α : Type) where
  failure : Option String
  partly : Bool
  aged : Bool
  root : String
  written : List (String × Option α)
  remains : Option α
  lost : List String

variable {α : Type}

def savedState (spool : GoMap String Record) (token : String) : Option PreparedRestore :=
  match spool.lookup token with
  | some ⟨_, .saved state, _⟩ => some state
  | _ => none

def savedPhase (spool : GoMap String Record) (token : String) : Option RestorePhase :=
  (savedState spool token).map PreparedRestore.phase

def setState (spool : GoMap String Record) (token : String) (state : StateFile) :
    GoMap String Record :=
  match spool.lookup token with
  | some record => spool.insert token { record with state }
  | none => spool

namespace Target

def has (target : Target α) (name : String) : Bool :=
  (target.entries.lookup name).isSome || target.rollback.any (·.1 = name)

/-- Write, or unlink, one top level entry; this takes the place of a directory of that name. -/
def write (target : Target α) (name : String) (content : Option α) : Target α :=
  { entries := match content with
      | some content => target.entries.insert name (.restored content)
      | none => target.entries.erase name
    rollback := target.rollback.filter (·.1 ≠ name) }

def writeAll (target : Target α) (written : List (String × Option α)) : Target α :=
  written.foldl (fun target change => target.write change.1 change.2) target

/-- Rename an entry into the directory under the rollback name. -/
def moveAside (target : Target α) (rollback name : String) : Option (Target α) :=
  match target.rollback, target.entries.lookup name with
  | some (made, aside), some item =>
    if made = rollback then
      some ⟨target.entries.erase name, some (made, aside.insert name item)⟩
    else none
  | _, _ => none

/-- Rename an entry of that directory back. -/
def moveBack (target : Target α) (rollback name : String) : Option (Target α) :=
  match target.rollback with
  | some (made, aside) =>
    match aside.lookup name with
    | some item =>
      if made = rollback then
        some ⟨target.entries.insert name item, some (made, aside.erase name)⟩
      else none
    | none => none
  | none => none

/-- What a removal of the tree under a name leaves of the target. -/
def removeAll (target : Target α) (name : String) : Target α :=
  ⟨target.entries.erase name, target.rollback.filter (·.1 ≠ name)⟩

/-- The same if it fails half way. -/
def removeSome (target : Target α) (name : String) (o : Out α) : Target α where
  entries := if (target.entries.lookup name).isSome then
      match o.remains with
      | some content => target.entries.insert name (.restored content)
      | none => target.entries.erase name
    else target.entries
  rollback := target.rollback.map fun made =>
    if made.1 = name then (made.1, o.lost.foldl (fun aside lost => aside.erase lost) made.2)
    else made

end Target

namespace World

def record (w : World α) (event : Event) : World α := { w with log := event :: w.log }

def readSpool (w : World α) (o : Out α) : Except String (List (String × Bool)) :=
  match o.failure with
  | some message => .error message
  | none => .ok (w.spool.entries.map fun entry => (entry.1, entry.2.isDir))

def readState (w : World α) (token : String) (o : Out α) : Except ReadError PreparedRestore :=
  match o.failure, w.spool.lookup token with
  | some message, _ => .error (.failed message)
  | none, none | none, some ⟨_, .missing, _⟩ => .error .notExist
  | none, some ⟨_, .invalid, _⟩ => .error .invalid
  | none, some ⟨_, .saved state, _⟩ => .ok state

/-- `os.RemoveAll` of a record; its state file may be gone though it fails. -/
def removeRecord (w : World α) (token : String) (o : Out α) : Option String × World α :=
  let logged := w.record (.deleted token (savedPhase w.spool token))
  match o.failure with
  | none => (none, { logged with spool := w.spool.erase token })
  | some message =>
    (some message, if o.partly then { logged with spool := setState w.spool token .missing }
      else logged)

/-- All or nothing, but the state may be saved though an error is reported. -/
def savePrepared (w : World α) (token : String) (state : PreparedRestore) (o : Out α) :
    Option String × World α :=
  let logged := w.record (.saving token state.phase)
  let saved := { logged with spool := setState w.spool token (.saved state) }
  match o.failure with
  | none => (none, saved)
  | some message => (some message, if o.partly then saved else logged)

def readTarget (w : World α) (o : Out α) : Except String (List String) :=
  match o.failure with
  | some message => .error message
  | none => .ok (w.target.entries.keys ++ (w.target.rollback.map Prod.fst).toList)

def readRollback (w : World α) (name : String) (o : Out α) : Except String (List String) :=
  match o.failure, w.target.rollback with
  | some message, _ => .error message
  | none, some (made, aside) =>
    if made = name then .ok aside.keys else .error "no such file or directory"
  | none, none => .error "no such file or directory"

/-- A change of the target that may fail, and then does nothing. -/
def change (w : World α) (o : Out α) (target : Option (Target α)) : Option String × World α :=
  match o.failure, target with
  | none, some target => (none, { w with target })
  | none, none => (some "no such file or directory", w)
  | some message, _ => (some message, w)

def mkdir (w : World α) (token name : String) (o : Out α) : Option String × World α :=
  if w.target.has name then (some "file exists", w)
  else (w.record (.wrote token)).change o (some ⟨w.target.entries, some (name, ∅)⟩)

/-- Extraction of the archive of a record: it changes entries that the archive has, and those only,
also if it fails. -/
def extract (w : World α) (token : String) (o : Out α) : Option String × World α :=
  match w.spool.lookup token with
  | none => (some "no such file or directory", w)
  | some record =>
    let w := w.record (.wrote token)
    let w := { w with
      target := w.target.writeAll (o.written.filter fun change => change.1 ∈ record.members) }
    match o.failure with
    | none => (none, w.record (.extracted token))
    | some message => (some message, w)

def restoreArchiveRootMetadata (w : World α) (token : String) (o : Out α) :
    Option String × World α :=
  match o.failure with
  | none => (none, w.record (.rootRestored token))
  | some message => (some message, w)

def removeAll (w : World α) (name : String) (o : Out α) : Option String × World α :=
  match o.failure with
  | none => (none, { w with target := w.target.removeAll name })
  | some message => (some message, { w with target := w.target.removeSome name o })

/-- `os.Remove` of the directory under the rollback name. -/
def remove (w : World α) (name : String) (o : Out α) : Option String × World α :=
  match w.target.rollback with
  | some (made, aside) =>
    if made = name ∧ aside.entries = [] then w.change o (some ⟨w.target.entries, none⟩)
    else (some "directory not empty", w)
  | none => (some "no such file or directory", w)

end World

def helperMachine : Machine Cmd Ans (Out α) (World α) where
  exec
  | .check _, o, w => (o.failure, w)
  | .readSpool, o, w => (w.readSpool o, w)
  | .aged _, o, w => (o.aged, w)
  | .approvedRecoveryRoot _, o, w => (o.root, w)
  | .readState token, o, w => (w.readState token o, w)
  | .removeRecord token, o, w => w.removeRecord token o
  | .savePrepared token state, o, w => w.savePrepared token state o
  | .readTarget, o, w => (w.readTarget o, w)
  | .absent name, o, w => (o.failure.isNone && !w.target.has name, w)
  | .mkdir token name, o, w => w.mkdir token name o
  | .moveAside rollback name, o, w => w.change o (w.target.moveAside rollback name)
  | .moveBack rollback name, o, w => w.change o (w.target.moveBack rollback name)
  | .extract token, o, w => w.extract token o
  | .restoreArchiveRootMetadata token, o, w => w.restoreArchiveRootMetadata token o
  | .removeAll name, o, w => w.removeAll name o
  | .readRollback name, o, w => (w.readRollback name o, w)
  | .remove name, o, w => w.remove name o

abbrev HelperProg : Type → Type := Prog Cmd Ans

abbrev Cmd.issue (c : Cmd) : HelperProg (Ans c) := Prog.issue c

end Stacklab.BackupHelper
