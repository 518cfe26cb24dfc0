import Stacklab.BackupHelper.Spool

/-! The helper's prepared restores: apply, roll back, release, and the cleaning of the spool. -/
namespace Stacklab.BackupHelper

open Lib

inductive HelperError
  | message (text : String)
  /-- The join of the error of the extraction with that of the rollback, or of saving it. -/
  | extraction (err : String) (rollback saved : Option String)
  deriving DecidableEq, Repr

def restoreSpoolRoot : String := "/var/lib/stacklab-backup-helper"

def isHexDigit (c : Char) : Bool :=
  ('0' ≤ c && c ≤ '9') || ('a' ≤ c && c ≤ 'f') || ('A' ≤ c && c ≤ 'F')

/-- The directory of a record; it is known by its token from here on. -/
def preparedPath (token : String) : Except String String :=
  if token.utf8ByteSize ≠ 48 then .error "invalid prepared recovery token"
  else if !token.toList.all isHexDigit then .error "invalid prepared recovery token"
  else .ok (restoreSpoolRoot ++ "/" ++ token)

/-- The phases in which a record may go. -/
def releasable (phase : RestorePhase) : Bool :=
  phase = .prepared || phase = .completed || phase = .rolledBack

/-- The part of the loop over the spool that looks at one record. -/
def cleanRecord (token : String) : HelperProg Unit := do
  match ← (Cmd.readState token).issue with
  | .error .notExist =>
    let _ ← (Cmd.removeRecord token).issue
    pure ()
  | .error _ => pure ()
  | .ok state =>
    if releasable state.phase then
      let _ ← (Cmd.removeRecord token).issue
      pure ()
    else pure ()

def cleanEntry (entry : String × Bool) : HelperProg Unit :=
  match preparedPath entry.1, entry.2 with
  | .ok _, true => do
    match ← (Cmd.aged entry.1).issue with
    | true => cleanRecord entry.1
    | false => pure ()
  | _, _ => pure ()

def cleanEntries : List (String × Bool) → HelperProg Unit
  | [] => pure ()
  | entry :: entries => do
    cleanEntry entry
    cleanEntries entries

/-- Make the checks one after another and stop at the first refusal. -/
def checkAll : List Check → HelperProg (Option String) :=
  Prog.forEach fun what => (Cmd.check what).issue

def privateRestoreSpool : HelperProg (Option String) := do
  match ← checkAll [.validateRestoreSpool, .createSpool, .chmodSpool] with
  | some err => pure (some err)
  | none =>
    match ← Cmd.readSpool.issue with
    | .error err => pure (some err)
    | .ok entries => do
      cleanEntries entries
      pure none

def rollbackNameOf (token : String) : String := ".stacklab-rollback-" ++ token

/-- The loop that moves the entries of the target into the rollback directory. -/
def moveAllAside (rollbackName : String) : List String → HelperProg (Option String) :=
  Prog.forEach fun name => (Cmd.moveAside rollbackName name).issue

def moveAllBack (rollbackName : String) : List String → HelperProg (Option String) :=
  Prog.forEach fun name => (Cmd.moveBack rollbackName name).issue

def removeExtracted (rollbackName name : String) : HelperProg (Option String) :=
  if name ≠ rollbackName then (Cmd.removeAll name).issue else pure none

def removeAllBut (rollbackName : String) : List String → HelperProg (Option String) :=
  Prog.forEach (removeExtracted rollbackName)

def restoreSavedRoot (token : String) (state : PreparedRestore) : HelperProg (Option String) :=
  if state.rootMetadata then (Cmd.check (.restoreRootMetadata token)).issue else pure none

def rollbackPrepared (token : String) (state : PreparedRestore) : HelperProg (Option String) := do
  let rollbackName := rollbackNameOf token
  match ← Cmd.readTarget.issue with
  | .error err => pure (some err)
  | .ok names =>
    match ← removeAllBut rollbackName names with
    | some err => pure (some err)
    | none =>
      match ← (Cmd.readRollback rollbackName).issue with
      | .error err => pure (some err)
      | .ok names =>
        match ← moveAllBack rollbackName names with
        | some err => pure (some err)
        | none =>
          match ← (Cmd.remove rollbackName).issue with
          | some err => pure (some err)
          | none => restoreSavedRoot token state

/-- The record of a replacement that is about to move the entries of the target. -/
def planReplace (token : String) (state : PreparedRestore) :
    HelperProg (Except String PreparedRestore) := do
  match ← (Cmd.check (.saveRootMetadata token)).issue with
  | some err => pure (.error err)
  | none =>
    match ← Cmd.readTarget.issue with
    | .error err => pure (.error err)
    | .ok names =>
      match ← (Cmd.absent (rollbackNameOf token)).issue with
      | true => pure (.ok { state with
          rootMetadata := true
          phase := .moving
          rollback := state.target ++ "/" ++ rollbackNameOf token
          moved := state.moved ++ names })
      | false => pure (.error "rollback directory already exists")

def planRestore (token : String) (state : PreparedRestore) :
    HelperProg (Except String PreparedRestore) :=
  if state.mode = .replace then planReplace token state
  else pure (.ok { state with phase := .writing })

/-- The replacement between its two first saved records. -/
def stashEntries (token : String) (state : PreparedRestore) :
    HelperProg (Except String PreparedRestore) := do
  let rollbackName := rollbackNameOf token
  match ← (Cmd.mkdir token rollbackName).issue with
  | some err => pure (.error err)
  | none =>
    match ← moveAllAside rollbackName state.moved with
    | some err => pure (.error
      ("replacement interrupted; rollback content retained at " ++ state.rollback ++ ": " ++ err))
    | none =>
      match ← checkAll [.sync ".", .sync rollbackName] with
      | some err => pure (.error err)
      | none =>
        let state := { state with phase := .writing }
        match ← (Cmd.savePrepared token state).issue with
        | some err => pure (.error err)
        | none => pure (.ok state)

def stashIfReplace (token : String) (state : PreparedRestore) :
    HelperProg (Except String PreparedRestore) :=
  if state.mode = .replace then stashEntries token state else pure (.ok state)

/-- The metadata of the target itself. -/
def restoreRoot (token : String) : HelperProg (Option String) := do
  match ← (Cmd.restoreArchiveRootMetadata token).issue with
  | some err => pure (some err)
  | none => (Cmd.check (.readRootHeader token)).issue

def restoreRootOf (token : String) (replace : Bool) : HelperProg (Option String) :=
  if replace then restoreRoot token else pure none

def removeRollback (token : String) (state : PreparedRestore) (replace : Bool) :
    HelperProg (Option String) :=
  if state.rollback ≠ "" then
    (Cmd.removeAll (if replace then rollbackNameOf token else "")).issue
  else pure none

def resetTimes (replace : Bool) : HelperProg (Option String) :=
  if replace then (Cmd.check .chtimes).issue else pure none

/-- What follows once the restored data is complete. -/
def cleanUp (token : String) (state : PreparedRestore) (replace : Bool) :
    HelperProg (Option String) := do
  match ← removeRollback token state replace with
  | some err => pure (some ("restored data is complete; remove rollback at " ++ state.rollback ++
      " after inspection: " ++ err))
  | none =>
    match ← resetTimes replace with
    | some err => pure (some ("restored content and metadata are complete; resetting directory " ++
        "timestamps after rollback cleanup failed: " ++ err))
    | none => pure none

/-- Extraction and what follows it; `replace` says whether originals were moved aside. -/
def extractPrepared (token : String) (state : PreparedRestore) (replace : Bool) :
    HelperProg (Option HelperError) := do
  match ← (Cmd.extract token).issue with
  | some err =>
    if replace then
      match ← rollbackPrepared token state with
      | some rollbackErr => pure (some (.extraction err (some rollbackErr) none))
      | none =>
        let saveErr ← (Cmd.savePrepared token { state with phase := .rolledBack }).issue
        pure (some (.extraction err none saveErr))
    else pure (some (.message err))
  | none =>
    match ← restoreRootOf token replace with
    | some err => pure (some (.message err))
    | none =>
      match ← cleanUp token state replace with
      | some err => pure (some (.message err))
      | none =>
        let saveErr ← (Cmd.savePrepared token { state with phase := .completed }).issue
        pure (saveErr.map .message)

def applyPreparedRestore (token : String) (state : PreparedRestore) :
    HelperProg (Option HelperError) := do
  match ← checkAll [.trustedRoots, .validateRestoreScope state, .pinRestoreTarget state] with
  | some err => pure (some (.message err))
  | none =>
    match ← planRestore token state with
    | .error err => pure (some (.message err))
    | .ok state =>
      match ← (Cmd.savePrepared token state).issue with
      | some err => pure (some (.message err))
      | none =>
        match ← stashIfReplace token state with
        | .error err => pure (some (.message err))
        | .ok state => extractPrepared token state (state.mode = .replace)

inductive Action
  | checkRestore
  | releaseRestore
  | applyRestore
  deriving DecidableEq, Repr

def ReadError.text : ReadError → String
  | .notExist => "no such file or directory"
  | .failed message => message
  | .invalid => "invalid character in state.json"

def releaseRecord (token directory : String) (state : PreparedRestore) :
    HelperProg (Option HelperError) :=
  if releasable state.phase then do
    let err ← (Cmd.removeRecord token).issue
    pure (err.map .message)
  else pure (some (.message ("interrupted recovery retained for inspection at " ++ directory)))

/-- The checks that come before a prepared restore is applied. -/
def checkPrepared (token directory : String) (state : PreparedRestore) :
    HelperProg (Option String) := do
  match ← checkAll [.authorizePath state.target, .rejectRecoveryPrivateTarget state.target,
      .validateRestoreScope state] with
  | some err => pure (some err)
  | none =>
    if state.phase = .prepared then
      checkAll [.validatePreparedTarget token state, .validateAuthorizationRoot state.target]
    else pure (some ("recovery is " ++ state.phase.text ++ "; inspect " ++ directory ++
      " before retrying"))

/-- One action on a record whose state was read. -/
def runAction (action : Action) (token directory : String) (state : PreparedRestore) :
    HelperProg (Option HelperError) :=
  if action = .releaseRestore then releaseRecord token directory state
  else do
    match ← checkPrepared token directory state with
    | some err => pure (some (.message err))
    | none =>
      if action = .checkRestore then pure none
      else
        let authorizationRoot ← (Cmd.approvedRecoveryRoot state.target).issue
        applyPreparedRestore token { state with authorizationRoot }

/-- `runPreparedRestore` for the actions that take a token. -/
def runPreparedRestore (action : Action) (token : String) : HelperProg (Option HelperError) := do
  match ← (Cmd.check .trustedRoots).issue with
  | some err => pure (some (.message err))
  | none =>
    match ← privateRestoreSpool with
    | some err => pure (some (.message err))
    | none =>
      match preparedPath token with
      | .error err => pure (some (.message err))
      | .ok directory =>
        match ← (Cmd.readState token).issue with
        | .error err => pure (some (.message err.text))
        | .ok state => runAction action token directory state

end Stacklab.BackupHelper
