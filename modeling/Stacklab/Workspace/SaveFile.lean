import Stacklab.Stacks.StackID
import Stacklab.Workspace.FileSystem

/-! `SaveFile` of the config workspace and of the stack workspace. -/
namespace Stacklab.Workspace

open Lib Stacks

inductive SaveError
  | contentTooLarge
  | notFound
  | pathOutsideWorkspace (detail : String)
  | pathNotDirectory
  | pathNotFile
  | binaryNotEditable
  | permissionDenied
  | reservedPath
  | conflict
  | failed (context : String) (cause : Errno)
  | notRegular (path : Path)
  | message (text : String)
  | wrapped (context : String) (cause : SaveError)
  deriving DecidableEq, Repr

def maxFileContentBytes : ℕ := 2 ^ 20

def Errno.text : Errno → String
  | .notExist => "no such file or directory"
  | .notDir => "not a directory"
  | .loop => "too many levels of symbolic links"
  | .exist => "file exists"
  | .isDir => "is a directory"
  | .failed message => message

/-- The text of an error; the noun is that of the workspace. -/
def SaveError.text (noun : String) : SaveError → String
  | .contentTooLarge => s!"content too large: maximum is {maxFileContentBytes} bytes"
  | .notFound => noun ++ " path not found"
  | .pathOutsideWorkspace "" => "path outside " ++ noun
  | .pathOutsideWorkspace detail => "path outside " ++ noun ++ ": " ++ detail
  | .pathNotDirectory => "path is not a directory"
  | .pathNotFile => "path is not a file"
  | .binaryNotEditable => "binary file is not editable"
  | .permissionDenied => noun ++ " permission denied"
  | .reservedPath => "reserved stack definition path"
  | .conflict => noun ++ " file changed"
  | .failed context cause => context ++ ": " ++ cause.text
  | .notRegular path => "destination \"/" ++ "/".intercalate path ++ "\" is not a regular file"
  | .message text => text
  | .wrapped context cause => context ++ ": " ++ cause.text noun

structure SaveFileRequest where
  path : String
  content : String
  expectedModifiedAt : Option Instant
  createParentDirectories : Bool

structure SaveFileResponse where
  saved : Bool
  stackID : String
  path : List Name
  modifiedAt : Instant
  auditAction : String

/-- What differs between the two workspaces: their name in messages, whether the root is
created on demand, and the audit action. -/
structure Kind where
  noun : String
  createsRoot : Bool
  auditAction : String

def configKind : Kind := ⟨"config workspace", true, "save_config_file"⟩

def stackKind : Kind := ⟨"stack workspace", false, "save_stack_file"⟩

def checkString (content : String) : Option SaveError :=
  if content.utf8ByteSize > maxFileContentBytes then some .contentTooLarge else none

/-- The loop over the parts: empty ones and dots are dropped, a double dot is refused. -/
def cleanParts : List String → Except SaveError (List Name)
  | [] => .ok []
  | part :: rest =>
    if part = "" ∨ part = "." then cleanParts rest
    else if part = ".." then .error (.pathOutsideWorkspace "")
    else (cleanParts rest).map (part :: ·)

/-- The names of a request path; the source joins them with slashes again. -/
def normalizeRelativePath (value : String) : Except SaveError (List Name) :=
  let trimmed := trimSpace (String.ofList (value.toList.map fun c => if c = '\\' then '/' else c))
  if trimmed = "" ∨ trimmed = "." then .ok []
  else if hasPrefix trimmed "/" then .error (.pathOutsideWorkspace "")
  else cleanParts ((trimmed.toList.splitOn '/').map String.ofList)

def normalizeRequiredFilePath (value : String) : Except SaveError (List Name) :=
  match normalizeRelativePath value with
  | .error e => .error e
  | .ok [] => .error .pathNotFile
  | .ok names => .ok names

variable (kind : Kind) (root : Path)

/-- `os.MkdirAll` of the workspace root, where the workspace does that. -/
def prepareRoot : FileProg (Option SaveError) :=
  if kind.createsRoot then do
    match ← mkdirAll root.reverse with
    | some e => pure (some (.failed ("create " ++ kind.noun ++ " root") e))
    | none => pure none
  else pure none

/-- Compare resolved paths; what cannot be resolved is compared as it is written. -/
def ensureWithinRoot (target : Path) : FileProg (Option SaveError) := do
  let resolvedRoot ← (Cmd.evalSymlinks root).issue
  let resolvedTarget ← (Cmd.evalSymlinks target).issue
  let rootAbsolute := resolvedRoot.toOption.getD root
  let targetAbsolute := resolvedTarget.toOption.getD target
  if rootAbsolute.isPrefixOf targetAbsolute then pure none
  else pure (some (.pathOutsideWorkspace ""))

def resolveExistingPath (names : List Name) : FileProg (Except SaveError Path) := do
  match ← prepareRoot kind root with
  | some e => pure (.error e)
  | none =>
    match ← (Cmd.evalSymlinks (root ++ names)).issue with
    | .error .notExist => pure (.error .notFound)
    | .error e => pure (.error (.failed ("resolve " ++ kind.noun ++ " path") e))
    | .ok resolved =>
      match ← ensureWithinRoot root resolved with
      | some e => pure (.error e)
      | none => pure (.ok resolved)

def detectEntryType (p : Path) (info : Node) : FileProg (Except String EntryType) :=
  match info with
  | .dir => pure (.ok .directory)
  | .file true => (Cmd.sample p).issue
  | _ => pure (.ok .unknownFile)

/-- The target when the path exists already. -/
def existingTarget (existing : Path) : FileProg (Except SaveError Path) := do
  match ← (Cmd.stat existing).issue with
  | .error e => pure (.error (.failed ("stat " ++ kind.noun ++ " path") e))
  | .ok .dir => pure (.error .pathNotFile)
  | .ok info =>
    let permissions ← (Cmd.inspect existing).issue
    if !permissions.readable || !permissions.writable then pure (.error .permissionDenied)
    else
      match ← detectEntryType existing info with
      | .error text => pure (.error (.message text))
      | .ok .textFile => pure (.ok existing)
      | .ok _ => pure (.error .binaryNotEditable)

/-- The target in a parent directory that is there by now. -/
def targetInParent (parent : Path) (base : Name) : FileProg (Except SaveError Path) := do
  match ← (Cmd.stat parent).issue with
  | .error .notExist => pure (.error .notFound)
  | .error e => pure (.error (.failed ("stat " ++ kind.noun ++ " parent") e))
  | .ok .dir =>
    let permissions ← (Cmd.inspect parent).issue
    if !permissions.writable then pure (.error .permissionDenied)
    else
      match ← ensureWithinRoot root (parent ++ [base]) with
      | some e => pure (.error e)
      | none => pure (.ok (parent ++ [base]))
  | .ok _ => pure (.error .pathNotDirectory)

/-- The target when the path does not exist yet. -/
def newTarget (parent : List Name) (base : Name) (createParentDirectories : Bool) :
    FileProg (Except SaveError Path) := do
  match ← prepareRoot kind root with
  | some e => pure (.error e)
  | none =>
    match ← resolveExistingPath kind root parent with
    | .ok parentResolved => targetInParent kind root parentResolved base
    | .error .notFound =>
      if createParentDirectories then
        match ← ensureWithinRoot root (root ++ parent) with
        | some e => pure (.error e)
        | none =>
          match ← mkdirAll (root ++ parent).reverse with
          | some e => pure (.error (.failed ("create " ++ kind.noun ++ " parent directories") e))
          | none => targetInParent kind root (root ++ parent) base
      else pure (.error .notFound)
    | .error e => pure (.error e)

def resolveSaveTarget (names : List Name) (createParentDirectories : Bool) :
    FileProg (Except SaveError Path) := do
  match ← resolveExistingPath kind root names with
  | .ok existing => existingTarget kind existing
  | .error .notFound =>
    newTarget kind root names.dropLast (names.getLast?.getD "") createParentDirectories
  | .error e => pure (.error e)

def ensureExpectedModifiedAt (target : Path) (expected : Option Instant) :
    FileProg (Option SaveError) :=
  match expected with
  | none => pure none
  | some expected => do
    match ← (Cmd.modTime target).issue with
    | .error .notExist => pure (some .conflict)
    | .error e => pure (some (.failed ("stat " ++ kind.noun ++ " file before save") e))
    | .ok modTime => pure (if modTime = expected then none else some .conflict)

/-- Whether the destination can be replaced; nothing is kept of a missing one. -/
def snapshotMetadata (path : Path) : FileProg (Option SaveError) := do
  match ← (Cmd.stat path).issue with
  | .error .notExist => pure none
  | .error e => pure (some (.failed "stat destination" e))
  | .ok (.file true) =>
    match ← (Cmd.snapshotPlatformMetadata path).issue with
    | some text => pure (some (.wrapped "snapshot file metadata" (.message text)))
    | none => pure none
  | .ok _ => pure (some (.notRegular path))

/-- The temporary file, filled, given its metadata, synced and closed. -/
def stageTemp (dir : Path) : FileProg (Except SaveError Name) := do
  match ← (Cmd.createTemp dir).issue with
  | .error e => pure (.error (.failed "create temporary file" e))
  | .ok temp =>
    match ← (Cmd.fillTemp dir temp).issue with
    | some text =>
      (Cmd.remove dir temp).issue
      pure (.error (.message text))
    | none => pure (.ok temp)

def stage (dir : Path) (base : Name) : FileProg (Except SaveError Name) := do
  match ← mkdirAll dir.reverse with
  | some e => pure (.error (.failed "create parent directory" e))
  | none =>
    match ← snapshotMetadata (dir ++ [base]) with
    | some e => pure (.error e)
    | none => stageTemp dir

/-- The staged file is removed at the end, whether or not it was renamed. -/
def commit (dir : Path) (base temp : Name) : FileProg (Option SaveError) := do
  match ← (Cmd.rename dir temp base).issue with
  | some e =>
    (Cmd.remove dir temp).issue
    pure (some (.failed "replace destination" e))
  | none =>
    let synced ← (Cmd.syncDir dir).issue
    (Cmd.remove dir temp).issue
    pure (synced.map (.failed "sync parent directory"))

def writeFileAtomic (target : Path) : FileProg (Option SaveError) := do
  let dir := target.dropLast
  let base := target.getLast?.getD ""
  match ← stage dir base with
  | .error e => pure (some e)
  | .ok temp => commit dir base temp

/-- The part of both functions that comes after their own checks of the request. -/
def saveNames (stackID : String) (names : List Name) (request : SaveFileRequest) :
    FileProg (Except SaveError SaveFileResponse) := do
  match ← resolveSaveTarget kind root names request.createParentDirectories with
  | .error e => pure (.error e)
  | .ok target =>
    match ← ensureExpectedModifiedAt kind target request.expectedModifiedAt with
    | some e => pure (.error e)
    | none =>
      match ← writeFileAtomic target with
      | some e => pure (.error (.wrapped ("write " ++ kind.noun ++ " file") e))
      | none =>
        match ← (Cmd.modTime target).issue with
        | .error e => pure (.error (.failed ("stat saved " ++ kind.noun ++ " file") e))
        | .ok modTime => pure (.ok ⟨true, stackID, names, modTime, kind.auditAction⟩)

namespace Config

/-- `SaveFile` of the config workspace. -/
def saveFile (workspaceRoot : Path) (request : SaveFileRequest) :
    FileProg (Except SaveError SaveFileResponse) :=
  match checkString request.content with
  | some e => pure (.error e)
  | none =>
    match normalizeRequiredFilePath request.path with
    | .error e => pure (.error e)
    | .ok names => saveNames configKind workspaceRoot "" names request

end Config

namespace Stack

def stackRoot (rootDir : Path) (stackID : String) : FileProg (Except SaveError Path) :=
  if !isValidStackID stackID then pure (.error .notFound)
  else do
    match ← (Cmd.lstat rootDir stackID).issue with
    | .error .notExist => pure (.error .notFound)
    | .error e => pure (.error (.failed "stat stack root" e))
    | .ok (.link _) => pure (.error (.pathOutsideWorkspace "stack root must not be a symlink"))
    | .ok (.file _) => pure (.error .notFound)
    | .ok .dir =>
      match ← (Cmd.evalSymlinks (rootDir ++ [stackID])).issue with
      | .error .notExist => pure (.error .notFound)
      | .error e => pure (.error (.failed "resolve stack root" e))
      | .ok resolved =>
        match ← ensureWithinRoot rootDir resolved with
        | some e => pure (.error e)
        | none => pure (.ok resolved)

def isReservedDefinitionPath (names : List Name) : Bool :=
  names = ["compose.yaml"] || names = [".env"]

/-- `SaveFile` of the stack workspace. -/
def saveFile (rootDir : Path) (stackID : String) (request : SaveFileRequest) :
    FileProg (Except SaveError SaveFileResponse) :=
  match checkString request.content with
  | some e => pure (.error e)
  | none => do
    match ← stackRoot rootDir stackID with
    | .error e => pure (.error e)
    | .ok root =>
      match normalizeRequiredFilePath request.path with
      | .error e => pure (.error e)
      | .ok names =>
        if isReservedDefinitionPath names then pure (.error .reservedPath)
        else saveNames stackKind root stackID names request

end Stack

end Stacklab.Workspace
