import Stacklab.AdminHelper.Target
import Stacklab.Lib.Lts
import Stacklab.Lib.Threads

/-! The privileged repair of owners, modes and access lists, beside a user who changes the files. -/
namespace Stacklab.AdminHelper

open Lib Workspace

structure Attributes where
  uid : ℕ
  gid : ℕ
  perm : ℕ
  deriving DecidableEq, Repr

/-- What `os.Lstat` returns. -/
structure FileInfo extends Attributes where
  node : Node
  deriving DecidableEq, Repr

inductive EntryKind
  | dir
  | symlink
  | other
  deriving DecidableEq, Repr

/-- What `os.ReadDir` returns about a name. -/
structure DirEntry where
  name : Name
  kind : EntryKind
  deriving DecidableEq, Repr

def FileInfo.kind (info : FileInfo) : EntryKind :=
  match info.node with
  | .dir => .dir
  | .link _ => .symlink
  | .file _ => .other

def FileInfo.isRegular (info : FileInfo) : Bool := info.node = .file true

inductive Change
  | chown (uid gid : ℕ)
  | chmod (mode : ℕ)
  | setfacl (entries : List String)
  deriving DecidableEq, Repr

def Change.apply : Change → Attributes → Attributes
  | .chown uid gid, a => { a with uid, gid }
  | .chmod perm, a => { a with perm }
  | .setfacl _, a => a

/-- The files, the answers of `filepath.EvalSymlinks` in their order, and every change with the
place of the file that it was made to. -/
structure HelperWorld where
  tree : Tree
  attributes : Path → Attributes
  resolved : List (List Name × Except Errno Path)
  changed : List (Change × Path)

inductive HelperCmd
  | evalSymlinks (p : List Name)
  | lstat (p : Path)
  | readDir (p : Path)
  | change (c : Change) (p : Path)

def HelperAns : HelperCmd → Type
  | .evalSymlinks _ => Except Errno Path
  | .lstat _ => Except Errno FileInfo
  | .readDir _ => Except Errno (List DirEntry)
  | .change _ _ => Option Errno

/-- `entries` is what a directory yields while others may be changing it. -/
structure HelperOut where
  failure : Option String := none
  entries : List DirEntry := []

/-- The place of a path whose last name is not followed. -/
def lstatPlace (t : Tree) (p : Path) : Except Errno Path :=
  match p.getLast? with
  | none => .ok []
  | some n => (lookupDir t p.dropLast).map (· ++ [n])

/-- The place of a path whose links are all followed. -/
def statPlace (t : Tree) (p : Path) : Except Errno Path :=
  match walk t.node kernelLinks [] p with
  | .found q _ => .ok q
  | .missing => .error .notExist
  | .notDir => .error .notDir
  | .loop => .error .loop

def HelperWorld.lstat (w : HelperWorld) (p : Path) : Except Errno FileInfo := do
  let place ← lstatPlace w.tree p
  match w.tree.node place with
  | none => .error .notExist
  | some node => .ok ⟨w.attributes place, node⟩

def HelperWorld.change (w : HelperWorld) (c : Change) (place : Path) : HelperWorld :=
  { w with
    attributes := Function.update w.attributes place (c.apply (w.attributes place))
    changed := w.changed ++ [(c, place)] }

/-- `os.Chown`, `os.Chmod` and `setfacl` follow links. -/
def helperMachine : Machine HelperCmd HelperAns HelperOut HelperWorld where
  exec
  | .evalSymlinks p, _, w =>
    (evalSymlinks w.tree p, { w with resolved := w.resolved ++ [(p, evalSymlinks w.tree p)] })
  | .lstat p, o, w =>
    (match o.failure with
      | some message => .error (.failed message)
      | none => w.lstat p, w)
  | .readDir p, o, w =>
    (match o.failure with
      | some message => .error (.failed message)
      | none => (lookupDir w.tree p).map fun _ => o.entries.filter fun e => Plain e.name, w)
  | .change c p, o, w =>
    match o.failure, statPlace w.tree p with
    | some message, _ => (some (.failed message), w)
    | none, .error e => (some e, w)
    | none, .ok place => (none, w.change c place)

abbrev HelperProg : Type → Type := Prog HelperCmd HelperAns

abbrev HelperCmd.issue (c : HelperCmd) : HelperProg (HelperAns c) := Prog.issue c

def pathText (p : Path) : String := "/" ++ "/".intercalate p

/-- The number of changes, and the error that ended them. -/
abbrev Repaired : Type := ℕ × Option HelperError

def unsupportedType (path : Path) : HelperError :=
  ⟨"unsupported file type at " ++ pathText path, none⟩

def normalizedMode (info : FileInfo) : ℕ :=
  if info.kind = .dir then info.perm ||| 0o700
  else
    let perm := info.perm ||| 0o600
    if perm &&& 0o111 ≠ 0 then perm ||| 0o100 else perm

def changeIf (needed : Bool) (c : Change) (verb : String) (path : Path) : HelperProg Repaired :=
  if needed then do
    match ← (HelperCmd.change c path).issue with
    | some e => pure (0, some ⟨verb ++ " " ++ pathText path, some e⟩)
    | none => pure (1, none)
  else pure (0, none)

def repairOne (uid gid : ℕ) (path : Path) (info : FileInfo) : HelperProg Repaired :=
  if ¬ info.isRegular ∧ info.kind ≠ .dir then pure (0, some (unsupportedType path))
  else do
    match ← changeIf (info.uid ≠ uid ∨ info.gid ≠ gid) (.chown uid gid) "chown" path with
    | (changed, some e) => pure (changed, some e)
    | (changed, none) =>
      let targetMode := normalizedMode info
      let (more, err) ← changeIf (info.perm ≠ targetMode) (.chmod targetMode) "chmod" path
      pure (changed + more, err)

def aclEntries (uid : ℕ) (info : FileInfo) : List String :=
  let permissions := if info.kind = .dir ∨ info.perm &&& 0o111 ≠ 0 then "rwx" else "rw-"
  let entries := ["u:" ++ toString uid ++ ":" ++ permissions, "m::" ++ permissions]
  if info.kind = .dir then entries ++ ["d:u:" ++ toString uid ++ ":rwx", "d:m::rwx"] else entries

def grantACL (uid : ℕ) (path : Path) (info : FileInfo) : HelperProg Repaired :=
  if ¬ info.isRegular ∧ info.kind ≠ .dir then pure (0, some (unsupportedType path))
  else changeIf true (.setfacl (aclEntries uid info)) "setfacl" path

def noSymlinks : HelperError := ⟨"symlinks are not supported in permission repair", none⟩

/-- What a repair does to one file. -/
abbrev Action : Type := Path → FileInfo → HelperProg Repaired

/-- What the walk does with an entry. -/
def visit (act : Action) (path : Path) (kind : EntryKind)
    (info : HelperProg (Except Errno FileInfo)) : HelperProg Repaired :=
  if kind = .symlink then pure (0, some noSymlinks)
  else do
    match ← info with
    | .error e => pure (0, some ⟨"lstat " ++ pathText path, some e⟩)
    | .ok info => act path info

def walkEntries (step : DirEntry → HelperProg Repaired) : List DirEntry → ℕ → HelperProg Repaired
  | [], changedItems => pure (changedItems, none)
  | entry :: rest, changedItems => do
    match ← step entry with
    | (changed, some e) => pure (changedItems + changed, some e)
    | (changed, none) => walkEntries step rest (changedItems + changed)

/-- `filepath.WalkDir`; the kernel takes no path of more than so many names. -/
def walkDir (act : Action) : ℕ → Path → EntryKind → HelperProg (Except Errno FileInfo) →
    HelperProg Repaired
  | 0, path, _, _ => pure (0, some ⟨"lstat " ++ pathText path, some (.failed "file name too long")⟩)
  | depth + 1, path, kind, info => do
    match ← visit act path kind info with
    | (changed, some e) => pure (changed, some e)
    | (changed, none) =>
      if kind ≠ .dir then pure (changed, none)
      else match ← (HelperCmd.readDir path).issue with
        | .error e => pure (changed, some ⟨"open " ++ pathText path, some e⟩)
        | .ok entries =>
          walkEntries (fun entry => walkDir act depth (path ++ [entry.name]) entry.kind
            (HelperCmd.lstat (path ++ [entry.name])).issue) entries changed

/-- The walk starts with its own look at the target. -/
def walkFrom (act : Action) (depth : ℕ) (targetPath : Path) : HelperProg Repaired := do
  match ← (HelperCmd.lstat targetPath).issue with
  | .error e => pure (0, some ⟨"lstat " ++ pathText targetPath, some e⟩)
  | .ok info => walkDir act depth targetPath info.kind (pure (.ok info))

def repairPathWith (act : Action) (depth : ℕ) (targetPath : Path) (recursive : Bool) :
    HelperProg Repaired := do
  match ← (HelperCmd.lstat targetPath).issue with
  | .error e => pure (0, some ⟨"lstat target path", some e⟩)
  | .ok info =>
    if info.kind = .symlink then pure (0, some noSymlinks)
    else if info.kind ≠ .dir ∨ ¬ recursive then act targetPath info
    else walkFrom act depth targetPath

def repairManagedPath (depth : ℕ) (targetPath : Path) (uid gid : ℕ) (recursive : Bool) :
    HelperProg Repaired :=
  repairPathWith (repairOne uid gid) depth targetPath recursive

def repairManagedPathACL (depth : ℕ) (targetPath : Path) (uid : ℕ) (recursive : Bool) :
    HelperProg Repaired :=
  repairPathWith (grantACL uid) depth targetPath recursive

inductive RepairStrategy
  | ownership
  | acl
  deriving DecidableEq, Repr

/-- `unicode.ToLower` as far as it yields a letter of ASCII. -/
def lowerChar (c : Char) : Char :=
  if c = Char.ofNat 0x130 then 'i' else if c = Char.ofNat 0x212a then 'k' else c.toLower

def normalizeRepairStrategy (value : String) : Option RepairStrategy :=
  match String.ofList ((trimSpace value).toList.map lowerChar) with
  | "" => some .ownership
  | "ownership" => some .ownership
  | "acl" => some .acl
  | _ => none

def parseIdentityID (name value : String) : Except HelperError ℕ :=
  match decimal (trimSpace value).toList with
  | some parsed =>
    if parsed < 2 ^ 32 - 1 then .ok parsed
    else .error ⟨"invalid " ++ name ++ " value " ++ value.quote, none⟩
  | none => .error ⟨"invalid " ++ name ++ " value " ++ value.quote, none⟩

/-- The environment of the helper process. -/
structure HelperEnv where
  sources : RootSources
  sudoUID : Option String
  sudoGID : Option String
  euid : ℕ
  egid : ℕ

def repairIdentity (env : HelperEnv) : Except HelperError (ℕ × ℕ) :=
  match env.sudoUID, env.sudoGID with
  | none, none => .ok (env.euid, env.egid)
  | some sudoUID, some sudoGID => do
    let uid ← parseIdentityID "SUDO_UID" sudoUID
    let gid ← parseIdentityID "SUDO_GID" sudoGID
    .ok (uid, gid)
  | _, _ => .error ⟨"sudo caller identity is incomplete", none⟩

/-- The flags of `repair`. -/
structure RepairRequest where
  path : String
  recursive : Bool
  strategy : String

/-- What the helper prints. -/
structure RepairResult where
  changedItems : ℕ
  warnings : List HelperError
  deriving DecidableEq, Repr

def failJSON (err : HelperError) : RepairResult := ⟨0, [err]⟩

def runStrategy (depth : ℕ) (strategy : RepairStrategy) (resolvedTarget : Path) (uid gid : ℕ)
    (recursive : Bool) : HelperProg Repaired :=
  match strategy with
  | .ownership => repairManagedPath depth resolvedTarget uid gid recursive
  | .acl => repairManagedPathACL depth resolvedTarget uid recursive

def repairTarget (depth : ℕ) (env : HelperEnv) (strategy : RepairStrategy) (recursive : Bool)
    (resolvedTarget : Path) : HelperProg RepairResult :=
  match repairIdentity env with
  | .error e => pure (failJSON e)
  | .ok (uid, gid) => do
    let (changed, err) ← runStrategy depth strategy resolvedTarget uid gid recursive
    pure ⟨changed, err.toList⟩

def runRepair (depth : ℕ) (env : HelperEnv) (request : RepairRequest) : HelperProg RepairResult :=
  if ¬ isAbs request.path then pure (failJSON ⟨"path must be absolute", none⟩)
  else match normalizeRepairStrategy request.strategy with
    | none => pure (failJSON ⟨"strategy must be ownership or acl", none⟩)
    | some strategy =>
      match loadStacklabRoot env.sources with
      | .error e => pure (failJSON e)
      | .ok stacklabRoot => do
        match ← resolveManagedTarget (fun p => (HelperCmd.evalSymlinks p).issue)
            stacklabRoot.val (pathNames request.path) with
        | .error e => pure (failJSON e)
        | .ok (resolvedTarget, _) =>
          repairTarget depth env strategy request.recursive resolvedTarget

abbrev RepairState : Type := Pool Unit HelperCmd HelperAns HelperWorld

inductive RepairLabel
  | helper (o : HelperOut)
  | user (tree : Tree) (attributes : Path → Attributes)

def RepairLabel.next (s : RepairState) : RepairLabel → RepairState
  | .helper o => s.step helperMachine () o
  | .user tree attributes => ⟨s.threads, { s.world with tree, attributes }⟩

/-- The place is strictly inside the config root or the stacks root. -/
def InsideRoots (t : Tree) (stacklabRoot p : Path) : Prop :=
  ∃ base ∈ ["config", "stacks"], ∃ R, evalSymlinks t (stacklabRoot ++ [base]) = .ok R ∧
    R <+: p ∧ R ≠ p

/-- The user renames, links and replaces as they like, inside the managed roots. -/
def RepairLabel.Enabled (stacklabRoot : Path) (s : RepairState) : RepairLabel → Prop
  | .helper _ => True
  | .user tree _ => ∀ p, tree.node p ≠ s.world.tree.node p →
    InsideRoots s.world.tree stacklabRoot p

def repairLts (stacklabRoot : Path) : Lts RepairState RepairLabel where
  Tr s l s' := l.Enabled stacklabRoot s ∧ s' = l.next s

/-- The helper has been started, and nothing has happened yet. -/
def Started (depth : ℕ) (env : HelperEnv) (request : RepairRequest) (s : RepairState) : Prop :=
  s.threads () = some (do let _ ← runRepair depth env request; pure ()) ∧
    s.world.resolved = [] ∧ s.world.changed = []

/-- The resolved root in which the target was found to be. -/
def validatedRoot : List (List Name × Except Errno Path) → Option Path
  | [(_, .ok target), (root, evalRoot)] | [(_, .ok target), _, (root, evalRoot)] =>
    if withinRoot root evalRoot target then some (evalRoot.toOption.getD root) else none
  | _ => none

/-- Every file that was changed was in the validated root. -/
def ChangesManaged (w : HelperWorld) : Prop :=
  ∀ c ∈ w.changed, ∃ R, validatedRoot w.resolved = some R ∧ R <+: c.2

end Stacklab.AdminHelper
