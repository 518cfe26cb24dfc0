import Stacklab.Lib.Calendar
import Stacklab.Lib.FileTree
import Stacklab.Lib.Prog

/-! The file system calls of the workspace editors, and `os.MkdirAll` on top of them. -/
namespace Stacklab.Workspace

open Lib

inductive Errno
  | notExist
  | notDir
  | loop
  | exist
  | isDir
  | failed (message : String)
  deriving DecidableEq, Repr

inductive EntryType
  | directory
  | textFile
  | binaryFile
  | unknownFile
  deriving DecidableEq, Repr

/-- The tree, and every place that was created, replaced or removed in it. -/
structure World where
  tree : Tree
  touched : List Path

inductive Cmd
  | evalSymlinks (p : Path)
  | stat (p : Path)
  | lstat (up : Path) (n : Name)
  | mkdir (up : Path) (n : Name)
  | inspect (p : Path)
  | sample (p : Path)
  | modTime (p : Path)
  | snapshotPlatformMetadata (p : Path)
  | createTemp (dir : Path)
  | fillTemp (dir : Path) (temp : Name)
  | rename (dir : Path) (temp base : Name)
  | syncDir (dir : Path)
  | remove (dir : Path) (temp : Name)

/-- What `fsmeta.Inspect` says about the process. -/
structure Permissions where
  readable : Bool
  writable : Bool
  deriving DecidableEq, Repr

def Ans : Cmd → Type
  | .evalSymlinks _ => Except Errno Path
  | .stat _ | .lstat _ _ => Except Errno Node
  | .mkdir _ _ | .rename _ _ _ | .syncDir _ => Option Errno
  | .inspect _ => Permissions
  | .sample _ => Except String EntryType
  | .modTime _ => Except Errno Instant
  | .createTemp _ => Except Errno Name
  | .snapshotPlatformMetadata _ | .fillTemp _ _ => Option String
  | .remove _ _ => Unit

/-- How the environment behaves at one call; looking up a path never fails at will. -/
structure Out where
  failure : Option String
  permissions : Permissions
  sample : Except String EntryType
  modTime : Instant
  temp : Name

/-- The links that the kernel follows in one path. -/
def kernelLinks : ℕ := 40

/-- The links that `filepath.EvalSymlinks` follows. -/
def goLinks : ℕ := 255

def evalSymlinks (t : Tree) (p : Path) : Except Errno Path :=
  match walk t.node goLinks [] p with
  | .found q _ => .ok q
  | .missing => .error .notExist
  | .notDir => .error .notDir
  | .loop => .error (.failed "EvalSymlinks: too many links")

/-- The directory that the kernel finds at a path. -/
def lookupDir (t : Tree) (p : Path) : Except Errno Path :=
  match walk t.node kernelLinks [] p with
  | .found d _ => if t.node d = some .dir then .ok d else .error .notDir
  | .missing => .error .notExist
  | .notDir => .error .notDir
  | .loop => .error .loop

def stat (t : Tree) (p : Path) : Except Errno Node :=
  match walk t.node kernelLinks [] p with
  | .found q _ => (t.node q).elim (.error .notExist) .ok
  | .missing => .error .notExist
  | .notDir => .error .notDir
  | .loop => .error .loop

def lstat (t : Tree) (up : Path) (n : Name) : Except Errno Node :=
  match lookupDir t up with
  | .error e => .error e
  | .ok d => (t.node (d ++ [n])).elim (.error .notExist) .ok

/-- Put a node, or nothing, into a directory; the place counts as touched. -/
def World.put (w : World) (d : Path) (n : Name) (v : Option Node) : World :=
  if h : w.tree.node d = some .dir ∧ w.tree.node (d ++ [n]) ≠ some .dir ∧ Plain n then
    ⟨w.tree.put d n v h.1 h.2.1 h.2.2, (d ++ [n]) :: w.touched⟩
  else w

def World.mkdir (w : World) (up : Path) (n : Name) (failure : Option String) :
    Option Errno × World :=
  match lookupDir w.tree up, failure with
  | .error e, _ => (some e, w)
  | .ok d, failure =>
    if w.tree.node (d ++ [n]) ≠ none then (some .exist, w)
    else match failure with
      | some message => (some (.failed message), w)
      | none =>
        if Plain n then (none, w.put d n (some .dir))
        else (some (.failed "invalid argument"), w)

def World.createTemp (w : World) (dir : Path) (temp : Name) (failure : Option String) :
    Except Errno Name × World :=
  match lookupDir w.tree dir, failure with
  | .error e, _ => (.error e, w)
  | .ok _, some message => (.error (.failed message), w)
  | .ok d, none =>
    if w.tree.node (d ++ [temp]) = none ∧ Plain temp then
      (.ok temp, w.put d temp (some (.file true)))
    else (.error .exist, w)

/-- Replace an entry by a temporary file of the same directory; links are not followed. -/
def World.rename (w : World) (dir : Path) (temp base : Name) (failure : Option String) :
    Option Errno × World :=
  match lookupDir w.tree dir, failure with
  | .error e, _ => (some e, w)
  | .ok _, some message => (some (.failed message), w)
  | .ok d, none =>
    if w.tree.node (d ++ [temp]) ≠ some (.file true) then (some .notExist, w)
    else if w.tree.node (d ++ [base]) = some .dir then (some .isDir, w)
    else if Plain base then
      (none, (w.put d temp none).put d base (some (.file true)))
    else (some (.failed "invalid argument"), w)

def World.remove (w : World) (dir : Path) (temp : Name) (failure : Option String) : World :=
  match lookupDir w.tree dir, failure with
  | .ok d, none => if w.tree.node (d ++ [temp]) = some (.file true) then w.put d temp none else w
  | _, _ => w

def fileMachine : Machine Cmd Ans Out World where
  exec
  | .evalSymlinks p, _, w => (evalSymlinks w.tree p, w)
  | .stat p, _, w => (stat w.tree p, w)
  | .lstat up n, _, w => (lstat w.tree up n, w)
  | .mkdir up n, o, w => w.mkdir up n o.failure
  | .inspect _, o, w => (o.permissions, w)
  | .sample _, o, w => (o.sample, w)
  | .modTime p, o, w => ((stat w.tree p).map fun _ => o.modTime, w)
  | .snapshotPlatformMetadata _, o, w => (o.failure, w)
  | .createTemp dir, o, w => w.createTemp dir o.temp o.failure
  | .fillTemp _ _, o, w => (o.failure, w)
  | .rename dir temp base, o, w => w.rename dir temp base o.failure
  | .syncDir _, o, w => (o.failure.map Errno.failed, w)
  | .remove dir temp, o, w => ((), w.remove dir temp o.failure)

abbrev FileProg : Type → Type := Prog Cmd Ans

abbrev Cmd.issue (c : Cmd) : FileProg (Ans c) := Prog.issue c

/-- The last step of `os.MkdirAll`; an error does not count when a directory stands there. -/
def mkdirLast (up : Path) (n : Name) : FileProg (Option Errno) := do
  match ← (Cmd.mkdir up n).issue with
  | none => pure none
  | some e =>
    match ← (Cmd.lstat up n).issue with
    | .ok .dir => pure none
    | _ => pure (some e)

/-- `os.MkdirAll` on the path whose names are given from the last to the first. -/
def mkdirAll : List Name → FileProg (Option Errno)
  | [] => do
    match ← (Cmd.stat []).issue with
    | .ok .dir => pure none
    | .ok _ => pure (some .notDir)
    | .error e => pure (some e)
  | n :: up => do
    match ← (Cmd.stat (n :: up).reverse).issue with
    | .ok .dir => pure none
    | .ok _ => pure (some .notDir)
    | .error _ =>
      match ← mkdirAll up with
      | some e => pure (some e)
      | none => mkdirLast up.reverse n

end Stacklab.Workspace
