import Stacklab.Backup.Archive
import Stacklab.Lib.GoMap
import Stacklab.Lib.Prog

/-! `extractArchivePinned`: a validated archive is extracted by tar in two passes. -/
namespace Stacklab.Backup

open Lib

/-- The system calls of tar below the pinned directory. -/
inductive TarCmd
  | lstat (path : MemberPath)
  | mkdir (path : MemberPath)
  | unlink (path : MemberPath)
  | rmdir (path : MemberPath)
  | create (path : MemberPath) (kind : EntryType)
  | link (source path : MemberPath)
  | setMetadata (path : MemberPath)
  /-- Any fallible step around the passes: opening, seeking, the lists of members. -/
  | other

@[reducible] def TarAns : TarCmd → Type
  | .lstat _ => Except String (Option EntryType)
  | .mkdir _ | .unlink _ | .rmdir _ | .create _ _ | .link _ _ | .setMetadata _ | .other =>
    Except String Unit

/-- `through` says that the system followed a symlink on the way to the path. -/
structure TarWrite where
  path : MemberPath
  through : Bool
  deriving DecidableEq, Repr

structure TarWorld where
  fs : GoMap MemberPath EntryType
  log : List TarWrite

/-- A call may fail after it has taken effect. `linked` is what a hard link finds when the
way to its source leads through a symlink. -/
structure TarOut where
  failure : Option String
  landed : Bool
  linked : EntryType

namespace TarWorld

variable (w : TarWorld)

def entry (path : MemberPath) : Option EntryType :=
  if path = [] then some .directory else w.fs.lookup path

def passesSymlink (path : MemberPath) : Bool :=
  path.inits.any fun above => above ≠ path ∧ w.entry above = some .symlink

def vacant (path : MemberPath) : Bool :=
  w.entry path = none ∧ w.entry path.dropLast = some .directory

def noChildren (path : MemberPath) : Bool :=
  w.fs.entries.all fun e => e.1 = path ∨ ¬ path <+: e.1

/-- A write that follows a symlink lands elsewhere. -/
def write (o : TarOut) (path : MemberPath) (follows legal : Bool)
    (fs : GoMap MemberPath EntryType) : Except String Unit × TarWorld :=
  let through := w.passesSymlink path || follows
  let log := ⟨path, through⟩ :: w.log
  let fs := if ¬ through ∧ legal ∧ (o.failure = none ∨ o.landed) then fs else w.fs
  match o.failure with
  | some err => (.error err, ⟨fs, log⟩)
  | none =>
    if through ∨ legal then (.ok (), ⟨fs, log⟩)
    else (.error "operation not permitted", ⟨fs, log⟩)

def linkSource (o : TarOut) (source : MemberPath) : Option EntryType :=
  if w.passesSymlink source then some o.linked else w.entry source

end TarWorld

def tarMachine : Machine TarCmd TarAns TarOut TarWorld where
  exec
    | .lstat path, o, w =>
      match o.failure with
      | some err => (.error err, w)
      | none => (.ok (w.entry path), w)
    | .mkdir path, o, w =>
      w.write o path false (w.vacant path) (w.fs.insert path .directory)
    | .unlink path, o, w =>
      w.write o path false (w.entry path ≠ none ∧ w.entry path ≠ some .directory)
        (w.fs.erase path)
    | .rmdir path, o, w =>
      w.write o path false (w.entry path = some .directory ∧ w.noChildren path)
        (w.fs.erase path)
    | .create path kind, o, w =>
      w.write o path false (w.vacant path) (w.fs.insert path kind)
    | .link source path, o, w =>
      match w.linkSource o source with
      | none | some .directory => w.write o path false false w.fs
      | some kind => w.write o path false (w.vacant path) (w.fs.insert path kind)
    | .setMetadata path, o, w =>
      w.write o path (w.entry path = some .symlink) true w.fs
    | .other, o, w =>
      match o.failure with
      | some err => (.error err, w)
      | none => (.ok (), w)

abbrev TarProg (α : Type) : Type := Prog TarCmd TarAns α

abbrev TarCmd.issue (c : TarCmd) : TarProg (TarAns c) := Prog.issue c

/-- Missing parents are created; those that were are returned. -/
def makeParents : List MemberPath → TarProg (Except String Unit × List MemberPath)
  | [] => pure (.ok (), [])
  | parent :: rest => do
    match ← (TarCmd.lstat parent).issue with
    | .error err => pure (.error err, [])
    | .ok (some _) => makeParents rest
    | .ok none =>
      match ← (TarCmd.mkdir parent).issue with
      | .error err => pure (.error err, [])
      | .ok () => do
        let made ← makeParents rest
        pure (made.1, parent :: made.2)

/-- What stands in the way is unlinked. The answer tells whether a directory stays. -/
def clearPlace (header : Header) (path : MemberPath) : TarProg (Except String Bool) := do
  match ← (TarCmd.lstat path).issue with
  | .error err => pure (.error err)
  | .ok none => pure (.ok false)
  | .ok (some .directory) =>
    if header.typeflag = .dir then pure (.ok true)
    else do
      let removed ← (TarCmd.rmdir path).issue
      pure (removed.map fun _ => false)
  | .ok (some _) => do
    let removed ← (TarCmd.unlink path).issue
    pure (removed.map fun _ => false)

def placeMember (header : Header) (path : MemberPath) : TarProg (Except String Unit) :=
  match header.typeflag with
  | .dir => (TarCmd.mkdir path).issue
  | .symlink => (TarCmd.create path .symlink).issue
  | .link => (TarCmd.link (cleaned header.linkname).names path).issue
  | .reg | .regA => (TarCmd.create path .regular).issue
  | .fifo | .char | .block | .other _ => (TarCmd.create path .special).issue

/-- The directories whose metadata is set at the end of the pass are returned. -/
def extractMember (header : Header) : TarProg (Except String Unit × List MemberPath) := do
  let path := header.path
  -- GNU tar skips such a member, so that the other names lead where they lead when cleaned.
  if dotdot ∈ header.name.splitOn slash then pure (.error "Member name contains '..'", [])
  else do
    let made ← makeParents (parents path).reverse
    match made.1 with
    | .error err => pure (.error err, made.2)
    | .ok () =>
      match ← clearPlace header path with
      | .error err => pure (.error err, made.2)
      | .ok true => pure (.ok (), path :: made.2)
      | .ok false =>
        match ← placeMember header path with
        | .error err => pure (.error err, made.2)
        | .ok () =>
          if header.typeflag = .dir then pure (.ok (), path :: made.2) else pure (.ok (), made.2)

/-- After an error tar goes on with the next member. -/
def extractMembers : List Header → TarProg (List String × List MemberPath)
  | [] => pure ([], [])
  | header :: rest => do
    let first ← extractMember header
    let others ← extractMembers rest
    match first.1 with
    | .error err => pure (err :: others.1, first.2 ++ others.2)
    | .ok () => pure (others.1, first.2 ++ others.2)

def restoreMetadata : List MemberPath → TarProg (List String)
  | [] => pure []
  | path :: rest => do
    match ← (TarCmd.setMetadata path).issue with
    | .error err => do
      let errs ← restoreMetadata rest
      pure (err :: errs)
    | .ok () => restoreMetadata rest

def runTar (members : List Header) : TarProg (Except String Unit) := do
  let extracted ← extractMembers members
  let errs ← restoreMetadata extracted.2
  match extracted.1 ++ errs with
  | [] => pure (.ok ())
  | err :: _ => pure (.error ("native extraction failed: " ++ err))

/-- The members and the directories, each in archive order. -/
def archiveMemberLists : HeaderStream → Except String (List Header × List Header)
  | [] => .ok ([], [])
  | .error err :: _ => .error err
  | .ok header :: rest =>
    match archiveMemberLists rest with
    | .error err => .error err
    | .ok (members, directories) =>
      if header.typeflag = .dir then .ok (members, header :: directories)
      else .ok (header :: members, directories)

/-- A pass over an empty list is left out. -/
def extractPass (selection : List Header) : TarProg (Except String Unit) := do
  match ← TarCmd.other.issue with
  | .error err => pure (.error err)
  | .ok () =>
    if selection = [] then pure (.ok ())
    else
      match ← TarCmd.other.issue with
      | .error err => pure (.error err)
      | .ok () => runTar selection

/-- `target` is what the target answers while the archive is validated. -/
def extractArchivePinned (target : Option LstatTarget) (archive : HeaderStream) :
    TarProg (Except ArchiveError Unit) := do
  match ← TarCmd.other.issue with
  | .error err => pure (.error (.message err))
  | .ok () =>
    match validateArchive target archive with
    | .error err => pure (.error err)
    | .ok () =>
      match ← TarCmd.other.issue with
      | .error err => pure (.error (.message err))
      | .ok () =>
        match archiveMemberLists archive with
        | .error err => pure (.error (.message err))
        | .ok (members, directories) =>
          match ← extractPass members with
          | .error err => pure (.error (.message err))
          | .ok () => do
            let second ← extractPass directories
            pure (second.mapError .message)

end Stacklab.Backup
