import Mathlib.Data.Int.Notation
import Stacklab.Lib.GoPath

/-! `ValidateArchive`: which tar archives may be extracted. -/
namespace Stacklab.Backup

open Lib

/-- The names of a path below the directory that an archive is extracted to. -/
abbrev MemberPath : Type := List Bytes

inductive Typeflag
  | reg
  | regA
  | dir
  | symlink
  | link
  | fifo
  | char
  | block
  | other (flag : UInt8)
  deriving DecidableEq, Repr

/-- A header as `archive/tar` decodes it; `modTime` in nanoseconds since 1970. -/
structure Header where
  name : Bytes
  linkname : Bytes
  typeflag : Typeflag
  mode : ℤ
  uid : ℤ
  gid : ℤ
  size : ℤ
  modTime : ℤ
  xattrs : List (Bytes × Bytes)
  paxRecords : List (Bytes × Bytes)
  deriving DecidableEq, Repr

/-- What `tar.Reader.Next` yields one after the other. -/
abbrev HeaderStream : Type := List (Except String Header)

inductive EntryType
  | directory
  | regular
  | symlink
  | special
  deriving DecidableEq, Repr

inductive ArchiveError
  | message (text : String)
  | about (text : String) (name : Bytes)
  deriving DecidableEq, Repr

/-- What `os.Lstat` answers below the target; a missing entry is no error. -/
abbrev LstatTarget : Type := MemberPath → Except String (Option EntryType)

/-- The parents of a path up to its root, the nearest first. -/
def parents (path : MemberPath) : List MemberPath :=
  (path.inits.filter fun parent => parent ≠ [] ∧ parent ≠ path).reverse

structure ValidateState where
  links : List MemberPath
  seen : List MemberPath
  hasChildren : List MemberPath
  entries : ℕ

def ValidateState.start : ValidateState := ⟨[], [], [], 0⟩

def checkLimits (entries : ℕ) (header : Header) : Except ArchiveError Unit :=
  if entries > 1000000 ∨ header.name.length > 4096 ∨ header.linkname.length > 4096 then
    .error (.message "archive metadata exceeds supported entry or path limits")
  else .ok ()

/-- `mode &^ bits` for a mode that is not negative. -/
def hasOtherBits (mode : ℤ) (bits : ℕ) : Bool := mode.toNat ||| bits ≠ bits

def hasBits (mode : ℤ) (bits : ℕ) : Bool := mode.toNat &&& bits ≠ 0

def checkPermissions (header : Header) : Except ArchiveError Unit :=
  if header.uid < 0 ∨ header.gid < 0 ∨ header.mode < 0 ∨ hasOtherBits header.mode 0o7777 then
    .error (.message "archive contains invalid numeric ownership or permissions")
  else if hasBits header.mode 0o4000 ∨ hasBits header.mode 0o2000 ∧ header.typeflag ≠ .dir then
    .error (.message "archive contains unsupported setuid or setgid file permissions")
  else .ok ()

def checkCapabilities (header : Header) : Except ArchiveError Unit :=
  if (∃ attr ∈ header.xattrs, attr.1 = bytes "security.capability") ∨
      ∃ record ∈ header.paxRecords, bytes ".security.capability" <:+ record.1 then
    .error (.message "archive contains unsupported file capabilities")
  else .ok ()

def checkPath (header : Header) (name : CleanPath) : Except ArchiveError Unit :=
  if 0 ∈ name.text ∨ 92 ∈ name.text ∨ ¬ name.Inside then
    .error (.message "archive contains an unsafe path")
  else if name.names = [] ∧ header.typeflag ≠ .dir then
    .error (.message "archive root must be a directory")
  else .ok ()

def checkParents (st : ValidateState) (path : MemberPath) : Except ArchiveError Unit :=
  if ∃ parent ∈ parents path, parent ∈ st.links then
    .error (.message "archive writes through a link")
  else if path ∈ st.links then .error (.message "archive replaces a link")
  else .ok ()

/-- `hasChildren` counts the parents of the member itself already. -/
def checkKind (st : ValidateState) (header : Header) (path : MemberPath) :
    Except ArchiveError Unit :=
  match header.typeflag with
  | .reg | .regA | .dir => .ok ()
  | .symlink =>
    let resolved := CleanPath.join ⟨false, 0, path.dropLast⟩ header.linkname
    if isAbs header.linkname ∨ ¬ resolved.Inside then
      .error (.message "archive symlink escapes destination")
    else if path ∈ st.hasChildren ∨ path ∈ parents path then
      .error (.message "archive replaces a populated directory with a symlink")
    else .ok ()
  | .link =>
    let link := cleaned header.linkname
    if ¬ link.Inside ∨ link.names ∉ st.seen ∨ link.names ∈ st.links then
      .error (.message "archive contains an unsafe hard link")
    else if ∃ parent ∈ parents link.names, parent ∈ st.links then
      .error (.message "archive hard link traverses a symlink")
    else .ok ()
  | .fifo | .char | .block | .other _ =>
    .error (.message "archive contains unsupported special file metadata")

/-- One step of the loop over the names of a member; `current` is one of its prefixes. -/
def checkTargetEntry (lstat : LstatTarget) (header : Header) (name : CleanPath)
    (current : MemberPath) : Except ArchiveError Unit :=
  match lstat current with
  | .error err => .error (.message err)
  | .ok none => .ok ()
  | .ok (some kind) =>
    let final := current = name.names
    let replacingFinalSymlink := final ∧ header.typeflag = .symlink
    if kind = .symlink ∧ ¬ replacingFinalSymlink then
      .error (.about "restore target contains a symlink: " name.text)
    else if kind = .directory ∧ final ∧ header.typeflag ≠ .dir ∨
        kind ≠ .directory ∧ (¬ final ∨ header.typeflag = .dir) then
      .error (.about "restore target has a conflicting file or directory: " name.text)
    else if kind ≠ .directory ∧ kind ≠ .regular ∧
        ¬ (replacingFinalSymlink ∧ kind = .symlink) then
      .error (.message "restore target contains a special file")
    else .ok ()

/-- Without a target nothing is compared with it. -/
def checkTarget (target : Option LstatTarget) (header : Header) (name : CleanPath) :
    Except ArchiveError Unit :=
  match target with
  | none => .ok ()
  | some lstat =>
    (name.names.inits.filter (· ≠ [])).forM (checkTargetEntry lstat header name)

def Header.isLink (header : Header) : Bool :=
  header.typeflag = .symlink || header.typeflag = .link

def Header.path (header : Header) : MemberPath := (cleaned header.name).names

/-- Every check of one member. -/
def checkMember (target : Option LstatTarget) (st : ValidateState) (header : Header) :
    Except ArchiveError Unit := do
  let name := cleaned header.name
  checkLimits (st.entries + 1) header
  checkPermissions header
  checkCapabilities header
  checkPath header name
  checkParents st name.names
  checkKind st header name.names
  checkTarget target header name

def ValidateState.add (st : ValidateState) (header : Header) : ValidateState where
  links := if header.isLink then header.path :: st.links else st.links
  seen := header.path :: st.seen
  hasChildren := parents header.path ++ st.hasChildren
  entries := st.entries + 1

def validateMembers (target : Option LstatTarget) :
    ValidateState → HeaderStream → Except ArchiveError Unit
  | _, [] => .ok ()
  | _, .error err :: _ => .error (.message err)
  | st, .ok header :: rest =>
    match checkMember target st header with
    | .error err => .error err
    | .ok () => validateMembers target (st.add header) rest

def validateArchive (target : Option LstatTarget) (archive : HeaderStream) :
    Except ArchiveError Unit :=
  validateMembers target .start archive

end Stacklab.Backup
