import Mathlib.Algebra.Group.Int.Defs
import Mathlib.Data.List.Infix
import Mathlib.Data.List.Sort
import Stacklab.Backup.Archive
import Stacklab.Lib.GoJson
import Stacklab.Lib.GoMap

/-! The file index of a captured source: how it is built, written and read back. -/
namespace Stacklab.Backup

open Lib

def maxCatalogEntries : ℕ := 100000

def maxCatalogBytes : ℕ := 12582912

/-- The errors that wrap `ErrInvalid` and `ErrIndexUnavailable`, and all others. -/
inductive CatalogError
  | invalid (text : String)
  | unavailable (text : String)
  | message (text : String)
  | about (text : String) (name : Bytes)
  deriving DecidableEq, Repr

/-- The text of `ErrIndexUnavailable` in front of what it wraps. -/
def unavailableReason (text : String) : Bytes := bytes ("source file index unavailable: " ++ text)

inductive FileType
  | file
  | directory
  | symlink
  | hardlink
  | fifo
  | characterDevice
  | blockDevice
  | other (name : Bytes)
  deriving DecidableEq, Repr

def FileType.name : FileType → Bytes
  | file => bytes "file"
  | directory => bytes "directory"
  | symlink => bytes "symlink"
  | hardlink => bytes "hardlink"
  | fifo => bytes "fifo"
  | characterDevice => bytes "character_device"
  | blockDevice => bytes "block_device"
  | other name => name

structure FileEntry where
  path : Bytes
  type : FileType
  sizeBytes : ℤ
  modifiedAt : Instant
  sha256 : Bytes
  metadataSHA256 : Bytes
  linkTarget : Bytes
  mode : ℤ
  uid : ℤ
  gid : ℤ
  deriving DecidableEq, Repr

structure FileIndex where
  version : ℤ
  sourceID : Bytes
  entries : List FileEntry
  deriving DecidableEq, Repr

/-- A field with `omitempty`. -/
def optionalField (name : String) (value : Bytes) : List (Bytes × Bytes) :=
  if value = [] then [] else [(bytes name, Json.text value)]

def FileEntry.json (entry : FileEntry) : Except String Bytes :=
  match Json.time entry.modifiedAt with
  | .error err => .error err
  | .ok modified =>
    .ok <| Json.object <|
      [(bytes "path", Json.text entry.path), (bytes "type", Json.text entry.type.name),
        (bytes "size_bytes", Json.number entry.sizeBytes), (bytes "modified_at", modified)] ++
      optionalField "sha256" entry.sha256 ++
      optionalField "metadata_sha256" entry.metadataSHA256 ++
      optionalField "link_target" entry.linkTarget ++
      [(bytes "mode", Json.number entry.mode), (bytes "uid", Json.number entry.uid),
        (bytes "gid", Json.number entry.gid)]

def FileIndex.json (index : FileIndex) : Except String Bytes :=
  match index.entries.mapM FileEntry.json with
  | .error err => .error err
  | .ok entries =>
    .ok <| Json.object
      [(bytes "version", Json.number index.version), (bytes "source_id", Json.text index.sourceID),
        (bytes "entries", Json.array entries)]

/-- An entry after `json.Marshal` and `json.Unmarshal`, which keep all but invalid UTF-8. -/
def FileEntry.readBack (entry : FileEntry) : FileEntry :=
  { entry with
    path := toValidUTF8 entry.path
    sha256 := toValidUTF8 entry.sha256
    metadataSHA256 := toValidUTF8 entry.metadataSHA256
    linkTarget := toValidUTF8 entry.linkTarget }

def FileIndex.readBack (index : FileIndex) : FileIndex :=
  { index with
    sourceID := toValidUTF8 index.sourceID
    entries := index.entries.map FileEntry.readBack }

/-- What stands in the file of an index: its text, and what `json.Unmarshal` reads there. -/
structure IndexData where
  text : Bytes
  value : FileIndex
  deriving DecidableEq, Repr

def FileIndex.marshal (index : FileIndex) : Except String IndexData :=
  match index.json with
  | .error err => .error err
  | .ok text => .ok ⟨text, index.readBack⟩

/-- A member of an archive; `content` is what reading it to its end yields. -/
structure Member where
  header : Header
  content : Except String Bytes
  sized : ∀ data, content = .ok data → header.typeflag ∈ [.reg, .regA] →
    header.size = data.length

abbrev MemberStream : Type := List (Except String Member)

def MemberStream.headers (archive : MemberStream) : HeaderStream :=
  archive.map fun item => item.map Member.header

/-- The archive of a source as the file system holds it. -/
structure CapturedFile where
  openError : Option String
  regular : Bool
  archive : MemberStream

/-- Each category once, with the first name that it was met for. -/
abbrev Restrictions : Type := List (String × Bytes)

def restrict (restrictions : Restrictions) (category : String) (name : Bytes) : Restrictions :=
  if category ∈ restrictions.map Prod.fst then restrictions else restrictions ++ [(category, name)]

def restrictIf (condition : Prop) [Decidable condition] (category : String) (name : Bytes)
    (restrictions : Restrictions) : Restrictions :=
  if condition then restrict restrictions category name else restrictions

def restrictKind (header : Header) (name : CleanPath) (restrictions : Restrictions) :
    Restrictions :=
  match header.typeflag with
  | .reg | .regA | .dir => restrictions
  | .symlink =>
    let resolved := CleanPath.join { name with names := name.names.dropLast } header.linkname
    restrictIf (isAbs header.linkname ∨ ¬ resolved.Inside) "symlink points outside the source"
      name.text restrictions
  | .link =>
    restrictIf (¬ (cleaned header.linkname).Inside) "hard link points outside the source"
      name.text restrictions
  | .fifo | .char | .block | .other _ =>
    restrict restrictions "special file metadata" name.text

def checkCaptured (header : Header) : Except CatalogError Unit :=
  let name := cleaned header.name
  if header.name.length > 4096 ∨ header.linkname.length > 4096 ∨ 0 ∈ name.text ∨
      ¬ name.Inside then
    .error (.about "archive contains an invalid member path: " header.name)
  else if header.uid < 0 ∨ header.gid < 0 ∨ header.mode < 0 ∨ hasOtherBits header.mode 0o7777 then
    .error (.about "invalid ownership or permissions for " name.text)
  else .ok ()

def restrictMember (entries : ℕ) (header : Header) (restrictions : Restrictions) : Restrictions :=
  let name := cleaned header.name
  restrictions
    |> restrictIf (entries > 1000000) "archive exceeds the automatic extraction entry limit"
        header.name
    |> restrictIf (92 ∈ name.text) "member name contains a backslash" name.text
    |> restrictIf (hasBits header.mode 0o4000 ∨
        hasBits header.mode 0o2000 ∧ header.typeflag ≠ .dir)
        "setuid or setgid file permissions" name.text
    |> restrictIf (∃ attr ∈ header.xattrs, attr.1 = bytes "security.capability")
        "file capabilities" name.text
    |> restrictIf (∃ record ∈ header.paxRecords, bytes ".security.capability" <:+ record.1)
        "file capabilities" name.text
    |> restrictKind header name

def validateCapturedFrom :
    ℕ → Restrictions → HeaderStream → Except CatalogError Restrictions
  | _, restrictions, [] => .ok restrictions
  | _, _, .error err :: _ => .error (.message err)
  | entries, restrictions, .ok header :: rest =>
    match checkCaptured header with
    | .error err => .error err
    | .ok () =>
      validateCapturedFrom (entries + 1) (restrictMember (entries + 1) header restrictions) rest

def validateCapturedArchive (archive : HeaderStream) : Except CatalogError Restrictions :=
  validateCapturedFrom 0 [] archive

/-- The regular expression of a safe identity: one to a hundred letters, digits, `_` and `-`. -/
def safeID (id : Bytes) : Bool :=
  0 < id.length && id.length ≤ 100 &&
    id.all fun b => (48 ≤ b && b ≤ 57) || (65 ≤ b && b ≤ 90) || (97 ≤ b && b ≤ 122) ||
      b == 95 || b == 45

def catalogPath (value : Bytes) (allowRoot : Bool) : Except CatalogError Bytes :=
  if value.length > 4096 ∨ (∃ b ∈ value, b ∈ bytes "\\\x00\r\n") ∨ isAbs value then
    .error (.invalid "invalid relative file path")
  else if ¬ (cleaned value).Inside then .error (.invalid "file path escapes source")
  else if clean value = dot then
    if allowRoot then .ok [] else .error (.invalid "select a file")
  else .ok (clean value)

/-- A SHA-256 sum. -/
def Digest : Type := { data : Bytes // data.length = 32 }

section Index

variable (sum256 : Bytes → Digest)

def hexSum (data : Bytes) : Bytes := hexText (sum256 data).1

/-- The order of Go's strings. -/
def textLE : Bytes → Bytes → Bool
  | [], _ => true
  | _ :: _, [] => false
  | a :: s, b :: t => a < b || (a = b && textLE s t)

def indexedMetadata (header : Header) : GoMap Bytes Bytes :=
  let attributes := header.xattrs.foldl
    (fun metadata attr => AList.insert (bytes "xattr:" ++ attr.1) attr.2 metadata)
    (∅ : GoMap Bytes Bytes)
  (header.paxRecords.filter fun record =>
      bytes ".acl." <:+: record.1 ∨ bytes ".xattr." <:+: record.1).foldl
    (fun metadata record => AList.insert record.1 record.2 metadata) attributes

/-- The text of a map has its keys in order. -/
def metadataJSON (metadata : GoMap Bytes Bytes) : Bytes :=
  Json.object <| (metadata.entries.map fun item => (item.1, Json.text item.2)).insertionSort
    fun a b => textLE a.1 b.1

def metadataSum (header : Header) : Bytes :=
  let metadata := indexedMetadata header
  if metadata.entries = [] then [] else hexSum sum256 (metadataJSON metadata)

/-- Nanoseconds from the zero time to 1970. -/
def unixEpoch : Instant := 62135596800000000000

/-- The fields that do not depend on the type of the member. -/
def commonEntry (header : Header) (name : Bytes) (type : FileType) : FileEntry where
  path := name
  type := type
  sizeBytes := 0
  modifiedAt := unixEpoch + header.modTime
  sha256 := []
  metadataSHA256 := metadataSum sum256 header
  linkTarget := []
  mode := header.mode
  uid := header.uid
  gid := header.gid

def indexEntry (member : Member) (name : Bytes) : Except CatalogError FileEntry :=
  let entry := commonEntry sum256 member.header name
  match member.header.typeflag with
  | .reg | .regA =>
    match member.content with
    | .error err => .error (.message err)
    | .ok data =>
      .ok { entry .file with
        sizeBytes := member.header.size
        sha256 := hexSum sum256 data }
  | .dir => .ok (entry .directory)
  | .symlink => .ok { entry .symlink with linkTarget := member.header.linkname }
  | .link => .ok { entry .hardlink with linkTarget := clean member.header.linkname }
  | .fifo => .ok (entry .fifo)
  | .char => .ok (entry .characterDevice)
  | .block => .ok (entry .blockDevice)
  | .other _ => .error (.unavailable "unsupported indexed file type")

structure IndexState where
  entries : GoMap Bytes FileEntry
  explicit : List Bytes
  encodedBytes : ℕ

def IndexState.start : IndexState := ⟨∅, [], 0⟩

/-- An entry that cannot be marshalled counts as an empty text. -/
def FileEntry.encodedLength (entry : FileEntry) : ℕ :=
  match entry.json with
  | .error _ => 0
  | .ok text => text.length

def IndexState.add (st : IndexState) (entry : FileEntry) : IndexState where
  entries := st.entries.insert entry.path entry
  explicit := entry.path :: st.explicit
  encodedBytes := st.encodedBytes + entry.encodedLength + 1

/-- A directory that the archive need not name. -/
def parentEntry (name : Bytes) : FileEntry := ⟨name, .directory, 0, 0, [], [], [], 0, 0, 0⟩

def IndexState.addParent (st : IndexState) (parent : MemberPath) : IndexState :=
  let name := CleanPath.text ⟨false, 0, parent⟩
  if (st.entries.lookup name).isSome then st
  else
    { st with
      entries := st.entries.insert name (parentEntry name)
      encodedBytes := st.encodedBytes + name.length + 200 }

def indexMember (st : IndexState) (member : Member) : Except CatalogError IndexState :=
  if clean member.header.name = dot then .ok st
  else
    match catalogPath member.header.name false with
    | .error _ =>
      .error (.unavailable "a captured path cannot be represented in the file browser")
    | .ok name =>
      if st.explicit.contains name then .error (.message "source archive contains duplicate paths")
      else
        match indexEntry sum256 member name with
        | .error err => .error err
        | .ok entry =>
          let st := (parents member.header.path).foldl IndexState.addParent (st.add entry)
          if st.entries.entries.length > maxCatalogEntries ∨
              st.encodedBytes > maxCatalogBytes - 1024 then
            .error (.unavailable "source exceeds 100000 entries or 12 MiB of index metadata")
          else .ok st

def indexMembers : IndexState → MemberStream → Except CatalogError IndexState
  | st, [] => .ok st
  | _, .error err :: _ => .error (.message err)
  | st, .ok member :: rest =>
    match indexMember sum256 st member with
    | .error err => .error err
    | .ok st => indexMembers st rest

/-- The entries have distinct paths, so that their order after sorting is the only one. -/
def IndexState.sorted (st : IndexState) : List FileEntry :=
  (st.entries.entries.map Sigma.snd).insertionSort fun a b => textLE a.path b.path

def indexArchive (file : CapturedFile) (sourceID : Bytes) : Except CatalogError FileIndex :=
  if ¬ safeID sourceID then .error (.invalid "invalid source identity")
  else
    match file.openError with
    | some err => .error (.message err)
    | none =>
      if ¬ file.regular then .error (.message "source archive must be a regular file")
      else
        match validateCapturedArchive file.archive.headers with
        | .error err => .error err
        | .ok _ =>
          match indexMembers sum256 .start file.archive with
          | .error err => .error err
          | .ok st => .ok ⟨1, sourceID, st.sorted⟩

/-- What a manifest says about a source's index. -/
structure ManifestIndex where
  sourceID : Bytes
  indexPath : Bytes
  indexVersion : ℤ
  entryCount : ℕ
  indexUnavailableReason : Bytes
  deriving DecidableEq, Repr

def ManifestIndex.unavailable (source : ManifestIndex) (reason : Bytes) : ManifestIndex :=
  { source with
    indexPath := []
    indexVersion := 0
    entryCount := 0
    indexUnavailableReason := reason }

/-- How the staging directory answers `os.MkdirAll` and `atomicfile.WriteBytesMode`. -/
structure Staging where
  mkdirError : Option String
  writeError : Option String

/-- The source after the call, the file that was written, and the bytes that it took. -/
structure IndexOutcome where
  source : ManifestIndex
  written : Option (Bytes × IndexData)
  size : ℕ
  deriving DecidableEq, Repr

def indexTooLarge : Bytes := bytes
  ("Source index exceeds the available staging budget or 12 MiB; " ++
    "the complete archive is preserved.")

def indexPathOf (sourceID : Bytes) : Bytes := bytes "indexes/" ++ sourceID ++ bytes ".json"

def writeSourceIndex (file : CapturedFile) (staging : Staging) (source : ManifestIndex)
    (remaining : ℤ) : Except CatalogError IndexOutcome :=
  match indexArchive sum256 file source.sourceID with
  | .error (.unavailable text) => .ok ⟨source.unavailable (unavailableReason text), none, 0⟩
  | .error err => .error err
  | .ok index =>
    match index.marshal with
    | .error err => .error (.message err)
    | .ok data =>
      if data.text.length > maxCatalogBytes ∨ (data.text.length : ℤ) > remaining then
        .ok ⟨source.unavailable indexTooLarge, none, 0⟩
      else
        match staging.mkdirError, staging.writeError with
        | some err, _ | none, some err => .error (.message err)
        | none, none =>
          .ok
            { source :=
                { source with
                  indexPath := indexPathOf source.sourceID
                  indexVersion := 1
                  entryCount := index.entries.length
                  indexUnavailableReason := [] }
              written := some (indexPathOf source.sourceID, data)
              size := data.text.length }

end Index

def badDigest (digest : Bytes) : Bool := digest.length ≠ 64 || ! digest.all isHexDigit

def checkIndexedLink (target : Bytes) : Except String Unit :=
  if target.length > 4096 ∨ ∃ b ∈ target, b ∈ bytes "\x00\r\n" then .error "invalid indexed link"
  else .ok ()

def checkIndexedType (entry : FileEntry) : Except String Unit :=
  match entry.type with
  | .file => if badDigest entry.sha256 then .error "invalid source content digest" else .ok ()
  | .directory | .fifo | .characterDevice | .blockDevice => .ok ()
  | .symlink | .hardlink => checkIndexedLink entry.linkTarget
  | .other _ => .error "unsupported source index entry"

def checkIndexedEntry (seen : List Bytes) (entry : FileEntry) : Except String Unit :=
  if catalogPath entry.path false ≠ .ok entry.path ∨ seen.contains entry.path ∨
      entry.sizeBytes < 0 ∨ entry.sizeBytes > 2 ^ 60 ∨
      entry.mode < 0 ∨ hasOtherBits entry.mode 0o7777 ∨ entry.uid < 0 ∨ entry.gid < 0 then
    .error "invalid source index entry"
  else if entry.metadataSHA256 ≠ [] ∧ badDigest entry.metadataSHA256 then
    .error "invalid source metadata digest"
  else checkIndexedType entry

def checkIndexedEntries : List Bytes → List FileEntry → Except String Unit
  | _, [] => .ok ()
  | seen, entry :: rest =>
    match checkIndexedEntry seen entry with
    | .error err => .error err
    | .ok () => checkIndexedEntries (entry.path :: seen) rest

def decodeIndex (data : IndexData) (source : ManifestIndex) : Except String FileIndex :=
  let index := data.value
  if data.text.length > maxCatalogBytes then .error "source index exceeds 12 MiB"
  else if index.version ≠ 1 ∨ index.sourceID ≠ source.sourceID ∨
      index.entries.length > maxCatalogEntries then
    .error "unsupported or oversized source file index"
  else
    match checkIndexedEntries [] index.entries with
    | .error err => .error err
    | .ok () => .ok index

end Stacklab.Backup
