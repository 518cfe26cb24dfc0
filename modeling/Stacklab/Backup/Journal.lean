import Stacklab.Lib.GoMap
import Stacklab.Lib.GoText
import Stacklab.Lib.Prog

/-! The writer stop journals: their files, and the commands that capture and restore issue. -/
namespace Stacklab.Backup

open Lib

structure Writer where
  containerID : String
  stackID : String
  service : String
  running : Bool
  readOnly : Bool
  stopTimeoutSeconds : Option ℤ
  deriving DecidableEq, Repr

/-- A writer's phase; `other` is any other text, the empty one for an absent entry. -/
inductive Phase
  | planned
  | stopRequested
  | stopped
  | resumed
  | other (text : String)
  deriving DecidableEq, Repr

structure StopJournal where
  version : ℤ
  runID : String
  writers : List Writer
  holdStopped : Bool
  phases : GoMap String Phase
  preparedTokens : GoMap String String

namespace StopJournal

def phase (journal : StopJournal) (containerID : String) : Phase :=
  (journal.phases.lookup containerID).getD (.other "")

def setPhase (journal : StopJournal) (containerID : String) (phase : Phase) : StopJournal :=
  { journal with phases := journal.phases.insert containerID phase }

theorem phase_setPhase (journal : StopJournal) (id id' : String) (phase : Phase) :
    (journal.setPhase id' phase).phase id = if id = id' then phase else journal.phase id := by
  unfold StopJournal.phase setPhase
  rw [GoMap.lookup_insert]
  split <;> rfl

end StopJournal

def newStopJournal (runID : String) (writers : List Writer) : StopJournal where
  version := 2
  runID := runID
  writers := writers
  holdStopped := false
  phases := GoMap.insertAll ∅ .planned (writers.map Writer.containerID)
  preparedTokens := ∅

/-- An entry of the journal directory; the content is absent when it is no journal. -/
inductive DirEntry
  | directory
  | symlink (content : Option StopJournal)
  | file (content : Option StopJournal)

inductive EntryKind
  | directory
  | symlink
  | file
  deriving DecidableEq, Repr

def DirEntry.kind : DirEntry → EntryKind
  | .directory => .directory
  | .symlink _ => .symlink
  | .file _ => .file

def DirEntry.content : DirEntry → Option StopJournal
  | .directory => none
  | .symlink content => content
  | .file content => content

structure ManifestSource where
  id : String
  kind : String
  writers : List Writer
  deriving DecidableEq, Repr

structure RestoreMapping where
  sourceID : String
  target : String
  mode : String
  deriving DecidableEq, Repr

structure RestorePreview where
  mappings : List RestoreMapping
  writers : List Writer
  deriving DecidableEq, Repr

inductive ContainerState
  | paused
  | running
  | stopped
  deriving DecidableEq, Repr

inductive Cmd
  | readDir
  | lstat (name : String)
  | readFile (name : String)
  /-- `intent` is the writer whose stop this write announces, if any. -/
  | saveStopJournal (journal : StopJournal) (intent : Option String)
  | removeJournal (runID : String) (acknowledged : Bool)
  | saveHistory (journal : StopJournal)
  /-- `runID` is the journal on whose behalf the container is stopped. -/
  | dockerStop (runID : String) (seconds : ℤ) (containerID : String) (fence : Bool)
  | dockerStart (runID containerID : String)
  | ctxErr
  | preview
  | containers
  /-- Any other fallible work on the staging directory. -/
  | staging
  | previewRestore (runID : String) (mappings : List RestoreMapping)
  | prepareRestoreArchive (mapping : RestoreMapping)
  | checkPreparedRestores (tokens : List String)
  | applyRestore (runID token : String)
  | releaseRestore (runID token : String)
  | composeConfig (runID target : String)

@[reducible] def Ans : Cmd → Type
  | .readDir => Except String (List (String × EntryKind))
  | .lstat _ => Except String (Option EntryKind)
  | .readFile _ => Except String (Option StopJournal)
  | .ctxErr => Option String
  | .preview => Except String (List ManifestSource)
  | .containers => Except String (List (String × ContainerState))
  | .previewRestore _ _ => Except String RestorePreview
  | .prepareRestoreArchive _ => Except String String
  | .saveStopJournal _ _ | .removeJournal _ _ | .saveHistory _ | .dockerStop _ _ _ _
  | .dockerStart _ _ | .staging | .checkPreparedRestores _ | .applyRestore _ _
  | .releaseRestore _ _ | .composeConfig _ _ => Except String Unit

/-- What has been issued, newest first. -/
inductive Event
  | callBegan
  | saved (runID : String) (intent : Option String) (landed : Bool)
  | removed (runID : String) (acknowledged : Bool)
  | stopIssued (runID containerID : String) (fence : Bool)
  | startIssued (runID containerID : String) (ok : Bool)
  | previewed (runID : String) (mappings : List RestoreMapping)
  | applyIssued (runID token : String) (ok : Bool)
  | composeChecked (runID : String) (ok : Bool)
  | releaseIssued (runID token : String)
  deriving DecidableEq, Repr

structure World where
  disk : GoMap String DirEntry
  log : List Event

/-- How the environment behaved during one command. A file operation may report a failure
after it has taken effect: `landed` tells. The rest are the answers of queries. -/
structure Out where
  failure : Option String
  landed : Bool
  sources : List ManifestSource
  restore : RestorePreview
  token : String
  containers : List (String × ContainerState)

def Out.answer {α : Type} (o : Out) (a : α) : Except String α :=
  match o.failure with
  | some text => .error text
  | none => .ok a

def Out.tookEffect (o : Out) : Bool := o.failure.isNone || o.landed

def World.record (w : World) (e : Event) : World := { w with log := e :: w.log }

section Machine

-- The hash that names a journal file is a parameter.
variable (sourceID : String → String)

def journalFile (runID : String) : String := sourceID runID ++ ".json"

/-- Replacing a directory by a file is refused before anything is written. -/
def World.save (w : World) (o : Out) (journal : StopJournal) (intent : Option String) :
    Except String Unit × World :=
  let name := journalFile sourceID journal.runID
  match w.disk.lookup name with
  | some .directory =>
    (.error "destination is not a regular file", w.record (.saved journal.runID intent false))
  | _ =>
    if o.tookEffect then
      (o.answer (), { w with disk := w.disk.insert name (.file (some journal)) }.record
        (.saved journal.runID intent true))
    else (o.answer (), w.record (.saved journal.runID intent false))

def World.remove (w : World) (o : Out) (runID : String) (acknowledged : Bool) :
    Except String Unit × World :=
  let w := w.record (.removed runID acknowledged)
  if o.tookEffect then
    (o.answer (), { w with disk := w.disk.erase (journalFile sourceID runID) })
  else (o.answer (), w)

def World.readDir (w : World) : List (String × EntryKind) :=
  (w.disk.entries.map fun e => (e.1, e.2.kind)).mergeSort fun a b => decide (a.1 ≤ b.1)

def World.readFile (w : World) (name : String) : Except String (Option StopJournal) :=
  match w.disk.lookup name with
  | none => .error "no such file"
  | some .directory => .error "is a directory"
  | some entry => .ok entry.content

def captureMachine : Machine Cmd Ans Out World where
  exec
    | .readDir, o, w => (o.answer w.readDir, w)
    | .lstat name, o, w => (o.answer ((w.disk.lookup name).map DirEntry.kind), w)
    | .readFile name, o, w =>
      match o.failure with
      | some text => (.error text, w)
      | none => (w.readFile name, w)
    | .saveStopJournal journal intent, o, w => w.save sourceID o journal intent
    | .removeJournal runID acknowledged, o, w => w.remove sourceID o runID acknowledged
    | .saveHistory _, o, w => (o.answer (), w)
    | .dockerStop runID _ containerID fence, o, w =>
      (o.answer (), w.record (.stopIssued runID containerID fence))
    | .dockerStart runID containerID, o, w =>
      (o.answer (), w.record (.startIssued runID containerID o.failure.isNone))
    | .ctxErr, o, w => (o.failure, w)
    | .preview, o, w => (o.answer o.sources, w)
    | .containers, o, w => (o.answer o.containers, w)
    | .staging, o, w => (o.answer (), w)
    | .previewRestore runID _, o, w =>
      (o.answer o.restore, w.record (.previewed runID o.restore.mappings))
    | .prepareRestoreArchive _, o, w => (o.answer o.token, w)
    | .checkPreparedRestores _, o, w => (o.answer (), w)
    | .applyRestore runID token, o, w =>
      (o.answer (), w.record (.applyIssued runID token o.failure.isNone))
    | .releaseRestore runID token, o, w =>
      (o.answer (), w.record (.releaseIssued runID token))
    | .composeConfig runID _, o, w =>
      (o.answer (), w.record (.composeChecked runID o.failure.isNone))

end Machine

abbrev CaptureProg (α : Type) : Type := Prog Cmd Ans α

abbrev Cmd.issue (c : Cmd) : CaptureProg (Ans c) := Prog.issue c

end Stacklab.Backup
