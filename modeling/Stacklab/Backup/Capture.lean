import Stacklab.Backup.Journal

/-! Stopping writers for a capture, resuming them, and recovering after a crash. -/
namespace Stacklab.Backup

open Lib

/-- `errors.Join`: the texts on lines of their own, no error when there is none. -/
def joinErrors (failures : List String) : Except String Unit :=
  if failures.length > 0 then .error (String.intercalate "\n" failures) else .ok ()

def joinError (left right : Except String Unit) : Except String Unit :=
  match left, right with
  | .error l, .error r => .error (l ++ "\n" ++ r)
  | .error l, .ok () => .error l
  | .ok (), r => r

def writerStopTimeout (writer : Writer) : Except String ℤ :=
  let seconds := writer.stopTimeoutSeconds.getD 30
  if seconds < 0 ∨ seconds > 3600 then
    .error "writer stop timeout must be bounded between 0 and 3600 seconds"
  else .ok seconds

def stopWriter (runID : String) (writer : Writer) : CaptureProg (Except String Unit) := do
  match ← Cmd.ctxErr.issue with
  | some err => pure (.error err)
  | none =>
    match writerStopTimeout writer with
    | .error err => pure (.error err)
    | .ok seconds => (Cmd.dockerStop runID seconds writer.containerID false).issue

def fenceWriterStop (runID : String) (writer : Writer) : CaptureProg (Except String Unit) :=
  match writerStopTimeout writer with
  | .error err => pure (.error err)
  | .ok seconds => (Cmd.dockerStop runID seconds writer.containerID true).issue

/-- The journal is returned as well: the source changes the map that its caller holds. -/
def stopJournalWriter (journal : StopJournal) (writer : Writer) :
    CaptureProg (Except String Unit × StopJournal) := do
  let journal := journal.setPhase writer.containerID .stopRequested
  match ← (Cmd.saveStopJournal journal (some writer.containerID)).issue with
  | .error err => pure (.error err, journal)
  | .ok () =>
    match ← stopWriter journal.runID writer with
    | .error err => pure (.error err, journal)
    | .ok () => do
      let journal := journal.setPhase writer.containerID .stopped
      let saved ← (Cmd.saveStopJournal journal none).issue
      pure (saved, journal)

/-- A stop that is not known to have completed is issued again and waited for. -/
def resolveStop (journal : StopJournal) (writer : Writer) : CaptureProg (Except String Unit) :=
  if journal.phase writer.containerID ≠ .stopped then fenceWriterStop journal.runID writer
  else pure (.ok ())

/-- The loop of `resume` over the writers; the failures in order. -/
def resumeWriters : StopJournal → List Writer → CaptureProg (List String × StopJournal)
  | journal, [] => pure ([], journal)
  | journal, writer :: rest => do
    let phase := journal.phase writer.containerID
    if !writer.running ∨ phase = .planned ∨ phase = .resumed then resumeWriters journal rest
    else
      match ← resolveStop journal writer with
      | .error err => do
        let r ← resumeWriters journal rest
        pure (("resolve stop of writer " ++ writer.containerID ++ " (journal retained): " ++
          err) :: r.1, r.2)
      | .ok () =>
        match ← (Cmd.dockerStart journal.runID writer.containerID).issue with
        | .error err => do
          let r ← resumeWriters journal rest
          pure (("restart writer " ++ writer.containerID ++ " (journal retained): " ++
            err) :: r.1, r.2)
        | .ok () =>
          let journal := journal.setPhase writer.containerID .resumed
          match ← (Cmd.saveStopJournal journal none).issue with
          | .error err => do
            let r ← resumeWriters journal rest
            pure (err :: r.1, r.2)
          | .ok () => resumeWriters journal rest

def resume (journal : StopJournal) : CaptureProg (Except String Unit × StopJournal) := do
  let r ← resumeWriters journal journal.writers
  if r.1.length > 0 then pure (joinErrors r.1, r.2)
  else do
    let removed ← (Cmd.removeJournal r.2.runID false).issue
    pure (removed, r.2)

variable (sourceID : String → String)

def validContainerID (id : String) : Bool :=
  id.utf8ByteSize ≠ 0 && id.utf8ByteSize ≤ 128 && !hasPrefix id "-" &&
    !id.toList.any fun c => c ∈ [' ', '/', '\\', '\x00', '\r', '\n', '\t']

def knownPhase : Phase → Bool
  | .other _ => false
  | _ => true

/-- The loop over the writers, with the ids already `seen`. -/
def validWriters (journal : StopJournal) : List String → List Writer → Bool
  | _, [] => true
  | seen, writer :: rest =>
    validContainerID writer.containerID && writer.containerID ∉ seen &&
      (journal.version ≠ 2 || knownPhase (journal.phase writer.containerID)) &&
      validWriters journal (writer.containerID :: seen) rest

def validJournal (journal : StopJournal) (filename : String) : Bool :=
  (journal.version = 1 || journal.version = 2) && journal.runID ≠ "" &&
    journalFile sourceID journal.runID = filename && validWriters journal [] journal.writers

/-- One entry of the journal directory; an entry that needs no recovery yields no failure. -/
def recoverEntry (name : String) (kind : EntryKind) : CaptureProg (Except String Unit) := do
  if kind = .directory ∨ hasSuffix name ".json" = false then pure (.ok ())
  else
    match ← (Cmd.readFile name).issue with
    | .error err => pure (.error err)
    | .ok content =>
      if kind = .symlink then
        pure (.error "backup service recovery journal must not be a symlink")
      else
        match content with
        | none => pure (.error "invalid backup service recovery journal")
        | some journal =>
          if !validJournal sourceID journal name then
            pure (.error "invalid backup service recovery journal")
          else if journal.holdStopped then
            pure (.error ("recovery " ++ journal.runID ++ " requires inspection; " ++
              "services remain stopped and the journal is retained"))
          else do
            let r ← resume journal
            pure r.1

def recoverEntries : List (String × EntryKind) → CaptureProg (List String)
  | [] => pure []
  | (name, kind) :: rest => do
    match ← recoverEntry sourceID name kind with
    | .error err => do
      let failures ← recoverEntries rest
      pure (err :: failures)
    | .ok () => recoverEntries rest

def recover : CaptureProg (Except String Unit) := do
  match ← Cmd.readDir.issue with
  | .error err => pure (.error err)
  | .ok entries => do
    let failures ← recoverEntries sourceID entries
    pure (joinErrors failures)

/-- Keyed by container id, the last one wins; the final sort erases the map's order. -/
def uniqueRunningWriters (sources : List ManifestSource) : List Writer :=
  let byID : GoMap String Writer :=
    ((sources.flatMap ManifestSource.writers).filter Writer.running).foldl
      (fun m writer => m.insert writer.containerID writer) ∅
  (byID.entries.map Sigma.snd).mergeSort fun a b => decide (a.containerID ≤ b.containerID)

/-- Stop the writers in order until one fails. -/
def stopWriters : StopJournal → List Writer → CaptureProg (Except String Unit × StopJournal)
  | journal, [] => pure (.ok (), journal)
  | journal, writer :: rest => do
    let r ← stopJournalWriter journal writer
    match r.1 with
    | .error err => pure (.error ("stop selected writer: " ++ err), r.2)
    | .ok () => stopWriters r.2 rest

/-- The section between the stop of the writers and the end of the call. The deferred resume
runs unless an earlier one succeeded. -/
def captureStopped (journal : StopJournal) : CaptureProg (Except String Unit) := do
  let stopped ← stopWriters journal journal.writers
  match stopped.1 with
  | .error err => do
    let resumed ← resume stopped.2
    pure (joinError (.error err) resumed.1)
  | .ok () =>
    match ← Cmd.staging.issue with
    | .error err => do
      let resumed ← resume stopped.2
      pure (joinError (.error err) resumed.1)
    | .ok () => do
      let resumed ← resume stopped.2
      match resumed.1 with
      | .error err => do
        let again ← resume resumed.2
        pure (joinError (.error err) again.1)
      | .ok () => Cmd.staging.issue

def allStopTimeouts (writers : List Writer) : Except String Unit :=
  match writers with
  | [] => .ok ()
  | writer :: rest =>
    match writerStopTimeout writer with
    | .error err => .error err
    | .ok _ => allStopTimeouts rest

/-- `Prepare` with consistency `stop`. The staging directory, the captured archives and
their indexes are behind the `staging` commands. -/
def prepare (planSources : ℕ) (runID : String) : CaptureProg (Except String Unit) := do
  if planSources = 0 then pure (.error "backup requires at least one source")
  else
    match ← recover sourceID with
    | .error err => pure (.error err)
    | .ok () =>
      match ← Cmd.preview.issue with
      | .error err => pure (.error err)
      | .ok sources =>
        match ← Cmd.staging.issue with
        | .error err => pure (.error err)
        | .ok () =>
          let writers := uniqueRunningWriters sources
          match allStopTimeouts writers with
          | .error err => pure (.error err)
          | .ok () =>
            if writers.length = 0 then Cmd.staging.issue
            else
              let journal := newStopJournal runID writers
              match ← (Cmd.saveStopJournal journal none).issue with
              | .error err => pure (.error err)
              | .ok () => captureStopped journal

inductive RecoveryError
  | notFound
  | invalid (message : String)
  | busy (message : String)
  | failed (message : String)
  deriving DecidableEq, Repr

inductive RecoveryAction
  | retry
  | acknowledgeHold
  | acknowledgeMissing
  | other (text : String)
  deriving DecidableEq, Repr

structure RecoveryResolution where
  action : RecoveryAction
  inspected : Bool
  reason : String

def readRecoveryJournal (runID : String) :
    CaptureProg (Except RecoveryError StopJournal) := do
  let name := journalFile sourceID runID
  match ← (Cmd.lstat name).issue with
  | .error err => pure (.error (.failed err))
  | .ok none => pure (.error .notFound)
  | .ok (some kind) =>
    if kind = .symlink then
      pure (.error (.invalid "recovery journal must not be a symlink"))
    else
      match ← (Cmd.readFile name).issue with
      | .error err => pure (.error (.failed err))
      | .ok content =>
        match content with
        | some journal =>
          if validJournal sourceID journal name then pure (.ok journal)
          else pure (.error
            (.invalid "invalid recovery journal requires direct operator inspection"))
        | none => pure (.error
            (.invalid "invalid recovery journal requires direct operator inspection"))

/-- Whether a writer of the journal is missing among the discovered containers. -/
def observedMissing (discovered : Except String (List (String × ContainerState)))
    (writer : Writer) : Bool :=
  match discovered with
  | .error _ => false
  | .ok containers => !containers.any fun c => c.1 = writer.containerID

def canAcknowledgeMissing (journal : StopJournal)
    (discovered : Except String (List (String × ContainerState))) : Bool :=
  let unfinished := journal.writers.filter fun writer =>
    writer.running && journal.phase writer.containerID ≠ .planned &&
      journal.phase writer.containerID ≠ .resumed
  !journal.holdStopped && unfinished.all (observedMissing discovered) && unfinished.length ≠ 0

def validateRecoveryResolution (runID : String) (input : RecoveryResolution) :
    CaptureProg (Except RecoveryError StopJournal) := do
  match ← readRecoveryJournal sourceID runID with
  | .error err => pure (.error err)
  | .ok journal =>
    match input.action with
    | .retry =>
      if journal.holdStopped then
        pure (.error (.busy ("inspect partially restored data before acknowledging the hold; " ++
          "automatic restart is unsafe")))
      else pure (.ok journal)
    | .acknowledgeHold =>
      if !journal.holdStopped then
        pure (.error (.invalid ("journal is not a held restore; " ++
          "retry recovery or inspect missing writers")))
      else pure (.ok journal)
    | .acknowledgeMissing =>
      let reasonLength := (trimSpace input.reason).length
      if !input.inspected ∨ reasonLength < 8 ∨ reasonLength > 1000 then
        pure (.error (.invalid "confirm inspection and provide a reason of 8 to 1000 characters"))
      else do
        let discovered ← Cmd.containers.issue
        if !canAcknowledgeMissing journal discovered then
          pure (.error (.busy ("all unfinished original writers must be confirmed missing; " ++
            "retry recovery for existing writers and inspect Docker state")))
        else pure (.ok journal)
    | .other _ => pure (.error (.invalid "unsupported recovery resolution"))

def liftFailure (r : Except String Unit) : Except RecoveryError Unit :=
  match r with
  | .error err => .error (.failed err)
  | .ok () => .ok ()

def acknowledgeRecovery (journal : StopJournal) : CaptureProg (Except String Unit) := do
  match ← (Cmd.saveHistory journal).issue with
  | .error err => pure (.error err)
  | .ok () => (Cmd.removeJournal journal.runID true).issue

def resolveRecoveryWithInput (runID : String) (input : RecoveryResolution) :
    CaptureProg (Except RecoveryError Unit) := do
  match ← validateRecoveryResolution sourceID runID input with
  | .error err => pure (.error err)
  | .ok journal =>
    if input.action = .retry then do
      let r ← resume journal
      pure (liftFailure r.1)
    else do
      let r ← acknowledgeRecovery journal
      pure (liftFailure r)

def resolveRecovery (runID : String) (action : RecoveryAction) :
    CaptureProg (Except RecoveryError Unit) :=
  resolveRecoveryWithInput sourceID runID ⟨action, false, ""⟩

end Stacklab.Backup
