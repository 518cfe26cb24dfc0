import Stacklab.Backup.Capture

/-! `ApplyRestore`: stop the writers, hold them, apply the prepared restores, and resume. -/
namespace Stacklab.Backup

open Lib

def sourcesByID (manifest : List ManifestSource) : GoMap String ManifestSource :=
  manifest.foldl (fun sources source => sources.insert source.id source) ∅

/-- Whether the source of a mapping is a stack definition. -/
def isDefinition (manifest : List ManifestSource) (mapping : RestoreMapping) : Bool :=
  (((sourcesByID manifest).lookup mapping.sourceID).map ManifestSource.kind).getD "" =
    "stack_definition"

def tokenOf (tokens : GoMap String String) (mapping : RestoreMapping) : String :=
  (tokens.lookup mapping.sourceID).getD ""

/-- The loop that prepares the archives; the tokens so far are returned with an error as well. -/
def prepareTokens : List RestoreMapping → GoMap String String →
    CaptureProg (Except String Unit × GoMap String String)
  | [], tokens => pure (.ok (), tokens)
  | mapping :: rest, tokens => do
    -- `ManifestArchivePath`
    match ← Cmd.staging.issue with
    | .error err => pure (.error err, tokens)
    | .ok () =>
      match ← (Cmd.prepareRestoreArchive mapping).issue with
      | .error err => pure (.error err, tokens)
      | .ok token => prepareTokens rest (tokens.insert mapping.sourceID token)

def checkTokens (mappings : List RestoreMapping) (tokens : GoMap String String) :
    CaptureProg (Except String Unit) :=
  (Cmd.checkPreparedRestores (mappings.map (tokenOf tokens))).issue

def releaseTokens (runID : String) : List String → CaptureProg (List String)
  | [] => pure []
  | token :: rest => do
    match ← (Cmd.releaseRestore runID token).issue with
    | .error err =>
      let errs ← releaseTokens runID rest
      pure (("release-restore failed: " ++ err) :: errs)
    | .ok () => releaseTokens runID rest

def stopRestoreWriters : StopJournal → List Writer →
    CaptureProg (Except String Unit × StopJournal)
  | journal, [] => pure (.ok (), journal)
  | journal, writer :: rest => do
    let r ← stopJournalWriter journal writer
    match r.1 with
    | .error err => pure (.error err, r.2)
    | .ok () => stopRestoreWriters r.2 rest

def applyMappings (runID : String) (tokens : GoMap String String) :
    List RestoreMapping → CaptureProg (Except String Unit)
  | [] => pure (.ok ())
  | mapping :: rest => do
    match ← (Cmd.applyRestore runID (tokenOf tokens mapping)).issue with
    | .error err => pure (.error ("apply-restore failed: " ++ err))
    | .ok () => applyMappings runID tokens rest

def checkDefinitions (runID : String) (manifest : List ManifestSource) :
    List RestoreMapping → CaptureProg (Except String Unit)
  | [] => pure (.ok ())
  | mapping :: rest =>
    if isDefinition manifest mapping then do
      match ← (Cmd.composeConfig runID mapping.target).issue with
      | .error _ => pure (.error "restored Compose definition failed validation")
      | .ok () => checkDefinitions runID manifest rest
    else checkDefinitions runID manifest rest

/-- Where the section after the first save of the journal ended. -/
structure Section where
  writesStarted : Bool
  err : Except String Unit
  journal : StopJournal

/-- The part of the section that writes. -/
def writeMappings (manifest : List ManifestSource) (mappings : List RestoreMapping)
    (journal : StopJournal) : CaptureProg Section := do
  match ← applyMappings journal.runID journal.preparedTokens mappings with
  | .error err => pure ⟨true, .error err, journal⟩
  | .ok () =>
    let checked ← checkDefinitions journal.runID manifest mappings
    pure ⟨true, checked, journal⟩

def restoreStopped (manifest : List ManifestSource) (mappings : List RestoreMapping)
    (journal : StopJournal) : CaptureProg Section := do
  let stopped ← stopRestoreWriters journal journal.writers
  match stopped.1 with
  | .error err => pure ⟨false, .error err, stopped.2⟩
  | .ok () =>
    match ← checkTokens mappings stopped.2.preparedTokens with
    | .error err => pure ⟨false, .error err, stopped.2⟩
    | .ok () =>
      let journal := { stopped.2 with holdStopped := true }
      match ← (Cmd.saveStopJournal journal none).issue with
      | .error err => pure ⟨false, .error err, journal⟩
      | .ok () => writeMappings manifest mappings journal

variable (sourceID : String → String) (ro : RangeOrder String)

/-- The deferred release of the prepared tokens. -/
def releaseAll (runID : String) (tokens : GoMap String String) (err : Except String Unit) :
    CaptureProg (Except String Unit) := do
  let errs ← releaseTokens runID (ro.order 0 (tokens.entries.map Sigma.snd))
  pure (joinError err (joinErrors errs))

/-- The deferred end of the section, and after it the release unless the tokens are kept. -/
def endRestore (runID : String) (tokens : GoMap String String) (resumeServices : Bool)
    (ended : Section) : CaptureProg (Except String Unit) := do
  if !ended.writesStarted ∨ ended.err.isOk ∧ resumeServices then
    let resumed ← resume { ended.journal with holdStopped := false }
    releaseAll ro runID tokens (joinError ended.err resumed.1)
  else
    match ended.err with
    | .ok () =>
      let removed ← (Cmd.removeJournal runID false).issue
      releaseAll ro runID tokens removed
    | .error err => pure (.error ("restore incomplete; affected services remain stopped; " ++
        "recovery journal and helper rollback records are retained: " ++ err))

/-- The part of the call in which tokens may have to be released. -/
def restorePreview (manifest : List ManifestSource) (runID : String) (resumeServices : Bool)
    (preview : RestorePreview) : CaptureProg (Except String Unit) := do
  let prepared ← prepareTokens preview.mappings ∅
  let tokens := prepared.2
  match prepared.1 with
  | .error err => releaseAll ro runID tokens (.error err)
  | .ok () =>
    match ← checkTokens preview.mappings tokens with
    | .error err => releaseAll ro runID tokens (.error err)
    | .ok () =>
      let writers := uniqueRunningWriters [⟨"", "", preview.writers⟩]
      let journal := { newStopJournal runID writers with preparedTokens := tokens }
      match ← (Cmd.saveStopJournal journal none).issue with
      | .error err => releaseAll ro runID tokens (.error err)
      | .ok () =>
        let ended ← restoreStopped manifest preview.mappings journal
        endRestore ro runID tokens resumeServices ended

def applyRestore (manifest : List ManifestSource) (mappings : List RestoreMapping)
    (runID : String) (resumeServices : Bool) : CaptureProg (Except String Unit) := do
  match ← recover sourceID with
  | .error err => pure (.error err)
  | .ok () =>
    match ← (Cmd.previewRestore runID mappings).issue with
    | .error err => pure (.error err)
    | .ok preview => restorePreview ro manifest runID resumeServices preview

end Stacklab.Backup
