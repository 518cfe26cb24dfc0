import Stacklab.Backup.RunCopies
import Stacklab.Lib.Lts
import Stacklab.Lib.Threads

/-! `ExecuteRun` with its concurrent copies, `StartRetry`, crashes and `Reconcile`, over the
memory and the persisted states of one run. -/
namespace Stacklab.Backup

open Lib

structure TransferProgress where
  bytesProcessed : ℤ
  bytesTotal : ℤ
  filesProcessed : ℤ
  filesTotal : ℤ
  bytesAdded : ℤ
  deriving DecidableEq, Repr

/-- Why the objects of a snapshot were not verified. -/
inductive VerifyError
  | incomplete (message : String)
  | unavailable (message : String)
  deriving DecidableEq, Repr

def VerifyError.message : VerifyError → String
  | .incomplete message | .unavailable message => message

inductive RunCmd
  | now
  | setCapture (state : CaptureState)
  | captureAvailable
  | preview
  | validateSourceRepositories
  | prepare
  | writeManifest
  | setManifest (manifest : Manifest)
  | saveRun
  | replaceResources
  | destinationExists (destinationID : String)
  | progress (index : ℕ) (copy : CopyResult)
  | update (index : ℕ) (copy : CopyResult) (phase : RunPhase)
  | transferReports (destinationID : String)
  | upload (destinationID : String)
  | verifyRecoveryObjects (destinationID snapshotID : String)
  | schedulingPaused
  | ctxErr
  | currentRetention (destinationID : String)
  | retain (destinationID : String)
  | record (index : ℕ) (result : CopyResult)

def RunAns : RunCmd → Type
  | .now => Instant
  | .captureAvailable | .destinationExists _ | .schedulingPaused => Bool
  | .prepare => Except String (Option Instant)
  | .transferReports _ => List TransferProgress
  | .upload _ => Except String String
  | .verifyRecoveryObjects _ _ => Option VerifyError
  | .setCapture _ | .setManifest _ | .progress _ _ | .record _ _ => Unit
  | .preview | .validateSourceRepositories | .writeManifest | .saveRun | .replaceResources
  | .update _ _ _ | .ctxErr | .currentRetention _ | .retain _ => Option String

/-- How the environment answers: the clock, whether an operation fails, what restic reports. -/
structure RunOut where
  time : Instant := 0
  err : Option String := none
  flag : Bool := true
  capturedAt : Option Instant := none
  reports : List TransferProgress := []
  snapshot : Except String String := .error ""
  verify : Option VerifyError := none

/-- What a copy proves: its destination, snapshot and verification time, once verified. -/
def copyEvidence (copy : CopyResult) : Option (String × String × Instant) :=
  if verifiedCopy copy then
    copy.verifiedAt.map fun verifiedAt => (copy.destinationID, copy.snapshotID, verifiedAt)
  else none

def evidence (run : Run) (index : ℕ) : Option (String × String × Instant) :=
  (run.copies[index]?).bind copyEvidence

/-- `persisted` has every state that was saved, the newest first; `state` is the run in the
service's memory and `run` the variable that the copies of one execution share. `unsaved` only
observes: the verified copies in memory whose own save failed. -/
structure RunWorld where
  persisted : List Run
  state : Run
  run : Run
  unsaved : List ℕ

namespace RunWorld

def store (w : RunWorld) (r : Run) : RunWorld :=
  { w with state := r, unsaved := w.unsaved.filter fun i => (evidence r i).isSome }

def persist (w : RunWorld) (err : Option String) : RunWorld :=
  match err with
  | none => { w with persisted := w.state :: w.persisted }
  | some _ => w

def setCopy (w : RunWorld) (index : ℕ) (copy : CopyResult) : RunWorld :=
  { w with run := { w.run with copies := w.run.copies.set index copy } }

def setPhase (w : RunWorld) (phase : RunPhase) : RunWorld :=
  { w with run := { w.run with phase := phase } }

/-- A verified copy whose save at the end of its transfer failed is in memory only. -/
def noteUnsaved (w : RunWorld) (index : ℕ) (copy : CopyResult) (phase : RunPhase)
    (err : Option String) : RunWorld :=
  if err.isSome && phase = .upload && verifiedCopy copy then
    { w with unsaved := index :: w.unsaved }
  else w

def updated (w : RunWorld) (index : ℕ) (copy : CopyResult) (phase : RunPhase) : RunWorld :=
  (w.setCopy index copy).setPhase phase

end RunWorld

/-- The result of a copy, with the error of releasing its repository. -/
def released (releaseErr : Option String) (result : CopyResult) : CopyResult :=
  match releaseErr with
  | none => result
  | some err =>
    let message := "Could not release completed repository reservation: " ++ err
    if verifiedCopy result then { result with retention := .failed, retentionError := message }
    else { result with state := .failed, error := message }

def runExec : (c : RunCmd) → RunOut → RunWorld → RunAns c × RunWorld
  | .now, o, w => (o.time, w)
  | .setCapture state, _, w => ((), { w with run := { w.run with captureState := state } })
  | .captureAvailable, o, w => (o.flag, w)
  | .preview, o, w => (o.err, w)
  | .validateSourceRepositories, o, w => (o.err, w)
  | .prepare, o, w =>
    (match o.err with | some err => Except.error err | none => Except.ok o.capturedAt, w)
  | .writeManifest, o, w => (o.err, w)
  | .setManifest manifest, _, w =>
    ((), { w with run := { w.run with
      manifest := some manifest, capturedAt := some manifest.capturedAt } })
  | .saveRun, o, w => (o.err, (w.store w.run).persist o.err)
  | .replaceResources, o, w => (o.err, w)
  | .destinationExists _, o, w => (o.flag, w)
  | .progress index copy, _, w =>
    let w := w.setCopy index copy
    ((), w.store w.run)
  | .update index copy phase, o, w =>
    let w := w.updated index copy phase
    (o.err, ((w.store w.run).persist o.err).noteUnsaved index copy phase o.err)
  | .transferReports _, o, w => (o.reports, w)
  | .upload _, o, w =>
    (match o.snapshot with
      | .error err => Except.error err
      | .ok id => if validSnapshotID id then Except.ok id
        else Except.error "restic did not report a completed snapshot", w)
  | .verifyRecoveryObjects _ _, o, w => (o.verify, w)
  | .schedulingPaused, o, w => (o.flag, w)
  | .ctxErr, o, w => (o.err, w)
  | .currentRetention _, o, w => (o.err, w)
  | .retain _, o, w => (o.err, w)
  | .record index result, o, w => ((), w.setCopy index (released o.err result))

def runMachine : Machine RunCmd RunAns RunOut RunWorld := ⟨runExec⟩

abbrev RunProg (α : Type) : Type := Prog RunCmd RunAns α

abbrev RunCmd.issue (c : RunCmd) : RunProg (RunAns c) := Prog.issue c

def persistenceFailed (err : String) : String := "backup state persistence failed: " ++ err

/-- Retention with the current policy, unless its start could not be saved. -/
def runRetention (copy : CopyResult) (saveErr : Option String) : RunProg (Option String) :=
  match saveErr with
  | some err => pure (some err)
  | none => do
    let ctxErr : Option String ← RunCmd.issue .ctxErr
    match ctxErr with
    | some err => pure (some err)
    | none =>
      let policyErr : Option String ← RunCmd.issue (.currentRetention copy.destinationID)
      match policyErr with
      | some err => pure (some err)
      | none =>
        let retainErr : Option String ← RunCmd.issue (.retain copy.destinationID)
        match retainErr with
        | some err => pure (some err)
        | none => RunCmd.issue .ctxErr

/-- The closing save of `executeRetention`. -/
def endRetention (index : ℕ) (copy : CopyResult) : RunProg CopyResult := do
  let saveErr : Option String ← RunCmd.issue (.update index copy .retention)
  match saveErr with
  | some err =>
    pure { copy with retention := .failed, retentionError := persistenceFailed err }
  | none => pure copy

def executeRetention (index : ℕ) (copy : CopyResult) : RunProg CopyResult := do
  let paused : Bool ← RunCmd.issue .schedulingPaused
  if paused then
    -- Skipping cannot resolve an earlier failure.
    endRetention index { copy with
      retention := if copy.retentionError ≠ "" then .failed else .skipped }
  else
    let started : Instant ← RunCmd.issue .now
    let copy := { copy with retention := .running, retentionStartedAt := some started,
                            retentionCompletedAt := none, retentionError := "" }
    let saveErr : Option String ← RunCmd.issue (.update index copy .retention)
    let err ← runRetention copy saveErr
    let completed : Instant ← RunCmd.issue .now
    match err with
    | none =>
      endRetention index { copy with retention := .succeeded, retentionError := "",
                                     retentionCompletedAt := some completed }
    | some err =>
      endRetention index { copy with retention := .failed, retentionError := err,
                                     retentionCompletedAt := some completed }

/-- The destination must still exist and the start of the copy must be saved. -/
def beginCopy (index : ℕ) (copy : CopyResult) : RunProg (Option String) := do
  let found : Bool ← RunCmd.issue (.destinationExists copy.destinationID)
  if found then RunCmd.issue (.update index copy .upload)
  else pure (some "backup object not found")

def reportProgress (index : ℕ) : CopyResult → List TransferProgress → RunProg CopyResult
  | copy, [] => pure copy
  | copy, progress :: rest => do
    let copy := { copy with
      bytesProcessed := progress.bytesProcessed
      bytesTotal := progress.bytesTotal
      filesProcessed := progress.filesProcessed
      filesTotal := progress.filesTotal
      bytesAdded := progress.bytesAdded }
    let _ : Unit ← RunCmd.issue (.progress index copy)
    reportProgress index copy rest

def transferCopy (index : ℕ) (copy : CopyResult) (err : Option String) :
    RunProg (CopyResult × Option String) :=
  if err.isSome || copy.snapshotID ≠ "" then pure (copy, err)
  else do
    let reports : List TransferProgress ← RunCmd.issue (.transferReports copy.destinationID)
    let copy ← reportProgress index copy reports
    let uploaded : Except String String ← RunCmd.issue (.upload copy.destinationID)
    match uploaded with
    | .error err => pure ({ copy with snapshotID := "" }, some err)
    | .ok snapshotID =>
      let now : Instant ← RunCmd.issue .now
      pure ({ copy with snapshotID := snapshotID, uploadedAt := some now }, none)

/-- What a failed verification, or a failed save before it, leaves of the evidence. -/
def unverified (copy : CopyResult) : CopyResult :=
  { copy with verification := .unavailable, verifiedAt := none }

def verifyTransfer (index : ℕ) (copy : CopyResult) (err : Option String) :
    RunProg (CopyResult × Option String) :=
  match err with
  | some err => pure (copy, some err)
  | none => do
    let saveErr : Option String ← RunCmd.issue (.update index copy .verify)
    match saveErr with
    | some err => pure (unverified copy, some err)
    | none =>
      let failure : Option VerifyError ←
        RunCmd.issue (.verifyRecoveryObjects copy.destinationID copy.snapshotID)
      match failure with
      | some (.incomplete message) =>
        pure ({ unverified copy with verification := .failed, snapshotID := "" }, some message)
      | some (.unavailable message) => pure (unverified copy, some message)
      | none =>
        let now : Instant ← RunCmd.issue .now
        pure ({ copy with verification := .recoveryObjectsVerified, verifiedAt := some now }, none)

/-- The closing save of `executeCopy`; only a saved copy goes on to retention. -/
def completeCopy (index : ℕ) (copy : CopyResult) : RunProg CopyResult := do
  let saveErr : Option String ← RunCmd.issue (.update index copy .upload)
  let copy := match saveErr with
    | some err => { copy with state := .failed, error := persistenceFailed err }
    | none => copy
  if verifiedCopy copy then executeRetention index copy else pure copy

def executeCopy (index : ℕ) (copy : CopyResult) : RunProg CopyResult :=
  if verifiedCopy copy then executeRetention index copy
  else do
    let started : Instant ← RunCmd.issue .now
    let copy := { copy with state := .running, error := "", startedAt := some started,
                            completedAt := none }
    let beginErr ← beginCopy index copy
    let (copy, transferErr) ← transferCopy index copy beginErr
    let (copy, err) ← verifyTransfer index copy transferErr
    let completed : Instant ← RunCmd.issue .now
    match err with
    | none => completeCopy index { copy with completedAt := some completed, state := .succeeded }
    | some err =>
      completeCopy index { copy with completedAt := some completed, state := .failed, error := err }

/-- The goroutine that `ExecuteRun` starts for one copy. -/
def copyThread (index : ℕ) (initial : CopyResult) : RunProg Unit := do
  let result ← executeCopy index initial
  RunCmd.issue (.record index result)

def prepareCapture (runID planID : String) : RunProg (Except String Manifest) := do
  let available : Bool ← RunCmd.issue .captureAvailable
  if !available then pure (.error "capture service unavailable")
  else
    let previewErr : Option String ← RunCmd.issue .preview
    match previewErr with
    | some err => pure (.error err)
    | none =>
      let sourcesErr : Option String ← RunCmd.issue .validateSourceRepositories
      match sourcesErr with
      | some err => pure (.error err)
      | none =>
        let prepared : Except String (Option Instant) ← RunCmd.issue .prepare
        match prepared with
        | .error err => pure (.error err)
        | .ok capturedAt =>
          let now : Instant ← RunCmd.issue .now
          let writeErr : Option String ← RunCmd.issue .writeManifest
          match writeErr with
          | some err => pure (.error err)
          | none => pure (.ok ⟨1, runID, planID, capturedAt.getD now⟩)

/-- The job goes on holding only the repositories of the copies with work left. -/
def replaceResources : RunProg (Option String) := RunCmd.issue .replaceResources

/-- `ExecuteRun` before it starts the copies; the answer is its `operationErr`. -/
def openRun (run : Run) : RunProg (Option String) :=
  if run.captureState = .succeeded then replaceResources
  else do
    let _ : Unit ← RunCmd.issue (.setCapture .running)
    let saveErr : Option String ← RunCmd.issue .saveRun
    match saveErr with
    | some err => pure (some err)
    | none =>
      let captured ← prepareCapture run.id run.planID
      match captured with
      | .error err =>
        let _ : Unit ← RunCmd.issue (.setCapture .failed)
        pure (some err)
      | .ok manifest =>
        let _ : Unit ← RunCmd.issue (.setManifest manifest)
        let _ : Unit ← RunCmd.issue (.setCapture .succeeded)
        let saveErr : Option String ← RunCmd.issue .saveRun
        match saveErr with
        | some err => pure (some err)
        | none => replaceResources

inductive RunStage
  | idle
  | accepted
  | opening (p : RunProg (Option String))
  | copying (threads : ℕ → Option (RunProg Unit))
  | booting

structure RunSystem where
  stage : RunStage
  world : RunWorld

inductive RunLabel
  | execute
  | command (o : RunOut)
  | fork
  | thread (index : ℕ) (o : RunOut)
  | conclude (ctxErr : Option String) (now : Instant) (saveErr : Option String)
  | retry (request : List String) (env : RetryEnv) (saveErr : Option String)
  | persist (saveErr : Option String)
  | crash
  | reconcile (now : Instant) (saveErr : Option String)

namespace RunSystem

/-- `StartRun` has saved a new run and returned its job. -/
def start (run : Run) : RunSystem :=
  ⟨.accepted, { persisted := [run], state := run, run := run, unsaved := [] }⟩

def forkThreads (run : Run) (index : ℕ) : Option (RunProg Unit) :=
  match run.copies[index]? with
  | some copy => if copyWorkPending copy then some (copyThread index copy) else none
  | none => none

/-- `transfers.Wait()` returns. -/
def allDone (run : Run) (threads : ℕ → Option (RunProg Unit)) : Bool :=
  (List.range run.copies.length).all fun index =>
    match threads index with
    | some p => p.result.isSome
    | none => true

/-- The `operationErr` with which an execution that is at its end concludes. -/
def outcome (s : RunSystem) (ctxErr : Option String) : Option (Option String) :=
  match s.stage with
  | .opening (.ret (some err)) => some (some err)
  | .copying threads =>
    if allDone s.world.run threads then some (operationError ctxErr s.world.run) else none
  | _ => none

/-- A new process reads what was saved last. -/
def restart (w : RunWorld) : RunWorld :=
  let saved := w.persisted.headD w.state
  { persisted := w.persisted, state := saved, run := saved, unsaved := [] }

def next (s : RunSystem) : RunLabel → RunSystem
  | .execute =>
    match s.stage with
    | .accepted => ⟨.opening (openRun s.world.state), { s.world with run := s.world.state }⟩
    | _ => s
  | .command o =>
    match s.stage with
    | .opening p => ⟨.opening (p.step runMachine o s.world).1, (p.step runMachine o s.world).2⟩
    | _ => s
  | .fork =>
    match s.stage with
    | .opening (.ret none) => ⟨.copying (forkThreads s.world.run), s.world⟩
    | _ => s
  | .thread index o =>
    match s.stage with
    | .copying threads =>
      let pool := Pool.step runMachine ⟨threads, s.world⟩ index o
      ⟨.copying pool.threads, pool.world⟩
    | _ => s
  | .conclude ctxErr now saveErr =>
    match s.outcome ctxErr with
    | some operationErr =>
      let run := concluded operationErr now s.world.run
      ⟨.idle, (({ s.world with run := run } : RunWorld).store run).persist saveErr⟩
    | none => s
  | .retry request env saveErr =>
    match startRetry request env s.world.state, saveErr with
    | .ok run, none => ⟨.accepted, (s.world.store run).persist none⟩
    | _, _ => s
  | .persist saveErr => ⟨s.stage, s.world.persist saveErr⟩
  | .crash => ⟨.booting, restart s.world⟩
  | .reconcile now saveErr =>
    match s.stage with
    | .booting => ⟨.idle, (s.world.store (reconcileRun now s.world.state)).persist saveErr⟩
    | _ => s

/-- A request is served only after `Reconcile`. -/
def enabled (s : RunSystem) : RunLabel → Bool
  | .retry _ _ _ => match s.stage with
    | .booting => false
    | _ => true
  | _ => true

end RunSystem

def runLts : Lts RunSystem RunLabel := Lts.ofNext RunSystem.enabled RunSystem.next

end Stacklab.Backup
