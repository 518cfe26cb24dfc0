import Stacklab.Lib.Lts
import Stacklab.Scheduler.Settings

/-! The background passes that start due maintenance, next to calls of `UpdateSettings`. Settings
and runtime are two rows of the database, and every step reads or writes at most one of them. -/
namespace Stacklab.Scheduler

open Lib

inductive ScheduleKey
  | update
  | prune
  deriving DecidableEq, Repr

def Settings.config (settings : Settings) : ScheduleKey → ScheduleConfig
  | .update => settings.update.toScheduleConfig
  | .prune => settings.prune.toScheduleConfig

structure ScheduleRuntimeState where
  lastTriggeredAt : Option Instant
  lastScheduledFor : Option Instant
  lastResult : String
  lastMessage : String
  lastJobID : String
  deriving DecidableEq, Repr

def ScheduleRuntimeState.zero : ScheduleRuntimeState := ⟨none, none, "", "", ""⟩

structure RuntimeState where
  update : ScheduleRuntimeState
  prune : ScheduleRuntimeState
  deriving DecidableEq, Repr

namespace RuntimeState

def zero : RuntimeState := ⟨.zero, .zero⟩

def get (state : RuntimeState) : ScheduleKey → ScheduleRuntimeState
  | .update => state.update
  | .prune => state.prune

def mutate (state : RuntimeState) (f : ScheduleRuntimeState → ScheduleRuntimeState) :
    ScheduleKey → RuntimeState
  | .update => { state with update := f state.update }
  | .prune => { state with prune := f state.prune }

end RuntimeState

/-- An empty list of weekdays is not written, so the default stays when the row is read. -/
def ScheduleConfig.reread (default config : ScheduleConfig) : ScheduleConfig :=
  { config with weekdays := if config.weekdays = [] then default.weekdays else config.weekdays }

def loadSettings : Option Settings → Settings
  | none => defaultSettings
  | some settings =>
    { update := normalizeUpdateConfig { settings.update with
        toScheduleConfig :=
          defaultSettings.update.toScheduleConfig.reread settings.update.toScheduleConfig }
      prune := { settings.prune with
        toScheduleConfig :=
          defaultSettings.prune.toScheduleConfig.reread settings.prune.toScheduleConfig } }

def loadRuntimeState (stored : Option RuntimeState) : RuntimeState := stored.getD .zero

def seededScheduleRuntimeState (config : ScheduleConfig) (location : Location) (now : Instant) :
    ScheduleRuntimeState :=
  if !config.enabled then .zero
  else
    match config.mostRecent location now with
    | none => .zero
    | some mostRecent => { ScheduleRuntimeState.zero with lastScheduledFor := some mostRecent }

/-- A call of `UpdateSettings` with settings that were found valid; `version` numbers the saves. -/
inductive Edit
  | validated (settings : Settings)
  | saved (settings : Settings) (version : ℕ)
  | stamped (settings : Settings) (version : ℕ) (now : Instant)
  | done

/-- Between its two writes. -/
def Edit.isPending : Edit → Bool
  | .saved .. | .stamped .. => true
  | _ => false

/-- Where `runDueSchedules` is. -/
inductive Pass
  | idle
  | loaded (version : ℕ) (settings : Settings)
  | ready (version : ℕ) (settings : Settings) (runtime : RuntimeState)
  | evaluating (version : ℕ) (settings : Settings) (runtime : RuntimeState) (now : Instant)
      (todo : List ScheduleKey)
  | claimed (version : ℕ) (settings : Settings) (runtime : RuntimeState) (now : Instant)
      (key : ScheduleKey) (dueAt : Instant) (rest : List ScheduleKey)

def Pass.isIdle : Pass → Bool
  | .idle => true
  | _ => false

/-- A run that was started, and which save its settings came from. -/
structure StartedRun where
  key : ScheduleKey
  occurrence : Instant
  version : ℕ
  deriving DecidableEq, Repr

/-- The service and its two rows; `version`, `stamps` and `log` only record what happened. -/
structure ScheduleWorld where
  clock : Instant
  settings : Option Settings
  runtime : Option RuntimeState
  running : ScheduleKey → Bool
  workers : List ScheduleKey
  edits : List Edit
  pass : Pass
  version : ℕ
  stamps : ℕ → Option Instant
  log : List StartedRun

inductive PassStep
  | submit (request : Settings)
  | saveSettings (index : ℕ)
  | readClock (index : ℕ)
  | resetRuntimeState (index : ℕ)
  | loadSettings
  | loadRuntimeState
  | readNow
  | evaluate
  | updateRuntime
  | finalizeScheduledRun (key : ScheduleKey) (result message jobID : String)
  | finish (key : ScheduleKey)

variable (env : Env)

/-- The steps of `UpdateSettings`. -/
def ScheduleWorld.editStep (w : ScheduleWorld) (now : Instant) : PassStep → Option ScheduleWorld
  | .submit request =>
    let settings : Settings := ⟨normalizeUpdateConfig request.update, request.prune⟩
    match validateSettings env settings with
    | .ok () => some { w with edits := w.edits ++ [.validated settings] }
    | .error _ => none
  | .saveSettings index =>
    match w.edits[index]? with
    | some (.validated settings) =>
      some { w with
        settings := some settings
        version := w.version + 1
        edits := w.edits.set index (.saved settings (w.version + 1)) }
    | _ => none
  | .readClock index =>
    match w.edits[index]? with
    | some (.saved settings version) =>
      some { w with
        edits := w.edits.set index (.stamped settings version now)
        stamps := Function.update w.stamps version (some now) }
    | _ => none
  | .resetRuntimeState index =>
    match w.edits[index]? with
    | some (.stamped settings _ stamp) =>
      some { w with
        runtime := some
          ⟨seededScheduleRuntimeState settings.update.toScheduleConfig env.location stamp,
            seededScheduleRuntimeState settings.prune.toScheduleConfig env.location stamp⟩
        edits := w.edits.set index .done }
    | _ => none
  | _ => none

/-- The steps of `runDueSchedules`; `tryStart` is part of the evaluation. -/
def ScheduleWorld.passStep (w : ScheduleWorld) (now : Instant) : PassStep → Option ScheduleWorld
  | .loadSettings =>
    match w.pass with
    | .idle => some { w with pass := .loaded w.version (Scheduler.loadSettings w.settings) }
    | _ => none
  | .loadRuntimeState =>
    match w.pass with
    | .loaded version settings =>
      some { w with pass := .ready version settings (Scheduler.loadRuntimeState w.runtime) }
    | _ => none
  | .readNow =>
    match w.pass with
    | .ready version settings runtime =>
      some { w with pass := .evaluating version settings runtime now [.update, .prune] }
    | _ => none
  | .evaluate =>
    match w.pass with
    | .evaluating _ _ _ _ [] => some { w with pass := .idle }
    | .evaluating version settings runtime at_ (key :: rest) =>
      match dueSchedule (settings.config key) (runtime.get key).lastScheduledFor env.location at_ with
      | none => some { w with pass := .evaluating version settings runtime at_ rest }
      | some dueAt =>
        if w.running key then some { w with pass := .evaluating version settings runtime at_ rest }
        else
          some { w with
            running := Function.update w.running key true
            pass := .claimed version settings runtime at_ key dueAt rest }
    | _ => none
  | .updateRuntime =>
    match w.pass with
    | .claimed version settings runtime at_ key dueAt rest =>
      some { w with
        runtime := some ((Scheduler.loadRuntimeState w.runtime).mutate
          (fun _ => ⟨some at_, some dueAt, "running", "", ""⟩) key)
        workers := key :: w.workers
        pass := .evaluating version settings runtime at_ rest
        log := ⟨key, dueAt, version⟩ :: w.log }
    | _ => none
  | _ => none

/-- The end of a run that was started. -/
def ScheduleWorld.workerStep (w : ScheduleWorld) : PassStep → Option ScheduleWorld
  | .finalizeScheduledRun key result message jobID =>
    if key ∈ w.workers then
      some { w with
        runtime := some ((Scheduler.loadRuntimeState w.runtime).mutate (fun state =>
          { state with lastResult := result, lastMessage := message, lastJobID := jobID }) key) }
    else none
  | .finish key =>
    if key ∈ w.workers then
      some { w with
        workers := w.workers.erase key
        running := Function.update w.running key false }
    else none
  | _ => none

def ScheduleWorld.next (w : ScheduleWorld) (now : Instant) (step : PassStep) :
    Option ScheduleWorld :=
  ((w.editStep env now step).or ((w.passStep env now step).or (w.workerStep step))).map
    fun w' => { w' with clock := now }

/-- Steps come at times that never decrease. -/
def passLts : Lts ScheduleWorld (Instant × PassStep) where
  Tr w label w' := w.clock ≤ label.1 ∧ w.next env label.1 label.2 = some w'

def ScheduleWorld.initial (clock : Instant) : ScheduleWorld :=
  ⟨clock, none, none, fun _ => false, [], [], .idle, 0, fun _ => none, []⟩

end Stacklab.Scheduler
