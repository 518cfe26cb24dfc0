import Stacklab.Lib.Prog
import Stacklab.Maintenance.Volumes
import Stacklab.Stacks.StackID

/-! The prune job: its steps against Docker, and which volumes it removes. -/
namespace Stacklab.Maintenance

open Lib

/-- What Docker holds; volume names are not empty and identify their volume. -/
structure Docker where
  containers : List Container
  volumes : List Volume
  named : ∀ v ∈ volumes, v.name ≠ ""
  distinct : (volumes.map (·.name)).Nodup

structure World where
  docker : Docker
  removed : List String

inductive PruneKind
  | image
  | builder
  | container
  | system
  deriving DecidableEq, Repr

inductive Cmd
  | prune (kind : PruneKind)
  | systemDF
  | volumeLs
  | volumeInspect (names : List String)
  | containerIDs
  | containerInspect (ids : List String)
  | volumeRm (name : String)
  | updateWorkflow

/-- The output of a command and its error. -/
structure CommandResult where
  output : String
  err : Option String

def Ans : Cmd → Type
  | .prune _ | .volumeRm _ => CommandResult
  | .systemDF => Except String ℤ
  | .volumeLs => Except String (List VolumeRow)
  | .volumeInspect _ => Except String (List Volume)
  | .containerIDs => Except String (List String)
  | .containerInspect _ => Except String (List Container)
  | .updateWorkflow => Option String

/-- How one command turned out: its failure, if any, and what it printed. -/
structure Out where
  failure : Option String
  output : String
  reclaimable : ℤ

def Out.answer {α : Type} (o : Out) (value : α) : Except String α :=
  match o.failure with
  | some err => .error err
  | none => .ok value

instance (c : Container) (name : String) : Decidable (c.Mounts name) :=
  inferInstanceAs (Decidable (∃ m ∈ c.mounts, m.type = .volume ∧ m.name = name))

def Docker.rows (d : Docker) : List VolumeRow := d.volumes.map fun v => ⟨v.name, v.driver⟩

/-- Only the container and the system prune touch what the volume inventory reads. -/
def Docker.prune (d : Docker) : PruneKind → Docker
  | .image | .builder => d
  | .container | .system => { d with containers := d.containers.filter (·.running) }

def Docker.rm (d : Docker) (name : String) : Docker :=
  { d with
    volumes := d.volumes.filter (·.name ≠ name)
    named := fun v hv => d.named v (List.mem_of_mem_filter hv)
    distinct := d.distinct.sublist (List.filter_sublist.map _) }

def World.rm (w : World) (name : String) : World := ⟨w.docker.rm name, name :: w.removed⟩

/-- Docker refuses to remove a volume that is missing or that a container mounts. -/
def volumeRmError (d : Docker) (name : String) : Option String :=
  if ∀ v ∈ d.volumes, v.name ≠ name then some "no such volume"
  else if ∃ c ∈ d.containers, c.Mounts name then some "volume is in use"
  else none

def dockerMachine : Machine Cmd Ans Out World where
  exec
  | .prune kind, o, w =>
    match o.failure with
    | some err => (⟨o.output, some err⟩, w)
    | none => (⟨o.output, none⟩, { w with docker := w.docker.prune kind })
  | .systemDF, o, w => (o.answer o.reclaimable, w)
  | .volumeLs, o, w => (o.answer w.docker.rows, w)
  | .volumeInspect names, o, w =>
    (o.answer (w.docker.volumes.filter (·.name ∈ names)), w)
  | .containerIDs, o, w => (o.answer (w.docker.containers.map (·.id)), w)
  | .containerInspect ids, o, w => (o.answer (w.docker.containers.filter (·.id ∈ ids)), w)
  | .volumeRm name, o, w =>
    match o.failure.or (volumeRmError w.docker name) with
    | some err => (⟨o.output, some err⟩, w)
    | none => (⟨o.output, none⟩, w.rm name)
  | .updateWorkflow, o, w => (o.failure, w)

abbrev DockerProg : Type → Type := Prog Cmd Ans

abbrev Cmd.issue (c : Cmd) : DockerProg (Ans c) := Prog.issue c

def dockerUnavailable (err : String) : String := "docker unavailable: " ++ err

def inspectAllContainers : DockerProg (Except String (List Container)) := do
  match ← Cmd.containerIDs.issue with
  | .error err => pure (.error (dockerUnavailable err))
  | .ok [] => pure (.ok [])
  | .ok ids =>
    match ← (Cmd.containerInspect ids).issue with
    | .error err => pure (.error (dockerUnavailable err))
    | .ok containers => pure (.ok containers)

def volumes (query : VolumesQuery) : DockerProg (Except String (List VolumeItem)) := do
  match ← Cmd.volumeLs.issue with
  | .error err => pure (.error (dockerUnavailable err))
  | .ok [] => pure (.ok [])
  | .ok rows =>
    match ← (Cmd.volumeInspect (uniqueVolumeNames rows)).issue with
    | .error err => pure (.error (dockerUnavailable err))
    | .ok inspected =>
      match ← inspectAllContainers with
      | .error err => pure (.error err)
      | .ok containers => pure (.ok (volumeItems query rows inspected containers))

/-- A command's trimmed output; a failed command that printed nothing shows its error. -/
def CommandResult.text (r : CommandResult) : String × Option String :=
  let trimmed := trimSpace r.output
  match r.err with
  | none => (trimmed, none)
  | some err =>
    let trimmed := if trimmed = "" then err else trimmed
    (trimmed, some trimmed)

/-- The loop of `pruneExternalVolumes`; it ends at the first volume that is not removed. -/
def removeVolumes : List VolumeItem → List String → DockerProg (String × Option String)
  | [], outputs => pure (String.intercalate "\n" outputs, none)
  | volume :: rest, outputs => do
    let r ← (Cmd.volumeRm volume.name).issue
    match CommandResult.text r with
    | (trimmed, some err) => pure (String.intercalate "\n" (outputs ++ [trimmed]), some err)
    | (trimmed, none) =>
      removeVolumes rest (outputs ++ [if trimmed = "" then volume.name else trimmed])

def pruneExternalVolumes (managedStackIDs : List String) :
    DockerProg (String × Option String) := do
  match ← volumes (unusedExternal managedStackIDs) with
  | .error err => pure ("", some err)
  | .ok [] => pure ("No unused external volumes to remove.", none)
  | .ok items => removeVolumes items []

structure PrunePreviewItem where
  reference : String
  sizeBytes : ℤ
  reason : String

structure PruneCategoryPreview where
  count : ℕ
  reclaimableBytes : ℤ
  items : List PrunePreviewItem

def firstByName : List String → List VolumeItem → List VolumeItem
  | _, [] => []
  | seen, item :: rest =>
    if item.name ∈ seen then firstByName seen rest
    else item :: firstByName (item.name :: seen) rest

def buildVolumePrunePreview (items : List VolumeItem) (fallback : ℤ) : PruneCategoryPreview :=
  let kept := firstByName [] items
  let total := kept.foldl (fun total item => total + item.sizeBytes) 0
  { count := kept.length
    reclaimableBytes := if total = 0 ∧ kept.length > 0 then fallback else total
    items := (kept.map fun item =>
      (⟨item.name, item.sizeBytes, "unused_external_volume"⟩ : PrunePreviewItem)).mergeSort
        fun a b => decide (a.reference ≤ b.reference) }

/-- The volume category of `PrunePreview`. -/
def prunePreview (managedStackIDs : List String) :
    DockerProg (Except String PruneCategoryPreview) := do
  match ← Cmd.systemDF.issue with
  | .error err => pure (.error (dockerUnavailable err))
  | .ok localVolumes =>
    match ← volumes (unusedExternal managedStackIDs) with
    | .error err => pure (.error err)
    | .ok items => pure (.ok (buildVolumePrunePreview items localVolumes))

inductive PruneAction
  | images
  | buildCache
  | stoppedContainers
  | volumes
  | other (name : String)
  deriving DecidableEq, Repr

def runPrune (kind : PruneKind) : DockerProg (String × Option String) := do
  let r ← (Cmd.prune kind).issue
  pure (CommandResult.text r)

def runPruneStep (managedStackIDs : List String) :
    PruneAction → DockerProg (String × Option String)
  | .images => runPrune .image
  | .buildCache => runPrune .builder
  | .stoppedContainers => runPrune .container
  | .volumes => pruneExternalVolumes managedStackIDs
  | .other name => pure ("", some ("unsupported prune action: " ++ name))

def nonEmptyStrings (values : List String) : List String := values.filter (trimSpace · ≠ "")

def runSystemPrune (includeVolumes : Bool) (managedStackIDs : List String) :
    DockerProg (String × Option String) := do
  match ← runPrune .system with
  | (trimmed, some err) => pure (trimmed, some err)
  | (trimmed, none) =>
    if includeVolumes then
      let (volumeOutput, err) ← pruneExternalVolumes managedStackIDs
      let combined :=
        trimSpace (String.intercalate "\n" (nonEmptyStrings [trimmed, volumeOutput]))
      match err with
      | some err => pure (if combined = "" then err else combined, some err)
      | none => pure (combined, none)
    else pure (trimmed, none)

structure PruneScope where
  images : Bool
  buildCache : Bool
  stoppedContainers : Bool
  volumes : Bool

def buildPruneWorkflow (scope : PruneScope) : List PruneAction :=
  (if scope.images then [.images] else []) ++
  (if scope.buildCache then [.buildCache] else []) ++
  (if scope.stoppedContainers then [.stoppedContainers] else []) ++
  (if scope.volumes then [.volumes] else [])

/-- The step loop of `ExecutePrune`: the error the job fails with, none when it succeeds. -/
def executePrune (managedStackIDs : List String) :
    List PruneAction → DockerProg (Option String)
  | [] => pure none
  | step :: rest => do
    match ← runPruneStep managedStackIDs step with
    | (_, some runErr) => pure (some runErr)
    | (_, none) =>
      match ← Cmd.updateWorkflow.issue with
      | some updateErr => pure (some updateErr)
      | none => executePrune managedStackIDs rest

end Stacklab.Maintenance
