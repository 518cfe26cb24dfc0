import Stacklab.SelfUpdate.Helper
import Stacklab.Lib.Lts
import Stacklab.Lib.Threads

/-! Helper processes, restarts of the server and its finishing calls on one database. -/
namespace Stacklab.SelfUpdate

open Lib Store Jobs

/-- `updating` only observes: the jobs of the helper processes that run. -/
structure SharedWorld where
  world : World
  updating : List (ℕ × String)

inductive SharedCmd
  | update (c : Cmd)
  | listActiveJobs
  | helperStarted (call : ℕ) (jobID : String)
  | helperEnded (call : ℕ)

@[reducible] def SharedAns : SharedCmd → Type
  | .update c => Ans c
  | .listActiveJobs => Except StoreError (List Job)
  | .helperStarted _ _ | .helperEnded _ => Unit

def activeStates : List JobState := [.queued, .running, .cancelRequested]

/-- The newest start first, then the newest request. -/
def startedLater (a b : Job) : Bool :=
  let startA := a.startedAt.getD a.requestedAt
  let startB := b.startedAt.getD b.requestedAt
  startB < startA || startA = startB && b.requestedAt ≤ a.requestedAt

def listActiveJobs (t : JobTable) : List Job :=
  ((t.rows.entries.map fun e => e.2.job).filter fun job => job.state ∈ activeStates).mergeSort
    startedLater

def SharedWorld.end (w : SharedWorld) (call : ℕ) : SharedWorld :=
  { w with updating := w.updating.filter fun e => e.1 ≠ call }

def sharedExec : (c : SharedCmd) → Out → SharedWorld → SharedAns c × SharedWorld
  | .update c, o, w =>
    let r := updateMachine.exec c o w.world
    (r.1, { w with world := r.2 })
  | .listActiveJobs, o, w =>
    match o.job.failure with
    | some text => (.error (.failed text), w)
    | none => (.ok (listActiveJobs w.world.jobs.table), w)
  | .helperStarted call jobID, _, w => ((), { w with updating := (call, jobID) :: w.updating })
  | .helperEnded call, _, w => ((), w.end call)

def sharedMachine : Machine SharedCmd SharedAns Out SharedWorld := ⟨sharedExec⟩

abbrev SharedProg (α : Type) : Type := Prog SharedCmd SharedAns α

abbrev SharedCmd.issue (c : SharedCmd) : SharedProg (SharedAns c) := Prog.issue c

def ofUpdate {α : Type} (p : UpdateProg α) : SharedProg α := p.embed SharedCmd.update fun _ r => r

def ofServer {α : Type} (p : JobProg α) : SharedProg α :=
  p.embed (fun c => SharedCmd.update (.job c)) fun _ r => r

/-- The loop of `ReconcileInterrupted`. -/
def reconcileJobs : List Job → SharedProg (Except ServiceError (List Job))
  | [] => pure (.ok [])
  | job :: rest => do
    let now ← SharedCmd.issue (.update (.job .now))
    if shouldSkipReconcile now job then reconcileJobs rest
    else
      let failedJob ← ofServer (reconcileInterruptedJob job)
      match failedJob with
      | .error err => pure (.error err)
      | .ok failedJob => do
        let reconciled ← reconcileJobs rest
        pure (reconciled.map (failedJob :: ·))

def reconcileInterrupted : SharedProg (Except ServiceError (List Job)) := do
  let storedJobs ← SharedCmd.issue .listActiveJobs
  match storedJobs with
  | .error err => pure (.error (.store err))
  | .ok storedJobs => reconcileJobs storedJobs

def helperProcess (call : ℕ) (args : HelperArgs) : SharedProg Unit := do
  SharedCmd.issue (.helperStarted call args.jobID)
  let _ ← ofUpdate (run args)
  SharedCmd.issue (.helperEnded call)

inductive SharedCall
  | helper (args : HelperArgs)
  | reconcileInterrupted
  | finishSucceeded (job : Job)
  | finishFailed (job : Job) (errorCode errorMessage : String)
  | finishTimedOut (job : Job) (errorCode errorMessage : String)
  | finishCancelled (job : Job) (errorCode errorMessage : String)

def discard {α : Type} (p : SharedProg α) : SharedProg Unit := p >>= fun _ => pure ()

def SharedCall.program (call : ℕ) : SharedCall → SharedProg Unit
  | .helper args => helperProcess call args
  | .reconcileInterrupted => discard SelfUpdate.reconcileInterrupted
  | .finishSucceeded job => discard (ofServer (Jobs.finishSucceeded job))
  | .finishFailed job code message => discard (ofServer (Jobs.finishFailed job code message))
  | .finishTimedOut job code message => discard (ofServer (Jobs.finishTimedOut job code message))
  | .finishCancelled job code message =>
    discard (ofServer (Jobs.finishCancelled job code message))

abbrev SharedPool : Type := Pool ℕ SharedCmd SharedAns SharedWorld

/-- Any process may die; its locks die with it, and the next server starts without locks. -/
inductive SharedLabel
  | invoke (call : ℕ) (c : SharedCall)
  | step (call : ℕ) (o : Out)
  | die (call : ℕ)
  | dropLocks

def SharedPool.die (s : SharedPool) (call : ℕ) : SharedPool :=
  ⟨Function.update s.threads call none, s.world.end call⟩

def SharedWorld.dropLocks (w : SharedWorld) : SharedWorld :=
  { w with world := { w.world with jobs := { w.world.jobs with locks := .new } } }

def sharedNext (s : SharedPool) : SharedLabel → SharedPool
  | .invoke call c => s.set call (c.program call) s.world
  | .step call o => s.step sharedMachine call o
  | .die call => SharedPool.die s call
  | .dropLocks => ⟨s.threads, s.world.dropLocks⟩

def sharedEnabled (s : SharedPool) : SharedLabel → Bool
  | .invoke call _ => (s.threads call).isNone
  | _ => true

def sharedLts : Lts SharedPool SharedLabel := Lts.ofNext sharedEnabled sharedNext

/-- No process runs, and every row is stored under its id. -/
structure SharedStart (s : SharedPool) : Prop where
  threads : ∀ call, s.threads call = none
  updating : s.world.updating = []
  keyed : ∀ id row, s.world.world.jobs.table.rows.lookup id = some row → row.job.id = id

/-- Once a row is terminal, its state, error code and finish time stay. -/
def KeepsTerminal (t u : JobTable) : Prop :=
  ∀ id job, t.jobByID id = .ok job → job.state.isTerminal = true →
    ∃ job', u.jobByID id = .ok job' ∧ job'.state = job.state ∧ job'.errorCode = job.errorCode ∧
      job'.finishedAt = job.finishedAt

/-- Every step of every run of the processes keeps terminal rows. -/
def TerminalStatesAreFinal : Prop :=
  ∀ s l s', sharedLts.Reachable SharedStart s → sharedLts.Tr s l s' →
    KeepsTerminal s.world.world.jobs.table s'.world.world.jobs.table

end Stacklab.SelfUpdate
