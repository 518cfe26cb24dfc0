import Stacklab.Jobs.Lifecycle
import Stacklab.Lib.Lts
import Stacklab.Lib.Threads
import Stacklab.Store.JobEvents

/-! The job service with its event locks, live subscribers and cancellation. -/
namespace Stacklab.Jobs.Live

open Lib Store

/-- The buffered channel of one subscriber. `sent` only observes: what was put into the
channel, the newest first. -/
structure Channel where
  jobID : String
  queue : List JobEvent
  sent : List JobEvent

def channelCapacity : ℕ := 64

/-- What a returning call leaves of its job: the row's state, and whether the job still holds
a resource or the drain barrier. -/
inductive LifeEvent
  | finishReturned (jobID : String) (state : Option JobState) (holds draining : Bool)
  | startFailed (jobID : String) (state : Option JobState) (holds draining : Bool)
  deriving DecidableEq, Repr

/-- `commits`, `drawn` and `log` only observe: the committed transitions, the ids of started
jobs with their calls, and what calls left behind, the newest first. -/
structure LiveWorld where
  locks : LockTable
  table : JobTable
  eventLocks : ℕ → Option ℕ
  channels : List Channel
  subsByJob : GoMap String (List ℕ)
  cancelByJob : List String
  commits : List (String × JobState)
  drawn : List (String × ℕ)
  log : List LifeEvent

inductive LiveCmd
  | now
  | randomToken (call : ℕ)
  | lockMany (jobID : String) (resources : List Resource) (draining : Bool)
  | replaceResources (jobID : String) (requested : List Resource)
  | unlockAll (jobID : String)
  | lockJobEvents (call : ℕ) (jobID : String)
  | unlockJobEvents (jobID : String)
  | createJobWithInitialEvent (job : Job) (event : JobEvent)
  | transitionJobWithEvents (job : Job) (allowedStates : List JobState)
      (events : List JobEvent)
  | appendJobEvent (event : JobEvent)
  | jobByID (id : String)
  | registerCancel (jobID : String)
  | unregisterCancel (jobID : String)
  | cancelRegistered (jobID : String)
  | subscribe (jobID : String)
  | unsubscribe (jobID : String) (channel : ℕ)
  | subscribers (jobID : String)
  | send (channel : ℕ) (event : JobEvent)
  | receive (channel : ℕ)
  | finishReturned (jobID : String)
  | startFailed (jobID : String)

@[reducible] def LiveAns : LiveCmd → Type
  | .now => Time
  | .randomToken _ => String
  | .lockMany _ _ _ | .replaceResources _ _ => Except JobsError Unit
  | .createJobWithInitialEvent _ _ => Except StoreError Unit
  | .transitionJobWithEvents _ _ _ => Except StoreError (Option (List JobEvent))
  | .appendJobEvent _ => Except StoreError JobEvent
  | .jobByID _ => Except StoreError Job
  | .cancelRegistered _ => Bool
  | .subscribers _ => List ℕ
  | .unlockAll _ | .lockJobEvents _ _ | .unlockJobEvents _ | .registerCancel _
  | .unregisterCancel _ | .subscribe _ | .unsubscribe _ _ | .send _ _ | .receive _
  | .finishReturned _ | .startFailed _ => Unit

/-- The database failing, the clock, the random token and the iteration order of the maps. -/
structure LiveOut where
  failure : Option String := none
  time : Time := 0
  token : String := ""
  holdings : RangeOrder Holding := .stored
  channels : RangeOrder ℕ := .stored

def fnvOffset32 : UInt32 := 2166136261

def fnvPrime32 : UInt32 := 16777619

/-- Which of the 64 event locks a job uses. -/
def eventLockIndex (jobID : String) : ℕ :=
  (jobID.toUTF8.toList.foldl (fun hash byte => (hash ^^^ byte.toUInt32) * fnvPrime32)
    fnvOffset32).toNat % 64

namespace LiveWorld

variable (w : LiveWorld)

def holds (jobID : String) : Bool :=
  w.locks.lockedByResource.entries.any fun e => e.2 = jobID

def isDraining (jobID : String) : Bool := w.locks.drainingJobID = jobID

def setEventLock (index : ℕ) (holder : Option ℕ) : LiveWorld :=
  { w with eventLocks := Function.update w.eventLocks index holder }

/-- The subscribed channels of a job; an absent key of the map has none. -/
def subscribersOf (jobID : String) : List ℕ := (w.subsByJob.lookup jobID).getD []

/-- A full channel drops the event. -/
def put (channel : ℕ) (event : JobEvent) : LiveWorld :=
  match w.channels[channel]? with
  | none => w
  | some c =>
    if c.queue.length < channelCapacity then
      let c := ⟨c.jobID, c.queue ++ [event], event :: c.sent⟩
      { w with channels := w.channels.set channel c }
    else w

def take (channel : ℕ) : LiveWorld :=
  match w.channels[channel]? with
  | none => w
  | some c => { w with channels := w.channels.set channel { c with queue := c.queue.tail } }

def addChannel (jobID : String) : LiveWorld :=
  { w with channels := w.channels ++ [⟨jobID, [], []⟩],
           subsByJob := w.subsByJob.insert jobID (w.channels.length :: w.subscribersOf jobID) }

def dropChannel (jobID : String) (channel : ℕ) : LiveWorld :=
  match (w.subscribersOf jobID).filter (· ≠ channel) with
  | [] => { w with subsByJob := w.subsByJob.erase jobID }
  | rest => { w with subsByJob := w.subsByJob.insert jobID rest }

/-- Note what is left of a job. -/
def observe (jobID : String) (event : String → Option JobState → Bool → Bool → LifeEvent) :
    LiveWorld :=
  let left := event jobID (w.table.stateOf jobID) (w.holds jobID) (w.isDraining jobID)
  { w with log := left :: w.log }

end LiveWorld

def liveExec : (c : LiveCmd) → LiveOut → LiveWorld → LiveAns c × LiveWorld
  | .now, o, w => (o.time, w)
  | .randomToken call, o, w => (o.token, { w with drawn := (newJobID o.token, call) :: w.drawn })
  | .lockMany jobID resources draining, o, w =>
    let r := w.locks.lockMany o.holdings jobID resources draining
    (r.1, { w with locks := r.2 })
  | .replaceResources jobID requested, o, w =>
    let r := w.locks.replaceResources o.holdings jobID requested
    (r.1, { w with locks := r.2 })
  | .unlockAll jobID, _, w => ((), { w with locks := w.locks.unlockAll jobID })
  | .lockJobEvents call jobID, _, w => ((), w.setEventLock (eventLockIndex jobID) (some call))
  | .unlockJobEvents jobID, _, w => ((), w.setEventLock (eventLockIndex jobID) none)
  | .createJobWithInitialEvent job event, o, w =>
    match o.failure, w.table.createJobWithInitialEvent job event with
    | some text, _ => (.error (.failed text), w)
    | none, .error err => (.error err, w)
    | none, .ok t => (.ok (), { w with table := t })
  | .transitionJobWithEvents job allowedStates events, o, w =>
    match o.failure, w.table.transitionJobWithEvents job allowedStates events with
    | some text, _ => (.error (.failed text), w)
    | none, .error err => (.error err, w)
    | none, .ok (false, _) => (.ok none, w)
    | none, .ok (true, t) =>
      (.ok (some (w.table.committedEvents job.id events)),
        { w with table := t, commits := (job.id, job.state) :: w.commits })
  | .appendJobEvent event, o, w =>
    match o.failure, w.table.appendJobEvent event with
    | some text, _ => (.error (.failed text), w)
    | none, .error err => (.error err, w)
    | none, .ok (event, t) => (.ok event, { w with table := t })
  | .jobByID id, o, w =>
    (match o.failure with
      | some text => .error (.failed text)
      | none => w.table.jobByID id, w)
  | .registerCancel jobID, _, w => ((), { w with cancelByJob := w.cancelByJob.insert jobID })
  | .unregisterCancel jobID, _, w =>
    ((), { w with cancelByJob := w.cancelByJob.filter (· ≠ jobID) })
  | .cancelRegistered jobID, _, w => (decide (jobID ∈ w.cancelByJob), w)
  | .subscribe jobID, _, w => ((), w.addChannel jobID)
  | .unsubscribe jobID channel, _, w => ((), w.dropChannel jobID channel)
  | .subscribers jobID, o, w => (o.channels.order 0 (w.subscribersOf jobID), w)
  | .send channel event, _, w => ((), w.put channel event)
  | .receive channel, _, w => ((), w.take channel)
  | .finishReturned jobID, _, w => ((), w.observe jobID .finishReturned)
  | .startFailed jobID, _, w => ((), w.observe jobID .startFailed)

def liveMachine : Machine LiveCmd LiveAns LiveOut LiveWorld := ⟨liveExec⟩

/-- An event lock is taken only when it is free. -/
def LiveCmd.ready : LiveCmd → LiveWorld → Bool
  | .lockJobEvents _ jobID, w => (w.eventLocks (eventLockIndex jobID)).isNone
  | _, _ => true

abbrev LiveProg (α : Type) : Type := Prog LiveCmd LiveAns α

abbrev LiveCmd.issue (c : LiveCmd) : LiveProg (LiveAns c) := Prog.issue c

/-- `for _, channel := range channels` of `publishLive`. -/
def sendAll (event : JobEvent) : List ℕ → LiveProg Unit
  | [] => pure ()
  | channel :: rest => do
    LiveCmd.issue (.send channel event)
    sendAll event rest

def publishLive (event : JobEvent) : LiveProg Unit := do
  let channels ← LiveCmd.issue (.subscribers event.jobID)
  sendAll event channels

def publishCommittedEvents : List JobEvent → LiveProg Unit
  | [] => pure ()
  | event :: events => do
    publishLive event
    publishCommittedEvents events

inductive LiveError
  | jobs (err : JobsError)
  | store (err : StoreError)
  | transitionConflict (current : Job)
  | notCancellable
  deriving DecidableEq, Repr

section Calls

variable (call : ℕ)

/-- `start` once it holds its resources. -/
def startLocked (job : Job) (initialEvent : JobEvent) : LiveProg (Except LiveError Job) := do
  LiveCmd.issue (.lockJobEvents call job.id)
  let created ← LiveCmd.issue (.createJobWithInitialEvent job initialEvent)
  match created with
  | .error err => do
    LiveCmd.issue (.unlockAll job.id)
    LiveCmd.issue (.startFailed job.id)
    LiveCmd.issue (.unlockJobEvents job.id)
    pure (.error (.store err))
  | .ok () => do
    publishLive initialEvent
    LiveCmd.issue (.unlockJobEvents job.id)
    pure (.ok job)

def start (stackID action requestedBy requestID : String) (requestedResources : List Resource)
    (draining : Bool) (workflow : List WorkflowStep) : LiveProg (Except LiveError Job) := do
  let now ← LiveCmd.issue .now
  let token ← LiveCmd.issue (.randomToken call)
  let job := newJob token stackID action requestedBy requestID workflow now
  let initialEvent := { newJobEvent job .started "Job started." now with sequence := 1 }
  match normalizeResources stackID requestedResources with
  | .error err => do
    LiveCmd.issue (.startFailed job.id)
    pure (.error (.jobs err))
  | .ok resources =>
    let locked ← LiveCmd.issue (.lockMany job.id resources draining)
    match locked with
    | .error err => do
      LiveCmd.issue (.startFailed job.id)
      pure (.error (.jobs err))
    | .ok () => startLocked call job initialEvent

/-- Every return of `commitTerminalTransition` releases the event lock last. -/
def endTransition (jobID : String) (result : Except LiveError Job) :
    LiveProg (Except LiveError Job) := do
  LiveCmd.issue (.finishReturned jobID)
  LiveCmd.issue (.unlockJobEvents jobID)
  pure result

def commitTerminalTransition (job : Job) (events : List JobEvent) :
    LiveProg (Except LiveError Job) := do
  LiveCmd.issue (.lockJobEvents call job.id)
  let updated ← LiveCmd.issue
    (.transitionJobWithEvents job [.queued, .running, .cancelRequested] events)
  match updated with
  | .error err => endTransition job.id (.error (.store err))
  | .ok none => do
    let loaded ← LiveCmd.issue (.jobByID job.id)
    match loaded with
    | .error err => endTransition job.id (.error (.store err))
    | .ok current =>
      if current.state.isTerminal then do
        LiveCmd.issue (.unlockAll job.id)
        if current.state = job.state then endTransition job.id (.ok current)
        else endTransition job.id (.error (.transitionConflict current))
      else endTransition job.id (.error (.transitionConflict current))
  | .ok (some committedEvents) => do
    publishCommittedEvents committedEvents
    LiveCmd.issue (.unlockAll job.id)
    endTransition job.id (.ok job)

def finishSucceeded (job : Job) : LiveProg (Except LiveError Job) := do
  let now ← LiveCmd.issue .now
  let job := { job with state := .succeeded, finishedAt := some now }
  commitTerminalTransition call job
    [newJobEvent job .finished "Job finished successfully." now]

def finishTerminal (job : Job) (state : JobState) (errorCode errorMessage finishMessage : String) :
    LiveProg (Except LiveError Job) := do
  let now ← LiveCmd.issue .now
  let job := { job with
    state := state
    finishedAt := some now
    errorCode := errorCode
    errorMessage := errorMessage }
  commitTerminalTransition call job
    [newJobEvent job .error errorMessage now, newJobEvent job .finished finishMessage now]

def finishFailed (job : Job) (errorCode errorMessage : String) : LiveProg (Except LiveError Job) :=
  finishTerminal call job .failed errorCode errorMessage "Job finished with errors."

def finishTimedOut (job : Job) (errorCode errorMessage : String) :
    LiveProg (Except LiveError Job) :=
  finishTerminal call job .timedOut errorCode errorMessage "Job timed out."

def finishCancelled (job : Job) (errorCode errorMessage : String) :
    LiveProg (Except LiveError Job) :=
  finishTerminal call job .cancelled errorCode errorMessage "Job was cancelled."

def reconcileInterruptedJob (job : Job) : LiveProg (Except LiveError Job) := do
  let now ← LiveCmd.issue .now
  commitTerminalTransition call (interruptedJob now job) (interruptedEvents now job)

/-- The first step that runs or waits is marked for cancellation. -/
def markWorkflowCancelRequested (steps : List WorkflowStep) : List WorkflowStep :=
  match firstStep (fun step => step.state = .running || step.state = .queued) steps with
  | none => steps
  | some index => steps.modify index fun step => { step with state := .cancelRequested }

def cancelLocked (id : String) (job : Job) : LiveProg (Except LiveError Job) := do
  let now ← LiveCmd.issue .now
  LiveCmd.issue (.lockJobEvents call job.id)
  let updated ← LiveCmd.issue (.transitionJobWithEvents job [.queued, .running]
    [newJobEvent job .cancelRequested "Cancellation requested." now])
  match updated with
  | .error err => do
    LiveCmd.issue (.unlockJobEvents job.id)
    pure (.error (.store err))
  | .ok none => do
    LiveCmd.issue (.unlockJobEvents job.id)
    let loaded ← LiveCmd.issue (.jobByID id)
    match loaded with
    | .error err => pure (.error (.store err))
    | .ok current =>
      if current.state = .cancelRequested then pure (.ok current)
      else pure (.error .notCancellable)
  | .ok (some committedEvents) => do
    publishCommittedEvents committedEvents
    LiveCmd.issue (.unlockJobEvents job.id)
    pure (.ok job)

def cancel (id : String) : LiveProg (Except LiveError Job) := do
  let loaded ← LiveCmd.issue (.jobByID id)
  match loaded with
  | .error err => pure (.error (.store err))
  | .ok job =>
    if job.state = .cancelRequested then pure (.ok job)
    else if job.state = .queued || job.state = .running then do
      let registered ← LiveCmd.issue (.cancelRegistered id)
      if !registered then pure (.error .notCancellable)
      else
        cancelLocked call id { job with
          state := .cancelRequested, workflow := job.workflow.map markWorkflowCancelRequested }
    else pure (.error .notCancellable)

def publishEvent (job : Job) (event : JobEventKind) (message data : String)
    (step : Option JobEventStep) : LiveProg (Except LiveError Unit) := do
  LiveCmd.issue (.lockJobEvents call job.id)
  let now ← LiveCmd.issue .now
  let appended ← LiveCmd.issue
    (.appendJobEvent ⟨job.id, 0, event, job.state, message, data, step, now⟩)
  match appended with
  | .error err => do
    LiveCmd.issue (.unlockJobEvents job.id)
    pure (.error (.store err))
  | .ok event => do
    publishLive event
    LiveCmd.issue (.unlockJobEvents job.id)
    pure (.ok ())

end Calls

inductive LiveCall
  | start (stackID action requestedBy requestID : String) (requestedResources : List Resource)
      (draining : Bool) (workflow : List WorkflowStep)
  | finishSucceeded (job : Job)
  | finishFailed (job : Job) (errorCode errorMessage : String)
  | finishTimedOut (job : Job) (errorCode errorMessage : String)
  | finishCancelled (job : Job) (errorCode errorMessage : String)
  | reconcileInterruptedJob (job : Job)
  | cancel (id : String)
  | publishEvent (job : Job) (event : JobEventKind) (message data : String)
      (step : Option JobEventStep)
  | replaceResources (jobID : String) (requested : List Resource)
  | registerCancel (jobID : String)
  | unregisterCancel (jobID : String)
  | subscribe (jobID : String)
  | unsubscribe (jobID : String) (channel : ℕ)
  | receive (channel : ℕ)

def discard {α : Type} (p : LiveProg α) : LiveProg Unit := p >>= fun _ => pure ()

def LiveCall.program (call : ℕ) : LiveCall → LiveProg Unit
  | .start stackID action requestedBy requestID resources draining workflow =>
    discard (Live.start call stackID action requestedBy requestID resources draining workflow)
  | .finishSucceeded job => discard (Live.finishSucceeded call job)
  | .finishFailed job code message => discard (Live.finishFailed call job code message)
  | .finishTimedOut job code message => discard (Live.finishTimedOut call job code message)
  | .finishCancelled job code message => discard (Live.finishCancelled call job code message)
  | .reconcileInterruptedJob job => discard (Live.reconcileInterruptedJob call job)
  | .cancel id => discard (Live.cancel call id)
  | .publishEvent job event message data step =>
    discard (Live.publishEvent call job event message data step)
  | .replaceResources jobID requested => discard (LiveCmd.issue (.replaceResources jobID requested))
  | .registerCancel jobID => LiveCmd.issue (.registerCancel jobID)
  | .unregisterCancel jobID => LiveCmd.issue (.unregisterCancel jobID)
  | .subscribe jobID => LiveCmd.issue (.subscribe jobID)
  | .unsubscribe jobID channel => LiveCmd.issue (.unsubscribe jobID channel)
  | .receive channel => LiveCmd.issue (.receive channel)

abbrev LivePool : Type := Pool ℕ LiveCmd LiveAns LiveWorld

inductive LiveLabel
  | invoke (call : ℕ) (c : LiveCall)
  | step (call : ℕ) (o : LiveOut)

/-- A call number is used once, and a call that waits for an event lock does not step. -/
def liveEnabled (s : LivePool) : LiveLabel → Bool
  | .invoke call _ => (s.threads call).isNone
  | .step call _ =>
    match s.threads call with
    | some (.call c _) => c.ready s.world
    | _ => true

def liveNext (s : LivePool) : LiveLabel → LivePool
  | .invoke call c => s.set call (c.program call) s.world
  | .step call o => s.step liveMachine call o

def liveLts : Lts LivePool LiveLabel := Lts.ofNext liveEnabled liveNext

/-- A process starts without locks, subscribers and calls, over any database. -/
structure FreshProcess (s : LivePool) : Prop where
  threads : ∀ call, s.threads call = none
  locks : s.world.locks = LockTable.new
  eventLocks : ∀ index, s.world.eventLocks index = none
  channels : s.world.channels = []
  subsByJob : s.world.subsByJob = ∅
  cancelByJob : s.world.cancelByJob = []
  observed : s.world.commits = [] ∧ s.world.drawn = [] ∧ s.world.log = []

def HoldsEvents (call : ℕ) (id : String) (w : LiveWorld) : Prop :=
  w.eventLocks (eventLockIndex id) = some call

variable {w : LiveWorld} {call other : ℕ} {id j : String} {holder : Option ℕ}

theorem other_lock (hne : other ≠ call) (h : HoldsEvents call id w) (h' : HoldsEvents other j w) :
    eventLockIndex j ≠ eventLockIndex id := by
  intro heq
  unfold HoldsEvents at h h'
  rw [heq, h] at h'
  exact hne (Option.some.inj h').symm

theorem free_lock (hfree : w.eventLocks (eventLockIndex id) = none) (h : HoldsEvents call j w) :
    eventLockIndex j ≠ eventLockIndex id := by
  intro heq
  unfold HoldsEvents at h
  rw [heq, hfree] at h
  cases h

theorem holdsEvents_setEventLock (h : HoldsEvents call j w)
    (hne : eventLockIndex j ≠ eventLockIndex id) :
    HoldsEvents call j (w.setEventLock (eventLockIndex id) holder) := by
  unfold HoldsEvents LiveWorld.setEventLock
  dsimp only
  rw [Function.update_of_ne hne]
  exact h

theorem holdsEvents_self :
    HoldsEvents call id (w.setEventLock (eventLockIndex id) (some call)) :=
  Function.update_self _ _ _

end Stacklab.Jobs.Live
