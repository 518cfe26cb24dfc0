import Stacklab.Lib.GoMap
import Stacklab.Lib.Lts
import Stacklab.Lib.Threads

/-! The terminal service: its sessions, the slots of their owners, and its calls as programs. -/
namespace Stacklab.Terminal

open Lib

structure SessionInfo where
  id : String
  stackID : String
  containerID : String
  shell : String
  deriving DecidableEq, Repr

structure Attachment where
  id : String
  connectionID : String
  deriving DecidableEq, Repr

structure Session where
  info : SessionInfo
  ownerID : String
  current : Option Attachment
  deriving DecidableEq, Repr

/-- The `closeOnce` of a session: a call that comes while another one runs it waits. -/
inductive CloseOnce
  | fresh
  | running (call : ℕ)
  | done
  deriving DecidableEq, Repr

/-- A slot that `Open` has reserved, with its call. -/
structure Slot where
  call : ℕ
  ownerID : String
  sessionID : String
  deriving DecidableEq, Repr

/-- `reservations`, `opening` and `closed` only observe: every slot ever reserved, the slots whose
`Open` has neither registered its session nor failed, and the sessions that a returned `CloseOwner`
or `CloseAll` was to close. -/
structure TerminalWorld where
  sessions : GoMap String Session
  owners : GoMap String (List String)
  closeOnce : String → CloseOnce
  reservations : List Slot
  opening : List Slot
  closed : List String

inductive TerminalError
  | sessionNotFound
  | sessionLimitExceeded
  | invalidShell
  | failed (text : String)
  deriving DecidableEq, Repr

inductive TerminalCmd
  | reserve (call : ℕ) (ownerID : String)
  | startTerminal
  | releaseOwnerSession (slot : Slot)
  | newAttachmentID
  | register (slot : Slot) (session : Session)
  | session (sessionID : String)
  | attach (sessionID : String) (attachment : Attachment)
  | detach (sessionID attachmentID : String)
  | enterOnce (call : ℕ) (sessionID : String)
  | endAttachment (sessionID : String)
  | closePty
  | deleteSession (sessionID ownerID : String)
  | leaveOnce (sessionID : String)
  | covered (ownerID : Option String)
  | listOwner (ownerID : String) (covered : List String)
  | listAll (covered : List String)
  | returned (covered : List String)

@[reducible] def TerminalAns : TerminalCmd → Type
  | .reserve _ _ => Option String
  | .startTerminal | .attach _ _ => Except String Unit
  | .newAttachmentID => String
  | .session _ => Option Session
  | .enterOnce _ _ => Bool
  | .covered _ | .listOwner _ _ | .listAll _ => List String
  | .releaseOwnerSession _ | .register _ _ | .detach _ _ | .endAttachment _ | .closePty
  | .deleteSession _ _ | .leaveOnce _ | .returned _ => Unit

/-- Whether the process starts and can be resized, the random text and the order of a map. -/
structure TerminalOut where
  failure : Option String := none
  random : String := ""
  order : RangeOrder String := .stored

def maxSessionsPerOwner (configured : ℤ) : ℕ := if configured ≤ 0 then 5 else configured.toNat

namespace TerminalWorld

variable (w : TerminalWorld)

def ownedBy (ownerID : String) : List String := (w.owners.lookup ownerID).getD []

/-- An owner without a session left loses its entry. -/
def dropOwned (ownerID sessionID : String) : GoMap String (List String) :=
  match w.owners.lookup ownerID with
  | none => w.owners
  | some owned =>
    match owned.filter (· ≠ sessionID) with
    | [] => w.owners.erase ownerID
    | rest => w.owners.insert ownerID rest

def leaveOpening (slot : Slot) : TerminalWorld :=
  { w with opening := w.opening.filter (· ≠ slot) }

/-- The entry of the owner is made before its sessions are counted. -/
def reserve (configured : ℤ) (call : ℕ) (ownerID sessionID : String) :
    Option String × TerminalWorld :=
  let owned := w.ownedBy ownerID
  if maxSessionsPerOwner configured ≤ owned.length then
    (none, { w with owners := w.owners.insert ownerID owned })
  else
    (some sessionID,
      { w with
        owners := w.owners.insert ownerID (sessionID :: owned)
        reservations := ⟨call, ownerID, sessionID⟩ :: w.reservations
        opening := ⟨call, ownerID, sessionID⟩ :: w.opening })

def setCurrent (sessionID : String) (current : Option Attachment) : TerminalWorld :=
  match w.sessions.lookup sessionID with
  | none => w
  | some session => { w with sessions := w.sessions.insert sessionID { session with current } }

def detach (sessionID attachmentID : String) : TerminalWorld :=
  match w.sessions.lookup sessionID with
  | none => w
  | some session =>
    if session.current.any fun attachment => attachment.id = attachmentID then
      w.setCurrent sessionID none
    else w

def setOnce (sessionID : String) (once : CloseOnce) : TerminalWorld :=
  { w with closeOnce := Function.update w.closeOnce sessionID once }

/-- The sessions whose slots are reserved, of one owner or of all. -/
def covered (ownerID : Option String) : List String :=
  (w.reservations.filter fun slot => ownerID.all fun owner => slot.ownerID = owner).map
    Slot.sessionID

end TerminalWorld

def newSessionID (random : String) : String := "term_" ++ random

def terminalExec (configured : ℤ) :
    (c : TerminalCmd) → TerminalOut → TerminalWorld → TerminalAns c × TerminalWorld
  | .reserve call ownerID, o, w => w.reserve configured call ownerID (newSessionID o.random)
  | .startTerminal, o, w =>
    (match o.failure with | some err => .error err | none => .ok (), w)
  | .releaseOwnerSession slot, _, w =>
    ((), { w.leaveOpening slot with owners := w.dropOwned slot.ownerID slot.sessionID })
  | .newAttachmentID, o, w => ("attach_" ++ o.random, w)
  | .register slot session, _, w =>
    ((), { w.leaveOpening slot with sessions := w.sessions.insert slot.sessionID session })
  | .session sessionID, _, w => (w.sessions.lookup sessionID, w)
  | .attach sessionID attachment, o, w =>
    match o.failure with
    | some err => (.error err, w.setCurrent sessionID none)
    | none => (.ok (), w.setCurrent sessionID (some attachment))
  | .detach sessionID attachmentID, _, w => ((), w.detach sessionID attachmentID)
  | .enterOnce call sessionID, _, w =>
    match w.closeOnce sessionID with
    | .fresh => (true, w.setOnce sessionID (.running call))
    | .running _ | .done => (false, w)
  | .endAttachment sessionID, _, w => ((), w.setCurrent sessionID none)
  | .closePty, _, w => ((), w)
  | .deleteSession sessionID ownerID, _, w =>
    ((), { w with
      sessions := w.sessions.erase sessionID
      owners := w.dropOwned ownerID sessionID })
  | .leaveOnce sessionID, _, w => ((), w.setOnce sessionID .done)
  | .covered ownerID, _, w => (w.covered ownerID, w)
  | .listOwner ownerID _, o, w => (o.order.order 0 (w.ownedBy ownerID), w)
  | .listAll _, o, w => (o.order.order 0 w.sessions.keys, w)
  | .returned covered, _, w => ((), { w with closed := covered ++ w.closed })

def terminalMachine (configured : ℤ) :
    Machine TerminalCmd TerminalAns TerminalOut TerminalWorld :=
  ⟨terminalExec configured⟩

abbrev TerminalProg (α : Type) : Type := Prog TerminalCmd TerminalAns α

abbrev TerminalCmd.issue (c : TerminalCmd) : TerminalProg (TerminalAns c) := Prog.issue c

def normalizeShell (shell : String) : Option String :=
  if shell = "" ∨ shell = "/bin/sh" then some "/bin/sh"
  else if shell = "/bin/bash" then some "/bin/bash"
  else none

/-- `Open` once it has its slot. -/
def openReserved (slot : Slot) (stackID containerID shell connectionID : String) :
    TerminalProg (Except TerminalError SessionInfo) := do
  let started ← TerminalCmd.issue .startTerminal
  match started with
  | .error err => do
    TerminalCmd.issue (.releaseOwnerSession slot)
    pure (.error (.failed err))
  | .ok () => do
    let attachmentID ← TerminalCmd.issue .newAttachmentID
    let info : SessionInfo := ⟨slot.sessionID, stackID, containerID, shell⟩
    TerminalCmd.issue
      (.register slot ⟨info, slot.ownerID, some ⟨attachmentID, connectionID⟩⟩)
    pure (.ok info)

/-- `Open`; the text of the session's id is drawn with the reservation, its first use. -/
def openTerminal (call : ℕ) (ownerID stackID containerID shell connectionID : String) :
    TerminalProg (Except TerminalError SessionInfo) :=
  match normalizeShell shell with
  | none => pure (.error .invalidShell)
  | some normalizedShell => do
    let reserved ← TerminalCmd.issue (.reserve call ownerID)
    match reserved with
    | none => pure (.error .sessionLimitExceeded)
    | some sessionID =>
      openReserved ⟨call, ownerID, sessionID⟩ stackID containerID normalizedShell connectionID

def attach (ownerID sessionID connectionID : String) :
    TerminalProg (Except TerminalError SessionInfo) := do
  let found ← TerminalCmd.issue (.session sessionID)
  match found with
  | none => pure (.error .sessionNotFound)
  | some session =>
    if session.ownerID ≠ ownerID then pure (.error .sessionNotFound)
    else do
      let attachmentID ← TerminalCmd.issue .newAttachmentID
      let attached ← TerminalCmd.issue (.attach sessionID ⟨attachmentID, connectionID⟩)
      match attached with
      | .error err => pure (.error (.failed err))
      | .ok () => pure (.ok session.info)

def detach (ownerID sessionID attachmentID : String) : TerminalProg Unit := do
  let found ← TerminalCmd.issue (.session sessionID)
  match found with
  | none => pure ()
  | some session =>
    if session.ownerID ≠ ownerID then pure ()
    else TerminalCmd.issue (.detach sessionID attachmentID)

/-- `endSessionWithCode`, for every reason and exit code. -/
def endSession (call : ℕ) (sessionID : String) : TerminalProg Unit := do
  let found ← TerminalCmd.issue (.session sessionID)
  match found with
  | none => pure ()
  | some session =>
    let first ← TerminalCmd.issue (.enterOnce call sessionID)
    if first then do
      TerminalCmd.issue (.endAttachment sessionID)
      TerminalCmd.issue .closePty
      TerminalCmd.issue (.deleteSession sessionID session.ownerID)
      TerminalCmd.issue (.leaveOnce sessionID)
    else pure ()

def close (call : ℕ) (ownerID sessionID : String) : TerminalProg (Except TerminalError Unit) := do
  let found ← TerminalCmd.issue (.session sessionID)
  match found with
  | none => pure (.error .sessionNotFound)
  | some session =>
    if session.ownerID ≠ ownerID then pure (.error .sessionNotFound)
    else do
      endSession call sessionID
      pure (.ok ())

def endSessions (call : ℕ) : List String → TerminalProg Unit
  | [] => pure ()
  | sessionID :: rest => do
    endSession call sessionID
    endSessions call rest

def closeOwner (call : ℕ) (ownerID : String) : TerminalProg Unit := do
  let covered ← TerminalCmd.issue (.covered (some ownerID))
  let sessionIDs ← TerminalCmd.issue (.listOwner ownerID covered)
  endSessions call sessionIDs
  TerminalCmd.issue (.returned covered)

def closeAll (call : ℕ) : TerminalProg Unit := do
  let covered ← TerminalCmd.issue (.covered none)
  let sessionIDs ← TerminalCmd.issue (.listAll covered)
  endSessions call sessionIDs
  TerminalCmd.issue (.returned covered)

/-- `endSession` stands for the timers and the exit of the process, at any time. -/
inductive TerminalCall
  | openTerminal (ownerID stackID containerID shell connectionID : String)
  | attach (ownerID sessionID connectionID : String)
  | detach (ownerID sessionID attachmentID : String)
  | close (ownerID sessionID : String)
  | endSession (sessionID : String)
  | closeOwner (ownerID : String)
  | closeAll

def discard {α : Type} (p : TerminalProg α) : TerminalProg Unit := p >>= fun _ => pure ()

def TerminalCall.program (call : ℕ) : TerminalCall → TerminalProg Unit
  | .openTerminal ownerID stackID containerID shell connectionID =>
    discard (Terminal.openTerminal call ownerID stackID containerID shell connectionID)
  | .attach ownerID sessionID connectionID =>
    discard (Terminal.attach ownerID sessionID connectionID)
  | .detach ownerID sessionID attachmentID => Terminal.detach ownerID sessionID attachmentID
  | .close ownerID sessionID => discard (Terminal.close call ownerID sessionID)
  | .endSession sessionID => Terminal.endSession call sessionID
  | .closeOwner ownerID => Terminal.closeOwner call ownerID
  | .closeAll => Terminal.closeAll call

/-- A running `closeOnce` is waited for, and the random ids of sessions are distinct. -/
def TerminalCmd.ready (o : TerminalOut) (w : TerminalWorld) : TerminalCmd → Bool
  | .enterOnce _ sessionID =>
    match w.closeOnce sessionID with
    | .running _ => false
    | .fresh | .done => true
  | .reserve _ _ => w.reservations.all fun slot => slot.sessionID ≠ newSessionID o.random
  | _ => true

/-- The sessions to close are listed while none of them is between its slot and its registration. -/
def TerminalCmd.settled (w : TerminalWorld) : TerminalCmd → Bool
  | .listOwner _ ids | .listAll ids => w.opening.all fun slot => slot.sessionID ∉ ids
  | _ => true

abbrev TerminalPool : Type := Pool ℕ TerminalCmd TerminalAns TerminalWorld

inductive TerminalLabel
  | invoke (call : ℕ) (c : TerminalCall)
  | step (call : ℕ) (o : TerminalOut)

def terminalEnabled (s : TerminalPool) : TerminalLabel → Bool
  | .invoke call _ => (s.threads call).isNone
  | .step call o =>
    match s.threads call with
    | some (.call c _) => c.ready o s.world
    | _ => true

def settledAt (s : TerminalPool) : TerminalLabel → Bool
  | .invoke _ _ => true
  | .step call _ =>
    match s.threads call with
    | some (.call c _) => c.settled s.world
    | _ => true

def terminalNext (configured : ℤ) (s : TerminalPool) : TerminalLabel → TerminalPool
  | .invoke call c => s.set call (c.program call) s.world
  | .step call o => s.step (terminalMachine configured) call o

def terminalLts (configured : ℤ) : Lts TerminalPool TerminalLabel :=
  Lts.ofNext terminalEnabled (terminalNext configured)

def settledLts (configured : ℤ) : Lts TerminalPool TerminalLabel :=
  Lts.ofNext (fun s l => terminalEnabled s l && settledAt s l) (terminalNext configured)

/-- The service as `NewService` makes it. -/
structure NewService (s : TerminalPool) : Prop where
  threads : ∀ call, s.threads call = none
  sessions : s.world.sessions = ∅
  owners : s.world.owners = ∅
  closeOnce : ∀ id, s.world.closeOnce id = .fresh
  observed : s.world.reservations = [] ∧ s.world.opening = [] ∧ s.world.closed = []

/-- No session that a returned `CloseOwner` or `CloseAll` was to close is registered. -/
def NoShellSurvives (w : TerminalWorld) : Prop :=
  ∀ sessionID ∈ w.closed, w.sessions.lookup sessionID = none

end Stacklab.Terminal
