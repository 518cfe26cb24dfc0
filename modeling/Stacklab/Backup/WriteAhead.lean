import Stacklab.Backup.JournalFiles

/-! The write-ahead discipline of the stop journal, and the commands that keep it. -/
namespace Stacklab.Backup

open Lib

/-- The stops that have been issued and not been followed by a successful start. -/
def owed : List Event → List (String × String)
  | [] => []
  | .stopIssued runID containerID _ :: log => (runID, containerID) :: owed log
  | .startIssued _ containerID true :: log =>
    (owed log).filter fun stop => stop.2 ≠ containerID
  | _ :: log => owed log

/-- The stop intents that the running call could not write and no later write of it made
durable. -/
def lostIntents : List Event → List String
  | [] => []
  | .callBegan :: _ => []
  | .saved _ _ true :: _ => []
  | .saved _ (some containerID) false :: log => containerID :: lostIntents log
  | _ :: log => lostIntents log

def Phase.unfinished : Phase → Bool
  | .planned | .resumed => false
  | _ => true

def Phase.announced : Phase → Bool
  | .stopRequested | .stopped => true
  | _ => false

namespace StopJournal

/-- A running writer of the journal whose stop is announced and not yet undone. -/
def Owes (journal : StopJournal) (containerID : String) : Prop :=
  (∃ writer ∈ journal.writers, writer.containerID = containerID ∧ writer.running = true) ∧
    (journal.phase containerID).announced = true

end StopJournal

section

variable (sourceID : String → String)

/-- Every stopped writer is recorded on disk with phase `stop_requested` or `stopped`. -/
def WriteAhead (w : World) : Prop :=
  ∀ runID containerID, (runID, containerID) ∈ owed w.log →
    OnDisk sourceID w runID fun journal => (journal.phase containerID).announced = true

def CurrentVersion (w : World) : Prop :=
  ∀ name journal, w.disk.lookup name = some (.file (some journal)) →
    validJournal sourceID journal name = true → journal.version = 2

/-- What holds between any two commands. -/
structure Durable (w : World) : Prop where
  recorded : ∀ runID containerID, (runID, containerID) ∈ owed w.log →
    OnDisk sourceID w runID fun journal => journal.Owes containerID
  version : CurrentVersion sourceID w

/-- What a call knows while it works on a journal held in memory: the memory knows every owed
writer of its run. -/
structure Memory (journal : StopJournal) (w : World) : Prop where
  version : journal.version = 2
  alone : ∀ runID containerID, (runID, containerID) ∈ owed w.log →
    journalFile sourceID runID = journalFile sourceID journal.runID → runID = journal.runID
  owes : ∀ containerID, (journal.runID, containerID) ∈ owed w.log → journal.Owes containerID
  known : ∀ writer ∈ journal.writers, knownPhase (journal.phase writer.containerID) = true

/-- In addition, every unfinished writer whose intent was not lost is owed on disk. -/
structure Working (journal : StopJournal) (w : World) : Prop
    extends Memory sourceID journal w where
  backed : ∀ writer ∈ journal.writers, writer.running = true →
    (journal.phase writer.containerID).unfinished = true →
    writer.containerID ∉ lostIntents w.log →
    OnDisk sourceID w journal.runID fun stored => stored.Owes writer.containerID

/-- A fence is only issued for a writer whose stop intent was not lost. -/
def FenceAnnounced : Cmd → Out → World → Prop
  | .dockerStop _ _ containerID true, _, w => containerID ∉ lostIntents w.log
  | _, _, _ => True

instance (c : Cmd) (o : Out) (w : World) : Decidable (FenceAnnounced c o w) := by
  unfold FenceAnnounced
  split <;> infer_instance

end

variable {sourceID : String → String} {w : World} {journal : StopJournal}
  {writer : Writer} {phase : Phase} {id runID containerID : String}
  {intent : Option String} {log : List Event}

theorem Durable.writeAhead (h : Durable sourceID w) : WriteAhead sourceID w := by
  intro runID containerID howed
  obtain ⟨stored, hd, hr, howes⟩ := h.recorded runID containerID howed
  exact ⟨stored, hd, hr, howes.2⟩

theorem announced_of_unfinished (hk : knownPhase phase = true) (hu : phase.unfinished = true) :
    phase.announced = true := by
  cases phase with
  | planned | resumed => cases hu
  | stopRequested | stopped => rfl
  | other text => cases hk

theorem Memory.setPhase (h : Memory sourceID journal w) (hk : knownPhase phase = true)
    (howed : (journal.runID, id) ∈ owed w.log → phase.announced = true) :
    Memory sourceID (journal.setPhase id phase) w := by
  refine ⟨h.version, h.alone, ?_, ?_⟩
  · intro containerID hid
    refine ⟨(h.owes containerID hid).1, ?_⟩
    rw [StopJournal.phase_setPhase]
    split
    next he =>
      exact howed (he ▸ hid)
    · exact (h.owes containerID hid).2
  · intro writer hw
    rw [StopJournal.phase_setPhase]
    split
    · exact hk
    · exact h.known writer hw

/-! Writing the journal. -/

theorem owed_save (runID : String) (intent : Option String) (landed : Bool)
    (log : List Event) : owed (.saved runID intent landed :: log) = owed log := rfl

theorem not_mem_lost_save (h : containerID ∉ lostIntents (.saved runID intent false :: log)) :
    intent ≠ some containerID ∧ containerID ∉ lostIntents log := by
  cases intent with
  | none => exact ⟨by simp, h⟩
  | some id =>
    simp only [lostIntents, List.mem_cons, not_or] at h
    exact ⟨fun he => h.1 (Option.some.inj he).symm, h.2⟩

/-- Whether or not it lands, a write keeps the discipline. -/
theorem working_save (hd : Durable sourceID w) (hm : Memory sourceID journal w)
    (intent : Option String)
    (hb : ∀ writer ∈ journal.writers, writer.running = true →
      (journal.phase writer.containerID).unfinished = true →
      intent ≠ some writer.containerID → writer.containerID ∉ lostIntents w.log →
      OnDisk sourceID w journal.runID fun stored => stored.Owes writer.containerID) (o : Out) :
    Durable sourceID (w.save sourceID o journal intent).2 ∧
      Working sourceID journal (w.save sourceID o journal intent).2 ∧
      owed (w.save sourceID o journal intent).2.log = owed w.log ∧
      ((w.save sourceID o journal intent).1 = .ok () →
        lostIntents (w.save sourceID o journal intent).2.log = []) := by
  rcases @save_cases sourceID w o journal intent with
    ⟨hdisk, hlog⟩ | ⟨hdisk, hlog, hfail⟩
  · generalize (w.save sourceID o journal intent).2 = w' at hdisk hlog ⊢
    have howed : owed w'.log = owed w.log := by rw [hlog, owed_save]
    have hself : w'.disk.lookup (journalFile sourceID journal.runID) =
        some (.file (some journal)) := by
      rw [hdisk, GoMap.lookup_insert, if_pos rfl]
    have hother : ∀ name ≠ journalFile sourceID journal.runID,
        w'.disk.lookup name = w.disk.lookup name := by
      intro name hne
      rw [hdisk, GoMap.lookup_insert, if_neg hne]
    refine ⟨⟨?_, ?_⟩, ⟨⟨hm.version, ?_, ?_, hm.known⟩, ?_⟩, howed, ?_⟩
    · intro runID containerID hid
      rw [howed] at hid
      by_cases hfile : journalFile sourceID runID = journalFile sourceID journal.runID
      · have hrun := hm.alone runID containerID hid hfile
        subst hrun
        exact ⟨journal, hself, rfl, hm.owes containerID hid⟩
      · obtain ⟨stored, hs, hr, howes⟩ := hd.recorded runID containerID hid
        exact ⟨stored, by rw [hother _ hfile, hs], hr, howes⟩
    · intro name stored hs hv
      by_cases hname : name = journalFile sourceID journal.runID
      · rw [hname, hself] at hs
        cases hs
        exact hm.version
      · rw [hother _ hname] at hs
        exact hd.version name stored hs hv
    · rw [howed]
      exact hm.alone
    · rw [howed]
      exact hm.owes
    · intro writer hw hrun hu _
      exact ⟨journal, hself, rfl, ⟨writer, hw, rfl, hrun⟩,
        announced_of_unfinished (hm.known writer hw) hu⟩
    · intro _
      rw [hlog]
      rfl
  · generalize hr : w.save sourceID o journal intent = r at hdisk hlog hfail ⊢
    obtain ⟨ans, w'⟩ := r
    have howed : owed w'.log = owed w.log := by rw [hlog, owed_save]
    obtain rfl : w' = ⟨w.disk, .saved journal.runID intent false :: w.log⟩ := by
      cases w'
      simp_all
    refine ⟨⟨hd.recorded, hd.version⟩,
      ⟨⟨hm.version, hm.alone, hm.owes, hm.known⟩, ?_⟩, rfl, ?_⟩
    · intro writer hw hrun hu hlost
      obtain ⟨hintent, hlost⟩ := not_mem_lost_save hlost
      exact hb writer hw hrun hu hintent hlost
    · intro hok
      exact absurd hok hfail

/-- What a phase change needs before it is written. -/
theorem Working.backed_setPhase (hw : Working sourceID journal w)
    (h : phase.unfinished = true → intent ≠ some id → (journal.phase id).unfinished = true) :
    ∀ writer ∈ (journal.setPhase id phase).writers, writer.running = true →
      ((journal.setPhase id phase).phase writer.containerID).unfinished = true →
      intent ≠ some writer.containerID → writer.containerID ∉ lostIntents w.log →
      OnDisk sourceID w journal.runID fun stored => stored.Owes writer.containerID := by
  intro writer hmem hrun hu hintent hlost
  rw [StopJournal.phase_setPhase] at hu
  refine hw.backed writer hmem hrun ?_ hlost
  split at hu
  next he =>
    rw [he] at hintent ⊢
    exact h hu hintent
  · exact hu

/-! Stopping and starting a writer. -/

theorem working_stop (hd : Durable sourceID w) (hw : Working sourceID journal w)
    (hmem : writer ∈ journal.writers) (hrun : writer.running = true)
    (hu : (journal.phase writer.containerID).unfinished = true)
    (hlost : writer.containerID ∉ lostIntents w.log) (fence : Bool) :
    Durable sourceID (w.record (.stopIssued journal.runID writer.containerID fence)) ∧
      Working sourceID journal
        (w.record (.stopIssued journal.runID writer.containerID fence)) := by
  refine ⟨⟨?_, hd.version⟩, ⟨⟨hw.version, ?_, ?_, hw.known⟩, hw.backed⟩⟩
  · intro runID containerID hid
    rcases List.mem_cons.mp hid with he | hid
    · cases he
      exact hw.backed writer hmem hrun hu hlost
    · exact hd.recorded runID containerID hid
  · intro runID containerID hid hfile
    rcases List.mem_cons.mp hid with he | hid
    · cases he
      rfl
    · exact hw.alone runID containerID hid hfile
  · intro containerID hid
    rcases List.mem_cons.mp hid with he | hid
    · cases he
      exact ⟨⟨writer, hmem, rfl, hrun⟩, announced_of_unfinished (hw.known writer hmem) hu⟩
    · exact hw.owes containerID hid

theorem owed_start {runID' : String} {ok : Bool}
    (h : (runID', containerID) ∈ owed (.startIssued runID id ok :: log)) :
    (runID', containerID) ∈ owed log ∧ (ok = true → containerID ≠ id) := by
  cases ok with
  | false => exact ⟨h, by simp⟩
  | true =>
    obtain ⟨hmem, hne⟩ := List.mem_filter.mp h
    exact ⟨hmem, fun _ => of_decide_eq_true hne⟩

theorem working_start (hd : Durable sourceID w) (hw : Working sourceID journal w)
    (runID id : String) (ok : Bool) :
    Durable sourceID (w.record (.startIssued runID id ok)) ∧
      Working sourceID journal (w.record (.startIssued runID id ok)) := by
  refine ⟨⟨?_, hd.version⟩, ⟨⟨hw.version, ?_, ?_, hw.known⟩, ?_⟩⟩
  · intro runID' containerID hid
    exact hd.recorded runID' containerID (owed_start hid).1
  · intro runID' containerID hid
    exact hw.alone runID' containerID (owed_start hid).1
  · intro containerID hid
    exact hw.owes containerID (owed_start hid).1
  · intro writer hmem hrun hu hlost
    refine hw.backed writer hmem hrun hu ?_
    cases ok <;> exact hlost

end Stacklab.Backup
