import Stacklab.Backup.JournalFiles
import Stacklab.Backup.Restore

/-! When a restore is held, and what every command does to that. -/
namespace Stacklab.Backup

open Lib

/-- The applies of a run that have succeeded. -/
def okApplies (runID : String) (log : List Event) : ℕ :=
  log.countP fun e => match e with
    | .applyIssued run _ true => run = runID
    | _ => false

/-- The Compose definitions of a run that were found valid. -/
def okDefinitions (runID : String) (log : List Event) : ℕ :=
  log.countP fun e => match e with
    | .composeChecked run true => run = runID
    | _ => false

section

variable (manifest : List ManifestSource) (runID : String)

/-- The first apply has been issued. -/
def ApplyIssued (log : List Event) : Prop := ∃ token ok, .applyIssued runID token ok ∈ log

/-- Every mapping was applied and every restored definition found valid. -/
def AllSucceeded (log : List Event) : Prop :=
  ∃ mappings, .previewed runID mappings ∈ log ∧ mappings.length ≤ okApplies runID log ∧
    (mappings.filter (isDefinition manifest)).length ≤ okDefinitions runID log

/-- After the first apply, the journal was removed by a resolution of its recovery. -/
def HoldAcknowledged : List Event → Prop
  | [] => False
  | e :: older => e = .removed runID true ∧ ApplyIssued runID older ∨ HoldAcknowledged older

/-- The restore is neither complete nor acknowledged. -/
def HalfApplied (log : List Event) : Prop :=
  ApplyIssued runID log ∧ ¬ AllSucceeded manifest runID log ∧ ¬ HoldAcknowledged runID log

end

/-- Neither a `docker start` nor a `release-restore`. -/
def Quiet : Event → Prop
  | .startIssued _ _ _ | .releaseIssued _ _ => False
  | _ => True

/-- No container was started and no token released while the restore was half applied. -/
def Silent (manifest : List ManifestSource) (runID : String) : List Event → Prop
  | [] => True
  | e :: older => (HalfApplied manifest runID older → Quiet e) ∧ Silent manifest runID older

section

variable (sourceID : String → String) (manifest : List ManifestSource) (runID : String)
  (asked : Prop)

/-- There is no journal but that of the run; directories are not looked into. -/
def Alone (w : World) : Prop :=
  ∀ name entry, w.disk.lookup name = some entry → Recoverable name entry.kind →
    name = journalFile sourceID runID

structure Before (w : World) : Prop where
  silent : Silent manifest runID w.log
  unapplied : ¬ ApplyIssued runID w.log

structure During (w : World) : Prop where
  silent : Silent manifest runID w.log
  held : OnDisk sourceID w runID fun journal => journal.holdStopped = true
  alone : Alone sourceID runID w
  unacknowledged : ¬ HoldAcknowledged runID w.log

/-- `asked` says that an operator has asked to acknowledge the hold. -/
structure After (w : World) : Prop where
  silent : Silent manifest runID w.log
  ended : AllSucceeded manifest runID w.log ∨ HoldAcknowledged runID w.log ∧ asked

/-- What holds wherever the restore, or a call after it, is cut off. -/
def HoldKept (w : World) : Prop :=
  Before manifest runID w ∨ During sourceID manifest runID w ∨ After manifest runID asked w

end

variable {sourceID : String → String} {manifest : List ManifestSource} {runID : String}
  {asked : Prop} {w : World} {c : Cmd} {o : Out} {log : List Event} {e : Event}

theorem applyIssued_of_acknowledged (h : HoldAcknowledged runID log) : ApplyIssued runID log := by
  induction log with
  | nil => exact h.elim
  | cons e older ih =>
    have holder : ApplyIssued runID older := h.elim And.right ih
    obtain ⟨token, ok, hmem⟩ := holder
    exact ⟨token, ok, List.mem_cons_of_mem _ hmem⟩

theorem silent_unapplied (h : Silent manifest runID log) (hnot : ¬ ApplyIssued runID log) :
    Silent manifest runID (e :: log) :=
  ⟨fun hhalf => absurd hhalf.1 hnot, h⟩

theorem okApplies_cons : okApplies runID log ≤ okApplies runID (e :: log) :=
  (List.sublist_cons_self e log).countP_le

theorem okDefinitions_cons : okDefinitions runID log ≤ okDefinitions runID (e :: log) :=
  (List.sublist_cons_self e log).countP_le

/-- A restore that has ended is never half applied again. -/
theorem ended_cons (h : AllSucceeded manifest runID log ∨ HoldAcknowledged runID log ∧ asked) :
    AllSucceeded manifest runID (e :: log) ∨ HoldAcknowledged runID (e :: log) ∧ asked := by
  rcases h with ⟨mappings, hmem, happlies, hdefinitions⟩ | ⟨h, hasked⟩
  · exact .inl ⟨mappings, List.mem_cons_of_mem _ hmem, happlies.trans okApplies_cons,
      hdefinitions.trans okDefinitions_cons⟩
  · exact .inr ⟨.inr h, hasked⟩

theorem silent_ended (h : Silent manifest runID log)
    (hended : AllSucceeded manifest runID log ∨ HoldAcknowledged runID log ∧ asked) :
    Silent manifest runID (e :: log) :=
  ⟨fun hhalf => hended.elim (fun hs => absurd hs hhalf.2.1) fun ha => absurd ha.1 hhalf.2.2, h⟩

/-- The events that a command can add. -/
def Logs : Cmd → Event → Prop
  | .saveStopJournal journal intent, e => ∃ landed, e = .saved journal.runID intent landed
  | .removeJournal run acknowledged, e => e = .removed run acknowledged
  | .dockerStop run _ id fence, e => e = .stopIssued run id fence
  | .dockerStart run id, e => ∃ ok, e = .startIssued run id ok
  | .previewRestore run _, e => ∃ mappings, e = .previewed run mappings
  | .applyRestore run token, e => ∃ ok, e = .applyIssued run token ok
  | .releaseRestore run token, e => e = .releaseIssued run token
  | .composeConfig run _, e => ∃ ok, e = .composeChecked run ok
  | _, _ => False

theorem capture_log_exec (c : Cmd) (o : Out) (w : World) :
    ((captureMachine sourceID).exec c o w).2.log = w.log ∨
      ∃ e, ((captureMachine sourceID).exec c o w).2.log = e :: w.log ∧ Logs c e := by
  cases c with
  | saveStopJournal journal intent =>
    rcases save_cases w o journal intent with ⟨-, hlog⟩ | ⟨-, hlog, -⟩
    · exact .inr ⟨_, hlog, true, rfl⟩
    · exact .inr ⟨_, hlog, false, rfl⟩
  | removeJournal run acknowledged =>
    exact .inr ⟨_, (remove_cases w o run acknowledged).1, rfl⟩
  | dockerStop run seconds id fence => exact .inr ⟨_, rfl, rfl⟩
  | dockerStart run id => exact .inr ⟨_, rfl, _, rfl⟩
  | previewRestore run mappings => exact .inr ⟨_, rfl, _, rfl⟩
  | applyRestore run token => exact .inr ⟨_, rfl, _, rfl⟩
  | releaseRestore run token => exact .inr ⟨_, rfl, rfl⟩
  | composeConfig run target => exact .inr ⟨_, rfl, _, rfl⟩
  | readFile name =>
    left
    simp only [captureMachine]
    split <;> rfl
  | _ => exact .inl rfl

/-- The commands that write no journal. -/
def Diskless : Cmd → Prop
  | .saveStopJournal _ _ | .removeJournal _ _ => False
  | _ => True

theorem disk_exec (hc : Diskless c) :
    ((captureMachine sourceID).exec c o w).2.disk = w.disk := by
  cases c with
  | saveStopJournal journal intent => exact hc.elim
  | removeJournal run acknowledged => exact hc.elim
  | readFile name =>
    simp only [captureMachine]
    split <;> rfl
  | _ => rfl

/-- The commands that apply nothing. -/
def NoApply : Cmd → Prop
  | .applyRestore _ _ => False
  | _ => True

theorem not_applyIssued_cons (hc : NoApply c) (he : Logs c e) (h : ¬ ApplyIssued runID log) :
    ¬ ApplyIssued runID (e :: log) := by
  rintro ⟨token, ok, hmem⟩
  rcases List.mem_cons.mp hmem with rfl | hmem
  · cases c with
    | applyRestore run token' => exact hc
    | saveStopJournal journal intent =>
      obtain ⟨_, he⟩ := he
      cases he
    | dockerStart run id =>
      obtain ⟨_, he⟩ := he
      cases he
    | previewRestore run mappings =>
      obtain ⟨_, he⟩ := he
      cases he
    | composeConfig run target =>
      obtain ⟨_, he⟩ := he
      cases he
    | removeJournal run acknowledged => cases he
    | dockerStop run seconds id fence => cases he
    | releaseRestore run token' => cases he
    | _ => exact he
  · exact h ⟨token, ok, hmem⟩

theorem before_exec (c : Cmd) (o : Out) (w : World) (hc : NoApply c)
    (h : Before manifest runID w) :
    Before manifest runID ((captureMachine sourceID).exec c o w).2 := by
  rcases @capture_log_exec sourceID c o w with hlog | ⟨e, hlog, he⟩
  · exact ⟨by rw [hlog]; exact h.silent, by rw [hlog]; exact h.unapplied⟩
  · refine ⟨?_, ?_⟩
    · rw [hlog]
      exact silent_unapplied h.silent h.unapplied
    · rw [hlog]
      exact not_applyIssued_cons hc he h.unapplied

theorem after_exec (c : Cmd) (o : Out) (w : World) (h : After manifest runID asked w) :
    After manifest runID asked ((captureMachine sourceID).exec c o w).2 := by
  rcases @capture_log_exec sourceID c o w with hlog | ⟨e, hlog, -⟩
  · exact ⟨by rw [hlog]; exact h.silent, by rw [hlog]; exact h.ended⟩
  · refine ⟨?_, ?_⟩
    · rw [hlog]
      exact silent_ended h.silent h.ended
    · rw [hlog]
      exact ended_cons h.ended

/-- The commands that leave a hold as it is. -/
def Holding : Cmd → Prop
  | .saveStopJournal _ _ | .removeJournal _ _ | .dockerStart _ _ | .releaseRestore _ _ => False
  | _ => True

theorem quiet_of_holding (hc : Holding c) (he : Logs c e) : Quiet e ∧ e ≠ .removed runID true := by
  cases c with
  | saveStopJournal journal intent => exact hc.elim
  | removeJournal run acknowledged => exact hc.elim
  | dockerStart run id => exact hc.elim
  | releaseRestore run token => exact hc.elim
  | dockerStop run seconds id fence =>
    obtain rfl := he
    exact ⟨trivial, by simp⟩
  | previewRestore run mappings =>
    obtain ⟨_, rfl⟩ := he
    exact ⟨trivial, by simp⟩
  | applyRestore run token =>
    obtain ⟨_, rfl⟩ := he
    exact ⟨trivial, by simp⟩
  | composeConfig run target =>
    obtain ⟨_, rfl⟩ := he
    exact ⟨trivial, by simp⟩
  | _ => exact he.elim

theorem during_exec (c : Cmd) (o : Out) (w : World) (hc : Holding c)
    (h : During sourceID manifest runID w) :
    During sourceID manifest runID ((captureMachine sourceID).exec c o w).2 := by
  have hdisk : ((captureMachine sourceID).exec c o w).2.disk = w.disk := by
    refine disk_exec ?_
    cases c <;> first | exact trivial | exact hc.elim
  have hheld : OnDisk sourceID ((captureMachine sourceID).exec c o w).2 runID
      fun journal => journal.holdStopped = true := by
    rw [OnDisk, hdisk]
    exact h.held
  have halone : Alone sourceID runID ((captureMachine sourceID).exec c o w).2 := by
    rw [Alone, hdisk]
    exact h.alone
  rcases @capture_log_exec sourceID c o w with hlog | ⟨e, hlog, he⟩
  · exact ⟨by rw [hlog]; exact h.silent, hheld, halone, by rw [hlog]; exact h.unacknowledged⟩
  · have hquiet : Quiet e ∧ e ≠ .removed runID true := quiet_of_holding hc he
    refine ⟨?_, hheld, halone, ?_⟩
    · rw [hlog]
      exact ⟨fun _ => hquiet.1, h.silent⟩
    · rw [hlog]
      exact fun hack => hack.elim (fun hr => hquiet.2 hr.1) h.unacknowledged

end Stacklab.Backup
