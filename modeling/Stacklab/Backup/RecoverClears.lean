import Stacklab.Backup.RecoverySteps

/-! A recovery without an error leaves no journal behind. -/
namespace Stacklab.Backup

open Lib Prog

variable {sourceID : String → String} {Allowed : Cmd → Out → World → Prop} {I : World → Prop}
  {w w' : World} {journal : StopJournal} {runID name : String} {kind : EntryKind} {ok : Prop}
  {entries : List (String × EntryKind)}

/-- The commands that apply nothing and write no journal but that of a run. -/
def Touches (runID : String) : Cmd → Prop
  | .saveStopJournal journal _ => journal.runID = runID
  | .removeJournal run _ => run = runID
  | .applyRestore _ _ => False
  | _ => True

theorem wp_resolveStop_run {writer : Writer}
    (hpres : ∀ c o w, Touches runID c → I w → I ((captureMachine sourceID).exec c o w).2)
    (hI : I w) :
    Wp (captureMachine sourceID) Allowed I (resolveStop journal writer)
      (fun _ _ => True) w := by
  refine Issues.wp ?_ hpres hI
  rw [resolveStop]
  split
  · rw [fenceWriterStop.eq_def]
    split
    · exact issues_pure _
    · exact issues_issue trivial
  · exact issues_pure _

/-- The loop of `resume` keeps what the commands for its run keep. -/
theorem wp_resumeWriters_run (writers : List Writer)
    (hpres : ∀ c o w, Touches runID c → I w → I ((captureMachine sourceID).exec c o w).2)
    (hrun : journal.runID = runID) (hI : I w) :
    Wp (captureMachine sourceID) Allowed I (resumeWriters journal writers)
      (fun r _ => r.2.runID = runID) w := by
  induction writers generalizing journal w with
  | nil => exact wp_pure hI hrun
  | cons writer rest ih =>
    have hrest : ∀ (w : World) (err : String), I w → Wp (captureMachine sourceID) Allowed I
        (do
          let r ← resumeWriters journal rest
          pure (err :: r.1, r.2) : CaptureProg (List String × StopJournal))
        (fun r _ => r.2.runID = runID) w :=
      fun w err hI => wp_bind ((ih hrun hI).post fun _ _ hI' hr => wp_pure hI' hr)
    rw [resumeWriters]
    split
    · exact ih hrun hI
    · refine wp_bind ((wp_resolveStop_run hpres hI).post ?_)
      rintro (err | _) w₁ hI₁ -
      · exact hrest w₁ _ hI₁
      · refine wp_issue_bind (fun _ w' => I w') hI₁
          (fun o _ => hpres (.dockerStart _ _) o w₁ trivial hI₁) ?_
        rintro (err | _) w₂ hI₂
        · exact hrest w₂ _ hI₂
        · refine wp_issue_bind (fun _ w' => I w') hI₂
            (fun o _ => hpres (.saveStopJournal _ _) o w₂ hrun hI₂) ?_
          rintro (err | _) w₃ hI₃
          · refine wp_bind ((ih ?_ hI₃).post fun _ _ hI' hr => wp_pure hI' hr)
            exact hrun
          · refine ih ?_ hI₃
            exact hrun

/-- A `resume` without an error has removed the journal. -/
theorem wp_resume_run
    (hpres : ∀ c o w, Touches runID c → I w → I ((captureMachine sourceID).exec c o w).2)
    (hrun : journal.runID = runID) (hI : I w) :
    Wp (captureMachine sourceID) Allowed I (resume journal)
      (fun r w' => r.1 = .ok () → w'.disk.lookup (journalFile sourceID runID) = none) w := by
  refine wp_bind ((wp_resumeWriters_run journal.writers hpres hrun hI).post ?_)
  intro r w₁ hI₁ hr
  split
  next hlen =>
    refine wp_pure hI₁ ?_
    simp [joinErrors, hlen]
  · refine wp_issue_bind (fun (removed : Except String Unit) w' => I w' ∧
      (removed = .ok () → w'.disk.lookup (journalFile sourceID runID) = none)) hI₁ ?_ ?_
    · intro o _
      refine ⟨hpres (.removeJournal _ _) o w₁ hr hI₁, fun hok => ?_⟩
      rcases (remove_cases w₁ o r.2.runID false).2 with hdisk | ⟨-, hne⟩
      · change (w₁.remove sourceID o r.2.runID false).2.disk.lookup _ = none
        rw [hdisk, hr, GoMap.lookup_erase, if_pos rfl]
      · exact absurd hok hne
    · rintro removed w₂ ⟨hI₂, hnone⟩
      exact wp_pure hI₂ hnone

theorem frame_exec (c : Cmd) (o : Out) (w : World) (hc : Touches runID c) {n : String}
    (hn : n ≠ journalFile sourceID runID) :
    ((captureMachine sourceID).exec c o w).2.disk.lookup n = w.disk.lookup n := by
  cases c with
  | saveStopJournal journal intent =>
    obtain rfl : journal.runID = runID := hc
    change (w.save sourceID o journal intent).2.disk.lookup n = _
    rcases save_cases w o journal intent with ⟨hdisk, -⟩ | ⟨hdisk, -⟩
    · rw [hdisk, GoMap.lookup_insert, if_neg hn]
    · rw [hdisk]
  | removeJournal run acknowledged =>
    obtain rfl : run = runID := hc
    change (w.remove sourceID o run acknowledged).2.disk.lookup n = _
    rcases (remove_cases w o run acknowledged).2 with hdisk | ⟨hdisk, -⟩
    · rw [hdisk, GoMap.lookup_erase, if_neg hn]
    · rw [hdisk]
  | readFile name =>
    rw [← (readFile_content o name).1]
  | _ => rfl

/-- What the recovery of some entries, each with its own file, leaves of the directory. -/
structure Cleared (entries : List (String × EntryKind)) (w : World) (ok : Prop) (w' : World) :
    Prop where
  frame : ∀ n, (∀ kind, (n, kind) ∈ entries → ¬ Recoverable n kind) →
    w'.disk.lookup n = w.disk.lookup n
  removed : ok → ∀ n kind, (n, kind) ∈ entries → Recoverable n kind → w'.disk.lookup n = none

theorem cleared_unchanged (h : ok → ¬ Recoverable name kind) : Cleared [(name, kind)] w ok w := by
  refine ⟨fun _ _ => rfl, fun hok n kind' hmem hrec => ?_⟩
  obtain ⟨rfl, rfl⟩ : n = name ∧ kind' = kind := by simpa using hmem
  exact absurd hrec (h hok)

theorem cleared_one (hframe : ∀ n, n ≠ name → w'.disk.lookup n = w.disk.lookup n)
    (hremoved : ok → w'.disk.lookup name = none) (hrec : Recoverable name kind) :
    Cleared [(name, kind)] w ok w' := by
  refine ⟨fun n hn => hframe n ?_, fun hok n kind' hmem _ => ?_⟩
  · rintro rfl
    exact hn kind (List.mem_singleton.mpr rfl) hrec
  · obtain ⟨rfl, rfl⟩ : n = name ∧ kind' = kind := by simpa using hmem
    exact hremoved hok

/-- The rest of the entries leaves alone what the first one is about. -/
theorem Cleared.cons {w₁ w₂ : World} {ok₁ ok₂ : Prop} (hfirst : Cleared [(name, kind)] w ok₁ w₁)
    (hrest : Cleared entries w₁ ok₂ w₂) (hnew : name ∉ entries.map Prod.fst) :
    Cleared ((name, kind) :: entries) w (ok₁ ∧ ok₂) w₂ := by
  have hname : w₂.disk.lookup name = w₁.disk.lookup name :=
    hrest.frame name fun kind' hmem => absurd (List.mem_map_of_mem hmem) hnew
  refine ⟨fun n hn => ?_, fun hok n kind' hmem hrec => ?_⟩
  · rw [hrest.frame n fun kind' hmem => hn kind' (List.mem_cons_of_mem _ hmem)]
    refine hfirst.frame n fun kind' hmem => hn kind' ?_
    rw [List.mem_singleton.mp hmem]
    exact List.mem_cons_self
  · rcases List.mem_cons.mp hmem with he | hmem
    · cases he
      rw [hname]
      exact hfirst.removed hok.1 name kind List.mem_cons_self hrec
    · exact hrest.removed hok.2 n kind' hmem hrec

theorem Cleared.mono {ok' : Prop} (h : Cleared entries w ok w') (hok : ok' → ok) :
    Cleared entries w ok' w' :=
  ⟨h.frame, fun hok' => h.removed (hok hok')⟩

/-- There is no journal left; directories are not looked into. -/
def NoJournals (w : World) : Prop :=
  ∀ name entry, w.disk.lookup name = some entry → ¬ Recoverable name entry.kind

theorem Cleared.noJournals (h : Cleared w.readDir w ok w') (hok : ok) : NoJournals w' := by
  intro name entry hentry hrec
  by_cases hold : ∃ kind, (name, kind) ∈ w.readDir ∧ Recoverable name kind
  · obtain ⟨kind, hmem, hrec'⟩ := hold
    rw [h.removed hok name kind hmem hrec'] at hentry
    cases hentry
  · have hsame := h.frame name fun kind hmem hrec' => hold ⟨kind, hmem, hrec'⟩
    rw [hsame] at hentry
    exact hold ⟨entry.kind, mem_readDir.mpr ⟨entry, hentry, rfl⟩, hrec⟩

section

variable (hpres : ∀ run c o w, Touches run c → I w → I ((captureMachine sourceID).exec c o w).2)
include hpres

theorem wp_recoverEntry_clears (hI : I w) :
    Wp (captureMachine sourceID) Allowed I (recoverEntry sourceID name kind)
      (fun r w' => Cleared [(name, kind)] w (r = .ok ()) w') w := by
  refine wp_recoverEntry hI (fun hskip => cleared_unchanged fun _ => hskip)
    (fun err => cleared_unchanged (by simp)) ?_
  intro journal entry hrec _ _ _ hvalid _
  obtain rfl := journalFile_of_valid hvalid
  refine (wp_resume_run (I := fun u => I u ∧
    ∀ n, n ≠ journalFile sourceID journal.runID → u.disk.lookup n = w.disk.lookup n)
    (fun c o u hc hu => ?_) (rfl : journal.runID = journal.runID) ⟨hI, fun _ _ => rfl⟩).mono (fun _ hu => hu.1) ?_
  · exact ⟨hpres _ c o u hc hu.1, fun n hn => (frame_exec c o u hc hn).trans (hu.2 n hn)⟩
  · exact fun r w' hframe hremoved => cleared_one hframe.2 hremoved hrec

theorem wp_recoverEntries_clears (entries : List (String × EntryKind))
    (hnodup : (entries.map Prod.fst).Nodup) (hI : I w) :
    Wp (captureMachine sourceID) Allowed I (recoverEntries sourceID entries)
      (fun failures w' => Cleared entries w (failures = []) w') w := by
  induction entries generalizing w with
  | nil => exact wp_pure hI ⟨fun _ _ => rfl, fun _ _ _ hmem => by cases hmem⟩
  | cons entry rest ih =>
    obtain ⟨name, kind⟩ := entry
    rw [List.map_cons, List.nodup_cons] at hnodup
    refine wp_bind ((wp_recoverEntry_clears hpres hI).post ?_)
    rintro (err | _) w₁ hI₁ hfirst
    · exact wp_bind ((ih hnodup.2 hI₁).post fun failures w₂ hI₂ hrest =>
        wp_pure hI₂ ((hfirst.cons hrest hnodup.1).mono (by simp)))
    · exact (ih hnodup.2 hI₁).post fun failures w₂ _ hrest =>
        (hfirst.cons hrest hnodup.1).mono fun hok => ⟨rfl, hok⟩

theorem wp_recover_clears (hI : I w) :
    Wp (captureMachine sourceID) Allowed I (recover sourceID)
      (fun r w' => r = .ok () → NoJournals w') w := by
  refine wp_recover hI (by simp)
    ((wp_recoverEntries_clears hpres _ (nodup_readDir w) hI).post ?_)
  intro failures w' _ hcleared hok
  refine hcleared.noJournals ?_
  rw [joinErrors] at hok
  split at hok
  · cases hok
  · simpa using ‹¬ failures.length > 0›

end

end Stacklab.Backup
