import Stacklab.Backup.HeldRestore
import Stacklab.Backup.RecoverClears

/-! From the first apply on, a restore that is not complete keeps its services held. -/
namespace Stacklab.Backup

open Lib Prog

section

variable (sourceID : String → String) (manifest : List ManifestSource) (runID : String)

/-- Every cut of the program leaves the hold kept. -/
abbrev Keeps {α : Type} (asked : Prop) (p : CaptureProg α) (Q : α → World → Prop)
    (w : World) : Prop :=
  Wp (captureMachine sourceID) (fun _ _ _ => True)
    (HoldKept sourceID manifest runID asked) p Q w

/-- The previewed restore has not been held yet. -/
structure Prepared (mappings : List RestoreMapping) (w : World) : Prop
    extends Before manifest runID w where
  alone : Alone sourceID runID w
  previewed : .previewed runID mappings ∈ w.log

/-- The restore is held, and at least so many applies and checks have succeeded. -/
structure Writing (mappings : List RestoreMapping) (applied checked : ℕ) (w : World) : Prop
    extends During sourceID manifest runID w where
  previewed : .previewed runID mappings ∈ w.log
  applied : applied ≤ okApplies runID w.log
  checked : checked ≤ okDefinitions runID w.log

end

variable {sourceID : String → String} {manifest : List ManifestSource} {runID name run : String}
  {asked : Prop} {w : World} {α : Type} {p : CaptureProg α} {mappings : List RestoreMapping}
  {journal : StopJournal} {applied checked : ℕ} {tokens : GoMap String String} {o : Out}
  {call : RecoveryCall}

theorem noApply_of_touches {c : Cmd} (h : Touches run c) : NoApply c := by
  cases c with
  | applyRestore run token => exact h
  | _ => trivial

/-- What a recovery issues leaves a restore unapplied. -/
theorem before_touches (run : String) (c : Cmd) (o : Out) (w : World) (hc : Touches run c)
    (h : Before manifest runID w) :
    Before manifest runID ((captureMachine sourceID).exec c o w).2 :=
  before_exec c o w (noApply_of_touches hc) h

theorem keeps_unapplied {Q : α → World → Prop}
    (h : Wp (captureMachine sourceID) (fun _ _ _ => True) (Before manifest runID) p Q w) :
    Keeps sourceID manifest runID asked p (fun a w' => Before manifest runID w' ∧ Q a w') w :=
  h.mono (fun _ => .inl) fun _ _ hbefore hQ => ⟨hbefore, hQ⟩

theorem keeps_before (hp : p.Issues NoApply) (h : Before manifest runID w) :
    Keeps sourceID manifest runID asked p (fun _ _ => True) w :=
  (keeps_unapplied (hp.wp before_exec h)).post fun _ _ _ _ => trivial

theorem keeps_resume (h : Before manifest runID w) :
    Keeps sourceID manifest runID asked (resume journal)
      (fun _ w' => Before manifest runID w') w :=
  (keeps_unapplied (wp_resume_run (before_touches _) rfl h)).post fun _ _ _ h' => h'.1

theorem keeps_after (p : CaptureProg α) (h : After manifest runID asked w) :
    Keeps sourceID manifest runID asked p (fun _ _ => True) w :=
  (wp_preserved p (fun c o w _ => after_exec c o w) h).mono
    (fun _ h' => .inr (.inr h')) fun _ _ _ _ => trivial

theorem mem_log_exec {e : Event} (c : Cmd) (o : Out) (h : e ∈ w.log) :
    e ∈ ((captureMachine sourceID).exec c o w).2.log := by
  rcases @capture_log_exec sourceID c o w with hlog | ⟨e', hlog, -⟩
  · rwa [hlog]
  · rw [hlog]
    exact List.mem_cons_of_mem _ h

/-! Up to the hold. -/

theorem prepared_exec (c : Cmd) (o : Out) (w : World) (hc : Touches runID c)
    (h : Prepared sourceID manifest runID mappings w) :
    Prepared sourceID manifest runID mappings ((captureMachine sourceID).exec c o w).2 := by
  refine ⟨before_touches runID c o w hc h.toBefore, ?_, mem_log_exec c o h.previewed⟩
  intro name entry hentry hrec
  by_contra hne
  rw [frame_exec c o w hc hne] at hentry
  exact hne (h.alone name entry hentry hrec)

theorem keeps_prepared (hp : p.Issues (Touches runID))
    (h : Prepared sourceID manifest runID mappings w) :
    Keeps sourceID manifest runID asked p
      (fun _ w' => Prepared sourceID manifest runID mappings w') w :=
  (hp.wp prepared_exec h).mono (fun _ h' => .inl h'.toBefore) fun _ _ h' _ => h'

theorem preparing_prepareTokens (todo : List RestoreMapping) :
    (prepareTokens todo tokens).Issues (Touches runID) := by
  induction todo generalizing tokens with
  | nil => exact issues_pure _
  | cons mapping rest ih =>
    refine Issues.bind_except (issues_issue trivial) (fun _ => issues_pure _) fun _ => ?_
    exact Issues.bind_except (issues_issue trivial) (fun _ => issues_pure _) fun _ => ih

theorem preparing_stopWriter (run : String) (writer : Writer) :
    (stopWriter run writer).Issues (Touches runID) := by
  refine (issues_issue trivial).bind ?_
  rintro (_ | err)
  · dsimp only
    split
    · exact issues_pure _
    · exact issues_issue trivial
  · exact issues_pure _

theorem preparing_save (intent : Option String) (hrun : journal.runID = runID) :
    (Cmd.saveStopJournal journal intent).issue.Issues (Touches runID) :=
  issues_issue hrun

theorem preparing_checkTokens :
    (checkTokens mappings tokens).Issues (Touches runID) :=
  issues_issue trivial

theorem keeps_stopJournalWriter (writer : Writer) (hrun : journal.runID = runID)
    (h : Prepared sourceID manifest runID mappings w) :
    Keeps sourceID manifest runID asked (stopJournalWriter journal writer)
      (fun r w' => Prepared sourceID manifest runID mappings w' ∧ r.2.runID = runID) w := by
  refine wp_bind ((keeps_prepared (preparing_save _ (by exact hrun)) h).post ?_)
  rintro (err | _) w₁ hI₁ h₁
  · exact wp_pure hI₁ ⟨h₁, hrun⟩
  · refine wp_bind ((keeps_prepared (preparing_stopWriter _ writer) h₁).post ?_)
    rintro (err | _) w₂ hI₂ h₂
    · exact wp_pure hI₂ ⟨h₂, hrun⟩
    · refine wp_bind ((keeps_prepared (preparing_save _ (by exact hrun)) h₂).post ?_)
      exact fun _ _ hI₃ h₃ => wp_pure hI₃ ⟨h₃, hrun⟩

theorem keeps_stopRestoreWriters (writers : List Writer) (hrun : journal.runID = runID)
    (h : Prepared sourceID manifest runID mappings w) :
    Keeps sourceID manifest runID asked (stopRestoreWriters journal writers)
      (fun r w' => Prepared sourceID manifest runID mappings w' ∧ r.2.runID = runID) w := by
  induction writers generalizing journal w with
  | nil => exact wp_pure (.inl h.toBefore) ⟨h, hrun⟩
  | cons writer rest ih =>
    refine wp_bind ((keeps_stopJournalWriter writer hrun h).post ?_)
    rintro ⟨err | _, journal'⟩ w₁ hI₁ ⟨h₁, hrun₁⟩
    · exact wp_pure hI₁ ⟨h₁, hrun₁⟩
    · exact ih hrun₁ h₁

/-- Once it is written, the journal with the hold is the only one. -/
theorem during_save (h : Prepared sourceID manifest runID mappings w) (hrun : journal.runID = runID)
    (hhold : journal.holdStopped = true) (hok : (w.save sourceID o journal none).1 = .ok ()) :
    Writing sourceID manifest runID mappings 0 0 (w.save sourceID o journal none).2 := by
  subst hrun
  have hprep := prepared_exec (.saveStopJournal journal none) o w rfl h
  rcases save_cases w o journal none with ⟨hdisk, -⟩ | ⟨-, -, hne⟩
  · refine ⟨⟨hprep.silent, ⟨journal, ?_, rfl, hhold⟩, hprep.alone, fun hack => ?_⟩,
      hprep.previewed, Nat.zero_le _, Nat.zero_le _⟩
    · rw [hdisk, GoMap.lookup_insert, if_pos rfl]
    · exact hprep.unapplied (applyIssued_of_acknowledged hack)
  · exact absurd hok hne

/-! While it is held. -/

theorem writing_exec (c : Cmd) (o : Out) (w : World) (hc : Holding c)
    (h : Writing sourceID manifest runID mappings applied checked w) :
    Writing sourceID manifest runID mappings applied checked
      ((captureMachine sourceID).exec c o w).2 := by
  refine ⟨during_exec c o w hc h.toDuring, mem_log_exec c o h.previewed, ?_, ?_⟩
  all_goals rcases @capture_log_exec sourceID c o w with hlog | ⟨e, hlog, -⟩ <;> rw [hlog]
  · exact h.applied
  · exact h.applied.trans okApplies_cons
  · exact h.checked
  · exact h.checked.trans okDefinitions_cons

theorem Writing.holdKept (h : Writing sourceID manifest runID mappings applied checked w) :
    HoldKept sourceID manifest runID asked w :=
  Or.inr (.inl h.toDuring)

theorem keeps_applyMappings (todo : List RestoreMapping)
    (h : Writing sourceID manifest runID mappings applied checked w) :
    Keeps sourceID manifest runID asked (applyMappings runID tokens todo)
      (fun r w' => Writing sourceID manifest runID mappings applied checked w' ∧
        (r = .ok () →
          Writing sourceID manifest runID mappings (applied + todo.length) checked w')) w := by
  induction todo generalizing applied w with
  | nil => exact wp_pure h.holdKept ⟨h, fun _ => h⟩
  | cons mapping rest ih =>
    refine wp_issue_bind (fun (r : Except String Unit) w' =>
      Writing sourceID manifest runID mappings applied checked w' ∧
        (r = .ok () → Writing sourceID manifest runID mappings (applied + 1) checked w'))
      h.holdKept ?_ ?_
    · intro o _
      have hnext := writing_exec (.applyRestore runID (tokenOf tokens mapping)) o w trivial h
      refine ⟨hnext, fun hok => ⟨hnext.toDuring, hnext.previewed, ?_, hnext.checked⟩⟩
      have hnone : o.failure = none := failure_of_ok hok
      change _ ≤ okApplies runID (.applyIssued runID _ o.failure.isNone :: w.log)
      rw [hnone, okApplies, List.countP_cons_of_pos (by simp)]
      exact Nat.succ_le_succ h.applied
    · rintro (err | _) w₁ ⟨h₁, hone⟩
      · exact wp_pure h₁.holdKept ⟨h₁, by simp⟩
      · refine (ih (hone rfl)).post fun r w₂ _ hr => ⟨?_, fun hok => ?_⟩
        · exact { hr.1 with applied := (Nat.le_succ _).trans hr.1.applied }
        · rw [List.length_cons, Nat.add_comm rest.length, ← Nat.add_assoc]
          exact hr.2 hok

theorem keeps_checkDefinitions (todo : List RestoreMapping)
    (h : Writing sourceID manifest runID mappings applied checked w) :
    Keeps sourceID manifest runID asked (checkDefinitions runID manifest todo)
      (fun r w' => During sourceID manifest runID w' ∧
        (r = .ok () → Writing sourceID manifest runID mappings applied
          (checked + (todo.filter (isDefinition manifest)).length) w')) w := by
  induction todo generalizing checked w with
  | nil => exact wp_pure h.holdKept ⟨h.toDuring, fun _ => h⟩
  | cons mapping rest ih =>
    rw [checkDefinitions]
    split
    next hdef =>
      refine wp_issue_bind (fun (r : Except String Unit) w' =>
        During sourceID manifest runID w' ∧
          (r = .ok () → Writing sourceID manifest runID mappings applied (checked + 1) w'))
        h.holdKept ?_ ?_
      · intro o _
        have hnext := writing_exec (.composeConfig runID mapping.target) o w trivial h
        refine ⟨hnext.toDuring, fun hok =>
          ⟨hnext.toDuring, hnext.previewed, hnext.applied, ?_⟩⟩
        have hnone : o.failure = none := failure_of_ok hok
        change _ ≤ okDefinitions runID (.composeChecked runID o.failure.isNone :: w.log)
        rw [hnone, okDefinitions, List.countP_cons_of_pos (by simp)]
        exact Nat.succ_le_succ h.checked
      · rintro (err | _) w₁ ⟨h₁, hone⟩
        · exact wp_pure (.inr (.inl h₁)) ⟨h₁, by simp⟩
        · refine (ih (hone rfl)).post fun r w₂ _ hr => ⟨hr.1, fun hok => ?_⟩
          rw [List.filter_cons_of_pos hdef, List.length_cons, Nat.add_comm (List.length _),
            ← Nat.add_assoc]
          exact hr.2 hok
    next hdef =>
      rw [List.filter_cons_of_neg hdef]
      exact ih h

theorem Writing.after (h : Writing sourceID manifest runID mappings mappings.length
    (mappings.filter (isDefinition manifest)).length w) : After manifest runID asked w :=
  ⟨h.silent, .inl ⟨mappings, h.previewed, h.applied, h.checked⟩⟩

variable (sourceID manifest runID asked) in
/-- How the section ends: nothing written, everything applied and valid, or held. -/
def Ends (ended : Section) (w : World) : Prop :=
  ended.writesStarted = false ∧ Before manifest runID w ∨
    ended.err = .ok () ∧ After manifest runID asked w ∨
    ended.writesStarted = true ∧ (∃ err, ended.err = .error err) ∧
      During sourceID manifest runID w

theorem keeps_writeMappings (hrun : journal.runID = runID)
    (h : Writing sourceID manifest runID mappings 0 0 w) :
    Keeps sourceID manifest runID asked (writeMappings manifest mappings journal)
      (Ends sourceID manifest runID asked) w := by
  subst hrun
  refine wp_bind ((keeps_applyMappings mappings h).post ?_)
  rintro (err | _) w₁ hI₁ ⟨h₁, hall⟩
  · exact wp_pure hI₁ (.inr (.inr ⟨rfl, ⟨err, rfl⟩, h₁.toDuring⟩))
  · refine wp_bind ((keeps_checkDefinitions mappings (hall rfl)).post ?_)
    rintro (err | _) w₂ hI₂ ⟨h₂, hvalid⟩
    · exact wp_pure hI₂ (.inr (.inr ⟨rfl, ⟨err, rfl⟩, h₂⟩))
    · have hdone := hvalid rfl
      rw [Nat.zero_add, Nat.zero_add] at hdone
      exact wp_pure hI₂ (.inr (.inl ⟨rfl, hdone.after⟩))

theorem keeps_restoreStopped (hrun : journal.runID = runID)
    (h : Prepared sourceID manifest runID mappings w) :
    Keeps sourceID manifest runID asked (restoreStopped manifest mappings journal)
      (Ends sourceID manifest runID asked) w := by
  refine wp_bind ((keeps_stopRestoreWriters journal.writers hrun h).post ?_)
  rintro ⟨err | _, stopped⟩ w₁ hI₁ ⟨h₁, hrun₁⟩
  · exact wp_pure hI₁ (.inl ⟨rfl, h₁.toBefore⟩)
  · refine wp_bind ((keeps_prepared preparing_checkTokens h₁).post ?_)
    rintro (err | _) w₂ hI₂ h₂
    · exact wp_pure hI₂ (.inl ⟨rfl, h₂.toBefore⟩)
    · refine wp_issue_bind (fun (saved : Except String Unit) w' =>
        Prepared sourceID manifest runID mappings w' ∧
          (saved = .ok () → Writing sourceID manifest runID mappings 0 0 w')) hI₂ ?_ ?_
      · intro o _
        exact ⟨prepared_exec (.saveStopJournal _ none) o w₂ hrun₁ h₂,
          during_save h₂ hrun₁ rfl⟩
      · rintro (err | _) w₃ ⟨h₃, hheld⟩
        · exact wp_pure (.inl h₃.toBefore) (.inl ⟨rfl, h₃.toBefore⟩)
        · exact keeps_writeMappings hrun₁ (hheld rfl)

section Restore

variable {ro : RangeOrder String} {resumeServices : Bool} {ended : Section}

theorem noApply_releaseTokens (tokens : List String) :
    (releaseTokens runID tokens).Issues NoApply := by
  induction tokens with
  | nil => exact issues_pure _
  | cons token rest ih =>
    refine (issues_issue trivial).bind ?_
    rintro (err | _)
    · exact ih.bind fun _ => issues_pure _
    · exact ih

theorem keeps_releaseAll {err : Except String Unit} (h : Before manifest runID w) :
    Keeps sourceID manifest runID asked (releaseAll ro runID tokens err) (fun _ _ => True) w :=
  keeps_before ((noApply_releaseTokens _).bind fun _ => issues_pure _) h

/-- After a failed write the call ends without another command. -/
theorem keeps_endRestore (h : Ends sourceID manifest runID asked ended w) :
    Keeps sourceID manifest runID asked (endRestore ro runID tokens resumeServices ended)
      (fun _ _ => True) w := by
  rcases h with ⟨hstarted, h⟩ | ⟨-, h⟩ | ⟨hstarted, ⟨err, herr⟩, h⟩
  · rw [endRestore, if_pos (by simp [hstarted])]
    exact wp_bind ((keeps_resume h).post fun _ _ _ h' => keeps_releaseAll h')
  · exact keeps_after _ h
  · rw [endRestore, if_neg (by simp [hstarted, herr, Except.isOk, Except.toBool]), herr]
    exact wp_pure (.inr (.inl h)) trivial

theorem keeps_restorePreview {preview : RestorePreview}
    (h : Prepared sourceID manifest runID preview.mappings w) :
    Keeps sourceID manifest runID asked (restorePreview ro manifest runID resumeServices preview)
      (fun _ _ => True) w := by
  refine wp_bind ((keeps_prepared (preparing_prepareTokens _) h).post ?_)
  rintro ⟨err | _, tokens⟩ w₁ - h₁
  · exact keeps_releaseAll h₁.toBefore
  · refine wp_bind ((keeps_prepared preparing_checkTokens h₁).post ?_)
    rintro (err | _) w₂ - h₂
    · exact keeps_releaseAll h₂.toBefore
    · refine wp_bind ((keeps_prepared (preparing_save _ (by rfl)) h₂).post ?_)
      rintro (err | _) w₃ - h₃
      · exact keeps_releaseAll h₃.toBefore
      · refine wp_bind ((keeps_restoreStopped (by rfl) h₃).post ?_)
        exact fun ended w₄ _ hends => keeps_endRestore hends

theorem keeps_applyRestore (h : Before manifest runID w) :
    Keeps sourceID manifest runID asked
      (applyRestore sourceID ro manifest mappings runID resumeServices) (fun _ _ => True) w := by
  refine wp_bind ((keeps_unapplied (wp_recover_clears before_touches h)).post ?_)
  rintro (err | _) w₁ hI₁ ⟨h₁, hcleared⟩
  · exact wp_pure hI₁ trivial
  · refine wp_issue_bind (fun (r : Except String RestorePreview) w' =>
      Before manifest runID w' ∧ ∀ preview, r = .ok preview →
        Prepared sourceID manifest runID preview.mappings w') hI₁ ?_ ?_
    · intro o _
      have hbefore := @before_exec sourceID manifest runID (.previewRestore runID mappings) o w₁
        trivial h₁
      refine ⟨hbefore, fun preview hok => ⟨hbefore, ?_, ?_⟩⟩
      · intro name entry hentry hrec
        exact absurd hrec (hcleared rfl name entry hentry)
      · obtain rfl : o.restore = preview := answer_ok hok
        exact List.mem_cons_self
    · rintro (err | preview) w₂ ⟨h₂, hprep⟩
      · exact wp_pure (.inl h₂) trivial
      · exact keeps_restorePreview (hprep preview rfl)

end Restore

/-! The calls after it. -/

theorem held_of_entry {entry : DirEntry} (h : During sourceID manifest runID w)
    (hentry : w.disk.lookup name = some entry) (hsuffix : hasSuffix name ".json" = true)
    (hcontent : entry.content = some journal) :
    name = journalFile sourceID runID ∧ journal.runID = runID ∧ journal.holdStopped = true := by
  have hkind : entry.kind ≠ .directory := by
    rintro hdir
    cases entry <;> simp [DirEntry.kind, DirEntry.content] at hdir hcontent
  obtain rfl := h.alone name entry hentry ⟨hkind, hsuffix⟩
  obtain ⟨held, hheld, hrun, hhold⟩ := h.held
  obtain rfl : entry = .file (some held) := Option.some.inj (hentry.symm.trans hheld)
  obtain rfl : held = journal := Option.some.inj hcontent
  exact ⟨rfl, hrun, hhold⟩

/-- Recovery finds the held journal at most, and leaves it. -/
theorem keeps_recoverEntry_during {kind : EntryKind} (h : During sourceID manifest runID w) :
    Keeps sourceID manifest runID asked (recoverEntry sourceID name kind)
      (fun _ w' => During sourceID manifest runID w') w := by
  refine wp_recoverEntry (.inr (.inl h)) (fun _ => h) (fun _ => h) ?_
  intro journal entry hrec _ hentry hcontent _ hhold
  have hheld := (held_of_entry h hentry hrec.2 hcontent).2.2
  rw [hhold] at hheld
  cases hheld

theorem keeps_recoverEntries_during (entries : List (String × EntryKind))
    (h : During sourceID manifest runID w) :
    Keeps sourceID manifest runID asked (recoverEntries sourceID entries)
      (fun _ w' => During sourceID manifest runID w') w := by
  induction entries generalizing w with
  | nil => exact wp_pure (.inr (.inl h)) h
  | cons entry rest ih =>
    refine wp_bind ((keeps_recoverEntry_during h).post ?_)
    rintro (err | _) w₁ - h₁
    · exact wp_bind ((ih h₁).post fun _ _ hI₂ h₂ => wp_pure hI₂ h₂)
    · exact ih h₁

theorem keeps_recover_during (h : During sourceID manifest runID w) :
    Keeps sourceID manifest runID asked (recover sourceID) (fun _ _ => True) w :=
  wp_recover (.inr (.inl h)) (fun _ => trivial)
    ((keeps_recoverEntries_during _ h).post fun _ _ _ _ => trivial)

/-- Removing the held journal ends the restore, unless nothing was applied yet. -/
theorem holdKept_remove (hasked : asked) (h : During sourceID manifest runID w) :
    HoldKept sourceID manifest runID asked (w.remove sourceID o runID true).2 := by
  have hlog := (@remove_cases sourceID w o runID true).1
  have hsilent : Silent manifest runID (w.remove sourceID o runID true).2.log := by
    rw [hlog]
    exact ⟨fun _ => trivial, h.silent⟩
  by_cases happlied : ApplyIssued runID w.log
  · refine .inr (.inr ⟨hsilent, .inr ⟨?_, hasked⟩⟩)
    rw [hlog]
    exact .inl ⟨rfl, happlied⟩
  · refine .inl ⟨hsilent, ?_⟩
    rw [hlog]
    exact not_applyIssued_cons (c := .removeJournal runID true) trivial rfl happlied

theorem keeps_acknowledgeRecovery_during (hrun : journal.runID = runID) (hasked : asked)
    (h : During sourceID manifest runID w) :
    Keeps sourceID manifest runID asked (acknowledgeRecovery journal) (fun _ _ => True) w := by
  have hI : HoldKept sourceID manifest runID asked w := Or.inr (.inl h)
  refine wp_look_bind hI (fun o => rfl) ?_
  rintro (err | _)
  · exact wp_pure hI trivial
  · subst hrun
    exact wp_issue hI fun o _ => ⟨holdKept_remove hasked h, trivial⟩

inductive RecoveryCall
  | recover
  | resolveRecoveryWithInput (runID : String) (input : RecoveryResolution)

variable (sourceID) in
def RecoveryCall.prog : RecoveryCall → CaptureProg Unit
  | .recover => do
    let _ ← Backup.recover sourceID
    pure ()
  | .resolveRecoveryWithInput runID input => do
    let _ ← Backup.resolveRecoveryWithInput sourceID runID input
    pure ()

variable (sourceID runID) in
/-- The operator asks to acknowledge the hold of the run. -/
def RecoveryCall.Acknowledges : RecoveryCall → Prop
  | .recover => False
  | .resolveRecoveryWithInput run input =>
    journalFile sourceID run = journalFile sourceID runID ∧ input.action = .acknowledgeHold

theorem keeps_recoveryCall_before (call : RecoveryCall) (h : Before manifest runID w) :
    Keeps sourceID manifest runID asked (call.prog sourceID) (fun _ _ => True) w := by
  cases call with
  | recover =>
    exact wp_bind ((keeps_unapplied (wp_recover_clears before_touches h)).post
      fun _ _ hI _ => wp_pure hI trivial)
  | resolveRecoveryWithInput run input =>
    refine wp_bind (wp_bind ((wp_validateRecoveryResolution (.inl h)).post ?_))
    rintro (err | journal) _ hI ⟨rfl, -⟩
    · exact wp_pure hI (wp_pure hI trivial)
    · dsimp only
      split
      · exact wp_bind ((keeps_resume h).post fun _ _ hI₁ _ => wp_pure hI₁ (wp_pure hI₁ trivial))
      · refine wp_bind ((keeps_before (p := acknowledgeRecovery journal) ?_ h).post
          fun _ _ hI₁ _ => wp_pure hI₁ (wp_pure hI₁ trivial))
        refine (issues_issue trivial).bind ?_
        rintro (err | _)
        · exact issues_pure _
        · exact issues_issue trivial

theorem keeps_recoveryCall_during (hasked : call.Acknowledges sourceID runID → asked)
    (h : During sourceID manifest runID w) :
    Keeps sourceID manifest runID asked (call.prog sourceID) (fun _ _ => True) w := by
  cases call with
  | recover =>
    exact wp_bind ((keeps_recover_during h).post fun _ _ hI _ => wp_pure hI trivial)
  | resolveRecoveryWithInput run input =>
    refine wp_bind (wp_bind ((wp_validateRecoveryResolution (.inr (.inl h))).post ?_))
    rintro (err | journal) _ hI ⟨rfl, hvalid⟩
    · exact wp_pure hI (wp_pure hI trivial)
    · obtain ⟨hstored, haction⟩ := hvalid journal rfl
      obtain ⟨hfile, hrun, hhold⟩ :=
        held_of_entry h hstored.file (hasSuffix_journalFile run) rfl
      have hasks : input.action = .acknowledgeHold := haction.mp hhold
      dsimp only
      rw [if_neg (by simp [hasks])]
      refine wp_bind
        ((keeps_acknowledgeRecovery_during hrun (hasked ⟨hfile, hasks⟩) h).post ?_)
      exact fun _ _ hI₁ _ => wp_pure hI₁ (wp_pure hI₁ trivial)

/-- A call, cut off anywhere, keeps the hold until an operator asks for its end. -/
theorem holdKept_recoveryCall {outs : List Out} (h : HoldKept sourceID manifest runID asked w) :
    HoldKept sourceID manifest runID (asked ∨ call.Acknowledges sourceID runID)
      ((call.prog sourceID).run (captureMachine sourceID) outs w).2 := by
  have hkeeps : Keeps sourceID manifest runID (asked ∨ call.Acknowledges sourceID runID)
      (call.prog sourceID) (fun _ _ => True) w := by
    rcases h with h | h | h
    · exact keeps_recoveryCall_before call h
    · exact keeps_recoveryCall_during Or.inr h
    · exact keeps_after _ ⟨h.silent, h.ended.imp_right fun hack => ⟨hack.1, .inl hack.2⟩⟩
  exact (hkeeps.run meets_true).1

variable (sourceID) in
/-- The calls one after the other, each run for as many commands as it has outcomes. -/
def afterCalls : List (RecoveryCall × List Out) → World → World
  | [], w => w
  | (call, outs) :: rest, w =>
    afterCalls rest ((call.prog sourceID).run (captureMachine sourceID) outs w).2

theorem holdKept_afterCalls (later : List (RecoveryCall × List Out))
    (h : HoldKept sourceID manifest runID asked w) :
    HoldKept sourceID manifest runID
      (asked ∨ ∃ call ∈ later, call.1.Acknowledges sourceID runID)
      (afterCalls sourceID later w) := by
  induction later generalizing asked w with
  | nil => simpa [afterCalls] using h
  | cons call rest ih =>
    have hrest := ih (@holdKept_recoveryCall sourceID manifest runID asked w call.1 call.2 h)
    simpa [afterCalls, or_assoc] using hrest

variable (sourceID) in
/-- `ApplyRestore` on a journal directory, cut off anywhere, and then other calls. -/
def restored (ro : RangeOrder String) (manifest : List ManifestSource)
    (mappings : List RestoreMapping) (runID : String) (resumeServices : Bool)
    (disk : GoMap String DirEntry) (outs : List Out) (later : List (RecoveryCall × List Out)) :
    World :=
  afterCalls sourceID later
    ((applyRestore sourceID ro manifest mappings runID resumeServices).run
      (captureMachine sourceID) outs ⟨disk, []⟩).2

/-- Whatever fails and wherever the restore and the calls after it are cut off, a half-applied
restore is held on disk, nothing was started or released while it was half applied, and only
an operator who asked for it has ended the hold of an incomplete one. -/
theorem half_applied_restore_is_held (sourceID : String → String) (ro : RangeOrder String)
    (manifest : List ManifestSource) (mappings : List RestoreMapping) (runID : String)
    (resumeServices : Bool) (disk : GoMap String DirEntry) (outs : List Out)
    (later : List (RecoveryCall × List Out)) :
    let w := restored sourceID ro manifest mappings runID resumeServices disk outs later
    (HalfApplied manifest runID w.log →
      OnDisk sourceID w runID fun journal => journal.holdStopped = true) ∧
    Silent manifest runID w.log ∧
    (HoldAcknowledged runID w.log → AllSucceeded manifest runID w.log ∨
      ∃ call ∈ later, call.1.Acknowledges sourceID runID) := by
  have hstart : Before manifest runID ⟨disk, []⟩ := ⟨trivial, by rintro ⟨_, _, ⟨⟩⟩⟩
  have hkeeps := @keeps_applyRestore sourceID manifest runID False _ mappings ro resumeServices
    hstart
  have hkept := holdKept_afterCalls later (hkeeps.run (@meets_true _ _ _ _ _ _ _ _ outs)).1
  rw [false_or] at hkept
  intro w
  rcases hkept with h | h | h
  · exact ⟨fun hhalf => absurd hhalf.1 h.unapplied, h.silent,
      fun hack => absurd (applyIssued_of_acknowledged hack) h.unapplied⟩
  · exact ⟨fun _ => h.held, h.silent, fun hack => absurd hack h.unacknowledged⟩
  · refine ⟨fun hhalf => ?_, h.silent, fun _ => h.ended.imp_right And.right⟩
    exact h.ended.elim (fun hall => absurd hall hhalf.2.1) fun hack => absurd hack.1 hhalf.2.2

namespace OneMapping

def volume : RestoreMapping := ⟨"data", "/srv/data", "replace"⟩

def fine : Out := ⟨none, false, [], ⟨[volume], []⟩, "token", []⟩

/-- Nine commands, of which the last, the only apply, fails. -/
def failedApply : World :=
  restored id .stored [] [volume] "run" true ∅
    (List.replicate 8 fine ++ [{ fine with failure := some "no space left on device" }]) []

end OneMapping

-- A failed apply is a half-applied restore.
example : HalfApplied [] "run" OneMapping.failedApply.log := by
  have hlog : OneMapping.failedApply.log = [.applyIssued "run" "token" false,
      .saved "run" none true, .saved "run" none true,
      .previewed "run" [OneMapping.volume]] := by decide +kernel
  rw [hlog]
  refine ⟨⟨"token", false, List.mem_cons_self⟩, ?_, by simp [HoldAcknowledged]⟩
  rintro ⟨mappings, hmem, happlied, -⟩
  obtain rfl : mappings = [OneMapping.volume] := by simpa using hmem
  exact absurd happlied (by decide)

end Stacklab.Backup
