import Stacklab.BackupHelper.ReplaceRuns

/-! The life of a prepared token over any sequence of helper calls. -/
namespace Stacklab.BackupHelper

open Lib Prog.Issues Prog World

variable {α : Type} {w w₀ : World α}
  {token τ : String} {state : PreparedRestore} {spool : GoMap String Record} {file : StateFile}
  {c : Cmd} {o : Out α}

theorem savedPhase_eq_none (h : spool.lookup τ = none) : savedPhase spool τ = none := by
  simp [savedPhase, savedState, h]

theorem savedPhase_congr {spool' : GoMap String Record} (h : spool'.lookup τ = spool.lookup τ) :
    savedPhase spool' τ = savedPhase spool τ := by
  simp only [savedPhase, savedState, h]

theorem savedPhase_setState_ne (h : τ ≠ token) :
    savedPhase (setState spool token file) τ = savedPhase spool τ := by
  apply savedPhase_congr
  rw [setState]
  split
  · rw [GoMap.lookup_insert, if_neg h]
  · rfl

theorem savedPhase_setState_missing : savedPhase (setState spool token .missing) token = none := by
  rw [setState]
  split
  · simp [savedPhase, savedState]
  next hnone =>
    exact savedPhase_eq_none hnone

theorem savedPhase_setState_saved :
    savedPhase (setState spool token (.saved state)) token = none ∨
      savedPhase (setState spool token (.saved state)) token = some state.phase := by
  rw [setState]
  split
  · exact .inr (by simp [savedPhase, savedState])
  next hnone =>
    exact .inl (savedPhase_eq_none hnone)

/-- A record that is removed keeps its phase or has none. -/
theorem savedPhase_removeRecord (w : World α) (token : String) (o : Out α) (τ : String) :
    savedPhase (w.removeRecord token o).2.spool τ = savedPhase w.spool τ ∨
      savedPhase (w.removeRecord token o).2.spool τ = none := by
  rw [removeRecord.eq_def]
  split
  · by_cases h : τ = token
    · subst h
      exact .inr (savedPhase_eq_none (by rw [GoMap.lookup_erase, if_pos rfl]))
    · exact .inl (savedPhase_congr (by rw [GoMap.lookup_erase, if_neg h]))
  · split
    · by_cases h : τ = token
      · subst h
        exact .inr savedPhase_setState_missing
      · exact .inl (savedPhase_setState_ne h)
    · exact .inl rfl

theorem savedPhase_savePrepared_ne (h : τ ≠ token) :
    savedPhase (w.savePrepared token state o).2.spool τ = savedPhase w.spool τ := by
  rw [savePrepared.eq_def]
  split
  · exact savedPhase_setState_ne h
  · split
    · exact savedPhase_setState_ne h
    · rfl

/-- The commands that leave the spool alone. -/
theorem spool_exec (hremove : ∀ t, c ≠ .removeRecord t) (hsave : ∀ t s, c ≠ .savePrepared t s) :
    (helperMachine.exec c o w).2.spool = w.spool := by
  have hchange : ∀ (w : World α) target, (w.change o target).2.spool = w.spool := by
    intro w target
    rcases change_cases w o target with ⟨t, -, hc⟩ | ⟨err, hc⟩ <;> rw [hc]
  cases c with
  | removeRecord t => exact absurd rfl (hremove t)
  | savePrepared t s => exact absurd rfl (hsave t s)
  | mkdir t name =>
    change (w.mkdir t name o).2.spool = _
    rw [mkdir.eq_def]
    split
    · rfl
    · exact hchange _ _
  | moveAside rollback name => exact hchange _ _
  | moveBack rollback name => exact hchange _ _
  | extract t =>
    change (w.extract t o).2.spool = _
    rw [extract.eq_def]
    repeat' split
    all_goals rfl
  | restoreArchiveRootMetadata t =>
    change (w.restoreArchiveRootMetadata t o).2.spool = _
    rw [restoreArchiveRootMetadata.eq_def]
    split <;> rfl
  | removeAll name =>
    change (w.removeAll name o).2.spool = _
    rw [removeAll.eq_def]
    split <;> rfl
  | remove name =>
    change (w.remove name o).2.spool = _
    rw [remove.eq_def]
    repeat' split
    · exact hchange _ _
    · rfl
    · rfl
  | _ => rfl

/-- What a call has done about a token since the world `w₀` in which it began. -/
structure Once (w₀ w : World α) (τ : String) : Prop where
  stays : savedPhase w₀.spool τ ≠ some .prepared → savedPhase w.spool τ ≠ some .prepared
  wrote : w.log.count (.wrote τ) = w₀.log.count (.wrote τ) ∨
    savedPhase w₀.spool τ = some .prepared ∧ savedPhase w.spool τ ≠ some .prepared

/-- No record was deleted while its saved phase was that of an unfinished application. -/
def SafeLog (w : World α) : Prop :=
  ∀ t phase, .deleted t phase ∈ w.log → phase ≠ some .moving ∧ phase ≠ some .writing

theorem count_wrote_exec (hc : ¬ Adds w c (.wrote τ)) :
    (helperMachine.exec c o w).2.log.count (.wrote τ) = w.log.count (.wrote τ) := by
  obtain ⟨new, hlog, hnew⟩ := log_exec c o w
  have hzero : new.count (.wrote τ) = 0 := List.count_eq_zero.mpr fun hmem => hc (hnew _ hmem)
  rw [hlog, List.count_append, hzero, Nat.zero_add]

theorem once_exec (h : Once w₀ w τ) (hc : ¬ Adds w c (.wrote τ))
    (hphase : savedPhase (helperMachine.exec c o w).2.spool τ = savedPhase w.spool τ ∨
      savedPhase (helperMachine.exec c o w).2.spool τ ≠ some .prepared) :
    Once w₀ (helperMachine.exec c o w).2 τ := by
  have hne : savedPhase w.spool τ ≠ some .prepared →
      savedPhase (helperMachine.exec c o w).2.spool τ ≠ some .prepared := by
    intro hw
    rcases hphase with heq | hne
    · rwa [heq]
    · exact hne
  refine ⟨fun h₀ => hne (h.stays h₀), ?_⟩
  rw [count_wrote_exec hc]
  exact h.wrote.imp_right fun hw => ⟨hw.1, hne hw.2⟩

theorem safeLog_exec (h : SafeLog w) (hc : ∀ t, c ≠ .removeRecord t) :
    SafeLog (helperMachine.exec c o w).2 := by
  obtain ⟨new, hlog, hnew⟩ := log_exec c o w
  intro t phase hmem
  rw [hlog, List.mem_append] at hmem
  rcases hmem with hmem | hmem
  · have hadds := hnew _ hmem
    cases c with
    | removeRecord t' => exact absurd rfl (hc t')
    | savePrepared t' s => cases hadds
    | mkdir t' name => cases hadds
    | extract t' => rcases hadds with hadds | hadds <;> cases hadds
    | restoreArchiveRootMetadata t' => cases hadds
    | _ => exact hadds.elim
  · exact h t phase hmem

/-- What holds wherever a call that began in `w₀` is cut off. -/
structure Sound (w₀ w : World α) : Prop where
  once : ∀ τ, Once w₀ w τ
  deletions : SafeLog w

/-- The same after a call has saved that it applies a token. -/
structure Applied (w₀ : World α) (token : String) (w : World α) : Prop where
  before : savedPhase w₀.spool token = some .prepared
  now : savedPhase w.spool token ≠ some .prepared
  others : ∀ τ, τ ≠ token → Once w₀ w τ
  deletions : SafeLog w

theorem Applied.sound (h : Applied w₀ token w) : Sound w₀ w := by
  refine ⟨fun τ => ?_, h.deletions⟩
  by_cases he : τ = token
  · subst he
    exact ⟨fun hne => absurd h.before hne, .inr ⟨h.before, h.now⟩⟩
  · exact h.others τ he

/-- The commands that an application issues once it has saved its first record. -/
def Applying (token : String) : Cmd → Prop
  | .savePrepared t state => t = token ∧ state.phase ≠ .prepared
  | .mkdir t _ | .extract t => t = token
  | .removeRecord _ => False
  | _ => True

theorem savedPhase_savePrepared_self (hphase : state.phase ≠ .prepared)
    (hne : savedPhase w.spool token ≠ some .prepared ∨
      (w.savePrepared token state o).1 = none) :
    savedPhase (w.savePrepared token state o).2.spool token ≠ some .prepared := by
  have hsaved : savedPhase (setState w.spool token (.saved state)) token ≠ some .prepared := by
    rcases @savedPhase_setState_saved token state w.spool with h | h
    · simp [h]
    · simp [h, hphase]
  rw [savePrepared.eq_def] at hne ⊢
  split
  · exact hsaved
  next hf =>
    split
    · exact hsaved
    · exact hne.resolve_right (by simp [hf])

theorem applied_exec (c : Cmd) (o : Out α) (w : World α) (hc : Applying token c)
    (h : Applied w₀ token w) : Applied w₀ token (helperMachine.exec c o w).2 := by
  have hremove : ∀ t, c ≠ .removeRecord t := by
    rintro t rfl
    exact hc
  refine ⟨h.before, ?_, fun τ hτ => ?_, safeLog_exec h.deletions hremove⟩
  · by_cases hsave : ∃ t s, c = .savePrepared t s
    · obtain ⟨t, s, rfl⟩ := hsave
      obtain ⟨rfl, hphase⟩ : t = token ∧ s.phase ≠ .prepared := hc
      exact savedPhase_savePrepared_self hphase (.inl h.now)
    · rw [spool_exec hremove fun t s he => hsave ⟨t, s, he⟩]
      exact h.now
  · refine once_exec (h.others τ hτ) ?_ (.inl ?_)
    · intro hadds
      cases c with
      | removeRecord t => cases hadds
      | savePrepared t s => cases hadds
      | mkdir t name =>
        obtain rfl : t = token := hc
        exact hτ (Event.wrote.inj hadds)
      | extract t =>
        obtain rfl : t = token := hc
        rcases hadds with hadds | hadds
        · exact hτ (Event.wrote.inj hadds)
        · cases hadds
      | restoreArchiveRootMetadata t => cases hadds
      | _ => exact hadds.elim
    · by_cases hsave : ∃ t s, c = .savePrepared t s
      · obtain ⟨t, s, rfl⟩ := hsave
        obtain ⟨rfl, -⟩ : t = token ∧ s.phase ≠ .prepared := hc
        exact savedPhase_savePrepared_ne hτ
      · rw [spool_exec hremove fun t s he => hsave ⟨t, s, he⟩]

theorem issues_checkAll (checks : List Check) : (checkAll checks).Issues (Applying token) :=
  issues_forEach (fun _ => issues_issue trivial) checks

theorem issues_stashEntries : (stashEntries token state).Issues (Applying token) := by
  refine bind_option (issues_issue rfl) (fun _ => issues_pure _) ?_
  refine bind_option (issues_forEach (fun _ => issues_issue trivial) _) (fun _ => issues_pure _) ?_
  refine bind_option (issues_checkAll _) (fun _ => issues_pure _) ?_
  exact bind_option (issues_issue ⟨rfl, by simp⟩) (fun _ => issues_pure _) (issues_pure _)

theorem issues_removeAllBut (rollback : String) (names : List String) :
    (removeAllBut rollback names).Issues (Applying token) := by
  refine issues_forEach (fun name => ?_) names
  by_cases hne : name ≠ rollback
  · have hstep : removeExtracted rollback name = (Cmd.removeAll name).issue := if_pos hne
    rw [hstep]
    exact issues_issue trivial
  · have hstep : removeExtracted rollback name = pure none := if_neg hne
    rw [hstep]
    exact issues_pure _

theorem issues_restoreSavedRoot : (restoreSavedRoot token state).Issues (Applying token) := by
  by_cases hroot : state.rootMetadata = true
  · have hstep : restoreSavedRoot token state = (Cmd.check (.restoreRootMetadata token)).issue :=
      if_pos hroot
    rw [hstep]
    exact issues_issue trivial
  · have hstep : restoreSavedRoot token state = pure none := if_neg hroot
    rw [hstep]
    exact issues_pure _

theorem issues_rollbackPrepared : (rollbackPrepared token state).Issues (Applying token) := by
  refine bind_except (issues_issue trivial) (fun _ => issues_pure _) fun _ => ?_
  refine bind_option (issues_removeAllBut _ _) (fun _ => issues_pure _) ?_
  refine bind_except (issues_issue trivial) (fun _ => issues_pure _) fun _ => ?_
  refine bind_option (issues_forEach (fun _ => issues_issue trivial) _) (fun _ => issues_pure _) ?_
  exact bind_option (issues_issue trivial) (fun _ => issues_pure _) issues_restoreSavedRoot

theorem issues_restoreRoot : (restoreRoot token).Issues (Applying token) :=
  bind_option (issues_issue trivial) (fun _ => issues_pure _) (issues_issue trivial)

theorem issues_extractPrepared {replace : Bool} :
    (extractPrepared token state replace).Issues (Applying token) := by
  refine bind_option (issues_issue rfl) (fun err => ?_) ?_
  · dsimp only
    split
    · exact bind_option issues_rollbackPrepared (fun _ => issues_pure _)
        (bind (issues_issue ⟨rfl, by simp⟩) fun _ => issues_pure _)
    · exact issues_pure _
  · refine bind_option ?_ (fun _ => issues_pure _) ?_
    · cases replace with
      | true => exact issues_restoreRoot
      | false => exact issues_pure _
    · exact bind_option (issues_cleanUp (fun _ => trivial) fun _ => trivial)
        (fun _ => issues_pure _) (bind (issues_issue ⟨rfl, by simp⟩) fun _ => issues_pure _)

end Stacklab.BackupHelper
