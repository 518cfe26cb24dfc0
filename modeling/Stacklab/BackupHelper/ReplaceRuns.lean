import Stacklab.BackupHelper.Replace

/-! Runs of a whole replacement. -/
namespace Stacklab.BackupHelper

open Lib Prog World

variable {α : Type} {Allowed : Cmd → Out α → World α → Prop} {w : World α} {found : Found α}
  {token : String} {state : PreparedRestore}

/-- The events that a command can add to the log. -/
def Adds (w : World α) : Cmd → Event → Prop
  | .removeRecord token, e => e = .deleted token (savedPhase w.spool token)
  | .savePrepared token state, e => e = .saving token state.phase
  | .mkdir token _, e => e = .wrote token
  | .extract token, e => e = .wrote token ∨ e = .extracted token
  | .restoreArchiveRootMetadata token, e => e = .rootRestored token
  | _, _ => False

theorem log_change {o : Out α} {target : Option (Target α)} :
    (w.change o target).2.log = w.log := by
  rcases change_cases w o target with ⟨t, -, hc⟩ | ⟨err, hc⟩ <;> rw [hc]

theorem log_exec (c : Cmd) (o : Out α) (w : World α) :
    ∃ new, (helperMachine.exec c o w).2.log = new ++ w.log ∧ ∀ e ∈ new, Adds w c e := by
  have hnone : ∃ new, w.log = new ++ w.log ∧ ∀ e ∈ new, Adds w c e := ⟨[], rfl, by simp⟩
  cases c with
  | removeRecord token =>
    refine ⟨[.deleted token (savedPhase w.spool token)], ?_, by simp [Adds]⟩
    change (w.removeRecord token o).2.log = _
    rw [removeRecord.eq_def]
    repeat' split
    all_goals rfl
  | savePrepared token state =>
    refine ⟨[.saving token state.phase], ?_, by simp [Adds]⟩
    change (w.savePrepared token state o).2.log = _
    rw [savePrepared.eq_def]
    repeat' split
    all_goals rfl
  | mkdir token name =>
    change ∃ new, (w.mkdir token name o).2.log = _ ∧ _
    rw [mkdir.eq_def]
    split
    · exact hnone
    · exact ⟨[.wrote token], log_change, by simp [Adds]⟩
  | moveAside rollback name => exact ⟨[], log_change, by simp⟩
  | moveBack rollback name => exact ⟨[], log_change, by simp⟩
  | extract token =>
    change ∃ new, (w.extract token o).2.log = _ ∧ _
    rw [extract.eq_def]
    repeat' split
    · exact hnone
    · exact ⟨[.extracted token, .wrote token], rfl, by simp [Adds]⟩
    · exact ⟨[.wrote token], rfl, by simp [Adds]⟩
  | restoreArchiveRootMetadata token =>
    change ∃ new, (w.restoreArchiveRootMetadata token o).2.log = _ ∧ _
    rw [restoreArchiveRootMetadata.eq_def]
    split
    · exact ⟨[.rootRestored token], rfl, by simp [Adds]⟩
    · exact hnone
  | removeAll name =>
    change ∃ new, (w.removeAll name o).2.log = _ ∧ _
    rw [removeAll.eq_def]
    split <;> exact ⟨[], rfl, by simp⟩
  | remove name =>
    change ∃ new, (w.remove name o).2.log = _ ∧ _
    rw [remove.eq_def]
    repeat' split
    · exact ⟨[], log_change, by simp⟩
    · exact hnone
    · exact hnone
  | _ => exact hnone

/-- A point after the restored data is complete. -/
structure Done (token : String) (w : World α) : Prop where
  restored : Restored token w
  fresh : .saving token .rolledBack ∉ w.log

theorem Done.kept (h : Done token w) : Kept found token w :=
  ⟨.inl h.restored, fun hs => absurd hs h.fresh⟩

/-- The commands that do not save a rollback. -/
def Forward (token : String) (c : Cmd) : Prop :=
  ∀ state, c = .savePrepared token state → state.phase ≠ .rolledBack

theorem done_exec (c : Cmd) (o : Out α) (w : World α) (hc : Forward token c) (h : Done token w) :
    Done token (helperMachine.exec c o w).2 := by
  obtain ⟨new, hlog, hnew⟩ := log_exec c o w
  refine ⟨?_, ?_⟩
  · rw [Restored, hlog]
    exact ⟨List.mem_append_right _ h.restored.1, List.mem_append_right _ h.restored.2⟩
  · rw [hlog, List.mem_append, not_or]
    refine ⟨fun hmem => ?_, h.fresh⟩
    have hadds := hnew _ hmem
    cases c with
    | savePrepared token' state =>
      obtain ⟨rfl, hphase⟩ := Event.saving.inj hadds
      exact hc state rfl hphase.symm
    | extract token' => rcases hadds with hadds | hadds <;> cases hadds
    | removeRecord token' => cases hadds
    | mkdir token' name => cases hadds
    | restoreArchiveRootMetadata token' => cases hadds
    | _ => exact hadds

theorem issues_cleanUp {S : Cmd → Prop} {replace : Bool} (hcheck : ∀ what, S (.check what))
    (hremove : ∀ name, S (.removeAll name)) : (cleanUp token state replace).Issues S := by
  have hrollback : (removeRollback token state replace).Issues S := by
    by_cases hr : state.rollback ≠ ""
    · have hstep : removeRollback token state replace =
          (Cmd.removeAll (if replace then rollbackNameOf token else "")).issue := if_pos hr
      rw [hstep]
      exact issues_issue (hremove _)
    · have hstep : removeRollback token state replace = pure none := if_neg hr
      rw [hstep]
      exact issues_pure _
  have hreset : (resetTimes replace).Issues S := by
    cases replace with
    | true => exact issues_issue (hcheck _)
    | false => exact issues_pure _
  exact hrollback.bind_option (fun _ => issues_pure _)
    (hreset.bind_option (fun _ => issues_pure _) (issues_pure _))

section

variable (h : Stage (Stashed found (rollbackNameOf token)) token w)
include h

theorem stage_extract (o : Out α) :
    Stage (Stashed found (rollbackNameOf token)) token (w.extract token o).2 ∧
      ((w.extract token o).1 = none → .extracted token ∈ (w.extract token o).2.log) := by
  rw [extract.eq_def]
  split
  · exact ⟨h, by simp⟩
  next record hrecord =>
    have hne : ∀ change ∈ o.written.filter fun change => change.1 ∈ record.members,
        change.1 ≠ rollbackNameOf token := by
      intro change hmem he
      have hin := of_decide_eq_true (List.mem_filter.mp hmem).2
      exact h.clear record hrecord (he ▸ hin)
    have hstashed := stashed_writeAll h.target hne
    have hfresh : ∀ e, e ≠ Event.saving token .rolledBack → ∀ log : List Event,
        Event.saving token .rolledBack ∉ log → Event.saving token .rolledBack ∉ e :: log :=
      fun e he log hlog hmem => (List.mem_cons.mp hmem).elim (fun heq => he heq.symm) hlog
    have hwrote := hfresh (.wrote token) (by simp) w.log h.fresh
    split
    · exact ⟨⟨h.clear, hstashed, hfresh _ (by simp) _ hwrote⟩, fun _ => List.mem_cons_self⟩
    · exact ⟨⟨h.clear, hstashed, hwrote⟩, by simp⟩

/-- Until the root metadata is restored the originals stay aside. -/
theorem done_rootRestored (hex : Event.extracted token ∈ w.log) (o : Out α) :
    Kept found token (w.restoreArchiveRootMetadata token o).2 ∧
      ((w.restoreArchiveRootMetadata token o).1 = none →
        Done token (w.restoreArchiveRootMetadata token o).2) := by
  rw [restoreArchiveRootMetadata.eq_def]
  split
  · have hdone : Done token (w.record (.rootRestored token)) :=
      ⟨⟨List.mem_cons_of_mem _ hex, List.mem_cons_self⟩,
        fun hmem => h.fresh ((List.mem_cons.mp hmem).resolve_left (by simp))⟩
    exact ⟨hdone.kept, fun _ => hdone⟩
  · exact ⟨stage_stashed_kept h, by simp⟩

theorem wp_restoreRoot (hex : Event.extracted token ∈ w.log) :
    Wp helperMachine Allowed (Kept found token) (restoreRoot token)
      (fun r w' => r = none → Done token w') w := by
  refine wp_issue_bind (fun (r : Option String) w' => Kept found token w' ∧
    (r = none → Done token w')) (stage_stashed_kept h) (fun o _ => done_rootRestored h hex o) ?_
  rintro (_ | err) w' ⟨hkept, hdone⟩
  · exact wp_issue hkept fun _ _ => ⟨hkept, fun _ => hdone rfl⟩
  · exact wp_pure hkept (by simp)

end

/-- What an application returns when the rollback reported no error. -/
def Reverted (r : Option HelperError) : Prop := ∃ err saved, r = some (.extraction err none saved)

theorem wp_extractPrepared (h : Stage (Stashed found (rollbackNameOf token)) token w) :
    Wp helperMachine Allowed (Kept found token) (extractPrepared token state true)
      (fun r w' => Reverted r → Exact found w'.target) w := by
  refine wp_issue_bind (fun (r : Option String) w' =>
    Stage (Stashed found (rollbackNameOf token)) token w' ∧
      (r = none → Event.extracted token ∈ w'.log)) (stage_stashed_kept h)
    (fun o _ => stage_extract h o) ?_
  rintro (_ | err) w₁ ⟨h₁, hex⟩
  · refine wp_bind ((wp_restoreRoot h₁ (hex rfl)).post ?_)
    rintro (_ | err) w₂ hkept₂ hdone
    · -- From here on the restore can only be completed.
      refine Wp.mono (I := Done token) (Q := fun r _ => ¬ Reverted r) ?_
        (fun _ hd => hd.kept) fun _ _ _ hnot hr => absurd hr hnot
      have hissues : (cleanUp token state true).Issues (Forward token) :=
        issues_cleanUp (fun _ _ h => by cases h) fun _ _ h => by cases h
      refine wp_bind ((hissues.wp done_exec (hdone rfl)).post ?_)
      rintro (_ | err) w₃ hdone₃ -
      · refine wp_issue_bind (fun _ w' => Done token w') hdone₃ ?_ ?_
        · intro o _
          refine done_exec _ o w₃ ?_ hdone₃
          rintro _ ⟨⟩
          simp
        · rintro (_ | err) w' hdone'
          · exact wp_pure hdone' (by simp [Reverted])
          · exact wp_pure hdone' (by simp [Reverted])
      · exact wp_pure hdone₃ (by simp [Reverted])
    · exact wp_pure hkept₂ (by simp [Reverted])
  · refine wp_bind ((wp_rollbackPrepared h₁).post ?_)
    rintro (_ | rollbackErr) w₂ hkept₂ hstage₂
    · have h₂ := hstage₂ rfl
      refine wp_issue_bind (fun _ w' => w'.target = w₂.target) hkept₂ ?_ ?_
      · intro o _
        change (w₂.savePrepared token { state with phase := .rolledBack } o).2.target = _
        rw [savePrepared.eq_def]
        repeat' split
        all_goals rfl
      · intro r w' ht
        have hexact : Exact found w'.target := ht ▸ h₂.target
        exact wp_pure ⟨.inr (placed_exact hexact), fun _ => hexact⟩ fun _ => hexact
    · exact wp_pure hkept₂ (by simp [Reverted])

def Untouched (found : Found α) (t : Target α) : Prop := t = ⟨found.entries, none⟩

theorem untouched_exact {t : Target α} (h : Untouched found t) : Exact found t := by
  rw [h]
  exact ⟨fun _ => rfl, rfl⟩

theorem stage_untouched_kept (h : Stage (Untouched found) token w) : Kept found token w :=
  h.kept fun ht => placed_exact (untouched_exact ht)

theorem wp_planReplace {I : World α → Prop} (hI : I w) :
    Wp helperMachine Allowed I (planReplace token state)
      (fun r w' => w = w' ∧ ∀ s, r = .ok s → s.phase = .moving ∧ s.mode = state.mode ∧
        ∀ n, w.target.entries.lookup n ≠ none → n ∈ s.moved) w := by
  refine wp_look_bind hI (fun _ => rfl) fun r => ?_
  cases r with
  | some err => exact wp_pure hI ⟨rfl, by simp⟩
  | none =>
    refine wp_issue_bind (fun r w' => (∃ o, r = w.readTarget o) ∧ w = w') hI
      (fun o _ => ⟨⟨o, rfl⟩, rfl⟩) ?_
    rintro _ _ ⟨⟨o, rfl⟩, rfl⟩
    rcases hread : w.readTarget o with err | names
    · exact wp_pure hI ⟨rfl, by simp⟩
    · refine wp_look_bind hI (fun _ => rfl) fun r => ?_
      cases r with
      | false => exact wp_pure hI ⟨rfl, by simp⟩
      | true =>
        refine wp_pure hI ⟨rfl, ?_⟩
        rintro _ ⟨⟩
        exact ⟨rfl, rfl, fun n hn => List.mem_append_right _ (readTarget_names hread hn)⟩

theorem stage_mkdir (h : Stage (Untouched found) token w) (o : Out α) :
    Kept found token (w.mkdir token (rollbackNameOf token) o).2 ∧
      ((w.mkdir token (rollbackNameOf token) o).1 = none →
        Stage (Split found (rollbackNameOf token) fun _ => True) token
          (w.mkdir token (rollbackNameOf token) o).2) := by
  rw [mkdir.eq_def]
  split
  · exact ⟨stage_untouched_kept h, by simp⟩
  · have hfresh : Event.saving token .rolledBack ∉ (w.record (.wrote token)).log := fun hmem =>
      h.fresh ((List.mem_cons.mp hmem).resolve_left (by simp))
    have hlogged : Stage (Untouched found) token (w.record (.wrote token)) :=
      ⟨h.clear, h.target, hfresh⟩
    refine stage_change hlogged (stage_untouched_kept hlogged) ?_ fun _ => placed_split
    rintro _ ⟨⟩
    exact split_made (by rw [h.target]) rfl

theorem wp_stashEntries (h : Stage (Untouched found) token w)
    (hmoved : ∀ n, found.entries.lookup n ≠ none → n ∈ state.moved) :
    Wp helperMachine Allowed (Kept found token) (stashEntries token state)
      (fun r w' => ∀ s, r = .ok s → s.mode = state.mode ∧
        Stage (Stashed found (rollbackNameOf token)) token w') w := by
  refine wp_issue_bind (fun (r : Option String) w' => Kept found token w' ∧
    (r = none → Stage (Split found (rollbackNameOf token) fun _ => True) token w'))
    (stage_untouched_kept h) (fun o _ => stage_mkdir h o) ?_
  rintro (_ | err) w₁ ⟨hkept₁, hstage₁⟩
  · refine wp_bind ((wp_moveAllAside (hstage₁ rfl)).post ?_)
    rintro (_ | err) w₂ hkept₂ hstage₂
    · obtain ⟨S, hS, h₂⟩ := hstage₂ rfl
      have hall : ∀ n, S n → found.entries.lookup n = none := by
        intro n hn
        by_contra hne
        exact hS n hn (hmoved n hne)
      have hstashed : Stage (Stashed found (rollbackNameOf token)) token w₂ :=
        ⟨h₂.clear, stashed_of_split h₂.target hall, h₂.fresh⟩
      refine wp_bind ((wp_checkAll _ hkept₂).post ?_)
      rintro (_ | err) w₃ hkept₃ hsame
      · obtain rfl := hsame rfl
        refine wp_issue_bind (fun _ w' => Stage (Stashed found (rollbackNameOf token)) token w')
          hkept₃ (fun o _ => stage_save hstashed (by simp) o) ?_
        rintro (_ | err) w₄ h₄
        · refine wp_pure (stage_stashed_kept h₄) ?_
          rintro _ ⟨⟩
          exact ⟨rfl, h₄⟩
        · exact wp_pure (stage_stashed_kept h₄) (by simp)
      · exact wp_pure hkept₃ (by simp)
    · exact wp_pure hkept₂ (by simp)
  · exact wp_pure hkept₁ (by simp)

/-- A replacement, cut off anywhere, has lost no original entry before the restored data is
complete, and one that is rolled back leaves exactly the original entries. -/
theorem wp_applyPreparedRestore (h : Stage (Untouched found) token w)
    (hmode : state.mode = .replace) :
    Wp helperMachine Allowed (Kept found token) (applyPreparedRestore token state)
      (fun r w' => Reverted r → Exact found w'.target) w := by
  refine wp_bind ((wp_checkAll _ (stage_untouched_kept h)).post ?_)
  rintro (_ | err) w₁ hkept₁ hsame
  · obtain rfl := hsame rfl
    have hplan : planRestore token state = planReplace token state := if_pos hmode
    rw [hplan]
    refine wp_bind ((wp_planReplace hkept₁).post ?_)
    rintro (err | planned) _ - ⟨rfl, hplanned⟩
    · exact wp_pure hkept₁ (by simp [Reverted])
    · obtain ⟨hphase, hmode', hmoved⟩ := hplanned planned rfl
      rw [h.target] at hmoved
      refine wp_issue_bind (fun _ w' => Stage (Untouched found) token w') hkept₁
        (fun o _ => stage_save h (by simp [hphase]) o) ?_
      rintro (_ | err) w₂ h₂
      · have hstash : stashIfReplace token planned = stashEntries token planned :=
          if_pos (hmode'.trans hmode)
        rw [hstash]
        refine wp_bind ((wp_stashEntries h₂ hmoved).post ?_)
        rintro (err | stashed) w₃ hkept₃ hstage₃
        · exact wp_pure hkept₃ (by simp [Reverted])
        · obtain ⟨hmode₃, h₃⟩ := hstage₃ stashed rfl
          have hreplace : decide (stashed.mode = .replace) = true :=
            decide_eq_true (hmode₃.trans (hmode'.trans hmode))
          dsimp only
          rw [hreplace]
          exact wp_extractPrepared h₃
      · exact wp_pure (stage_untouched_kept h₂) (by simp [Reverted])
  · exact wp_pure hkept₁ (by simp [Reverted])

end Stacklab.BackupHelper
