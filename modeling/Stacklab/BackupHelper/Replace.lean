import Stacklab.BackupHelper.Restore
import Stacklab.BackupHelper.Stash

/-! A replacement keeps the original entries until the restored data is complete. -/
namespace Stacklab.BackupHelper

open Lib Prog World

variable {α : Type} {Allowed : Cmd → Out α → World α → Prop} {w w' : World α} {found : Found α}
  {token name n : String} {state : PreparedRestore} {P Q : Target α → Prop} {S : String → Prop}
  {names : List String} {I : World α → Prop} {o : Out α}

/-- Extraction and the restoration of the root metadata have both succeeded. -/
def Restored (token : String) (w : World α) : Prop :=
  .extracted token ∈ w.log ∧ .rootRestored token ∈ w.log

/-- The archive has no member under the rollback name. -/
def ArchiveClear (token : String) (w : World α) : Prop :=
  ∀ record, w.spool.lookup token = some record → rollbackNameOf token ∉ record.members

/-- What holds wherever a replacement is cut off. -/
structure Kept (found : Found α) (token : String) (w : World α) : Prop where
  placed : Restored token w ∨ Placed found (rollbackNameOf token) w.target
  rolledBack : .saving token .rolledBack ∈ w.log → Exact found w.target

/-- A point of a replacement before any rollback is saved. -/
structure Stage (P : Target α → Prop) (token : String) (w : World α) : Prop where
  clear : ArchiveClear token w
  target : P w.target
  fresh : .saving token .rolledBack ∉ w.log

theorem Stage.kept (h : Stage P token w) (hP : P w.target → Placed found (rollbackNameOf token)
    w.target) : Kept found token w :=
  ⟨.inr (hP h.target), fun hs => absurd hs h.fresh⟩

theorem stage_split_kept (h : Stage (Split found (rollbackNameOf token) S) token w) :
    Kept found token w :=
  h.kept placed_split

theorem stage_stashed_kept (h : Stage (Stashed found (rollbackNameOf token)) token w) :
    Kept found token w :=
  h.kept placed_stashed

theorem Stage.withTarget (h : Stage P token w) {t : Target α} (ht : Q t) :
    Stage Q token { w with target := t } :=
  ⟨h.clear, ht, h.fresh⟩

theorem clear_setState {file : StateFile} (h : ArchiveClear token w)
    (hw : w'.spool = setState w.spool token file) : ArchiveClear token w' := by
  intro record hrecord
  rw [hw, setState] at hrecord
  split at hrecord
  next old hold =>
    rw [GoMap.lookup_insert, if_pos rfl] at hrecord
    cases hrecord
    exact h old hold
  · exact h record hrecord

theorem stage_save (h : Stage P token w) (hphase : state.phase ≠ .rolledBack) (o : Out α) :
    Stage P token (w.savePrepared token state o).2 := by
  have hfresh : Event.saving token .rolledBack ∉ .saving token state.phase :: w.log := by
    simp [hphase.symm, h.fresh]
  rw [savePrepared.eq_def]
  split
  · exact ⟨clear_setState h.clear rfl, h.target, hfresh⟩
  · split
    · exact ⟨clear_setState h.clear rfl, h.target, hfresh⟩
    · exact ⟨h.clear, h.target, hfresh⟩

theorem change_cases (w : World α) (o : Out α) (target : Option (Target α)) :
    (∃ t, target = some t ∧ w.change o target = (none, { w with target := t })) ∨
      ∃ err, w.change o target = (some err, w) := by
  cases hf : o.failure with
  | some message => exact .inr ⟨message, by simp [change, hf]⟩
  | none =>
    cases target with
    | none => exact .inr ⟨_, by simp only [change, hf]; rfl⟩
    | some t => exact .inl ⟨t, rfl, by simp [change, hf]⟩

theorem wp_checkAll (checks : List Check) (hI : I w) :
    Wp helperMachine Allowed I (checkAll checks) (fun r w' => r = none → w = w') w := by
  refine wp_forEach (fun _ w' => w = w') rfl (fun _ h => h ▸ hI) ?_
  rintro what rest _ rfl
  exact wp_issue hI fun _ _ => ⟨hI, fun _ => rfl⟩

/-- A rename of the loops is done, or it fails and changes nothing. -/
theorem stage_change {target : Option (Target α)} (h : Stage P token w) (hkept : Kept found token w)
    (hQ : ∀ t, target = some t → Q t) (hplaced : ∀ t, Q t → Placed found (rollbackNameOf token) t) :
    Kept found token (w.change o target).2 ∧
      ((w.change o target).1 = none → Stage Q token (w.change o target).2) := by
  rcases change_cases w o target with ⟨t, ht, hc⟩ | ⟨err, hc⟩
  · rw [hc]
    have h' : Stage Q token { w with target := t } := h.withTarget (hQ t ht)
    exact ⟨h'.kept (hplaced t), fun _ => h'⟩
  · rw [hc]
    exact ⟨hkept, by simp⟩

theorem wp_moveAllAside (h : Stage (Split found (rollbackNameOf token) fun _ => True) token w) :
    Wp helperMachine Allowed (Kept found token)
      (moveAllAside (rollbackNameOf token) names) (fun r w' => r = none → ∃ S : String → Prop,
        (∀ n, S n → n ∉ names) ∧ Stage (Split found (rollbackNameOf token) S) token w') w := by
  refine (wp_forEach (fun rest w => ∃ S : String → Prop, (∀ n, S n → n ∈ names → n ∈ rest) ∧
    Stage (Split found (rollbackNameOf token) S) token w) ⟨_, fun _ _ hn => hn, h⟩ ?_ ?_).post ?_
  · rintro w ⟨S, -, h⟩
    exact stage_split_kept h
  · rintro name rest w ⟨S, hS, h⟩
    refine wp_issue (stage_split_kept h) fun o _ => ?_
    obtain ⟨hkept, hnext⟩ := stage_change (o := o) h (stage_split_kept h)
      (fun t ht => split_moveAside h.target ht) fun _ => placed_split
    refine ⟨hkept, fun hr => ⟨_, ?_, hnext hr⟩⟩
    rintro n ⟨hn, hne⟩ hmem
    exact (List.mem_cons.mp (hS n hn hmem)).resolve_left hne
  · rintro r w' - hpost hr
    obtain ⟨S, hS, h'⟩ := hpost hr
    exact ⟨S, fun n hn hmem => List.not_mem_nil (hS n hn hmem), h'⟩

theorem wp_moveAllBack (h : Stage (Split found (rollbackNameOf token) fun _ => False) token w) :
    Wp helperMachine Allowed (Kept found token)
      (moveAllBack (rollbackNameOf token) names) (fun r w' => r = none → ∃ S : String → Prop,
        (∀ n ∈ names, S n) ∧ Stage (Split found (rollbackNameOf token) S) token w') w := by
  refine (wp_forEach (fun rest w => ∃ S : String → Prop, (∀ n ∈ names, S n ∨ n ∈ rest) ∧
    Stage (Split found (rollbackNameOf token) S) token w) ⟨_, fun _ hn => .inr hn, h⟩
    ?_ ?_).post ?_
  · rintro w ⟨S, -, h⟩
    exact stage_split_kept h
  · rintro name rest w ⟨S, hS, h⟩
    refine wp_issue (stage_split_kept h) fun o _ => ?_
    obtain ⟨hkept, hnext⟩ := stage_change (o := o) h (stage_split_kept h)
      (fun t ht => split_moveBack h.target ht) fun _ => placed_split
    refine ⟨hkept, fun hr => ⟨_, fun n hn => ?_, hnext hr⟩⟩
    rcases hS n hn with hs | hmem
    · exact .inl (.inl hs)
    · exact (List.mem_cons.mp hmem).imp_left Or.inr
  · rintro r w' - hpost hr
    obtain ⟨S, hS, h'⟩ := hpost hr
    exact ⟨S, fun n hn => (hS n hn).resolve_right List.not_mem_nil, h'⟩

/-- Removing what was extracted does not reach what was moved aside. -/
theorem stage_removeAll (h : Stage (Stashed found (rollbackNameOf token)) token w)
    (hne : name ≠ rollbackNameOf token) (o : Out α)
    (hnames : ∀ n, w.target.entries.lookup n ≠ none → n ∈ name :: names) :
    Kept found token (w.removeAll name o).2 ∧ ((w.removeAll name o).1 = none →
      Stage (Stashed found (rollbackNameOf token)) token (w.removeAll name o).2 ∧
        ∀ n, (w.removeAll name o).2.target.entries.lookup n ≠ none → n ∈ names) := by
  rw [removeAll]
  cases hf : o.failure with
  | none =>
    have h' : Stage (Stashed found (rollbackNameOf token)) token
        { w with target := w.target.removeAll name } :=
      h.withTarget (stashed_write h.target hne none)
    refine ⟨stage_stashed_kept h', fun _ => ⟨h', fun n hn => ?_⟩⟩
    simp only [Target.removeAll, GoMap.lookup_erase] at hn
    by_cases he : n = name
    · simp [he] at hn
    · rw [if_neg he] at hn
      exact (List.mem_cons.mp (hnames n hn)).resolve_left he
  | some message =>
    have h' : Stage (Stashed found (rollbackNameOf token)) token
        { w with target := w.target.removeSome name o } :=
      h.withTarget (stashed_removeSome h.target hne o)
    exact ⟨stage_stashed_kept h', by simp⟩

theorem wp_removeAllBut (h : Stage (Stashed found (rollbackNameOf token)) token w)
    (hnames : ∀ n, w.target.entries.lookup n ≠ none → n ∈ names) :
    Wp helperMachine Allowed (Kept found token)
      (removeAllBut (rollbackNameOf token) names) (fun r w' => r = none →
        Stage (Split found (rollbackNameOf token) fun _ => False) token w') w := by
  refine (wp_forEach (fun rest w => Stage (Stashed found (rollbackNameOf token)) token w ∧
    ∀ n, w.target.entries.lookup n ≠ none → n ∈ rest) ⟨h, hnames⟩ ?_ ?_).post ?_
  · rintro w ⟨h, -⟩
    exact stage_stashed_kept h
  · rintro name rest w ⟨h, hrest⟩
    have hkept := stage_stashed_kept h
    by_cases hne : name ≠ rollbackNameOf token
    · have hstep : removeExtracted (rollbackNameOf token) name = (Cmd.removeAll name).issue :=
        if_pos hne
      rw [hstep]
      exact wp_issue hkept fun o _ => stage_removeAll h hne o hrest
    · have hstep : removeExtracted (rollbackNameOf token) name = pure none := if_neg hne
      rw [hstep]
      rw [not_not] at hne
      refine wp_pure hkept fun _ => ⟨h, fun n hn => ?_⟩
      refine (List.mem_cons.mp (hrest n hn)).resolve_left ?_
      rintro rfl
      exact hn (hne ▸ h.target.free)
  · rintro r w' - hpost hr
    obtain ⟨h', hempty⟩ := hpost hr
    refine ⟨h'.clear, split_of_stashed h'.target fun n => ?_, h'.fresh⟩
    by_contra hn
    exact List.not_mem_nil (hempty n hn)

theorem mem_keys_of_lookup {K V : Type} [DecidableEq K] {m : GoMap K V} {k : K}
    (h : m.lookup k ≠ none) : k ∈ m.keys :=
  AList.mem_keys.mp (AList.lookup_isSome.mp (Option.isSome_iff_ne_none.mpr h))

theorem wp_restoreSavedRoot (hI : I w) :
    Wp helperMachine Allowed I (restoreSavedRoot token state) (fun _ w' => w = w') w := by
  by_cases hroot : state.rootMetadata = true
  · have hstep : restoreSavedRoot token state = (Cmd.check (.restoreRootMetadata token)).issue :=
      if_pos hroot
    rw [hstep]
    exact wp_issue hI fun _ _ => ⟨hI, rfl⟩
  · have hstep : restoreSavedRoot token state = pure none := if_neg hroot
    rw [hstep]
    exact wp_pure hI rfl

theorem readTarget_names (h : w.readTarget o = .ok names) (hn : w.target.entries.lookup n ≠ none) :
    n ∈ names := by
  rw [readTarget] at h
  split at h
  · cases h
  · cases h
    exact List.mem_append_left _ (mem_keys_of_lookup hn)

theorem readRollback_names {aside : GoMap String (Item α)}
    (hr : w.target.rollback = some (name, aside)) (h : w.readRollback name o = .ok names)
    (hn : aside.lookup n ≠ none) : n ∈ names := by
  rw [readRollback, hr] at h
  split at h
  · cases h
  next heq =>
    cases heq
    rw [if_pos rfl] at h
    cases h
    exact mem_keys_of_lookup hn
  next heq =>
    cases heq

theorem stage_remove (h : Stage (Split found (rollbackNameOf token) S) token w)
    (hall : ∀ n, ¬ S n → found.entries.lookup n = none) (name : String) (o : Out α) :
    Kept found token (w.remove name o).2 ∧
      ((w.remove name o).1 = none → Stage (Exact found) token (w.remove name o).2) := by
  have hkept := stage_split_kept h
  have hexact := exact_of_split h.target hall
  rw [remove.eq_def]
  split
  · split
    · refine stage_change h hkept ?_ fun _ => placed_exact
      rintro _ ⟨⟩
      exact ⟨hexact, rfl⟩
    · exact ⟨hkept, by simp⟩
  · exact ⟨hkept, by simp⟩

/-- A rollback that reports no error has put every original entry back, and nothing else. -/
theorem wp_rollbackPrepared (h : Stage (Stashed found (rollbackNameOf token)) token w) :
    Wp helperMachine Allowed (Kept found token) (rollbackPrepared token state)
      (fun r w' => r = none → Stage (Exact found) token w') w := by
  have hkept := stage_stashed_kept h
  refine wp_issue_bind (fun r w' => (∃ o, r = w.readTarget o) ∧ w = w') hkept
    (fun o _ => ⟨⟨o, rfl⟩, rfl⟩) ?_
  rintro _ _ ⟨⟨o, rfl⟩, rfl⟩
  rcases hread : w.readTarget o with err | names
  · exact wp_pure hkept (by simp)
  refine wp_bind ((wp_removeAllBut h fun n => readTarget_names hread).post ?_)
  rintro (_ | err) w₁ hkept₁ hstage₁
  · have h₁ := hstage₁ rfl
    obtain ⟨aside, hr, -, haside⟩ := h₁.target
    refine wp_issue_bind (fun r w' => (∃ o, r = w₁.readRollback _ o) ∧ w₁ = w') hkept₁
      (fun o _ => ⟨⟨o, rfl⟩, rfl⟩) ?_
    rintro _ _ ⟨⟨o', rfl⟩, rfl⟩
    rcases hread' : w₁.readRollback (rollbackNameOf token) o' with err | names'
    · exact wp_pure hkept₁ (by simp)
    refine wp_bind ((wp_moveAllBack h₁).post ?_)
    rintro (_ | err) w₂ hkept₂ hstage₂
    · obtain ⟨S, hS, h₂⟩ := hstage₂ rfl
      have hall : ∀ n, ¬ S n → found.entries.lookup n = none := by
        intro n hn
        by_contra hne
        exact hn (hS n (readRollback_names hr hread' (by rwa [(haside n not_false).2])))
      refine wp_issue_bind (fun (r : Option String) w' => Kept found token w' ∧
        (r = none → Stage (Exact found) token w')) hkept₂ (fun o _ => stage_remove h₂ hall _ o) ?_
      rintro (_ | err) w₃ ⟨hkept₃, hstage₃⟩
      · refine (wp_restoreSavedRoot hkept₃).post ?_
        rintro r _ - rfl -
        exact hstage₃ rfl
      · exact wp_pure hkept₃ (by simp)
    · exact wp_pure hkept₂ (by simp)
  · exact wp_pure hkept₁ (by simp)

end Stacklab.BackupHelper
