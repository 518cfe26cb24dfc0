import Stacklab.BackupHelper.Tokens

/-! Replacements lose no original entry, and tokens are applied once and kept while unfinished. -/
namespace Stacklab.BackupHelper

open Lib Prog

variable {α β : Type} {Allowed : Cmd → Out α → World α → Prop} {w w₀ : World α}
  {token directory : String} {state : PreparedRestore} {o : Out α} {action : Action}
  {I : World α → Prop}

theorem sound_removeRecord (h : Sound w₀ w)
    (hphase : savedPhase w.spool token ≠ some .moving ∧ savedPhase w.spool token ≠ some .writing)
    (o : Out α) : Sound w₀ (helperMachine.exec (.removeRecord token) o w).2 := by
  refine ⟨fun τ => once_exec (h.once τ) nofun ?_, ?_⟩
  · exact (savedPhase_removeRecord w token o τ).imp_right fun hnone =>
      fun hsome => by cases hnone.symm.trans hsome
  · obtain ⟨new, hlog, hnew⟩ := log_exec (.removeRecord token) o w
    intro t phase hmem
    rw [hlog, List.mem_append] at hmem
    rcases hmem with hmem | hmem
    · obtain ⟨-, rfl⟩ := Event.deleted.inj (hnew _ hmem)
      exact hphase
    · exact h.deletions t phase hmem

theorem wp_removeRecord_bind {k : Option String → HelperProg β} {Q : β → World α → Prop}
    (h : Sound w₀ w)
    (hphase : savedPhase w.spool token ≠ some .moving ∧ savedPhase w.spool token ≠ some .writing)
    (hk : ∀ r w', Sound w₀ w' → Wp helperMachine Allowed (Sound w₀) (k r) Q w') :
    Wp helperMachine Allowed (Sound w₀) ((Cmd.removeRecord token).issue >>= k) Q w :=
  wp_issue_bind (fun _ w' => Sound w₀ w') h (fun o _ => sound_removeRecord h hphase o) hk

theorem savedPhase_of_readState (h : w.readState token o = .ok state) :
    savedPhase w.spool token = some state.phase := by
  rw [World.readState.eq_def] at h
  split at h <;> cases h
  rename_i hrecord
  simp [savedPhase, savedState, hrecord]

theorem savedPhase_of_missing (h : w.readState token o = .error .notExist) :
    savedPhase w.spool token = none := by
  rw [World.readState.eq_def] at h
  split at h <;> cases h
  next hrecord =>
    simp [savedPhase, savedState, hrecord]
  next hrecord =>
    simp [savedPhase, savedState, hrecord]

/-- A phase in which a record may go is not that of an unfinished application. -/
theorem releasable_ne {phase : RestorePhase} (h : releasable phase = true) :
    some phase ≠ some .moving ∧ some phase ≠ some .writing := by
  constructor
  · rintro ⟨⟩
    exact absurd h (by decide)
  · rintro ⟨⟩
    exact absurd h (by decide)

theorem wp_readState_bind {k : Except ReadError PreparedRestore → HelperProg β}
    {Q : β → World α → Prop} (hI : I w)
    (hk : ∀ o, Wp helperMachine Allowed I (k (w.readState token o)) Q w) :
    Wp helperMachine Allowed I ((Cmd.readState token).issue >>= k) Q w := by
  refine wp_issue_bind (fun r w' => (∃ o, r = w.readState token o) ∧ w = w') hI
    (fun o _ => ⟨⟨o, rfl⟩, rfl⟩) ?_
  rintro _ _ ⟨⟨o, rfl⟩, rfl⟩
  exact hk o

theorem wp_cleanRecord (h : Sound w₀ w) :
    Wp helperMachine Allowed (Sound w₀) (cleanRecord token) (fun _ _ => True) w := by
  have hdone : ∀ w' : World α, Sound w₀ w' →
      Wp helperMachine Allowed (Sound w₀) (pure () : HelperProg Unit) (fun _ _ => True) w' :=
    fun _ h' => wp_pure h' trivial
  refine wp_readState_bind h fun o => ?_
  split
  next hread =>
    refine wp_removeRecord_bind h ?_ fun _ w' h' => hdone w' h'
    rw [savedPhase_of_missing hread]
    exact ⟨nofun, nofun⟩
  · exact hdone w h
  next state hread =>
    split
    next hphase =>
      refine wp_removeRecord_bind h ?_ fun _ w' h' => hdone w' h'
      rw [savedPhase_of_readState hread]
      exact releasable_ne hphase
    · exact hdone w h

theorem wp_cleanEntries (entries : List (String × Bool)) (h : Sound w₀ w) :
    Wp helperMachine Allowed (Sound w₀) (cleanEntries entries) (fun _ _ => True) w := by
  induction entries generalizing w with
  | nil => exact wp_pure h trivial
  | cons entry rest ih =>
    have hentry : Wp helperMachine Allowed (Sound w₀) (cleanEntry entry)
        (fun _ _ => True) w := by
      rw [cleanEntry.eq_def]
      split
      · refine wp_look_bind h (fun _ => rfl) fun aged => ?_
        cases aged with
        | true => exact wp_cleanRecord h
        | false => exact wp_pure h trivial
      · exact wp_pure h trivial
    exact wp_bind (hentry.post fun _ _ h' _ => ih h')

theorem wp_privateRestoreSpool (h : Sound w₀ w) :
    Wp helperMachine Allowed (Sound w₀) privateRestoreSpool (fun _ _ => True) w := by
  refine wp_bind ((wp_checkAll _ h).post ?_)
  rintro (_ | err) w₁ h₁ -
  · refine wp_look_bind h₁ (fun _ => rfl) fun r => ?_
    split
    · exact wp_pure h₁ trivial
    · exact wp_bind ((wp_cleanEntries _ h₁).post fun _ _ h' _ => wp_pure h' trivial)
  · exact wp_pure h₁ trivial

/-- The first record that an application saves takes the token out of the phase `prepared`. -/
theorem sound_save (h : Sound w₀ w) (hphase : state.phase ≠ .prepared) (o : Out α) :
    Sound w₀ (helperMachine.exec (.savePrepared token state) o w).2 := by
  refine ⟨fun τ => once_exec (h.once τ) nofun ?_, safeLog_exec h.deletions nofun⟩
  by_cases he : τ = token
  · subst he
    by_cases hw : savedPhase w.spool τ = some .prepared
    · by_cases hs : savedPhase (w.savePrepared τ state o).2.spool τ = some .prepared
      · exact .inl (hs.trans hw.symm)
      · exact .inr hs
    · exact .inr (savedPhase_savePrepared_self hphase (.inl hw))
  · exact .inl (savedPhase_savePrepared_ne he)

theorem applied_save (h : Sound w₀ w) (hbefore : savedPhase w₀.spool token = some .prepared)
    (hphase : state.phase ≠ .prepared) (hok : (w.savePrepared token state o).1 = none) :
    Applied w₀ token (helperMachine.exec (.savePrepared token state) o w).2 :=
  ⟨hbefore, savedPhase_savePrepared_self hphase (.inr hok),
    fun τ _ => (sound_save h hphase o).once τ, (sound_save h hphase o).deletions⟩

theorem wp_planRestore (hI : I w) :
    Wp helperMachine Allowed I (planRestore token state)
      (fun r w' => w = w' ∧ ∀ s, r = .ok s → s.phase ≠ .prepared) w := by
  by_cases hmode : state.mode = .replace
  · have hplan : planRestore token state = planReplace token state := if_pos hmode
    rw [hplan]
    refine (wp_planReplace hI).post ?_
    rintro r _ - ⟨rfl, hr⟩
    exact ⟨rfl, fun s hs => by simp [(hr s hs).1]⟩
  · have hplan : planRestore token state = pure (.ok { state with phase := .writing }) :=
      if_neg hmode
    rw [hplan]
    refine wp_pure hI ⟨rfl, ?_⟩
    rintro _ ⟨⟩
    simp

theorem wp_apply (h : Sound w₀ w) (hbefore : savedPhase w₀.spool token = some .prepared) :
    Wp helperMachine Allowed (Sound w₀) (applyPreparedRestore token state)
      (fun _ _ => True) w := by
  refine wp_bind ((wp_checkAll _ h).post ?_)
  rintro (_ | err) w₁ h₁ -
  · refine wp_bind ((wp_planRestore h₁).post ?_)
    rintro (err | planned) _ - ⟨rfl, hplanned⟩
    · exact wp_pure h₁ trivial
    · have hphase := hplanned planned rfl
      refine wp_issue_bind (fun (r : Option String) w' => Sound w₀ w' ∧
        (r = none → Applied w₀ token w')) h₁
        (fun o _ => ⟨sound_save h₁ hphase o, fun hok => applied_save h₁ hbefore hphase hok⟩) ?_
      rintro (_ | err) w₂ ⟨h₂, happlied⟩
      · refine Wp.mono (Issues.wp ?_ applied_exec (happlied rfl))
          (fun _ ha => ha.sound) fun _ _ _ _ => trivial
        refine Issues.bind_except ?_ (fun _ => issues_pure _) fun _ => issues_extractPrepared
        rw [stashIfReplace]
        split
        · exact issues_stashEntries
        · exact issues_pure _
      · exact wp_pure h₂ trivial
  · exact wp_pure h₁ trivial

theorem wp_checkPrepared (hI : I w) :
    Wp helperMachine Allowed I (checkPrepared token directory state)
      (fun r w' => r = none → w = w' ∧ state.phase = .prepared) w := by
  refine wp_bind ((wp_checkAll _ hI).post ?_)
  rintro (_ | err) w₁ hI₁ hsame
  · obtain rfl := hsame rfl
    dsimp only
    split
    next hphase =>
      exact (wp_checkAll _ hI₁).post fun _ _ _ hsame hr => ⟨hsame hr, hphase⟩
    · exact wp_pure hI₁ (by simp)
  · exact wp_pure hI₁ (by simp)

theorem wp_runAction (h : Sound w₀ w) (hread : savedPhase w.spool token = some state.phase) :
    Wp helperMachine Allowed (Sound w₀) (runAction action token directory state)
      (fun _ _ => True) w := by
  rw [runAction]
  split
  · rw [releaseRecord]
    split
    next hphase =>
      refine wp_removeRecord_bind h ?_ fun _ w' h' => wp_pure h' trivial
      rw [hread]
      exact releasable_ne hphase
    · exact wp_pure h trivial
  · refine wp_bind ((wp_checkPrepared h).post ?_)
    rintro (_ | err) w₁ h₁ hchecked
    · obtain ⟨rfl, hphase⟩ := hchecked rfl
      have hbefore : savedPhase w₀.spool token = some .prepared := by
        by_contra hne
        exact (h.once token).stays hne (by rw [hread, hphase])
      dsimp only
      split
      · exact wp_pure h₁ trivial
      · exact wp_look_bind h₁ (fun _ => rfl) fun root => wp_apply h₁ hbefore
    · exact wp_pure h₁ trivial

theorem wp_runPreparedRestore (h : Sound w₀ w) :
    Wp helperMachine Allowed (Sound w₀) (runPreparedRestore action token)
      (fun _ _ => True) w := by
  refine wp_look_bind h (fun _ => rfl) fun r => ?_
  cases r with
  | some err => exact wp_pure h trivial
  | none =>
    refine wp_bind ((wp_privateRestoreSpool h).post ?_)
    rintro (_ | err) w₁ h₁ -
    · dsimp only
      split
      · exact wp_pure h₁ trivial
      · refine wp_readState_bind h₁ fun o => ?_
        rcases hread : w₁.readState token o with err | state
        · exact wp_pure h₁ trivial
        · exact wp_runAction h₁ (savedPhase_of_readState hread)
    · exact wp_pure h₁ trivial

/-- A call of the helper: an action on a token, or the cleaning that comes with a preparation. -/
inductive Call
  | run (action : Action) (token : String)
  | clean

def Call.prog : Call → HelperProg (Option HelperError)
  | .run action token => runPreparedRestore action token
  | .clean => do
    let err ← privateRestoreSpool
    pure (err.map .message)

/-- A call with the target as it finds it, cut off when the outcomes are used up. -/
structure Round (α : Type) where
  call : Call
  found : GoMap String (Item α)
  outs : List (Out α)

def World.round (w : World α) (r : Round α) : World α :=
  (r.call.prog.run helperMachine r.outs { w with target := ⟨r.found, none⟩ }).2

def World.rounds (w : World α) (rs : List (Round α)) : World α := rs.foldl World.round w

theorem sound_round {r : Round α} (h : SafeLog w) : Sound w (w.round r) := by
  have hstart : Sound w { w with target := ⟨r.found, none⟩ } := ⟨fun τ => ⟨id, .inl rfl⟩, h⟩
  have hwp : Wp helperMachine (fun _ _ _ => True) (Sound w) r.call.prog (fun _ _ => True)
      { w with target := ⟨r.found, none⟩ } := by
    cases r.call with
    | run action token => exact wp_runPreparedRestore hstart
    | clean =>
      exact wp_bind ((wp_privateRestoreSpool hstart).post fun _ _ h' _ =>
        wp_pure h' trivial)
  exact (hwp.run meets_true).1

theorem safeLog_rounds {rs : List (Round α)} (h : SafeLog w) : SafeLog (w.rounds rs) := by
  induction rs generalizing w with
  | nil => exact h
  | cons r rs ih => exact ih (sound_round h).deletions

/-- A token that is not in the phase `prepared` is never applied again. -/
theorem never_again {rs : List (Round α)} (h : SafeLog w)
    (hphase : savedPhase w.spool token ≠ some .prepared) :
    (w.rounds rs).log.count (.wrote token) = w.log.count (.wrote token) := by
  induction rs generalizing w with
  | nil => rfl
  | cons r rs ih =>
    have hr := sound_round (r := r) h
    have hsame : (w.round r).log.count (.wrote token) = w.log.count (.wrote token) :=
      ((hr.once token).wrote).resolve_right fun hw => hphase hw.1
    exact (ih hr.deletions ((hr.once token).stays hphase)).trans hsame

/-- A replacement that is cut off anywhere still has every original entry, in one place, until
extraction and the restoration of the root metadata have both succeeded, and exactly those after
a rollback. Over any sequence of calls a token is applied from the phase `prepared` only, by one
call at most, and no record in the phase `moving` or `writing` is deleted. -/
theorem replace_restore_safety {α : Type} :
    (∀ (found : Found α) (token : String) (state : PreparedRestore) (spool : GoMap String Record)
      (outs : List (Out α)), state.mode = .replace →
      (∀ record, spool.lookup token = some record → rollbackNameOf token ∉ record.members) →
      let cut := (applyPreparedRestore token state).run helperMachine outs
        ⟨spool, ⟨found.entries, none⟩, []⟩
      (¬ Restored token cut.2 → Placed found (rollbackNameOf token) cut.2.target) ∧
      ((∃ err saved, cut.1.result = some (some (.extraction err none saved))) ∨
        .saving token .rolledBack ∈ cut.2.log → Exact found cut.2.target)) ∧
    (∀ (spool : GoMap String Record) (target : Target α) (earlier : List (Round α)) (r : Round α)
      (later : List (Round α)) (token : String),
      let w := World.rounds ⟨spool, target, []⟩ earlier
      (w.round r).log.count (.wrote token) ≠ w.log.count (.wrote token) →
      savedPhase w.spool token = some .prepared ∧
        ((w.round r).rounds later).log.count (.wrote token) =
          (w.round r).log.count (.wrote token)) ∧
    ∀ (spool : GoMap String Record) (target : Target α) (rs : List (Round α)),
      SafeLog (World.rounds ⟨spool, target, []⟩ rs) := by
  have hsafe : ∀ (spool : GoMap String Record) (target : Target α) rs,
      SafeLog (World.rounds ⟨spool, target, []⟩ rs) :=
    fun _ _ _ => safeLog_rounds fun _ _ hmem => absurd hmem List.not_mem_nil
  refine ⟨?_, ?_, hsafe⟩
  · intro found token state spool outs hmode hclear
    have hstage : Stage (Untouched found) token ⟨spool, ⟨found.entries, none⟩, []⟩ :=
      ⟨hclear, rfl, List.not_mem_nil⟩
    have hmeets : Meets helperMachine (fun _ _ _ => True) (applyPreparedRestore token state)
        outs ⟨spool, ⟨found.entries, none⟩, []⟩ := meets_true
    obtain ⟨hkept, hresult⟩ := (wp_applyPreparedRestore hstage hmode).run hmeets
    refine ⟨fun hnot => hkept.placed.resolve_left hnot, ?_⟩
    rintro (⟨err, saved, hr⟩ | hsaving)
    · exact hresult _ (eq_ret_of_result hr) ⟨err, saved, rfl⟩
    · exact hkept.rolledBack hsaving
  · intro spool target earlier r later token w happlied
    have hr := sound_round (r := r) (hsafe spool target earlier)
    obtain ⟨hbefore, hafter⟩ := ((hr.once token).wrote).resolve_left happlied
    exact ⟨hbefore, never_again hr.deletions hafter⟩

def foundOne : Found String where
  entries := AList.insert "a" (.original "old") ∅
  original h := by
    rcases GoMap.lookup_insert_cases h with ⟨-, rfl⟩ | hnone
    · exact ⟨"old", rfl⟩
    · cases hnone

def preparedOne : PreparedRestore :=
  ⟨"/srv/data", .replace, .prepared, "", [], "/srv", false, "complete"⟩

def spoolOne : GoMap String Record := AList.insert "t" ⟨true, .saved preparedOne, ["a", "b"]⟩ ∅

/-- An extraction that writes an entry and then fails, all other calls succeeding. -/
def failingExtraction : List (Out String) :=
  List.replicate 12 ⟨none, false, false, "", [], none, []⟩ ++
    ⟨some "disk full", false, false, "", [("a", some "new")], none, []⟩ ::
      List.replicate 10 ⟨none, false, false, "", [], none, []⟩

/-- The extraction fails, the rollback succeeds and the one entry is back. -/
theorem replace_restore_rolled_back :
    ((applyPreparedRestore "t" preparedOne).run helperMachine failingExtraction
      ⟨spoolOne, ⟨foundOne.entries, none⟩, []⟩).1.result =
        some (some (.extraction "disk full" none none)) ∧
    Exact foundOne ((applyPreparedRestore "t" preparedOne).run helperMachine failingExtraction
      ⟨spoolOne, ⟨foundOne.entries, none⟩, []⟩).2.target := by
  have hresult : ((applyPreparedRestore "t" preparedOne).run helperMachine failingExtraction
      ⟨spoolOne, ⟨foundOne.entries, none⟩, []⟩).1.result =
        some (some (.extraction "disk full" none none)) := by decide +kernel
  refine ⟨hresult, (replace_restore_safety.1 foundOne "t" preparedOne spoolOne failingExtraction
    rfl ?_).2 (.inl ⟨_, _, hresult⟩)⟩
  intro record hrecord
  rw [spoolOne, GoMap.lookup_insert, if_pos rfl] at hrecord
  cases hrecord
  decide

end Stacklab.BackupHelper
