import Stacklab.Backup.JournalFiles

/-! What the recovery programs read, and which journals they resume. -/
namespace Stacklab.Backup

open Lib Prog

variable {sourceID : String → String} {Allowed : Cmd → Out → World → Prop} {I : World → Prop}
  {w : World} {journal : StopJournal} {runID name : String} {kind : EntryKind} {entry : DirEntry}

theorem journalFile_of_valid (h : validJournal sourceID journal name = true) :
    journalFile sourceID journal.runID = name := by
  simp only [validJournal, Bool.and_eq_true, decide_eq_true_eq] at h
  exact h.1.2

theorem file_of_content (h : entry.content = some journal) (hsym : entry.kind ≠ .symlink) :
    entry = .file (some journal) := by
  cases entry with
  | directory => cases h
  | symlink content => exact absurd rfl hsym
  | file content => exact congrArg _ h

/-- An entry is skipped, refused, or a valid journal without a hold, which is resumed. -/
theorem wp_recoverEntry {Q : Except String Unit → World → Prop} (hI : I w)
    (hskip : ¬ Recoverable name kind → Q (.ok ()) w) (herr : ∀ err, Q (.error err) w)
    (hresume : ∀ journal entry, Recoverable name kind → kind ≠ .symlink →
      w.disk.lookup name = some entry → entry.content = some journal →
      validJournal sourceID journal name = true → journal.holdStopped = false →
      Wp (captureMachine sourceID) Allowed I (resume journal) (fun r => Q r.1) w) :
    Wp (captureMachine sourceID) Allowed I (recoverEntry sourceID name kind) Q w := by
  rw [recoverEntry]
  split
  next hlook =>
    refine wp_pure hI (hskip fun hrec => hlook.elim hrec.1 fun hsuffix => ?_)
    simp [hrec.2] at hsuffix
  next hlook =>
    rw [not_or] at hlook
    refine wp_issue_bind (fun (r : Except String (Option StopJournal)) w' => w = w' ∧
      ∀ content, r = .ok content → ∃ entry, w.disk.lookup name = some entry ∧
        entry.content = content) hI (fun o _ => readFile_content o name) ?_
    rintro (err | content) _ ⟨rfl, hread⟩
    · exact wp_pure hI (herr _)
    · dsimp only
      split
      · exact wp_pure hI (herr _)
      next hsym =>
        cases content with
        | none => exact wp_pure hI (herr _)
        | some journal =>
          obtain ⟨entry, hentry, hcontent⟩ := hread _ rfl
          dsimp only
          split
          · exact wp_pure hI (herr _)
          next hvalid =>
            split
            · exact wp_pure hI (herr _)
            next hhold =>
              refine wp_bind ((hresume journal entry ⟨hlook.1, ?_⟩ hsym hentry hcontent ?_ ?_).post
                fun _ _ hI' hQ => wp_pure hI' hQ)
              · simpa using hlook.2
              · simpa using hvalid
              · simpa using hhold

/-- The entries of the whole directory are recovered. -/
theorem wp_recover {Q : Except String Unit → World → Prop} (hI : I w)
    (herr : ∀ err, Q (.error err) w)
    (hentries : Wp (captureMachine sourceID) Allowed I (recoverEntries sourceID w.readDir)
      (fun failures => Q (joinErrors failures)) w) :
    Wp (captureMachine sourceID) Allowed I (recover sourceID) Q w := by
  refine wp_issue_bind (fun (r : Except String (List (String × EntryKind))) w' =>
    w = w' ∧ ∀ entries, r = .ok entries → w.readDir = entries) hI
    (fun o _ => ⟨rfl, fun entries h => answer_ok h⟩) ?_
  rintro (err | entries) _ ⟨rfl, hread⟩
  · exact wp_pure hI (herr err)
  · obtain rfl := hread entries rfl
    exact wp_bind (hentries.post fun _ _ hI' hQ => wp_pure hI' hQ)

variable (sourceID) in
/-- The file of the run is a valid journal. -/
structure Stored (runID : String) (w : World) (journal : StopJournal) : Prop where
  file : w.disk.lookup (journalFile sourceID runID) = some (.file (some journal))
  valid : validJournal sourceID journal (journalFile sourceID runID) = true

theorem wp_readRecoveryJournal (hI : I w) :
    Wp (captureMachine sourceID) Allowed I (readRecoveryJournal sourceID runID)
      (fun r w' => w = w' ∧ ∀ journal, r = .ok journal → Stored sourceID runID w journal) w := by
  have hfailed : ∀ err : RecoveryError, Wp (captureMachine sourceID) Allowed I
      (pure (.error err) : CaptureProg (Except RecoveryError StopJournal))
      (fun r w' => w = w' ∧ ∀ journal, r = .ok journal → Stored sourceID runID w journal) w :=
    fun err => wp_pure hI ⟨rfl, fun journal h => by cases h⟩
  refine wp_issue_bind (fun r w' => w = w' ∧ ∀ kind, r = .ok (some kind) →
    ∃ entry, w.disk.lookup (journalFile sourceID runID) = some entry ∧ entry.kind = kind) hI
    (fun o _ => ⟨rfl, fun kind h => Option.map_eq_some_iff.mp (answer_ok h)⟩) ?_
  rintro (err | _ | kind) _ ⟨rfl, hkind⟩
  · exact hfailed _
  · exact hfailed _
  · dsimp only
    split
    · exact hfailed _
    next hsym =>
      refine wp_issue_bind (fun r w' => w = w' ∧ ∀ content, r = .ok content →
        ∃ entry, w.disk.lookup (journalFile sourceID runID) = some entry ∧
          entry.content = content) hI (fun o _ => readFile_content o _) ?_
      rintro (err | _ | journal) _ ⟨rfl, hread⟩
      · exact hfailed _
      · exact hfailed _
      · dsimp only
        split
        next hvalid =>
          refine wp_pure hI ⟨rfl, ?_⟩
          rintro _ ⟨⟩
          obtain ⟨entry, hentry, rfl⟩ := hkind kind rfl
          obtain ⟨entry', hentry', hcontent⟩ := hread _ rfl
          obtain rfl : entry = entry' := Option.some.inj (hentry.symm.trans hentry')
          exact ⟨file_of_content hcontent hsym ▸ hentry, hvalid⟩
        · exact hfailed _

/-- The journal that a resolution is for has a hold exactly if that is to be acknowledged. -/
theorem wp_validateRecoveryResolution {input : RecoveryResolution} (hI : I w) :
    Wp (captureMachine sourceID) Allowed I (validateRecoveryResolution sourceID runID input)
      (fun r w' => w = w' ∧ ∀ journal, r = .ok journal → Stored sourceID runID w journal ∧
        (journal.holdStopped = true ↔ input.action = .acknowledgeHold)) w := by
  refine wp_bind ((wp_readRecoveryJournal hI).post ?_)
  rintro (err | journal) _ _ ⟨rfl, hstored⟩
  · exact wp_pure hI ⟨rfl, by simp⟩
  · have hpass : (journal.holdStopped = true ↔ input.action = .acknowledgeHold) →
        ∀ accepted, (.ok journal : Except RecoveryError StopJournal) = .ok accepted →
          Stored sourceID runID w accepted ∧
            (accepted.holdStopped = true ↔ input.action = .acknowledgeHold) := by
      rintro hhold _ ⟨⟩
      exact ⟨hstored journal rfl, hhold⟩
    dsimp only
    split
    next haction =>
      split
      · exact wp_pure hI ⟨rfl, by simp⟩
      next hhold => exact wp_pure hI ⟨rfl, hpass (by simp [haction, hhold])⟩
    next haction =>
      split
      · exact wp_pure hI ⟨rfl, by simp⟩
      next hhold => exact wp_pure hI ⟨rfl, hpass (by simpa [haction] using hhold)⟩
    next haction =>
      split
      · exact wp_pure hI ⟨rfl, by simp⟩
      · refine wp_look_bind hI (fun o => rfl) fun discovered => ?_
        split
        · exact wp_pure hI ⟨rfl, by simp⟩
        next hmissing =>
          simp only [canAcknowledgeMissing, Bool.not_eq_true', Bool.not_eq_false,
            Bool.and_eq_true] at hmissing
          exact wp_pure hI ⟨rfl, hpass (by simp [haction, hmissing.1.1])⟩
    · exact wp_pure hI ⟨rfl, by simp⟩

end Stacklab.Backup
