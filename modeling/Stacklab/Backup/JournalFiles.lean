import Stacklab.Backup.Capture

/-! What the file operations on the journal directory do. -/
namespace Stacklab.Backup

open Lib

section

variable (sourceID : String → String)

/-- The journal on disk for the run satisfies a predicate. -/
def OnDisk (w : World) (runID : String) (P : StopJournal → Prop) : Prop :=
  ∃ journal, w.disk.lookup (journalFile sourceID runID) = some (.file (some journal)) ∧
    journal.runID = runID ∧ P journal

end

/-- An entry of the journal directory that `Recover` looks into. -/
def Recoverable (name : String) (kind : EntryKind) : Prop :=
  kind ≠ .directory ∧ hasSuffix name ".json" = true

variable {sourceID : String → String} {w : World} {α : Type} {o : Out}

theorem failure_of_ok {a b : α} (h : o.answer a = .ok b) : o.failure = none := by
  rw [Out.answer] at h
  split at h
  · cases h
  · assumption

theorem answer_ok {a b : α} (h : o.answer a = .ok b) : a = b := by
  rw [Out.answer] at h
  split at h
  · cases h
  · exact Except.ok.inj h

/-- What is answered without an error has taken effect. -/
theorem Out.tookEffect_of_ok {a b : α} (h : o.answer a = .ok b) : o.tookEffect = true := by
  simp [Out.tookEffect, failure_of_ok h]

theorem save_cases (w : World) (o : Out) (journal : StopJournal) (intent : Option String) :
    ((w.save sourceID o journal intent).2.disk =
        w.disk.insert (journalFile sourceID journal.runID) (.file (some journal)) ∧
      (w.save sourceID o journal intent).2.log = .saved journal.runID intent true :: w.log) ∨
    ((w.save sourceID o journal intent).2.disk = w.disk ∧
      (w.save sourceID o journal intent).2.log = .saved journal.runID intent false :: w.log ∧
      (w.save sourceID o journal intent).1 ≠ .ok ()) := by
  simp only [World.save]
  split
  · exact .inr ⟨rfl, rfl, by simp⟩
  · split
    · exact .inl ⟨rfl, rfl⟩
    next heffect =>
      exact .inr ⟨rfl, rfl, fun hok => heffect (Out.tookEffect_of_ok hok)⟩

theorem remove_cases (w : World) (o : Out) (runID : String) (acknowledged : Bool) :
    (w.remove sourceID o runID acknowledged).2.log = .removed runID acknowledged :: w.log ∧
      ((w.remove sourceID o runID acknowledged).2.disk =
          w.disk.erase (journalFile sourceID runID) ∨
        ((w.remove sourceID o runID acknowledged).2.disk = w.disk ∧
          (w.remove sourceID o runID acknowledged).1 ≠ .ok ())) := by
  simp only [World.remove]
  split
  · exact ⟨rfl, .inl rfl⟩
  next heffect =>
    exact ⟨rfl, .inr ⟨rfl, fun hok => heffect (Out.tookEffect_of_ok hok)⟩⟩

theorem readFile_content (o : Out) (name : String) :
    w = ((captureMachine sourceID).exec (.readFile name) o w).2 ∧
      ∀ content, ((captureMachine sourceID).exec (.readFile name) o w).1 = .ok content →
        ∃ entry, w.disk.lookup name = some entry ∧ entry.content = content := by
  simp only [captureMachine]
  split
  · exact ⟨rfl, fun content h => by cases h⟩
  · refine ⟨rfl, ?_⟩
    intro content h
    unfold World.readFile at h
    split at h
    · cases h
    · cases h
    next entry _ he =>
      cases h
      exact ⟨entry, he, rfl⟩

theorem mem_readDir {name : String} {kind : EntryKind} :
    (name, kind) ∈ w.readDir ↔ ∃ entry, w.disk.lookup name = some entry ∧ entry.kind = kind := by
  unfold World.readDir
  rw [List.mem_mergeSort, List.mem_map]
  constructor
  · rintro ⟨⟨n, entry⟩, hmem, he⟩
    cases he
    exact ⟨entry, GoMap.lookup_eq_some_iff.mpr hmem, rfl⟩
  · rintro ⟨entry, he, rfl⟩
    exact ⟨⟨name, entry⟩, GoMap.lookup_eq_some_iff.mp he, rfl⟩

theorem nodup_readDir (w : World) : (w.readDir.map Prod.fst).Nodup := by
  have hperm : (w.readDir.map Prod.fst).Perm (w.disk.entries.map Sigma.fst) := by
    refine ((List.mergeSort_perm _ _).map Prod.fst).trans ?_
    rw [List.map_map]
    exact .refl _
  exact hperm.nodup_iff.mpr w.disk.nodupKeys

theorem hasSuffix_journalFile (runID : String) :
    hasSuffix (journalFile sourceID runID) ".json" = true := by
  simp [hasSuffix, journalFile]

end Stacklab.Backup
