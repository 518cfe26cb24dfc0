import Stacklab.Backup.ExecuteRun

/-! What the saved states of a run prove about its copies, and the invariant that keeps it. -/
namespace Stacklab.Backup

open Lib

/-- Every copy that `older` has verified is verified in `newer`, as the same snapshot of the
same destination at the same time. -/
def KeepsVerified (older newer : Run) : Prop :=
  ∀ i e, evidence older i = some e → evidence newer i = some e

def Complete (run : Run) : Prop :=
  ∀ copy ∈ run.copies, verifiedCopy copy = true ∧ copy.retention ≠ .failed

def CopyResult.Sound (copy : CopyResult) : Prop :=
  copy.state = .succeeded → verifiedCopy copy = true

def Run.Sound (run : Run) : Prop := ∀ copy ∈ run.copies, copy.Sound

/-- No verified copy of the record is one whose own save failed. -/
def SettledRun (w : RunWorld) (r : Run) : Prop := ∀ i ∈ w.unsaved, evidence r i = none

structure RunInv (w : RunWorld) : Prop where
  keptState : ∀ p ∈ w.persisted, KeepsVerified p w.state
  keptRun : ∀ p ∈ w.persisted, KeepsVerified p w.run
  memory : ∀ i, evidence w.state i = none ∨ evidence w.state i = evidence w.run i ∨ i ∈ w.unsaved
  ordered : w.persisted.Pairwise fun newer older => KeepsVerified older newer
  soundRun : w.run.Sound
  soundState : w.state.Sound
  soundPersisted : ∀ p ∈ w.persisted, p.Sound
  completeState : w.state.state = .succeeded → Complete w.state
  completePersisted : ∀ p ∈ w.persisted, p.state = .succeeded → Complete p

/-- The invariant while an execution owns the run. -/
structure Active (w : RunWorld) : Prop extends RunInv w where
  runRunning : w.run.state = .running
  stateRunning : w.state.state = .running

variable {w : RunWorld} {r r' : Run} {c : CopyResult} {i j : ℕ} {err : Option String}

theorem KeepsVerified.refl (r : Run) : KeepsVerified r r := fun _ _ h => h

theorem copyEvidence_eq_none : copyEvidence c = none ↔ verifiedCopy c = false := by
  unfold copyEvidence
  split
  next h =>
    have hv := h
    unfold verifiedCopy at hv
    simp only [Bool.and_eq_true, Option.isSome_iff_exists] at hv
    obtain ⟨⟨-, t, ht⟩, -⟩ := hv
    simp [h, ht]
  next h => simpa using h

theorem evidence_eq (r : Run) (i : ℕ) :
    evidence r i = ((r.copies.map copyEvidence)[i]?).bind id := by
  unfold evidence
  rw [List.getElem?_map]
  cases r.copies[i]? <;> rfl

/-- Only the evidence of the copies counts. -/
theorem evidence_congr (h : r.copies.map copyEvidence = r'.copies.map copyEvidence) (i : ℕ) :
    evidence r i = evidence r' i := by
  rw [evidence_eq, evidence_eq, h]

theorem keepsVerified_congr {p : Run} (h : ∀ i, evidence r' i = evidence r i) (hk : KeepsVerified p r) :
    KeepsVerified p r' :=
  fun i e he => (h i).trans (hk i e he)

theorem evidence_setCopy_of_ne (h : j ≠ i) :
    evidence (w.setCopy i c).run j = evidence w.run j := by
  unfold evidence RunWorld.setCopy
  rw [List.getElem?_set_ne (Ne.symm h)]

theorem evidence_setCopy_self (h : i < w.run.copies.length) :
    evidence (w.setCopy i c).run i = copyEvidence c := by
  unfold evidence RunWorld.setCopy
  rw [List.getElem?_set_self h]
  rfl

section

variable (h : RunInv w)
include h

theorem RunInv.setRun (hk : ∀ p ∈ w.persisted, KeepsVerified p r)
    (hm : ∀ i, evidence w.state i = none ∨ evidence w.state i = evidence r i ∨ i ∈ w.unsaved)
    (hs : r.Sound) : RunInv { w with run := r } :=
  { h with keptRun := hk, memory := hm, soundRun := hs }

/-- Replacing one copy of the shared run. -/
theorem RunInv.setCopy (hi : i < w.run.copies.length)
    (hp : ∀ p ∈ w.persisted, ∀ e, evidence p i = some e → copyEvidence c = some e)
    (hm : evidence w.state i = none ∨ evidence w.state i = copyEvidence c ∨ i ∈ w.unsaved)
    (hs : c.Sound) : RunInv (w.setCopy i c) := by
  refine h.setRun ?_ ?_ ?_
  · intro p hpm j e he
    by_cases hj : j = i
    · subst hj
      exact (evidence_setCopy_self hi).trans (hp p hpm e he)
    · exact (evidence_setCopy_of_ne hj).trans (h.keptRun p hpm j e he)
  · intro j
    by_cases hj : j = i
    · subst hj
      have heq := evidence_setCopy_self (c := c) hi
      rw [← heq] at hm
      exact hm
    · have heq := evidence_setCopy_of_ne (w := w) (c := c) hj
      have hmem := h.memory j
      rw [← heq] at hmem
      exact hmem
  · intro copy hc
    rcases List.mem_or_eq_of_mem_set hc with hc | rfl
    · exact h.soundRun copy hc
    · exact hs

/-- Storing a record whose evidence is that of the shared run. -/
theorem RunInv.store (hr : ∀ i, evidence r i = evidence w.run i) (hs : r.Sound)
    (hc : r.state = .succeeded → Complete r) : RunInv (w.store r) where
  keptState := fun p hp => keepsVerified_congr hr (h.keptRun p hp)
  keptRun := h.keptRun
  memory := fun i => .inr (.inl (hr i))
  ordered := h.ordered
  soundRun := h.soundRun
  soundState := hs
  soundPersisted := h.soundPersisted
  completeState := hc
  completePersisted := h.completePersisted

/-- Rewriting the record in memory without changing its evidence. -/
theorem RunInv.rewrite (hr : ∀ i, evidence r i = evidence w.state i) (hs : r.Sound)
    (hc : r.state = .succeeded → Complete r) : RunInv (w.store r) := by
  refine ⟨fun p hp => keepsVerified_congr hr (h.keptState p hp), h.keptRun, fun i => ?_, h.ordered,
    h.soundRun, hs, h.soundPersisted, hc, h.completePersisted⟩
  change evidence r i = none ∨ _ ∨ i ∈ w.unsaved.filter _
  rw [List.mem_filter, hr]
  rcases h.memory i with hm | hm | hm
  · exact .inl hm
  · exact .inr (.inl ((hr i).trans hm))
  · cases he : evidence w.state i with
    | none => exact .inl rfl
    | some e => exact .inr (.inr ⟨hm, rfl⟩)

theorem RunInv.persist (hk : err = none → KeepsVerified w.state w.run) :
    RunInv (w.persist err) := by
  cases err with
  | some e => exact h
  | none =>
    exact
      { h with
        keptState := List.forall_mem_cons.mpr ⟨KeepsVerified.refl _, h.keptState⟩
        keptRun := List.forall_mem_cons.mpr ⟨hk rfl, h.keptRun⟩
        ordered := List.pairwise_cons.mpr ⟨h.keptState, h.ordered⟩
        soundPersisted := List.forall_mem_cons.mpr ⟨h.soundState, h.soundPersisted⟩
        completePersisted := List.forall_mem_cons.mpr ⟨h.completeState, h.completePersisted⟩ }

/-- What the memory has beyond the shared run is unsaved. -/
theorem RunInv.state_kept (hw : SettledRun w w.state) : KeepsVerified w.state w.run := by
  intro i e he
  rcases h.memory i with hm | hm | hm
  · rw [he] at hm
    cases hm
  · exact hm ▸ he
  · have hn := hw i hm
    rw [he] at hn
    cases hn

theorem RunInv.noteUnsaved {phase : RunPhase} : RunInv (w.noteUnsaved i c phase err) := by
  unfold RunWorld.noteUnsaved
  split
  · refine { h with memory := fun j => ?_ }
    rcases h.memory j with hm | hm | hm
    · exact .inl hm
    · exact .inr (.inl hm)
    · exact .inr (.inr (List.mem_cons_of_mem i hm))
  · exact h

/-- After a restart the memory is the newest saved state. -/
theorem RunInv.restart : RunInv (RunSystem.restart w) := by
  have hsaved : w.persisted.headD w.state = w.state ∨
      w.persisted.headD w.state ∈ w.persisted := by
    cases w.persisted with
    | nil => exact .inl rfl
    | cons saved rest => exact .inr List.mem_cons_self
  have hkept : ∀ p ∈ w.persisted, KeepsVerified p (w.persisted.headD w.state) := by
    have ho := h.ordered
    cases hp : w.persisted with
    | nil => simp
    | cons saved rest =>
      rw [hp] at ho
      exact List.forall_mem_cons.mpr ⟨KeepsVerified.refl saved, (List.pairwise_cons.mp ho).1⟩
  have hsound : (w.persisted.headD w.state).Sound := by
    rcases hsaved with heq | hmem
    · rw [heq]
      exact h.soundState
    · exact h.soundPersisted _ hmem
  have hcomplete : (w.persisted.headD w.state).state = .succeeded →
      Complete (w.persisted.headD w.state) := by
    rcases hsaved with heq | hmem
    · rw [heq]
      exact h.completeState
    · exact h.completePersisted _ hmem
  exact ⟨hkept, hkept, fun i => .inr (.inl rfl), h.ordered, hsound, hsound,
    h.soundPersisted, hcomplete, h.completePersisted⟩

end

end Stacklab.Backup
