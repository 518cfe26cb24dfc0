import Stacklab.Backup.RunEvidence

/-! Each copy's thread keeps the evidence of the run, whatever the other copies do. -/
namespace Stacklab.Backup

open Lib Prog RunWorld

/-- The command saves the shared run. -/
def RunCmd.saves : RunCmd → Bool
  | .saveRun | .update _ _ _ => true
  | _ => false

/-- A save goes through only if it writes no verified copy whose own save failed. -/
def CarefulCmd (c : RunCmd) (o : RunOut) (w : RunWorld) : Prop :=
  c.saves = true → o.err = none → SettledRun w w.run

/-- What others leave alone of the `i`-th copy. -/
structure CopyRely (i : ℕ) (w w' : RunWorld) : Prop where
  length : w'.run.copies.length = w.run.copies.length
  run : evidence w'.run i = evidence w.run i
  persisted : ∀ p ∈ w'.persisted, p ∈ w.persisted ∨ evidence p i = none ∨
    evidence p i = evidence w.run i ∧ i ∉ w.unsaved
  unsaved : i ∈ w.unsaved → i ∈ w'.unsaved ∨ evidence w.run i = none

def CopyGuarantee (i : ℕ) (w w' : RunWorld) : Prop := ∀ j, j ≠ i → CopyRely j w w'

abbrev ThreadSafe {α : Type} (i : ℕ) (p : RunProg α) (Q : α → RunWorld → Prop)
    (w : RunWorld) : Prop :=
  p.Safe runMachine CarefulCmd Active (CopyRely i) (CopyGuarantee i) Q w

/-- The run has this evidence of the copy, and no saved state has other evidence. -/
structure CopyAt (i : ℕ) (e : Option (String × String × Instant)) (w : RunWorld) : Prop where
  bound : i < w.run.copies.length
  run : evidence w.run i = e
  persisted : ∀ p ∈ w.persisted, evidence p i = none ∨ evidence p i = e

/-- The copy is not verified anywhere. -/
abbrev OpenCopy (i : ℕ) : RunWorld → Prop := CopyAt i none

/-- The copy is verified in memory at most, where its save failed. -/
structure LostCopy (i : ℕ) (w : RunWorld) : Prop where
  bound : i < w.run.copies.length
  run : i ∈ w.unsaved ∨ evidence w.run i = none
  fresh : ∀ p ∈ w.persisted, evidence p i = none

variable {w w' u : RunWorld} {i j : ℕ} {c r : CopyResult}
  {e : Option (String × String × Instant)} {v : String × String × Instant} {o : RunOut}
  {phase : RunPhase} {α : Type} {Q : α → RunWorld → Prop}
  {k : Option String → RunProg α} {err : Option String}

theorem CopyRely.refl (i : ℕ) (w : RunWorld) : CopyRely i w w :=
  ⟨rfl, rfl, fun _ h => .inl h, .inl⟩

theorem CopyRely.trans (h : CopyRely i w w') (h' : CopyRely i w' u) : CopyRely i w u := by
  refine ⟨h'.length.trans h.length, h'.run.trans h.run, fun p hp => ?_, fun hi => ?_⟩
  · rcases h'.persisted p hp with hp | hp | ⟨hp, hn⟩
    · exact h.persisted p hp
    · exact .inr (.inl hp)
    · rw [h.run] at hp
      by_cases hi : i ∈ w.unsaved
      · rcases h.unsaved hi with hi' | hnone
        · exact absurd hi' hn
        · exact .inr (.inl (hp.trans hnone))
      · exact .inr (.inr ⟨hp, hi⟩)
  · rcases h.unsaved hi with hi' | hnone
    · rcases h'.unsaved hi' with hi'' | hnone
      · exact .inl hi''
      · exact .inr (h.run ▸ hnone)
    · exact .inr hnone

theorem copyRely_compatible : Pool.Compatible CopyRely CopyGuarantee where
  refl := CopyRely.refl
  trans := fun _ _ _ _ => CopyRely.trans
  other := fun _ t' _ _ ht h => h t' (Ne.symm ht)

theorem CopyAt.stable (h : CopyAt i e w) (hR : CopyRely i w w') : CopyAt i e w' := by
  refine ⟨hR.length ▸ h.bound, hR.run.trans h.run, fun p hp => ?_⟩
  rcases hR.persisted p hp with hp | hp | ⟨hp, -⟩
  · exact h.persisted p hp
  · exact .inl hp
  · exact .inr (hp.trans h.run)

theorem OpenCopy.fresh (h : OpenCopy i w) {p : Run} (hp : p ∈ w.persisted) : evidence p i = none :=
  (h.persisted p hp).elim id id

theorem LostCopy.stable (h : LostCopy i w) (hR : CopyRely i w w') : LostCopy i w' := by
  refine ⟨hR.length ▸ h.bound, ?_, fun p hp => ?_⟩
  · rcases h.run with hi | hnone
    · rcases hR.unsaved hi with hi | hnone
      · exact .inl hi
      · exact .inr (hR.run.trans hnone)
    · exact .inr (hR.run.trans hnone)
  · rcases hR.persisted p hp with hp | hp | ⟨hp, hn⟩
    · exact h.fresh p hp
    · exact hp
    · rcases h.run with hi | hnone
      · exact absurd hi hn
      · exact hp.trans hnone

theorem OpenCopy.lost (h : OpenCopy i w) : LostCopy i w :=
  ⟨h.bound, .inr h.run, fun _ hp => h.fresh hp⟩

section Worlds

variable {err : Option String} {p : Run}

@[simp] theorem RunWorld.persist_run : (w.persist err).run = w.run := by
  cases err <;> rfl

@[simp] theorem RunWorld.persist_unsaved : (w.persist err).unsaved = w.unsaved := by
  cases err <;> rfl

@[simp] theorem RunWorld.noteUnsaved_run : (w.noteUnsaved i c phase err).run = w.run := by
  unfold noteUnsaved
  split <;> rfl

@[simp] theorem RunWorld.noteUnsaved_state : (w.noteUnsaved i c phase err).state = w.state := by
  unfold noteUnsaved
  split <;> rfl

@[simp] theorem RunWorld.noteUnsaved_persisted :
    (w.noteUnsaved i c phase err).persisted = w.persisted := by
  unfold noteUnsaved
  split <;> rfl

theorem RunWorld.mem_noteUnsaved (h : j ∈ w.unsaved) :
    j ∈ (w.noteUnsaved i c phase err).unsaved := by
  unfold noteUnsaved
  split
  · exact List.mem_cons_of_mem i h
  · exact h

@[simp] theorem RunWorld.persist_state : (w.persist err).state = w.state := by
  cases err <;> rfl

theorem RunWorld.mem_persist (h : p ∈ (w.persist err).persisted) :
    p ∈ w.persisted ∨ err = none ∧ p = w.state := by
  cases err with
  | none =>
    rcases List.mem_cons.mp h with rfl | h
    · exact .inr ⟨rfl, rfl⟩
    · exact .inl h
  | some _ => exact .inl h

/-- The shared run after a copy's update. -/
theorem update_run : (runExec (.update i c phase) o w).2.run = (w.updated i c phase).run := by
  simp only [runExec, noteUnsaved_run, persist_run]
  rfl

theorem mem_update (h : p ∈ (runExec (.update i c phase) o w).2.persisted) :
    p ∈ w.persisted ∨ o.err = none ∧ p = (w.updated i c phase).run := by
  simp only [runExec, noteUnsaved_persisted] at h
  exact mem_persist h

theorem evidence_updated_of_ne (h : j ≠ i) :
    evidence (w.updated i c phase).run j = evidence w.run j :=
  evidence_setCopy_of_ne h

theorem evidence_updated_self (h : i < w.run.copies.length) :
    evidence (w.updated i c phase).run i = copyEvidence c :=
  evidence_setCopy_self h

end Worlds

/-- A copy's update leaves the other copies alone. -/
theorem copyRely_update (hj : j ≠ i) (ho : o.err = none → SettledRun w w.run) :
    CopyRely j w (runExec (.update i c phase) o w).2 := by
  refine ⟨?_, ?_, fun p hp => ?_, fun hu => ?_⟩
  · rw [update_run]
    exact List.length_set
  · rw [update_run]
    exact evidence_updated_of_ne hj
  · rcases mem_update hp with hp | ⟨herr, rfl⟩
    · exact .inl hp
    · rw [evidence_updated_of_ne hj]
      by_cases hu : j ∈ w.unsaved
      · exact .inr (.inl (ho herr j hu))
      · exact .inr (.inr ⟨rfl, hu⟩)
  · by_cases he : evidence w.run j = none
    · exact .inr he
    · refine .inl (mem_noteUnsaved ?_)
      rw [persist_unsaved]
      refine List.mem_filter.mpr ⟨hu, ?_⟩
      rw [evidence_updated_of_ne hj]
      exact Option.isSome_iff_ne_none.mpr he

theorem active_update (h : Active w) (hcopy : RunInv (w.setCopy i c)) :
    Active (runExec (.update i c phase) o w).2 := by
  have hset : RunInv (w.updated i c phase) :=
    hcopy.setRun hcopy.keptRun hcopy.memory hcopy.soundRun
  have hrunning : (w.updated i c phase).run.state = .running := h.runRunning
  have hstore : RunInv ((w.updated i c phase).store (w.updated i c phase).run) := by
    refine hset.store (fun _ => rfl) hset.soundRun fun hsucc => ?_
    rw [hrunning] at hsucc
    cases hsucc
  refine ⟨(hstore.persist fun _ => KeepsVerified.refl _).noteUnsaved, ?_, ?_⟩
  · rw [update_run]
    exact hrunning
  · simp only [runExec, noteUnsaved_state, persist_state]
    exact hrunning

/-- A copy that proves the same takes the place of the old one. -/
theorem CopyAt.setCopy (h : CopyAt i e w) (hI : RunInv w) (hc : copyEvidence c = e)
    (hs : c.Sound) : RunInv (w.setCopy i c) := by
  refine hI.setCopy h.bound (fun p hp v hv => ?_) ?_ hs
  · rcases h.persisted p hp with hn | he
    · rw [hn] at hv
      cases hv
    · rw [hc, ← he, hv]
  · rw [hc, ← h.run]
    exact hI.memory i

theorem not_verified_of_state (h : c.state ≠ .succeeded) : verifiedCopy c = false := by
  simp [verifiedCopy, h]

theorem copyEvidence_of_state (h : c.state ≠ .succeeded) : copyEvidence c = none :=
  copyEvidence_eq_none.mpr (not_verified_of_state h)

theorem sound_of_state (h : c.state ≠ .succeeded) : c.Sound := fun hs => absurd hs h

theorem verified_of_evidence (h : copyEvidence c = some v) : verifiedCopy c = true := by
  cases hv : verifiedCopy c with
  | true => rfl
  | false =>
    rw [copyEvidence_eq_none.mpr hv] at h
    cases h

theorem sound_of_evidence (h : copyEvidence c = some v) : c.Sound := fun _ => verified_of_evidence h

theorem exists_evidence (h : verifiedCopy c = true) : ∃ v, copyEvidence c = some v := by
  cases hv : copyEvidence c with
  | some v => exact ⟨v, rfl⟩
  | none =>
    rw [copyEvidence_eq_none.mp hv] at h
    cases h

/-- A command that changes nothing. -/
theorem safe_read {cmd : RunCmd} {k : RunAns cmd → RunProg α} (h : CopyAt i e w)
    (hread : ∀ o u, (runExec cmd o u).2 = u) (hk : ∀ a u, CopyAt i e u → ThreadSafe i (k a) Q u) :
    ThreadSafe i (cmd.issue >>= k) Q w := by
  refine safe_issue_bind h (fun _ _ => CopyAt.stable) ?_
  intro u o hu hI _
  have hsame : (runMachine.exec cmd o u).2 = u := hread o u
  rw [hsame]
  exact ⟨fun j _ => CopyRely.refl j u, hI, hk _ u hu⟩

/-- An update that keeps what the copy proves. -/
theorem safe_update (h : CopyAt i e w) (hc : copyEvidence c = e) (hs : c.Sound)
    (hk : ∀ err u, CopyAt i e u → ThreadSafe i (k err) Q u) :
    ThreadSafe i (RunCmd.issue (.update i c phase) >>= k) Q w := by
  refine safe_issue_bind h (fun _ _ => CopyAt.stable) ?_
  intro u o hu hI ho
  refine ⟨fun j hj => copyRely_update hj (ho rfl),
    active_update hI (hu.setCopy hI.toRunInv hc hs), hk _ _ ⟨?_, ?_, fun p hp => ?_⟩⟩
  · rw [runMachine, update_run]
    exact List.length_set.symm ▸ hu.bound
  · rw [runMachine, update_run, evidence_updated_self hu.bound, hc]
  · rcases mem_update hp with hp | ⟨-, rfl⟩
    · exact hu.persisted p hp
    · exact .inr ((evidence_updated_self hu.bound).trans hc)

/-- An update that leaves the copy unverified. -/
theorem safe_update_open (h : OpenCopy i w) (hc : c.state ≠ .succeeded)
    (hk : ∀ err u, OpenCopy i u → ThreadSafe i (k err) Q u) :
    ThreadSafe i (RunCmd.issue (.update i c phase) >>= k) Q w :=
  safe_update h (copyEvidence_of_state hc) (sound_of_state hc) hk

/-- The update that first has the copy verified: a failed save leaves it in memory only. -/
theorem safe_update_verified (h : OpenCopy i w) (hc : copyEvidence c = some v)
    (hok : ∀ u, CopyAt i (some v) u → ThreadSafe i (k none) Q u)
    (hfail : ∀ err u, LostCopy i u → ThreadSafe i (k (some err)) Q u) :
    ThreadSafe i (RunCmd.issue (.update i c .upload) >>= k) Q w := by
  refine safe_issue_bind h (fun _ _ hu => hu.stable) ?_
  intro u o hu hI ho
  have hlen : i < (runMachine.exec (.update i c .upload) o u).2.run.copies.length := by
    rw [runMachine, update_run]
    exact List.length_set.symm ▸ hu.bound
  refine ⟨fun j hj => copyRely_update hj (ho rfl), ?_, ?_⟩
  · refine active_update hI (hI.toRunInv.setCopy hu.bound (fun p hp e he => ?_) ?_
      (sound_of_evidence hc))
    · rw [OpenCopy.fresh hu hp] at he
      cases he
    · rcases hI.memory i with hm | hm | hm
      · exact .inl hm
      · exact .inl (hm.trans hu.run)
      · exact .inr (.inr hm)
  · change ThreadSafe i (k o.err) Q _
    cases herr : o.err with
    | none =>
      refine hok _ ⟨hlen, ?_, fun p hp => ?_⟩
      · rw [runMachine, update_run, evidence_updated_self hu.bound, hc]
      · rcases mem_update hp with hp | ⟨-, rfl⟩
        · exact .inl (OpenCopy.fresh hu hp)
        · exact .inr ((evidence_updated_self hu.bound).trans hc)
    | some err =>
      refine hfail err _ ⟨hlen, .inl ?_, fun p hp => ?_⟩
      · have hv := verified_of_evidence hc
        simp [runMachine, runExec, noteUnsaved, herr, hv]
      · rcases mem_update hp with hp | ⟨hn, -⟩
        · exact OpenCopy.fresh hu hp
        · rw [herr] at hn
          cases hn

/-- A report of the upload touches memory only. -/
theorem safe_progress {k : Unit → RunProg α} (h : OpenCopy i w) (hc : c.state ≠ .succeeded)
    (hk : ∀ u, OpenCopy i u → ThreadSafe i (k ()) Q u) :
    ThreadSafe i (RunCmd.issue (.progress i c) >>= k) Q w := by
  refine safe_issue_bind h (fun _ _ hu => hu.stable) ?_
  intro u o hu hI _
  have hnone := copyEvidence_of_state hc
  have hset : RunInv (u.setCopy i c) := hu.setCopy hI.toRunInv hnone (sound_of_state hc)
  refine ⟨fun j hj => ⟨List.length_set, evidence_setCopy_of_ne hj, fun p hp => .inl hp, ?_⟩,
    ⟨hset.store (fun _ => rfl) hset.soundRun ?_, hI.runRunning, hI.runRunning⟩, hk _ ⟨?_, ?_, ?_⟩⟩
  · intro hu'
    by_cases he : evidence u.run j = none
    · exact .inr he
    · refine .inl (List.mem_filter.mpr ⟨hu', ?_⟩)
      rw [evidence_setCopy_of_ne hj]
      exact Option.isSome_iff_ne_none.mpr he
  · intro hsucc
    have hrunning := hI.runRunning
    change (u.setCopy i c).run.state = _ at hrunning
    rw [hrunning] at hsucc
    cases hsucc
  · exact List.length_set.symm ▸ hu.bound
  · exact (evidence_setCopy_self hu.bound).trans hnone
  · exact hu.persisted

theorem safe_endRetention (h : CopyAt i (some v) w) (hc : copyEvidence c = some v) :
    ThreadSafe i (endRetention i c)
      (fun r u => CopyAt i (some v) u ∧ copyEvidence r = some v) w := by
  refine safe_update h hc (sound_of_evidence hc) fun err u hu => ?_
  cases err with
  | none => exact safe_pure fun v hR _ => ⟨hu.stable hR, hc⟩
  | some err => exact safe_pure fun v hR _ => ⟨hu.stable hR, hc⟩

theorem safe_runRetention {saveErr : Option String} (h : CopyAt i e w) :
    ThreadSafe i (runRetention c saveErr) (fun _ => CopyAt i e) w := by
  have hdone {r : Option String} {u : RunWorld} (hu : CopyAt i e u) :
      ThreadSafe i (pure r) (fun _ => CopyAt i e) u :=
    safe_pure fun v hR _ => hu.stable hR
  cases saveErr with
  | some err => exact hdone h
  | none =>
    refine safe_read h (fun _ _ => rfl) fun (ctxErr : Option String) u hu => ?_
    cases ctxErr with
    | some err => exact hdone hu
    | none =>
      refine safe_read hu (fun _ _ => rfl) fun (policyErr : Option String) u hu => ?_
      cases policyErr with
      | some err => exact hdone hu
      | none =>
        refine safe_read hu (fun _ _ => rfl) fun (retainErr : Option String) u hu => ?_
        cases retainErr with
        | some err => exact hdone hu
        | none => exact safe_read hu (fun _ _ => rfl) fun _ u hu => hdone hu

theorem safe_executeRetention (h : CopyAt i (some v) w) (hc : copyEvidence c = some v) :
    ThreadSafe i (executeRetention i c)
      (fun r u => CopyAt i (some v) u ∧ copyEvidence r = some v) w := by
  refine safe_read h (fun _ _ => rfl) fun (paused : Bool) u hu => ?_
  cases paused with
  | true => exact safe_endRetention hu hc
  | false =>
    refine safe_read hu (fun _ _ => rfl) fun (started : Instant) u hu => ?_
    refine safe_update hu hc (sound_of_evidence hc) fun saveErr u hu => ?_
    refine safe_bind (CopyRely.refl i) ?_
    refine (safe_runRetention hu).post fun err u _ hu => ?_
    refine safe_read hu (fun _ _ => rfl) fun (completed : Instant) u hu => ?_
    cases err with
    | none => exact safe_endRetention hu hc
    | some err => exact safe_endRetention hu hc

theorem safe_beginCopy (h : OpenCopy i w) (hc : c.state = .running) :
    ThreadSafe i (beginCopy i c) (fun _ => OpenCopy i) w := by
  refine safe_read h (fun _ _ => rfl) fun (found : Bool) u hu => ?_
  cases found with
  | false => exact safe_pure fun v hR _ => hu.stable hR
  | true =>
    refine safe_update_open hu (by rw [hc]; decide) fun err u hu => ?_
    exact safe_pure fun v hR _ => hu.stable hR

theorem safe_reportProgress {reports : List TransferProgress} (h : OpenCopy i w)
    (hc : c.state = .running) :
    ThreadSafe i (reportProgress i c reports) (fun r u => OpenCopy i u ∧ r.state = .running) w := by
  induction reports generalizing c w with
  | nil => exact safe_pure fun v hR _ => ⟨h.stable hR, hc⟩
  | cons progress rest ih =>
    refine safe_progress h ?_ fun u hu => ih hu hc
    rw [hc]
    decide

theorem ne_empty_of_validSnapshotID {id : String} (h : validSnapshotID id = true) : id ≠ "" := by
  rintro rfl
  revert h
  decide

/-- A transfer without error has a snapshot. -/
theorem safe_transferCopy (h : OpenCopy i w) (hc : c.state = .running) :
    ThreadSafe i (transferCopy i c err) (fun r u => OpenCopy i u ∧ r.1.state = .running ∧
      (r.2 = none → r.1.snapshotID ≠ "")) w := by
  unfold transferCopy
  split
  next hskip =>
    refine safe_pure fun v hR _ => ⟨h.stable hR, hc, fun herr => ?_⟩
    simpa [show err = none from herr] using hskip
  next =>
    refine safe_read h (fun _ _ => rfl) fun (reports : List TransferProgress) u hu => ?_
    refine safe_bind (CopyRely.refl i) ?_
    refine (safe_reportProgress hu hc).post fun c u _ ⟨hu, hc⟩ => ?_
    refine safe_issue_bind hu (fun _ _ hu => hu.stable) ?_
    intro u o hu hI _
    refine ⟨fun j _ => CopyRely.refl j u, hI, ?_⟩
    have hfail (err : String) : ThreadSafe i (pure ({ c with snapshotID := "" }, some err))
        (fun r u => OpenCopy i u ∧ r.1.state = .running ∧ (r.2 = none → r.1.snapshotID ≠ "")) u :=
      safe_pure fun v hR _ => ⟨hu.stable hR, hc, fun hn => by cases hn⟩
    simp only [runMachine, runExec]
    cases o.snapshot with
    | error err => exact hfail err
    | ok id =>
      by_cases hid : validSnapshotID id = true
      · simp only [hid]
        refine safe_read hu (fun _ _ => rfl) fun (now : Instant) u hu => ?_
        exact safe_pure fun v hR _ =>
          ⟨hu.stable hR, hc, fun _ => ne_empty_of_validSnapshotID hid⟩
      · simp only [hid]
        exact hfail _

/-- What `verifyTransfer` has established when it reports no error. -/
def Established (c : CopyResult) : Prop :=
  c.verification = .recoveryObjectsVerified ∧ c.verifiedAt.isSome = true ∧ c.snapshotID ≠ ""

theorem safe_verifyTransfer (h : OpenCopy i w) (hc : c.state = .running)
    (hid : err = none → c.snapshotID ≠ "") :
    ThreadSafe i (verifyTransfer i c err) (fun r u => OpenCopy i u ∧ r.1.state = .running ∧
      (r.2 = none → Established r.1)) w := by
  have hfail {r : CopyResult} {e : String} {u : RunWorld} (hu : OpenCopy i u)
      (hr : r.state = .running) : ThreadSafe i (pure (r, some e)) (fun r u => OpenCopy i u ∧
        r.1.state = .running ∧ (r.2 = none → Established r.1)) u :=
    safe_pure fun v hR _ => ⟨hu.stable hR, hr, fun hn => by cases hn⟩
  cases err with
  | some err => exact hfail h hc
  | none =>
    refine safe_update_open h (by rw [hc]; decide) fun saveErr u hu => ?_
    cases saveErr with
    | some err => exact hfail hu hc
    | none =>
      refine safe_read hu (fun _ _ => rfl) fun (failure : Option VerifyError) u hu => ?_
      cases failure with
      | some failure =>
        cases failure with
        | incomplete message => exact hfail hu hc
        | unavailable message => exact hfail hu hc
      | none =>
        refine safe_read hu (fun _ _ => rfl) fun (now : Instant) u hu => ?_
        exact safe_pure fun v hR _ => ⟨hu.stable hR, hc, fun _ => ⟨rfl, rfl, hid rfl⟩⟩

/-- What a copy's thread returns agrees with what the run has saved of it. -/
def Returned (i : ℕ) (r : CopyResult) (w : RunWorld) : Prop :=
  LostCopy i w ∧ r.state ≠ .succeeded ∨ ∃ v, CopyAt i (some v) w ∧ copyEvidence r = some v

theorem Returned.stable (h : Returned i r w) (hR : CopyRely i w w') : Returned i r w' := by
  rcases h with ⟨hl, hr⟩ | ⟨v, hk, hr⟩
  · exact .inl ⟨hl.stable hR, hr⟩
  · exact .inr ⟨v, hk.stable hR, hr⟩

theorem safe_completeCopy (h : OpenCopy i w)
    (hc : c.state ≠ .succeeded ∨ verifiedCopy c = true) :
    ThreadSafe i (completeCopy i c) (Returned i) w := by
  rcases hc with hc | hv
  · refine safe_update_open h hc fun saveErr u hu => ?_
    have hplain {r : CopyResult} (hr : r.state ≠ .succeeded) :
        ThreadSafe i (if verifiedCopy r then executeRetention i r else pure r) (Returned i) u := by
      rw [if_neg (by simp [not_verified_of_state hr])]
      exact safe_pure fun v hR _ => .inl ⟨OpenCopy.lost (hu.stable hR), hr⟩
    cases saveErr with
    | none => exact hplain hc
    | some err => exact hplain (by simp)
  · obtain ⟨v, he⟩ := exists_evidence hv
    refine safe_update_verified h he (fun u hu => ?_) fun err u hu => ?_
    · dsimp only
      rw [if_pos hv]
      exact (safe_executeRetention hu he).post fun r u _ hr => .inr ⟨v, hr⟩
    · dsimp only
      rw [if_neg (by simp [verifiedCopy])]
      exact safe_pure fun v hR _ => .inl ⟨hu.stable hR, by simp⟩

theorem safe_executeCopy
    (h : verifiedCopy c = false ∧ OpenCopy i w ∨
      ∃ v, CopyAt i (some v) w ∧ copyEvidence c = some v) :
    ThreadSafe i (executeCopy i c) (Returned i) w := by
  rcases h with ⟨hv, h⟩ | ⟨v, hk, he⟩
  · unfold executeCopy
    rw [if_neg (by simp [hv])]
    refine safe_read h (fun _ _ => rfl) fun (started : Instant) u hu => ?_
    refine safe_bind (CopyRely.refl i) ?_
    refine (safe_beginCopy hu rfl).post fun beginErr u _ hu => ?_
    refine safe_bind (CopyRely.refl i) ?_
    refine (safe_transferCopy hu rfl).post ?_
    rintro ⟨c, transferErr⟩ u - ⟨hu, hc, hid⟩
    refine safe_bind (CopyRely.refl i) ?_
    refine (safe_verifyTransfer hu hc hid).post ?_
    rintro ⟨c, err⟩ u - ⟨hu, hc, hdone⟩
    refine safe_read hu (fun _ _ => rfl) fun (completed : Instant) u hu => ?_
    cases err with
    | none =>
      obtain ⟨h1, h2, h3⟩ := hdone rfl
      exact safe_completeCopy hu (.inr (by simp_all [verifiedCopy]))
    | some err => exact safe_completeCopy hu (.inl (by simp))
  · unfold executeCopy
    rw [if_pos (verified_of_evidence he)]
    exact (safe_executeRetention hk he).post fun r u _ hr => .inr ⟨v, hr⟩

theorem copyRely_setCopy (hj : j ≠ i) : CopyRely j w (w.setCopy i c) :=
  ⟨List.length_set, evidence_setCopy_of_ne hj, fun _ hp => .inl hp, .inl⟩

theorem released_state (err : Option String) (h : c.state ≠ .succeeded) :
    (released err c).state ≠ .succeeded := by
  cases err with
  | none => exact h
  | some err => simp [released, not_verified_of_state h]

theorem released_evidence (err : Option String) (h : copyEvidence c = some v) :
    copyEvidence (released err c) = some v := by
  cases err with
  | none => exact h
  | some err =>
    simp only [released, verified_of_evidence h, if_true]
    exact h

theorem active_record (h : Active w) (hr : Returned i r w) :
    Active (w.setCopy i (released err r)) := by
  refine ⟨?_, h.runRunning, h.stateRunning⟩
  rcases hr with ⟨hl, hr⟩ | ⟨v, hk, hr⟩
  · have hstate := released_state err hr
    have hnone := copyEvidence_of_state hstate
    refine h.toRunInv.setCopy hl.bound (fun p hp e he => ?_) ?_ (sound_of_state hstate)
    · rw [hl.fresh p hp] at he
      cases he
    · rcases hl.run with hu | hrun
      · exact .inr (.inr hu)
      · have hmem := h.memory i
        rw [hrun] at hmem
        rw [hnone]
        exact hmem
  · have hev := released_evidence err hr
    exact hk.setCopy h.toRunInv hev (sound_of_evidence hev)

/-- A copy's thread is safe from a run that agrees with the saved states. -/
theorem safe_copyThread (h : Active w) (hc : w.run.copies[i]? = some c) :
    ThreadSafe i (copyThread i c) (fun _ _ => True) w := by
  have hev : evidence w.run i = copyEvidence c := by
    unfold evidence
    rw [hc]
    rfl
  have hbound : i < w.run.copies.length := (List.getElem?_eq_some_iff.mp hc).1
  refine safe_bind (CopyRely.refl i) ?_
  have hcopy : CopyAt i (copyEvidence c) w := by
    refine ⟨hbound, hev, fun p hp => ?_⟩
    cases hpe : evidence p i with
    | none => exact .inl rfl
    | some e => exact .inr ((h.keptRun p hp i e hpe).symm.trans hev)
  refine (safe_executeCopy ?_).post fun r u _ hr => ?_
  · cases he : copyEvidence c with
    | none =>
      rw [he] at hcopy
      exact .inl ⟨copyEvidence_eq_none.mp he, hcopy⟩
    | some v =>
      rw [he] at hcopy
      exact .inr ⟨v, hcopy, rfl⟩
  · refine safe_issue_bind (k := pure) hr (fun _ _ => Returned.stable) ?_
    intro v o hv hI _
    exact ⟨fun j hj => copyRely_setCopy hj, active_record hI hv, safe_pure fun _ _ _ => trivial⟩

end Stacklab.Backup
