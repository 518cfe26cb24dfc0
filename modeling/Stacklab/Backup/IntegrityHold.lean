import Stacklab.Backup.CheckEvidence
import Mathlib.Data.List.Induction

/-! Maintenance of a repository is blocked exactly while some check attempt is unresolved. -/
namespace Stacklab.Backup

open Lib

/-- The policies that a check can be started with. -/
inductive CheckPolicy
  | unset
  | metadata
  | subset
  | all
  deriving DecidableEq, Repr

def CheckPolicy.scope : CheckPolicy → CheckScope
  | .unset => .unset
  | .metadata => .metadata
  | .subset => .subset
  | .all => .all

/-- The check reads no file data. -/
def CheckPolicy.metadataOnly : CheckPolicy → Bool
  | .unset | .metadata => true
  | .subset | .all => false

structure Attempt where
  policy : CheckPolicy
  time : Instant
  err : Option CheckError

def Attempt.record (d : Destination) (a : Attempt) : Destination :=
  recordCheckAttempt d a.policy.scope a.time a.err

/-- The attempt found damage, or ended without a verdict. -/
def Attempt.Blocks (a : Attempt) : Prop :=
  ∃ e, a.err = some e ∧ (e.code = some .integrityFailed ∨ e.code = some .checkInconclusive)

def Attempt.ResolvedBy (a b : Attempt) : Prop :=
  b.err = none ∧ (a.policy.metadataOnly = true ∨ b.policy = .all)

/-- A blocking attempt that no later attempt resolves. -/
def Unresolved (history : List Attempt) : Prop :=
  ∃ before a after, history = before ++ a :: after ∧ a.Blocks ∧ ∀ b ∈ after, ¬a.ResolvedBy b

/-- Other errors do not carry the text that older versions used for inconclusive checks. -/
def Attempt.Modern (a : Attempt) : Prop :=
  ∀ e, a.err = some e → ¬a.Blocks → contains e.message legacyInconclusive = false

structure NoCheckEvidence (d : Destination) : Prop where
  metadata : d.metadataCheck.missing = true
  data : d.dataCheck.missing = true
  hold : d.checkHold = none
  aggregate : d.checkStatus = .unset ∨ d.checkStatus = .unknown
  attempt : d.lastCheckAttemptStatus = .unset

/-- An unresolved attempt that read only metadata, or one that read file data. -/
def OpenAt (metadataOnly : Bool) (history : List Attempt) : Prop :=
  ∃ before a after, history = before ++ a :: after ∧ a.policy.metadataOnly = metadataOnly ∧
    a.Blocks ∧ ∀ b ∈ after, ¬a.ResolvedBy b

variable {d : Destination} {history : List Attempt} {a : Attempt} {M F : Prop} {m : Bool}
  {e : CheckEvidence} {policy : CheckPolicy}

theorem unresolved_iff : Unresolved history ↔ OpenAt true history ∨ OpenAt false history := by
  constructor
  · rintro ⟨before, a, after, rfl, hb, hr⟩
    cases hp : a.policy.metadataOnly with
    | true => exact .inl ⟨before, a, after, rfl, hp, hb, hr⟩
    | false => exact .inr ⟨before, a, after, rfl, hp, hb, hr⟩
  · rintro (⟨before, a, after, rfl, -, h⟩ | ⟨before, a, after, rfl, -, h⟩)
    · exact ⟨before, a, after, rfl, h⟩
    · exact ⟨before, a, after, rfl, h⟩

theorem not_openAt_nil : ¬OpenAt m [] := by
  rintro ⟨before, a, after, h, -⟩
  simp at h

/-- What one more attempt does to the open ones. -/
theorem openAt_snoc : OpenAt m (history ++ [a]) ↔
    a.policy.metadataOnly = m ∧ a.Blocks ∨
      OpenAt m history ∧ ¬(a.err = none ∧ (m = true ∨ a.policy = .all)) := by
  constructor
  · rintro ⟨before, b, after, h, hp, hb, hr⟩
    rcases List.eq_nil_or_concat after with rfl | ⟨after, c, rfl⟩
    · obtain ⟨-, hab⟩ := List.append_inj' h rfl
      cases hab
      exact .inl ⟨hp, hb⟩
    · rw [List.concat_eq_append, ← List.cons_append, ← List.append_assoc] at h
      obtain ⟨hh, hac⟩ := List.append_inj' h rfl
      cases hac
      have hra := hr a (by simp)
      rw [Attempt.ResolvedBy, hp] at hra
      exact .inr ⟨⟨before, b, after, hh, hp, hb, fun c hc => hr c (by simp [hc])⟩, hra⟩
  · rintro (⟨hp, hb⟩ | ⟨⟨before, b, after, rfl, hp, hb, hr⟩, ha⟩)
    · exact ⟨history, a, [], rfl, hp, hb, by simp⟩
    · refine ⟨before, b, after ++ [a], by simp, hp, hb, ?_⟩
      intro c hc
      rcases List.mem_append.mp hc with hc | hc
      · exact hr c hc
      · cases List.mem_singleton.mp hc
        rwa [Attempt.ResolvedBy, hp]

/-- The evidence shows an open metadata attempt (`M`) and an open data attempt (`F`), and
nothing else. -/
structure Reflects (d : Destination) (M F : Prop) : Prop where
  metadata_failed : d.metadataCheck.status = .failed → M
  data_failed : d.dataCheck.status = .failed → F
  hold_metadata : ∀ hold, d.checkHold = some hold → hold.scope = .metadata → M
  hold_data : ∀ hold, d.checkHold = some hold → hold.scope ≠ .metadata → F
  metadata_open : M → d.metadataCheck.status = .failed ∨ d.checkHold ≠ none
  data_open : F → d.dataCheck.status = .failed ∨
    ∃ hold, d.checkHold = some hold ∧ hold.scope ≠ .metadata
  metadata_scope : d.metadataCheck.status = .failed →
    d.metadataCheck.scope ≠ .unset ∧ d.metadataCheck.scope ≠ .unknown
  data_scope : d.dataCheck.status = .failed →
    d.dataCheck.scope ≠ .unset ∧ d.dataCheck.scope ≠ .unknown

/-- The parts of the state that older versions wrote say no more than the evidence. -/
structure NoLegacy (d : Destination) (M F : Prop) : Prop where
  aggregate : d.checkStatus = .failed →
    (d.metadataCheck.status = .failed ∨ d.dataCheck.status = .failed) ∧
      d.lastCheckAttemptStatus ≠ .unset
  attempt : d.lastCheckAttemptStatus = .failed →
    contains d.lastCheckAttemptError legacyInconclusive = true →
      (requiredCheckScope d.lastCheckAttemptPolicy = .metadata → M) ∧
      (requiredCheckScope d.lastCheckAttemptPolicy ≠ .metadata → F)

theorem Reflects.adoptLegacyHold (h : Reflects d M F) (hl : NoLegacy d M F) :
    Reflects (adoptLegacyHold d) M F := by
  rw [Backup.adoptLegacyHold]
  split
  next hc =>
    obtain ⟨hnone, hfailed, htext, -, -⟩ := hc
    obtain ⟨hm, hf⟩ := hl.attempt hfailed htext
    refine { h with
      hold_metadata := ?_, hold_data := ?_, metadata_open := ?_, data_open := ?_ }
    · rintro hold ⟨⟩ hs
      exact hm hs
    · rintro hold ⟨⟩ hs
      exact hf hs
    · exact fun _ => .inr (by simp)
    · intro hF
      refine (h.data_open hF).imp_right ?_
      rintro ⟨hold, hh, -⟩
      rw [hnone] at hh
      cases hh
  · exact h

theorem requiredCheckScope_eq_metadata {s : CheckScope} :
    requiredCheckScope s = .metadata ↔ s = .metadata := by
  rw [requiredCheckScope]
  split <;> simp_all

theorem Reflects.normalizeHold (h : Reflects d M F) : Reflects (normalizeHold d) M F := by
  have hsome : ∀ hold, (Backup.normalizeHold d).checkHold = some hold →
      ∃ old, d.checkHold = some old ∧ hold.scope = requiredCheckScope old.scope := by
    intro hold hh
    obtain ⟨old, ho, rfl⟩ := Option.map_eq_some_iff.mp hh
    exact ⟨old, ho, rfl⟩
  refine { h with
    hold_metadata := ?_, hold_data := ?_, metadata_open := ?_, data_open := ?_ }
  · intro hold hh hs
    obtain ⟨old, ho, he⟩ := hsome hold hh
    exact h.hold_metadata old ho (requiredCheckScope_eq_metadata.mp (he ▸ hs))
  · intro hold hh hs
    obtain ⟨old, ho, he⟩ := hsome hold hh
    exact h.hold_data old ho fun hm => hs (he ▸ requiredCheckScope_eq_metadata.mpr hm)
  · exact fun hM => (h.metadata_open hM).imp_right fun hh => by simpa [Backup.normalizeHold]
  · intro hF
    refine (h.data_open hF).imp_right ?_
    rintro ⟨hold, hh, hs⟩
    exact ⟨{ hold with scope := requiredCheckScope hold.scope },
      by simp [Backup.normalizeHold, hh],
      fun hm => hs (requiredCheckScope_eq_metadata.mp hm)⟩

/-- Failed evidence and the hold are all that counts. -/
theorem Reflects.congr {d' : Destination} (h : Reflects d M F)
    (hh : d'.checkHold = d.checkHold)
    (hm : d'.metadataCheck.status = .failed ∨ d.metadataCheck.status = .failed →
      d'.metadataCheck = d.metadataCheck)
    (hd : d'.dataCheck.status = .failed ∨ d.dataCheck.status = .failed →
      d'.dataCheck = d.dataCheck) : Reflects d' M F where
  metadata_failed := fun hf => h.metadata_failed (hm (.inl hf) ▸ hf)
  data_failed := fun hf => h.data_failed (hd (.inl hf) ▸ hf)
  hold_metadata := hh ▸ h.hold_metadata
  hold_data := hh ▸ h.hold_data
  metadata_open := by
    intro hM
    rw [hh]
    refine (h.metadata_open hM).imp_left ?_
    exact fun hf => (hm (.inr hf)).symm ▸ hf
  data_open := by
    intro hF
    rw [hh]
    refine (h.data_open hF).imp_left ?_
    exact fun hf => (hd (.inr hf)).symm ▸ hf
  metadata_scope := fun hf =>
    (hm (.inl hf)).symm ▸ h.metadata_scope (hm (.inl hf) ▸ hf)
  data_scope := fun hf => (hd (.inl hf)).symm ▸ h.data_scope (hd (.inl hf) ▸ hf)

theorem missing_ne_failed (h : e.missing = true) : e.status ≠ .failed := by
  intro hf
  simp [CheckEvidence.missing, hf] at h

theorem Reflects.adoptLastSuccess (h : Reflects d M F) : Reflects (adoptLastSuccess d) M F := by
  refine h.congr rfl ?_ ?_
  · intro hf
    by_cases hm : d.metadataCheck.missing = true
    · have hne := missing_ne_failed hm
      simp [Backup.adoptLastSuccess, hm, hne] at hf
    · simp [Backup.adoptLastSuccess, hm]
  · intro hf
    by_cases hm : d.dataCheck.missing = true
    · have hne := missing_ne_failed hm
      simp only [Backup.adoptLastSuccess, hm, if_true] at hf ⊢
      split at hf
      · simp [hne] at hf
      · split at hf
        · simp [hne] at hf
        · simp_all
    · simp [Backup.adoptLastSuccess, hm]

theorem fill_eq (hs : e.status = .failed → e.scope ≠ .unset ∧ e.scope ≠ .unknown)
    (h : e.fill.status = .failed ∨ e.status = .failed) : e.fill = e := by
  have hf : e.status = .failed := by
    refine h.elim (fun hf => ?_) id
    by_cases hu : e.status = .unset
    · simp [CheckEvidence.fill, hu] at hf
    · simpa [CheckEvidence.fill, hu] using hf
  obtain ⟨status, scope, checkedAt, error⟩ := e
  cases hf
  simp [CheckEvidence.fill, (hs rfl).1]

theorem Reflects.fill (h : Reflects d M F) :
    Reflects { d with metadataCheck := d.metadataCheck.fill, dataCheck := d.dataCheck.fill }
      M F :=
  h.congr rfl (fill_eq h.metadata_scope) (fill_eq h.data_scope)

theorem updateAggregate_frame (d : Destination) :
    (updateAggregateCheckEvidence d).metadataCheck = d.metadataCheck ∧
    (updateAggregateCheckEvidence d).dataCheck = d.dataCheck ∧
    (updateAggregateCheckEvidence d).checkHold = d.checkHold ∧
    (updateAggregateCheckEvidence d).lastCheckAttemptStatus = d.lastCheckAttemptStatus ∧
    (updateAggregateCheckEvidence d).lastCheckAttemptError = d.lastCheckAttemptError ∧
    (updateAggregateCheckEvidence d).lastCheckAttemptPolicy = d.lastCheckAttemptPolicy := by
  rw [updateAggregateCheckEvidence]
  repeat' split
  all_goals simp

theorem updateAggregate_failed
    (h : (updateAggregateCheckEvidence d).checkStatus = .failed) :
    d.metadataCheck.status = .failed ∨ d.dataCheck.status = .failed := by
  rw [updateAggregateCheckEvidence] at h
  repeat' split at h
  all_goals simp_all

theorem Reflects.updateAggregate (h : Reflects d M F) :
    Reflects (updateAggregateCheckEvidence d) M F := by
  obtain ⟨hm, hd, hh, -⟩ := updateAggregate_frame d
  exact h.congr hh (fun _ => hm) (fun _ => hd)

theorem repair_eq (hs : e.status = .failed → e.scope ≠ .unset ∧ e.scope ≠ .unknown) :
    e.repair = e := by
  have hr : e.repairable = false := by
    by_cases hf : e.status = .failed
    · simp [CheckEvidence.repairable, (hs hf).2]
    · simp [CheckEvidence.repairable, hf]
  simp [CheckEvidence.repair, hr]

theorem Reflects.normalize (h : Reflects d M F) (hl : NoLegacy d M F) :
    Reflects (normalizeCheckEvidence d) M F := by
  have hagg : d.failedInAggregate = false := by
    by_contra hc
    simp only [Destination.failedInAggregate, Bool.not_eq_false, Bool.and_eq_true,
      decide_eq_true_eq] at hc
    exact (hl.aggregate hc.1.1).1.elim hc.1.2 hc.2
  have hlegacy : adoptLegacyAttempt d.checkStatus d.checkError d = d :=
    if_neg fun hc => (hl.aggregate hc.1).2 hc.2
  have hadopt : adoptAggregateFailure d = d := by simp [adoptAggregateFailure, hagg]
  simp only [normalizeCheckEvidence, repair_eq h.metadata_scope, repair_eq h.data_scope, hadopt,
    hlegacy]
  apply Reflects.updateAggregate
  apply Reflects.fill
  split
  · exact (h.adoptLegacyHold hl).normalizeHold.adoptLastSuccess
  · exact (h.adoptLegacyHold hl).normalizeHold

variable {p : CheckScope} {t : Instant} {e : CheckError}

theorem Reflects.record_integrityFailed (h : Reflects d M F) (hp : p ≠ .unset ∧ p ≠ .unknown)
    (hc : e.code = some .integrityFailed) :
    Reflects (recordFailure d p t e) (p = .metadata ∨ M) (p ≠ .metadata ∨ F) := by
  simp only [recordFailure, hc]
  split
  next hm =>
    exact
      { metadata_failed := fun _ => .inl hm
        data_failed := fun hf => .inr (h.data_failed hf)
        hold_metadata := fun _ _ _ => .inl hm
        hold_data := fun hold hh hs => .inr (h.hold_data hold hh hs)
        metadata_open := fun _ => .inl rfl
        data_open := fun hF => h.data_open (hF.resolve_left (· hm))
        metadata_scope := fun _ => hp
        data_scope := h.data_scope }
  next hm =>
    exact
      { metadata_failed := fun hf => .inr (h.metadata_failed hf)
        data_failed := fun _ => .inl hm
        hold_metadata := fun hold hh hs => .inr (h.hold_metadata hold hh hs)
        hold_data := fun _ _ _ => .inl hm
        metadata_open := fun hM => h.metadata_open (hM.resolve_left hm)
        data_open := fun _ => .inl rfl
        metadata_scope := h.metadata_scope
        data_scope := fun _ => hp }

theorem Reflects.record_checkInconclusive (h : Reflects d M F)
    (hc : e.code = some .checkInconclusive) :
    Reflects (recordFailure d p t e) (p = .metadata ∨ M) (p ≠ .metadata ∨ F) := by
  simp only [recordFailure, hc]
  split
  next hreplace =>
    refine { metadata_failed := fun hf => .inr (h.metadata_failed hf)
             data_failed := fun hf => .inr (h.data_failed hf)
             hold_metadata := ?_, hold_data := ?_, metadata_open := ?_, data_open := ?_
             metadata_scope := h.metadata_scope
             data_scope := h.data_scope }
    · rintro hold ⟨⟩ hs
      exact .inl (requiredCheckScope_eq_metadata.mp hs)
    · rintro hold ⟨⟩ hs
      exact .inl fun hm => hs (requiredCheckScope_eq_metadata.mpr hm)
    · exact fun _ => .inr (by simp)
    · intro hF
      by_cases hm : p = .metadata
      · -- the hold that is replaced asked for no more than metadata
        have hall : d.checkHold.all (·.scope = .metadata) = true := by
          simpa [requiredCheckScope, hm] using hreplace
        refine .inl ((h.data_open (hF.resolve_left (· hm))).resolve_right ?_)
        rintro ⟨hold, hh, hs⟩
        simp [hh, hs] at hall
      · exact .inr ⟨_, rfl, fun hs => hm (requiredCheckScope_eq_metadata.mp hs)⟩
  next hkeep =>
    rw [not_or] at hkeep
    have hm : p = .metadata := by
      by_contra hm
      exact hkeep.2 (if_neg hm)
    have hne : d.checkHold ≠ none := fun hn => hkeep.1 (by simp [hn])
    exact
      { h with
        metadata_failed := fun _ => .inl hm
        data_failed := fun hf => .inr (h.data_failed hf)
        hold_metadata := fun _ _ _ => .inl hm
        hold_data := fun hold hh hs => .inr (h.hold_data hold hh hs)
        metadata_open := fun _ => .inr hne
        data_open := fun hF => h.data_open (hF.resolve_left (· hm)) }

theorem Reflects.record_other (h : Reflects d M F) (h1 : e.code ≠ some .integrityFailed)
    (h2 : e.code ≠ some .checkInconclusive) : Reflects (recordFailure d p t e) M F := by
  refine h.congr ?_ ?_ ?_ <;> rw [recordFailure] <;> split <;> simp_all

theorem Reflects.record_success (h : Reflects d M F) :
    Reflects (recordSuccess d p t) False (F ∧ p ≠ .all) := by
  have hhold : ∀ hold, (recordSuccess d p t).checkHold = some hold →
      p ≠ .all ∧ d.checkHold = some hold ∧ hold.scope ≠ .metadata := by
    intro hold hh
    simp only [recordSuccess] at hh
    split at hh
    · cases hh
    next hc =>
      rw [not_or] at hc
      exact ⟨hc.1, hh, by simpa [hh] using hc.2⟩
  have hdata : (recordSuccess d p t).dataCheck.status = .failed →
      p ≠ .all ∧ (recordSuccess d p t).dataCheck = d.dataCheck := by
    intro hf
    simp only [recordSuccess] at hf ⊢
    split at hf
    · cases hf
    · split at hf
      · cases hf
      · simp_all
  refine { metadata_failed := ?_, data_failed := ?_, hold_metadata := ?_, hold_data := ?_
           metadata_open := False.elim, data_open := ?_, metadata_scope := ?_, data_scope := ?_ }
  · rintro ⟨⟩
  · intro hf
    obtain ⟨hp, hd⟩ := hdata hf
    exact ⟨h.data_failed (hd ▸ hf), hp⟩
  · exact fun hold hh hs => (hhold hold hh).2.2 hs
  · exact fun hold hh hs => ⟨h.hold_data hold (hhold hold hh).2.1 hs, (hhold hold hh).1⟩
  · rintro ⟨hF, hp⟩
    rcases h.data_open hF with hf | ⟨hold, hh, hs⟩
    · exact .inl (by simp [recordSuccess, hp, hf])
    · exact .inr ⟨hold, by simp [recordSuccess, hp, hh, hs], hs⟩
  · rintro ⟨⟩
  · intro hf
    obtain ⟨-, hd⟩ := hdata hf
    rw [hd] at hf ⊢
    exact h.data_scope hf

/-- The policy under which an attempt is recorded. -/
def CheckPolicy.recorded (policy : CheckPolicy) : CheckScope :=
  if policy.scope = .unset then .metadata else policy.scope

theorem recorded_known (policy : CheckPolicy) :
    policy.recorded ≠ .unset ∧ policy.recorded ≠ .unknown := by
  cases policy <;> decide

theorem recorded_eq_metadata : policy.recorded = .metadata ↔ policy.metadataOnly = true := by
  cases policy <;> decide

theorem recorded_eq_all : policy.recorded = .all ↔ policy = .all := by
  cases policy <;> decide

theorem Reflects.of_iff {M' F' : Prop} (h : Reflects d M F) (hM : M' ↔ M) (hF : F' ↔ F) :
    Reflects d M' F' := by
  rwa [propext hM, propext hF]

/-- The destination while an attempt is recorded. -/
def Attempt.entered (a : Attempt) (d : Destination) : Destination :=
  { normalizeCheckEvidence d with
    lastCheckAttemptAt := some a.time, lastCheckAttemptPolicy := a.policy.recorded }

theorem record_success_eq (he : a.err = none) : a.record d =
    updateAggregateCheckEvidence (recordSuccess (a.entered d) a.policy.recorded a.time) := by
  obtain ⟨policy, time, err⟩ := a
  cases he
  rfl

theorem record_failure_eq (he : a.err = some e) : a.record d =
    updateAggregateCheckEvidence (recordFailure (a.entered d) a.policy.recorded a.time e) := by
  obtain ⟨policy, time, err⟩ := a
  cases he
  rfl

/-- One attempt moves the evidence as it moves the open attempts. -/
theorem Reflects.attempt (h : Reflects d (OpenAt true history) (OpenAt false history))
    (hl : NoLegacy d (OpenAt true history) (OpenAt false history)) :
    Reflects (a.record d) (OpenAt true (history ++ [a])) (OpenAt false (history ++ [a])) := by
  have ha : Reflects (a.entered d) (OpenAt true history) (OpenAt false history) :=
    { h.normalize hl with }
  cases he : a.err with
  | none =>
    have hb : ¬a.Blocks := by simp [Attempt.Blocks, he]
    rw [record_success_eq he]
    refine Reflects.updateAggregate (ha.record_success.of_iff ?_ ?_)
    · simp [openAt_snoc, hb, he]
    · simp [openAt_snoc, hb, he, recorded_eq_all]
  | some e =>
    rw [record_failure_eq he]
    apply Reflects.updateAggregate
    by_cases hb : a.Blocks
    · have hiff : ∀ m, OpenAt m (history ++ [a]) ↔ a.policy.metadataOnly = m ∨ OpenAt m history := by
        simp [openAt_snoc, hb, he]
      have hM := hiff true
      have hF := hiff false
      rw [← recorded_eq_metadata] at hM
      rw [← Bool.not_eq_true, ← recorded_eq_metadata] at hF
      obtain ⟨e', he', hc | hc⟩ := hb
      · cases he.symm.trans he'
        exact (ha.record_integrityFailed (recorded_known _) hc).of_iff hM hF
      · cases he.symm.trans he'
        exact (ha.record_checkInconclusive hc).of_iff hM hF
    · have hiff : ∀ m, OpenAt m (history ++ [a]) ↔ OpenAt m history := by
        simp [openAt_snoc, hb, he]
      refine (ha.record_other ?_ ?_).of_iff (hiff true) (hiff false)
      · exact fun hc => hb ⟨e, he, .inl hc⟩
      · exact fun hc => hb ⟨e, he, .inr hc⟩

theorem recordFailure_frame :
    (recordFailure d p t e).lastCheckAttemptStatus = .failed ∧
    (recordFailure d p t e).lastCheckAttemptError = e.message ∧
    (recordFailure d p t e).lastCheckAttemptPolicy = d.lastCheckAttemptPolicy := by
  rw [recordFailure]
  split
  · dsimp only
    split <;> simp
  · dsimp only
    split <;> simp
  · simp

/-- A recorded attempt leaves no text behind that would open more than it did. -/
theorem noLegacy_attempt (hmod : a.Modern) :
    NoLegacy (a.record d) (OpenAt true (history ++ [a])) (OpenAt false (history ++ [a])) := by
  cases he : a.err with
  | none =>
    rw [record_success_eq he]
    obtain ⟨hm, hd, -, hs, -, -⟩ := updateAggregate_frame
      (recordSuccess (a.entered d) a.policy.recorded a.time)
    refine ⟨fun hf => ⟨?_, ?_⟩, fun hf => ?_⟩
    · rw [hm, hd]
      exact updateAggregate_failed hf
    · rw [hs]
      exact AttemptStatus.noConfusion
    · rw [hs] at hf
      cases hf
  | some e =>
    rw [record_failure_eq he]
    obtain ⟨hm, hd, -, hs, herr, hp⟩ := updateAggregate_frame
      (recordFailure (a.entered d) a.policy.recorded a.time e)
    obtain ⟨hs', herr', hp'⟩ := @recordFailure_frame (a.entered d) a.policy.recorded a.time e
    refine ⟨fun hf => ⟨?_, ?_⟩, fun _ htext => ?_⟩
    · rw [hm, hd]
      exact updateAggregate_failed hf
    · rw [hs, hs']
      exact AttemptStatus.noConfusion
    · rw [herr, herr'] at htext
      have hb : a.Blocks := by
        by_contra hb
        simp [hmod e he hb] at htext
      have hpol : (recordFailure (a.entered d) a.policy.recorded a.time e).lastCheckAttemptPolicy
          = a.policy.recorded := hp'
      rw [hp, hpol, ne_eq, requiredCheckScope_eq_metadata, recorded_eq_metadata]
      refine ⟨fun h => openAt_snoc.mpr (.inl ⟨h, hb⟩), fun h => openAt_snoc.mpr (.inl ⟨?_, hb⟩)⟩
      simpa using h

theorem reflects_start (h : NoCheckEvidence d) : Reflects d (OpenAt true []) (OpenAt false []) where
  metadata_failed := fun hf => absurd hf (missing_ne_failed h.metadata)
  data_failed := fun hf => absurd hf (missing_ne_failed h.data)
  hold_metadata := by simp [h.hold]
  hold_data := by simp [h.hold]
  metadata_open := fun ho => absurd ho not_openAt_nil
  data_open := fun ho => absurd ho not_openAt_nil
  metadata_scope := fun hf => absurd hf (missing_ne_failed h.metadata)
  data_scope := fun hf => absurd hf (missing_ne_failed h.data)

theorem noLegacy_start (h : NoCheckEvidence d) : NoLegacy d (OpenAt true []) (OpenAt false []) where
  aggregate := by
    intro hf
    rcases h.aggregate with ha | ha <;> simp [ha] at hf
  attempt := by simp [h.attempt]

/-- The evidence after any history shows its open attempts. -/
theorem reflects_history (h : NoCheckEvidence d) (hm : ∀ a ∈ history, a.Modern) :
    Reflects (history.foldl Attempt.record d) (OpenAt true history) (OpenAt false history) ∧
      NoLegacy (history.foldl Attempt.record d) (OpenAt true history) (OpenAt false history) := by
  induction history using List.reverseRecOn with
  | nil => exact ⟨reflects_start h, noLegacy_start h⟩
  | append_singleton history a ih =>
    obtain ⟨hr, hl⟩ := ih fun b hb => hm b (by simp [hb])
    rw [List.foldl_concat]
    exact ⟨hr.attempt hl, noLegacy_attempt (hm a (by simp))⟩

theorem Reflects.blocked_iff (h : Reflects d M F) (hl : NoLegacy d M F) :
    repositoryMaintenanceBlocked d = true ↔ M ∨ F := by
  simp only [repositoryMaintenanceBlocked, Bool.or_eq_true, decide_eq_true_eq]
  constructor
  · rintro (((hh | hf) | hf) | hf)
    · obtain ⟨hold, hh⟩ := Option.isSome_iff_exists.mp hh
      by_cases hs : hold.scope = .metadata
      · exact .inl (h.hold_metadata hold hh hs)
      · exact .inr (h.hold_data hold hh hs)
    · exact .inl (h.metadata_failed hf)
    · exact .inr (h.data_failed hf)
    · exact (hl.aggregate hf).1.imp h.metadata_failed h.data_failed
  · rintro (hM | hF)
    · rcases h.metadata_open hM with hf | hh
      · simp [hf]
      · simp [Option.isSome_iff_ne_none.mpr hh]
    · rcases h.data_open hF with hf | ⟨hold, hh, -⟩
      · simp [hf]
      · simp [hh]

/-- Maintenance is blocked after a history of check attempts exactly when one of them is
unresolved. -/
theorem maintenance_blocked_iff_unresolved (h : NoCheckEvidence d)
    (hm : ∀ a ∈ history, a.Modern) :
    repositoryMaintenanceBlocked (history.foldl Attempt.record d) = true ↔
      Unresolved history := by
  obtain ⟨hr, hl⟩ := reflects_history h hm
  rw [hr.blocked_iff hl, unresolved_iff]

/-- A full check that found damage still blocks after a successful metadata check. -/
theorem maintenance_blocked_after_metadata_success :
    repositoryMaintenanceBlocked
      ([⟨.all, 1, some ⟨"pack is damaged", some .integrityFailed⟩⟩, ⟨.metadata, 2, none⟩].foldl
        Attempt.record { id := "local" }) = true ↔
    Unresolved
      [⟨.all, 1, some ⟨"pack is damaged", some .integrityFailed⟩⟩, ⟨.metadata, 2, none⟩] := by
  refine maintenance_blocked_iff_unresolved ⟨rfl, rfl, rfl, .inl rfl, rfl⟩ ?_
  intro a ha e he hb
  rcases List.mem_cons.mp ha with rfl | ha
  · exact absurd ⟨_, rfl, .inl rfl⟩ hb
  · cases List.mem_singleton.mp ha
    cases he

end Stacklab.Backup
