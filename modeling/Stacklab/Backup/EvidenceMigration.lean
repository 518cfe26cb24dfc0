import Stacklab.Backup.IntegrityHold

/-! Normalising the evidence of a destination again changes nothing, before and after attempts. -/
namespace Stacklab.Backup

open Lib

/-- Only fields that older versions wrote are set. -/
structure LegacyEvidence (d : Destination) : Prop where
  metadata : d.metadataCheck = {}
  data : d.dataCheck = {}
  hold : d.checkHold = none

/-- Only an inconclusive check carries the text that older versions used for it. -/
def Attempt.Distinct (a : Attempt) : Prop :=
  ∀ e, a.err = some e → e.code ≠ some .checkInconclusive →
    contains e.message legacyInconclusive = false

inductive EvidenceStep
  | normalize
  | attempt (a : Attempt)

def EvidenceStep.run (d : Destination) : EvidenceStep → Destination
  | .normalize => normalizeCheckEvidence d
  | .attempt a => a.record d

def EvidenceStep.attempted : EvidenceStep → Option Attempt
  | .normalize => none
  | .attempt a => some a

structure ReviewCondition where
  scope : CheckScope
  checkedAt : Option Instant
  error : String

structure RepositoryReview where
  destination : String
  metadata : Option ReviewCondition
  data : Option ReviewCondition
  hold : Option ReviewCondition

def CheckEvidence.condition (e : CheckEvidence) : Option ReviewCondition :=
  if e.status = .failed then some ⟨e.scope, e.checkedAt, e.error⟩ else none

def repositoryReview (d : Destination) : RepositoryReview :=
  let review : RepositoryReview := ⟨d.id, d.metadataCheck.condition, d.dataCheck.condition,
    d.checkHold.map fun hold => ⟨hold.scope, hold.checkedAt, hold.error⟩⟩
  if review.metadata.isNone && review.data.isNone && review.hold.isNone then
    { review with data := some ⟨.unknown, d.lastCheckAttemptAt, d.checkError⟩ }
  else review

/-- The digest of the JSON text is a parameter. -/
def repositoryReviewFingerprint (digest : RepositoryReview → String) (d : Destination) : String :=
  if repositoryMaintenanceBlocked d then digest (repositoryReview d) else ""

variable {d : Destination} {a : Attempt} {e : CheckError} {steps steps' : List EvidenceStep}

/-- Nothing is left for the migration of older fields to do. -/
structure Migrated (d : Destination) : Prop where
  filled : d.metadataCheck.fill = d.metadataCheck ∧ d.dataCheck.fill = d.dataCheck
  kept : d.metadataCheck.repairable = false ∧ d.dataCheck.repairable = false
  attempted : d.metadataCheck.status = .failed ∨ d.dataCheck.status = .failed →
    d.lastCheckAttemptStatus ≠ .unset
  adopted : d.checkHold = none → d.lastCheckAttemptStatus = .failed →
    contains d.lastCheckAttemptError legacyInconclusive = true →
    hasSuffix d.lastCheckAttemptError "(operation_failed)" = true →
    laterCheckResolves d.lastCheckAt d.lastCheckPolicy d.lastCheckAttemptAt
      (requiredCheckScope d.lastCheckAttemptPolicy) = true
  hold : ∀ hold, d.checkHold = some hold → requiredCheckScope hold.scope = hold.scope
  success : d.metadataCheck.status = .verified ∨ d.dataCheck.status = .verified ∨
      d.dataCheck.status = .sampled → d.metadataCheck.missing = false ∧
    (d.dataCheck.missing = true → d.lastCheckPolicy ≠ .all ∧ d.lastCheckPolicy ≠ .subset)

/-- The aggregate is the one of the evidence, too. -/
structure Normalized (d : Destination) : Prop extends Migrated d where
  aggregate : updateAggregateCheckEvidence d = d

theorem updateAggregate_eq (d : Destination) :
    ∃ status err, updateAggregateCheckEvidence d =
      { d with checkStatus := status, checkError := err } := by
  unfold updateAggregateCheckEvidence
  repeat' split
  all_goals exact ⟨_, _, rfl⟩

theorem updateAggregate_verified (h : (updateAggregateCheckEvidence d).checkStatus = .verified) :
    d.metadataCheck.status = .verified ∨ d.dataCheck.status = .verified ∨
      d.dataCheck.status = .sampled := by
  unfold updateAggregateCheckEvidence at h
  repeat' split at h
  all_goals simp_all

theorem Migrated.normalized (h : Migrated d) : Normalized (updateAggregateCheckEvidence d) := by
  obtain ⟨status, err, heq⟩ := updateAggregate_eq d
  -- the old aggregate is not read
  have hagain : updateAggregateCheckEvidence { d with checkStatus := status, checkError := err } =
      updateAggregateCheckEvidence d := rfl
  rw [heq] at hagain ⊢
  exact ⟨⟨h.filled, h.kept, h.attempted, h.adopted, h.hold, h.success⟩, hagain⟩

theorem Normalized.normalize (h : Normalized d) : normalizeCheckEvidence d = d := by
  have hfailed : d.checkStatus = .failed →
      d.metadataCheck.status = .failed ∨ d.dataCheck.status = .failed := by
    intro hf
    exact updateAggregate_failed (h.aggregate.symm ▸ hf)
  have hagg : d.failedInAggregate = false := by
    by_contra hc
    simp only [Destination.failedInAggregate, Bool.not_eq_false, Bool.and_eq_true,
      decide_eq_true_eq] at hc
    exact (hfailed hc.1.1).elim hc.1.2 hc.2
  have hrepair : d.metadataCheck.repair = d.metadataCheck ∧ d.dataCheck.repair = d.dataCheck := by
    simp [CheckEvidence.repair, h.kept]
  have hadopt : adoptAggregateFailure d = d := by simp [adoptAggregateFailure, hagg]
  have hattempt : adoptLegacyAttempt d.checkStatus d.checkError d = d :=
    if_neg fun hc => h.attempted (hfailed hc.1) hc.2
  have hhold : adoptLegacyHold d = d := by
    refine if_neg ?_
    rintro ⟨hnone, hs, htext, hsuffix, hlater⟩
    simp [h.adopted hnone hs htext hsuffix] at hlater
  have hscope : d.checkHold.map (fun hold => { hold with scope := requiredCheckScope hold.scope }) =
      d.checkHold := by
    cases hd : d.checkHold with
    | none => rfl
    | some hold => rw [Option.map_some, h.hold hold hd]
  have hsuccess : d.checkStatus = .verified → adoptLastSuccess d = d := by
    intro hv
    obtain ⟨hm, hd⟩ := h.success (updateAggregate_verified (h.aggregate.symm ▸ hv))
    simp only [adoptLastSuccess, hm, Bool.false_eq_true, if_false]
    split
    next hmissing => rw [if_neg (hd hmissing).1, if_neg (hd hmissing).2]
    next => rfl
  simp only [normalizeCheckEvidence, hrepair, h.kept, hadopt, hattempt, hhold, normalizeHold, hscope,
    hagg, Bool.or_self, Bool.false_and, Bool.false_eq_true, false_and, or_false]
  split
  next hv => rw [hsuccess hv, h.filled.1, h.filled.2, h.aggregate]
  next => rw [h.filled.1, h.filled.2, h.aggregate]

theorem requiredCheckScope_again (s : CheckScope) :
    requiredCheckScope (requiredCheckScope s) = requiredCheckScope s := by
  by_cases h : s = .metadata <;> simp [requiredCheckScope, h]

/-- The hold that the text of an older version stands for is there, or was resolved. -/
theorem exists_hold (d : Destination) :
    ∃ hold, normalizeHold (adoptLegacyHold d) = { d with checkHold := hold } ∧
      (hold = none → d.lastCheckAttemptStatus = .failed →
        contains d.lastCheckAttemptError legacyInconclusive = true →
        hasSuffix d.lastCheckAttemptError "(operation_failed)" = true →
        laterCheckResolves d.lastCheckAt d.lastCheckPolicy d.lastCheckAttemptAt
          (requiredCheckScope d.lastCheckAttemptPolicy) = true) ∧
      ∀ h, hold = some h → requiredCheckScope h.scope = h.scope := by
  have hscope : ∀ (old : Option CheckHold) (h : CheckHold), old.map (fun hold =>
      { hold with scope := requiredCheckScope hold.scope }) = some h →
        requiredCheckScope h.scope = h.scope := by
    intro old h hh
    obtain ⟨o, -, rfl⟩ := Option.map_eq_some_iff.mp hh
    exact requiredCheckScope_again o.scope
  unfold adoptLegacyHold
  split
  next hc => exact ⟨_, rfl, by simp, hscope _⟩
  next hc =>
    refine ⟨_, rfl, fun hnone hs htext hsuffix => ?_, hscope _⟩
    by_contra hlater
    exact hc ⟨Option.map_eq_none_iff.mp hnone, hs, htext, hsuffix, by simpa using hlater⟩

/-- What the aggregate of an older version leaves of the evidence. -/
theorem LegacyEvidence.adopted (h : LegacyEvidence d) :
    let d' := adoptLegacyAttempt d.checkStatus d.checkError (adoptAggregateFailure d)
    d'.metadataCheck = {} ∧ (d'.dataCheck = {} ∨ d.checkStatus = .failed ∧
      knownNonIntegrityFailure d.checkError = false ∧ d'.lastCheckAttemptStatus ≠ .unset ∧
      d'.dataCheck = ⟨.failed, .unknown, d.lastCheckAttemptAt, d.checkError⟩) := by
  obtain ⟨hm, hd, -⟩ := h
  have hagg : d.failedInAggregate = (d.checkStatus = .failed : Bool) := by
    simp [Destination.failedInAggregate, hm, hd]
  by_cases hf : d.checkStatus = .failed
  · cases hk : knownNonIntegrityFailure d.checkError with
    | true =>
      by_cases hs : d.lastCheckAttemptStatus = .unset <;>
        simp [adoptLegacyAttempt, adoptAggregateFailure, hagg, hf, hk, hm, hd, hs]
    | false =>
      by_cases hs : d.lastCheckAttemptStatus = .unset <;>
        simp [adoptLegacyAttempt, adoptAggregateFailure, hagg, hf, hk, hm, hs]
  · simp [adoptLegacyAttempt, adoptAggregateFailure, hagg, hf, hm, hd]

theorem LegacyEvidence.normalized (h : LegacyEvidence d) :
    Normalized (normalizeCheckEvidence d) := by
  have hrepair : ∀ e : CheckEvidence, e = {} → e.repair = e ∧ e.repairable = false := by
    rintro e rfl
    decide +kernel
  obtain ⟨hm, hd⟩ := h.adopted
  obtain ⟨hold, heq, hadopted, hscope⟩ :=
    exists_hold (adoptLegacyAttempt d.checkStatus d.checkError (adoptAggregateFailure d))
  simp only [normalizeCheckEvidence, hrepair _ h.metadata, hrepair _ h.data, heq]
  apply Migrated.normalized
  generalize adoptLegacyAttempt d.checkStatus d.checkError (adoptAggregateFailure d) = d' at *
  obtain hd | ⟨hf, hk, hs, hd⟩ := hd
  · split
    · refine ⟨?_, ?_, ?_, hadopted, hscope, ?_⟩
      all_goals
        by_cases hall : d'.lastCheckPolicy = .all <;>
          by_cases hsub : d'.lastCheckPolicy = .subset <;>
          simp [adoptLastSuccess, CheckEvidence.fill, CheckEvidence.repairable,
            CheckEvidence.missing, hm, hd, hall, hsub]
    · refine ⟨?_, ?_, ?_, hadopted, hscope, ?_⟩
      all_goals simp [CheckEvidence.fill, CheckEvidence.repairable, hm, hd]
  · rw [if_neg (by simp [hf, hk])]
    refine ⟨?_, ?_, fun _ => hs, hadopted, hscope, ?_⟩
    all_goals simp [CheckEvidence.fill, CheckEvidence.repairable, hm, hd, hk]

section Attempts

variable {p : CheckScope} {t : Instant}

/-- The destination with a new attempt, whose outcome is not recorded yet. -/
def attempting (d : Destination) (p : CheckScope) (t : Instant) : Destination :=
  { d with lastCheckAttemptAt := some t, lastCheckAttemptPolicy := p }

theorem Migrated.recordSuccess (h : Migrated d) :
    Migrated (recordSuccess (attempting d p t) p t) := by
  have hdata : (Backup.recordSuccess (attempting d p t) p t).dataCheck.fill =
      (Backup.recordSuccess (attempting d p t) p t).dataCheck ∧
      (Backup.recordSuccess (attempting d p t) p t).dataCheck.repairable = false := by
    simp only [Backup.recordSuccess]
    split
    · exact ⟨rfl, rfl⟩
    · split
      · exact ⟨rfl, rfl⟩
      · exact ⟨h.filled.2, h.kept.2⟩
  refine ⟨⟨rfl, hdata.1⟩, ⟨rfl, hdata.2⟩, by simp [Backup.recordSuccess],
    by simp [Backup.recordSuccess], fun hold hh => ?_, fun _ => ⟨rfl, fun hmissing => ?_⟩⟩
  · simp only [Backup.recordSuccess] at hh
    split at hh
    · cases hh
    · exact h.hold hold hh
  · simp only [Backup.recordSuccess] at hmissing ⊢
    split at hmissing
    · cases hmissing
    next hall =>
      split at hmissing
      · cases hmissing
      next hsub =>
        refine ⟨hall, fun hp => hsub ⟨hp, missing_ne_failed hmissing, fun hv => ?_⟩⟩
        simp [CheckEvidence.missing, hv] at hmissing

theorem Migrated.recordFailure (h : Migrated d) (hp : p ≠ .unset ∧ p ≠ .unknown)
    (he : e.code ≠ some .checkInconclusive → contains e.message legacyInconclusive = false) :
    Migrated (recordFailure (attempting d p t) p t e) := by
  unfold Backup.recordFailure
  split
  next hc =>
    have htext := he (by simp [hc])
    by_cases hmeta : p = .metadata
    · simp only [hmeta, if_true]
      refine ⟨⟨rfl, h.filled.2⟩, ⟨rfl, h.kept.2⟩, by simp, by simp [htext], h.hold, ?_⟩
      rintro (hv | hv)
      · cases hv
      · exact ⟨rfl, (h.success (.inr hv)).2⟩
    · simp only [hmeta, if_false]
      refine ⟨⟨h.filled.1, by simp [CheckEvidence.fill, hp]⟩,
        ⟨h.kept.1, by simp [CheckEvidence.repairable, hp]⟩, by simp, by simp [htext], h.hold, ?_⟩
      rintro (hv | hv)
      · exact ⟨(h.success (.inl hv)).1, fun hmissing => by cases hmissing⟩
      · simp at hv
  next hc =>
    dsimp only
    split
    next =>
      refine ⟨h.filled, h.kept, by simp, by simp, ?_, h.success⟩
      rintro hold ⟨⟩
      exact requiredCheckScope_again p
    next hkept =>
      have hsome : d.checkHold ≠ none := by
        intro hnone
        simp [attempting, hnone] at hkept
      exact ⟨h.filled, h.kept, by simp, fun hnone => absurd hnone hsome, h.hold, h.success⟩
  next hi hc =>
    have htext := he hc
    exact ⟨h.filled, h.kept, by simp, by simp [htext], h.hold, h.success⟩

end Attempts

/-- An attempt leaves nothing for the migration to do. -/
theorem Normalized.record (h : Normalized d) (ha : a.Distinct) : Normalized (a.record d) := by
  have hentered : a.entered d = attempting d a.policy.recorded a.time := by
    rw [Attempt.entered, h.normalize, attempting]
  cases he : a.err with
  | none =>
    rw [record_success_eq he, hentered]
    exact h.recordSuccess.normalized
  | some e =>
    rw [record_failure_eq he, hentered]
    exact (h.recordFailure (recorded_known a.policy) (ha e he)).normalized

theorem record_normalize (h : Normalized (normalizeCheckEvidence d)) :
    a.record (normalizeCheckEvidence d) = a.record d := by
  have hentered : a.entered (normalizeCheckEvidence d) = a.entered d := by
    rw [Attempt.entered, h.normalize, Attempt.entered]
  cases he : a.err with
  | none => rw [record_success_eq he, record_success_eq he, hentered]
  | some e => rw [record_failure_eq he, record_failure_eq he, hentered]

/-- On normalised evidence only the attempts count. -/
theorem Normalized.run (h : Normalized d) (hd : ∀ a ∈ steps.filterMap EvidenceStep.attempted, a.Distinct) :
    steps.foldl EvidenceStep.run d =
      (steps.filterMap EvidenceStep.attempted).foldl Attempt.record d := by
  induction steps generalizing d with
  | nil => rfl
  | cons step steps ih =>
    cases step with
    | normalize =>
      have hsame : EvidenceStep.run d .normalize = d := h.normalize
      rw [List.foldl_cons, hsame, ih h hd]
      rfl
    | attempt a =>
      obtain ⟨ha, hrest⟩ := List.forall_mem_cons.mp hd
      exact ih (h.record ha) hrest

/-- The first step normalises, whether it is an attempt or not. -/
theorem LegacyEvidence.run (h : LegacyEvidence d) (hne : steps ≠ [])
    (hd : ∀ a ∈ steps.filterMap EvidenceStep.attempted, a.Distinct) :
    steps.foldl EvidenceStep.run d =
      (steps.filterMap EvidenceStep.attempted).foldl Attempt.record (normalizeCheckEvidence d) := by
  cases steps with
  | nil => exact absurd rfl hne
  | cons step rest =>
    have hfirst : EvidenceStep.run (normalizeCheckEvidence d) step = EvidenceStep.run d step := by
      cases step with
      | normalize => exact h.normalized.normalize
      | attempt a => exact record_normalize h.normalized
    rw [← h.normalized.run hd, List.foldl_cons, List.foldl_cons, hfirst]

/-- However often the evidence of an older version is normalised before, between and after the
attempts, the final evidence and its review token are the same. -/
theorem normalization_is_transparent (digest : RepositoryReview → String) (h : LegacyEvidence d)
    (hne : steps ≠ []) (hne' : steps' ≠ [])
    (hsame : steps'.filterMap EvidenceStep.attempted = steps.filterMap EvidenceStep.attempted)
    (hd : ∀ a ∈ steps.filterMap EvidenceStep.attempted, a.Distinct) :
    let final := steps.foldl EvidenceStep.run d
    let final' := steps'.foldl EvidenceStep.run d
    final'.metadataCheck = final.metadataCheck ∧ final'.dataCheck = final.dataCheck ∧
      final'.checkHold = final.checkHold ∧ final'.checkStatus = final.checkStatus ∧
      final'.checkError = final.checkError ∧
      repositoryReviewFingerprint digest final' = repositoryReviewFingerprint digest final := by
  intro final final'
  have hfinal : final' = final := by
    rw [show final' = _ from h.run hne' (hsame ▸ hd), hsame]
    exact (h.run hne hd).symm
  simp only [hfinal, and_self]

/-- A check that failed under an older version. -/
def legacyFailure : Destination :=
  { id := "local", checkStatus := .failed, checkError := "pack is damaged" }

theorem legacy_failure_normalized_twice :
    ([.normalize, .normalize, .attempt ⟨.metadata, 1, none⟩].foldl EvidenceStep.run
        legacyFailure).dataCheck =
      ([.normalize, .attempt ⟨.metadata, 1, none⟩].foldl EvidenceStep.run
        legacyFailure).dataCheck := by
  refine (normalization_is_transparent (fun _ => "") ⟨rfl, rfl, rfl⟩ (by simp) (by simp) rfl
    ?_).2.1
  intro a ha
  rw [List.mem_singleton.mp ha]
  rintro e ⟨⟩

end Stacklab.Backup
