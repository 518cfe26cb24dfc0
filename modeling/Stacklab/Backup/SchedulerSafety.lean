import Stacklab.Backup.SchedulerEdits

/-! Scheduled occurrences are started once and marks never go back, as long as no edit of a
schedule falls between the reading of a tick and its start. -/
namespace Stacklab.Backup

open Lib SchedulerWorld

variable {zones : Zones} {w w' : SchedulerWorld} {now : Instant}

section Jobs

variable {destinations : GoMap String MaintainedDestination} {active : List ActiveJob}

section

variable (h : w.Sound zones) (hle : w.clock ≤ now)
include h hle

/-- A step that only changes the jobs, none of which gets a destination that is taken. -/
theorem SchedulerWorld.Sound.moveJobs
    (hsame : ∀ id, destinations.lookup id = w.destinations.lookup id)
    (hjobs : ∀ job ∈ active, (∃ old ∈ w.active, job.destinations ⊆ old.destinations) ∨
      ∀ id ∈ job.destinations, w.maintenanceTick.holds id = false)
    (hcopies : ∀ job ∈ active, ∀ d, job.copy = some d →
      d.id ∈ job.destinations ∧ w.destinations.lookup d.id = some d) :
    w.Advances zones now
      { w with clock := now, destinations := destinations, active := active } := by
  have htrack : ∀ key, ({ w with
      clock := now, destinations := destinations, active := active } : SchedulerWorld).track key =
      w.track key := by
    intro key
    cases key with
    | copy planID id => rfl
    | maintenance id action =>
      unfold track slot
      dsimp only
      rw [hsame]
      rfl
  refine h.advances hle (.of_eq htrack) h.fresh h.plans
    (fun id d hl => h.destinations id d (hsame id ▸ hl))
    (h.runClaims.frame hle fun _ _ => .inl (htrack _))
    (h.actionClaims.frame hle fun _ _ => .inl (htrack _)) h.started ?_ ?_
  · intro d action due rest hstarted
    obtain ⟨hholds, hold⟩ := h.alone d action due rest hstarted
    refine ⟨hholds, ?_⟩
    intro job hjob hmem
    rcases hjobs job hjob with ⟨old, hmemOld, hsub⟩ | hfree
    · exact hold old hmemOld (hsub hmem)
    · have hnot := hfree d.id hmem
      have hstarted : w.maintenanceTick = .started d action due rest := hstarted
      simp [hstarted, MaintenanceTick.holds] at hnot
  · intro job hjob d hd
    obtain ⟨hmem, hl⟩ := hcopies job hjob d hd
    exact ⟨hmem, (hsame d.id).trans hl⟩

/-- Jobs that end, or give back what they hold. -/
theorem SchedulerWorld.Sound.dropJobs
    (hsame : ∀ id, destinations.lookup id = w.destinations.lookup id) (hsub : active ⊆ w.active) :
    w.Advances zones now
      { w with clock := now, destinations := destinations, active := active } :=
  h.moveJobs hle hsame (fun job hjob => .inl ⟨job, hsub hjob, fun _ hmem => hmem⟩)
    fun job hjob => h.copies job (hsub hjob)

theorem jobStep_advances {w' : SchedulerWorld} {step : SchedulerStep}
    (hstep : w.jobStep step = some w') :
    w.Advances zones now { w' with clock := now } := by
  cases step with
  | startOther destinations =>
    simp only [jobStep] at hstep
    split at hstep
    next hfree =>
      cases hstep
      refine h.moveJobs hle (fun _ => rfl) ?_ ?_
      · intro job hjob
        rcases List.mem_cons.mp hjob with rfl | hjob
        · right
          intro id hid
          have hone := List.all_eq_true.mp hfree id hid
          simp only [free, Bool.and_eq_true, Bool.not_eq_true'] at hone
          exact hone.2
        · exact .inl ⟨job, hjob, fun _ hmem => hmem⟩
      · intro job hjob d hd
        rcases List.mem_cons.mp hjob with rfl | hjob
        · cases hd
        · exact h.copies job hjob d hd
    · cases hstep
  | readCopy index id =>
    simp only [jobStep] at hstep
    split at hstep
    next job d hjob hd =>
      split at hstep
      next hcontains =>
        cases hstep
        have hmem : job ∈ w.active := List.mem_of_getElem? hjob
        have hid : ({ d with id := id } : MaintainedDestination) = d := by
          rw [← h.destinations id d hd]
        rw [hid]
        refine h.moveJobs hle (fun _ => rfl) ?_ ?_
        · intro job' hjob'
          rcases List.mem_or_eq_of_mem_set hjob' with hold | rfl
          · exact .inl ⟨job', hold, fun _ hmem => hmem⟩
          · exact .inl ⟨job, hmem, fun _ hmem => hmem⟩
        · intro job' hjob' d' hd'
          rcases List.mem_or_eq_of_mem_set hjob' with hold | rfl
          · exact h.copies job' hold d' hd'
          · cases hd'
            rw [h.destinations id d hd]
            exact ⟨by simpa using hcontains, hd⟩
      · cases hstep
    · cases hstep
  | writeBack index =>
    simp only [jobStep] at hstep
    split at hstep
    next destinations d hjob =>
      cases hstep
      have hcurrent := (h.copies _ (List.mem_of_getElem? hjob) d rfl).2
      refine h.dropJobs hle ?_ (List.eraseIdx_subset)
      intro id
      rw [GoMap.lookup_insert]
      split
      next heq =>
        rw [heq, hcurrent]
      · rfl
    · cases hstep
  | release index id =>
    simp only [jobStep] at hstep
    split at hstep
    next destinations hjob =>
      cases hstep
      have hmem := List.mem_of_getElem? hjob
      refine h.moveJobs hle (fun _ => rfl) ?_ ?_
      · intro job' hjob'
        rcases List.mem_or_eq_of_mem_set hjob' with hold | rfl
        · exact .inl ⟨job', hold, fun _ hmem => hmem⟩
        · exact .inl ⟨_, hmem, List.filter_sublist.subset⟩
      · intro job' hjob' d' hd'
        rcases List.mem_or_eq_of_mem_set hjob' with hold | rfl
        · exact h.copies job' hold d' hd'
        · cases hd'
    · cases hstep
  | finish index =>
    cases hstep
    exact h.dropJobs hle (fun _ => rfl) List.eraseIdx_subset
  | _ => cases hstep

end

end Jobs

section Steps

variable {clock : Instant} {step : SchedulerStep}

theorem runStep_advances (h : w.Sound zones) (hle : w.clock ≤ now)
    (hstep : w.runStep zones now step = some w') :
    w.Advances zones now { w' with clock := now } := by
  cases step with
  | readPlans =>
    simp only [runStep] at hstep
    split at hstep
    next ht =>
      cases hstep
      exact readPlans_advances h hle (by rw [ht]; rfl)
    · cases hstep
  | nextPlan paused =>
    simp only [runStep] at hstep
    split at hstep
    next ht =>
      cases hstep
      exact h.moveRunTick hle (by rw [ht]; rfl) rfl (h.runClaims.forget hle (List.nil_sublist _))
    next plan rest ht =>
      cases hstep
      exact nextPlan_advances h hle paused ht
    · cases hstep
  | examineAssignment reading =>
    simp only [runStep] at hstep
    split at hstep
    next plan a todo due rest ht =>
      split at hstep
      next hreading =>
        cases hstep
        exact examineAssignment_advances h hreading.1 hreading.2 ht
      · cases hstep
    · cases hstep
  | startRun admitted =>
    simp only [runStep] at hstep
    split at hstep
    next plan due rest ht =>
      split at hstep
      next hadmitted =>
        cases hstep
        exact startRun_advances h hle ht hadmitted.2.2
      · cases hstep
        exact refuseRun_advances h hle ht
    · cases hstep
  | recordRun =>
    simp only [runStep] at hstep
    split at hstep
    next plan due rest ht =>
      cases hstep
      exact recordRun_advances h hle ht
    · cases hstep
  | _ => cases hstep

theorem maintenanceStep_advances (h : w.Sound zones) (hle : w.clock ≤ now)
    (hstep : w.maintenanceStep zones now step = some w') :
    w.Advances zones now { w' with clock := now } := by
  cases step with
  | readDestinations =>
    simp only [maintenanceStep] at hstep
    split at hstep
    next ht =>
      cases hstep
      exact readDestinations_advances h hle (by rw [ht]; rfl)
    · cases hstep
  | examineAction paused reading =>
    simp only [maintenanceStep] at hstep
    split at hstep
    next ht =>
      cases hstep
      exact idleMaintenance_advances h hle (by rw [ht]; rfl)
    next d action rest ht =>
      split at hstep
      · cases hstep
        exact idleMaintenance_advances h hle (by rw [ht]; rfl)
      · split at hstep
        next hreading =>
          cases hstep
          exact examineAction_advances h hreading.1 hreading.2 ht
        · cases hstep
    · cases hstep
  | startAction admitted =>
    simp only [maintenanceStep] at hstep
    split at hstep
    next d action due rest ht =>
      split at hstep
      next hadmitted =>
        cases hstep
        exact startAction_advances h hle ht hadmitted.2.1 hadmitted.2.2
      · cases hstep
        exact refuseAction_advances h hle ht
    · cases hstep
  | recordAction =>
    simp only [maintenanceStep] at hstep
    split at hstep
    next d action due rest ht =>
      cases hstep
      exact recordAction_advances h hle ht
    · cases hstep
  | _ => cases hstep

/-- Edits keep away from what a tick has read; other steps are free. -/
def SchedulerStep.Careful (zones : Zones) (w : SchedulerWorld) : SchedulerStep → Prop
  | .savePlan id plan => w.CarefulSave zones id plan
  | .saveDestination id checkSchedule pruneSchedule =>
    w.CarefulDestination zones id checkSchedule pruneSchedule
  | _ => True

/-- What a step comes from. -/
theorem next_cases (hstep : w.next zones now step = some w') :
    ∃ stepped, w' = { stepped with clock := now } ∧
      ((∃ id plan, step = .savePlan id plan ∧ w.savePlan zones now id plan = some stepped) ∨
        (∃ id checkSchedule pruneSchedule,
          step = .saveDestination id checkSchedule pruneSchedule ∧
            w.saveDestination zones now id checkSchedule pruneSchedule = some stepped) ∨
        w.runStep zones now step = some stepped ∨
        w.maintenanceStep zones now step = some stepped ∨ w.jobStep step = some stepped) := by
  obtain ⟨stepped, hstepped, rfl⟩ := Option.map_eq_some_iff.mp hstep
  refine ⟨stepped, rfl, ?_⟩
  split at hstepped
  · exact .inl ⟨_, _, rfl, hstepped⟩
  · exact .inr (.inl ⟨_, _, _, rfl, hstepped⟩)
  · rcases Option.or_eq_some_iff.mp hstepped with hrun | ⟨-, hrest⟩
    · exact .inr (.inr (.inl hrun))
    · rcases Option.or_eq_some_iff.mp hrest with hmaintenance | ⟨-, hjob⟩
      · exact .inr (.inr (.inr (.inl hmaintenance)))
      · exact .inr (.inr (.inr (.inr hjob)))

theorem SchedulerWorld.Sound.next (h : w.Sound zones) (hle : w.clock ≤ now)
    (hcareful : step.Careful zones w) (hstep : w.next zones now step = some w') :
    w.Advances zones now w' := by
  obtain ⟨stepped, rfl, ⟨id, plan, rfl, hsave⟩ | ⟨id, check, prune, rfl, hsave⟩ | hrun |
    hmaintenance | hjob⟩ := next_cases hstep
  · exact savePlan_advances h hle hsave hcareful
  · exact saveDestination_advances h hle hsave hcareful
  · exact runStep_advances h hle hrun
  · exact maintenanceStep_advances h hle hmaintenance
  · exact jobStep_advances h hle hjob

theorem SchedulerWorld.initial_sound (h : unixTime ≤ clock) :
    (initial clock).Sound zones where
  since := h
  tracks key := by
    have hslot : (initial clock).slot key = none := by cases key <;> rfl
    have hflight : (initial clock).flight key = none := by cases key <;> rfl
    rw [track, hslot, hflight]
    exact Track.Sound.empty (Int.le_refl clock)
  fresh e he := by cases he
  plans id plan hl := by cases hl
  destinations id d hl := by cases hl
  runClaims := ⟨.nil, by simp [initial, RunTick.claims], by simp [initial, RunTick.claims]⟩
  actionClaims := ⟨.nil, by simp [initial, MaintenanceTick.claims],
    by simp [initial, MaintenanceTick.claims]⟩
  started := by simp [initial]
  alone := by simp [initial]
  copies job hjob := by cases hjob

/-- Runs in which every edit is careful. -/
def carefulLts (zones : Zones) : Lts SchedulerWorld (Instant × SchedulerStep) where
  Tr w label w' := (schedulerLts zones).Tr w label w' ∧ label.2.Careful zones w

theorem sound_of_carefulRun {labels : List (Instant × SchedulerStep)} (hclock : unixTime ≤ clock)
    (hrun : (carefulLts zones).MTr (initial clock) labels w) : w.Sound zones := by
  have hinv : (carefulLts zones).TrInv (SchedulerWorld.Sound zones) := by
    intro w label w' hstep hw
    obtain ⟨⟨hle, hnext⟩, hcareful⟩ := hstep
    exact (hw.next hle hcareful hnext).1
  exact Lts.mTrInv_of_trInv hinv hrun (initial_sound hclock)

/-- While its schedule is unchanged, the mark of a slot does not go back. -/
def SchedulerWorld.KeepsMarks (w w' : SchedulerWorld) : Prop :=
  ∀ key s s', w.slot key = some s → w'.slot key = some s' → s.schedule = s'.schedule →
    ∀ m, s.mark = some m → ∃ m', s'.mark = some m' ∧ m ≤ m'

theorem SchedulerWorld.Sound.keepsMarks (h : w.Sound zones) (hm : w.Moves zones now w') :
    w.KeepsMarks w' :=
  fun key _ _ hs hs' hsame _ hmark => (h.tracks key).keepsMark (hm key) hs hs' hsame hmark

end Steps

variable {label : Instant × SchedulerStep}

/-- No two entries are for one slot and one occurrence, if no slot has an occurrence twice. -/
theorem nodup_log {log : List StartedOccurrence}
    (h : ∀ key, ((log.filter fun e => e.key = key).map StartedOccurrence.occurrence).Nodup) :
    (log.map fun e => (e.key, e.occurrence)).Nodup := by
  induction log with
  | nil => exact .nil
  | cons e log ih =>
    refine List.nodup_cons.mpr ⟨?_, ih ?_⟩
    · intro hmem
      obtain ⟨e', he', heq⟩ := List.mem_map.mp hmem
      obtain ⟨hkey, hoccurrence⟩ := Prod.mk.inj heq
      have hnodup := h e.key
      rw [List.filter_cons_of_pos (by simp), List.map_cons, List.nodup_cons] at hnodup
      apply hnodup.1
      exact List.mem_map.mpr ⟨e', List.mem_filter.mpr ⟨he', by simpa using hkey⟩, hoccurrence⟩
    · intro key
      have hsub : (log.filter fun e => e.key = key).Sublist
          ((e :: log).filter fun e => e.key = key) := (List.sublist_cons_self e log).filter _
      exact List.Nodup.sublist (hsub.map _) (h key)

/-- In runs whose edits are careful, each occurrence of each slot is started at most once, none is
at or before the save of its schedule, and no mark goes back. -/
theorem careful_runs_start_once {clock : Instant} {labels : List (Instant × SchedulerStep)}
    (hclock : unixTime ≤ clock)
    (hrun : (carefulLts zones).MTr (SchedulerWorld.initial clock) labels w) :
    (w.log.map fun e => (e.key, e.occurrence)).Nodup ∧
    (∀ e ∈ w.log, e.savedAt < e.occurrence) ∧
    ∀ label w', (carefulLts zones).Tr w label w' → w.KeepsMarks w' := by
  have hsound := sound_of_carefulRun hclock hrun
  refine ⟨nodup_log fun key => (hsound.tracks key).once, hsound.fresh, ?_⟩
  rintro label w' ⟨⟨hle, hnext⟩, hcareful⟩
  exact hsound.keepsMarks (hsound.next hle hcareful hnext).2

/-- Hours and minutes since the start of 1970. -/
def clockAt (hours minutes : ℤ) : Instant := unixTime + (hours * 60 + minutes) * 60 * second

def noZones : Zones := ⟨fun _ => none, .utc⟩

def unscheduled : Schedule := ⟨.manual, "", 0, "", 0⟩

def everyHours (hours : ℤ) : Plan :=
  ⟨"", "p", true, "stop", [], [⟨"d", true, ⟨.interval, "", 0, "", hours⟩, ⟨0, 0, 0⟩, none, none⟩]⟩

/-- A step at its time, if the clock has not passed it. -/
def SchedulerWorld.step (w : SchedulerWorld) (label : Instant × SchedulerStep) :
    Option SchedulerWorld :=
  if w.clock ≤ label.1 then w.next noZones label.1 label.2 else none

theorem tr_of_step (h : w.step label = some w') : (schedulerLts noZones).Tr w label w' := by
  unfold step at h
  split at h
  next hle =>
    exact ⟨hle, h⟩
  · cases h

/-- Edits between ticks, of schedules without a calendar. -/
def SchedulerStep.plain (w : SchedulerWorld) : SchedulerStep → Bool
  | .savePlan _ plan => w.runTick.waiting.isEmpty &&
      plan.destinations.all fun a => a.schedule.frequency = .interval
  | .saveDestination _ checkSchedule pruneSchedule => w.maintenanceTick.waiting.isEmpty &&
      checkSchedule.frequency = .manual && pruneSchedule.frequency = .manual
  | _ => true

theorem SchedulerStep.careful_of_plain {step : SchedulerStep} (h : step.plain w = true) :
    step.Careful zones w := by
  cases step with
  | savePlan id plan =>
    simp only [SchedulerStep.plain, Bool.and_eq_true, List.isEmpty_iff, List.all_eq_true] at h
    intro assignments hn a hrenewed
    refine ⟨?_, by simp [h.1]⟩
    unfold normalizeAssignments at hn
    dsimp only at hn
    split at hn
    · cases hn
      obtain ⟨a', ha', rfl⟩ := List.mem_map.mp hrenewed.1
      have hinterval : a'.schedule.frequency = .interval := by simpa using h.2 a' ha'
      simp [Orderly, hinterval]
    · cases hn
  | saveDestination id checkSchedule pruneSchedule =>
    simp only [SchedulerStep.plain, Bool.and_eq_true, List.isEmpty_iff, decide_eq_true_eq] at h
    intro action _
    refine ⟨?_, by simp [h.1.1]⟩
    cases action with
    | check => simp [Orderly, newSchedule, h.1.2]
    | prune => simp [Orderly, newSchedule, h.2]
  | _ => trivial

def SchedulerWorld.plainStep (w : SchedulerWorld) (label : Instant × SchedulerStep) :
    Option SchedulerWorld :=
  if label.2.plain w then w.step label else none

theorem careful_of_plainStep (h : w.plainStep label = some w') :
    (carefulLts noZones).Tr w label w' := by
  unfold plainStep at h
  split at h
  next hplain =>
    exact ⟨tr_of_step h, SchedulerStep.careful_of_plain hplain⟩
  · cases h

/-- A daily plan is saved, and a tick finds its first occurrence due. -/
def dueTick : List (Instant × SchedulerStep) :=
  [(clockAt 0 0, .saveDestination "d" unscheduled unscheduled),
    (clockAt 1 0, .savePlan "p" (everyHours 24)),
    (clockAt 25 30, .readPlans),
    (clockAt 25 30, .nextPlan false),
    (clockAt 25 30, .examineAssignment (clockAt 25 30))]

def firstTick : List (Instant × SchedulerStep) :=
  dueTick ++ [(clockAt 25 32, .startRun true), (clockAt 25 32, .recordRun)]

theorem firstTick_runs :
    (firstTick.foldlM plainStep (.initial (clockAt 0 0))).isSome = true := by
  decide +kernel

/-- The hypotheses hold for a run in which a job is started. -/
theorem first_occurrence_starts :
    ∃ w, (carefulLts noZones).MTr (.initial (clockAt 0 0)) firstTick w ∧
      w.log = [⟨.copy "p" "d", clockAt 24 0, clockAt 1 0⟩] ∧
      ∀ e ∈ w.log, e.savedAt < e.occurrence := by
  have hrun : (carefulLts noZones).MTr _ firstTick _ :=
    Lts.mTr_of_foldlM (fun _ _ _ h => careful_of_plainStep h) (Option.some_get firstTick_runs).symm
  refine ⟨_, hrun, ?_, (careful_runs_start_once (by decide) hrun).2.1⟩
  decide +kernel

/-- The plan becomes hourly before the run is started. -/
def staleTick : List (Instant × SchedulerStep) :=
  dueTick ++ [(clockAt 25 31, .savePlan "p" (everyHours 1)), (clockAt 25 32, .startRun true)]

theorem staleTick_runs :
    (staleTick.foldlM step (.initial (clockAt 0 0))).isSome = true := by
  decide +kernel

def staleStart : SchedulerWorld :=
  (staleTick.foldlM SchedulerWorld.step (.initial (clockAt 0 0))).get staleTick_runs

theorem staleStart_records :
    (staleStart.step (clockAt 25 32, .recordRun)).isSome = true := by
  decide +kernel

def staleRecord : SchedulerWorld :=
  (staleStart.step (clockAt 25 32, .recordRun)).get staleStart_records

/-- An edit after the tick has read the plan: a job is started for an occurrence before the save,
and the mark goes back by an hour. -/
theorem stale_tick_goes_back :
    (schedulerLts noZones).MTr (.initial (clockAt 0 0)) staleTick staleStart ∧
    (schedulerLts noZones).Tr staleStart (clockAt 25 32, .recordRun) staleRecord ∧
    staleStart.log = [⟨.copy "p" "d", clockAt 24 0, clockAt 25 31⟩] ∧
    clockAt 24 0 ≤ clockAt 25 31 ∧ ¬staleStart.KeepsMarks staleRecord := by
  refine ⟨Lts.mTr_of_foldlM (fun _ _ _ h => tr_of_step h) (Option.some_get staleTick_runs).symm,
    tr_of_step (Option.some_get staleStart_records).symm, by decide +kernel, by decide, ?_⟩
  intro hkeeps
  have hbefore : staleStart.slot (.copy "p" "d") =
      some ⟨⟨.interval, "", 0, "", 1⟩, some (clockAt 25 0)⟩ := by decide +kernel
  have hafter : staleRecord.slot (.copy "p" "d") =
      some ⟨⟨.interval, "", 0, "", 1⟩, some (clockAt 24 0)⟩ := by decide +kernel
  obtain ⟨m, hm, hle⟩ := hkeeps _ _ _ hbefore hafter rfl _ rfl
  cases hm
  revert hle
  decide

end Stacklab.Backup
