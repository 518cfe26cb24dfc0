import Stacklab.Backup.SchedulerTicks

/-! Edits of plans and destinations keep every track sound, as long as they stay away from what
a tick has read. -/
namespace Stacklab.Backup

open Lib SchedulerWorld

section Edited

variable {zones : Zones} {w w' : SchedulerWorld} {now : Instant} {key : SlotKey}

/-- An edit gives a slot another schedule. -/
structure SchedulerWorld.Renews (zones : Zones) (now : Instant) (w w' : SchedulerWorld)
    (key : SlotKey) (schedule : Schedule) : Prop where
  other : ∀ s, w.slot key = some s → s.schedule ≠ schedule
  track : w'.track key =
    ⟨some ⟨schedule, latestDue zones schedule now⟩, now, none, w.startedFor key⟩

/-- An edit keeps a slot, drops it, or renews it with a schedule that is allowed there. -/
def SchedulerWorld.Edited (zones : Zones) (now : Instant) (w w' : SchedulerWorld)
    (allowed : SlotKey → Schedule → Prop) : Prop :=
  ∀ key, w'.track key = w.track key ∨
    w'.track key = ⟨none, w.savedAt key, none, w.startedFor key⟩ ∨
    ∃ schedule, w.Renews zones now w' key schedule ∧ allowed key schedule

section

variable {allowed : SlotKey → Schedule → Prop} (h : w.Edited zones now w' allowed)
include h

theorem SchedulerWorld.Edited.moves (hsince : unixTime ≤ now)
    (ha : ∀ key schedule, allowed key schedule → Orderly zones schedule) :
    w.Moves zones now w' := by
  intro key
  rcases h key with heq | heq | ⟨schedule, hrenews, hallowed⟩
  · exact heq ▸ .keep
  · exact heq ▸ .drop
  · exact hrenews.track ▸ .save hrenews.other ((ha key schedule hallowed).settles hsince)
      fun m hm => latestDue_le hsince hm

/-- Edits that keep away from what a tick has read leave its claims right. -/
theorem SchedulerWorld.Edited.claimed {claims : List (SlotKey × Claim Schedule)}
    (hle : w.clock ≤ now) (hc : Claimed w.clock w.track claims)
    (ha : ∀ e ∈ claims, ∀ schedule, ¬allowed e.1 schedule) : Claimed now w'.track claims := by
  refine hc.frame hle fun e he => ?_
  rcases h e.1 with heq | heq | ⟨schedule, -, hallowed⟩
  · exact .inl heq
  · exact .inr (heq ▸ ⟨rfl, rfl⟩)
  · exact absurd hallowed (ha e he schedule)

end

end Edited

section SavePlan

variable {zones : Zones} {w w' : SchedulerWorld} {now : Instant} {id : String} {plan : Plan}
  {assignments previous : List Assignment}

theorem normalizeAssignments_spec {assignments' : List Assignment}
    (h : normalizeAssignments zones assignments' = some assignments) :
    (assignments.map Assignment.destinationID).Nodup := by
  unfold normalizeAssignments at h
  dsimp only at h
  split at h
  next hc =>
    cases h
    exact hc.1
  · cases h

theorem saveAssignment_id (zones : Zones) (now : Instant) (previous : List Assignment)
    (a : Assignment) : (saveAssignment zones now previous a).destinationID = a.destinationID := by
  unfold saveAssignment
  split <;> rfl

/-- The assignments that a save gives a new schedule. -/
def SchedulerWorld.Renewed (w : SchedulerWorld) (id : String) (assignments : List Assignment)
    (a : Assignment) : Prop :=
  a ∈ assignments ∧ preserved (((w.plans.lookup id).map Plan.destinations).getD []) a = none

/-- A save keeps the slot of an assignment, drops it, or renews it. -/
theorem savePlan_track (h : w.Sound zones)
    (hn : normalizeAssignments zones plan.destinations = some assignments)
    (hsave : w.savePlan zones now id plan = some w') :
    w.Edited zones now w' fun key schedule => ∃ a, w.Renewed id assignments a ∧
      key = .copy id a.destinationID ∧ schedule = a.schedule := by
  have hnodup := normalizeAssignments_spec hn
  simp only [SchedulerWorld.savePlan, hn] at hsave
  split at hsave
  · cases hsave
  rename_i hfree
  rw [Bool.or_eq_true, not_or] at hfree
  obtain ⟨-, hidle, -⟩ := not_busy (Bool.eq_false_iff.mpr hfree.1)
  cases hsave
  intro key
  cases key with
  | maintenance destinationID action => exact .inl rfl
  | copy planID destinationID =>
  by_cases hid : planID = id
  swap
  · left
    simp [track, slot, assignment, hid]
    exact ⟨rfl, rfl⟩
  subst hid
  have hflight := run_flight hidle planID destinationID
  set previous := ((w.plans.lookup planID).map Plan.destinations).getD [] with hprevious
  have hslot := find?_map_keeping (saveAssignment_id zones now previous) assignments destinationID
  cases hfind : assignments.find? fun a => a.destinationID = destinationID with
  | none =>
    rw [hfind] at hslot
    have habsent : (assignments.any fun a =>
        a.destinationID = destinationID && (preserved previous a).isNone) = false := by
      rw [List.any_eq_false]
      intro a ha hc
      have hne := List.find?_eq_none.mp hfind a ha
      exact hne (Bool.and_eq_true_iff.mp hc).1
    refine .inr (.inl ?_)
    simp [track, slot, assignment, hslot, habsent]
    exact ⟨hflight, rfl⟩
  | some a =>
    rw [hfind] at hslot
    have ha := List.mem_of_find?_eq_some hfind
    have hid : a.destinationID = destinationID := by simpa using List.find?_some hfind
    cases hpreserved : preserved previous a with
    | some old =>
      have hold := List.mem_of_find?_eq_some hpreserved
      have hmatch : old.destinationID = a.destinationID ∧ old.schedule = a.schedule := by
        simpa using List.find?_some hpreserved
      have hkept : (assignments.any fun b =>
          b.destinationID = destinationID && (preserved previous b).isNone) = false := by
        rw [List.any_eq_false]
        intro b hb hc
        obtain ⟨hbid, hbnone⟩ := Bool.and_eq_true_iff.mp hc
        have hbid : b.destinationID = destinationID := by simpa using hbid
        cases List.inj_on_of_nodup_map hnodup hb ha (hbid.trans hid.symm)
        simp [hpreserved] at hbnone
      obtain ⟨saved, hsaved, hdestinations⟩ : ∃ saved, w.plans.lookup planID = some saved ∧
          saved.destinations = previous := by
        cases hl : w.plans.lookup planID with
        | none => simp [hprevious, hl] at hold
        | some saved => exact ⟨saved, rfl, by simp [hprevious, hl]⟩
      have hbefore := slot_of_read h hsaved (hdestinations ▸ hold)
      rw [hmatch.1, hid, hmatch.2] at hbefore
      left
      simp [track, hbefore, hkept]
      simp [slot, assignment, hslot, saveAssignment, hpreserved]
      exact ⟨rfl, rfl⟩
    | none =>
      have hrenewed : (assignments.any fun b =>
          b.destinationID = destinationID && (preserved previous b).isNone) = true := by
        rw [List.any_eq_true]
        exact ⟨a, ha, by simp [hid, hpreserved]⟩
      refine .inr (.inr ⟨a.schedule, ⟨?_, ?_⟩, a, ⟨ha, hpreserved⟩, by rw [hid], rfl⟩)
      · -- an assignment that had the schedule before is preserved, not renewed
        intro s hs hsame
        obtain ⟨old, hold, rfl⟩ := Option.map_eq_some_iff.mp hs
        obtain ⟨saved, hsaved, hfind⟩ := Option.bind_eq_some_iff.mp hold
        have hmem := List.mem_of_find?_eq_some hfind
        have holdID : old.destinationID = destinationID := by simpa using List.find?_some hfind
        have hnot := List.find?_eq_none.mp hpreserved old (by simpa [hprevious, hsaved] using hmem)
        simp only [holdID, hid, decide_true, Bool.true_and, decide_eq_true_eq] at hnot
        exact hnot hsame
      · simp [track, slot, assignment, hslot, hrenewed, saveAssignment, hpreserved]
        exact ⟨hflight, rfl⟩

/-- What an edit must respect: the schedules that it brings in are orderly, and the tick is not
about to act on what it has read of the plan. -/
def SchedulerWorld.CarefulSave (zones : Zones) (w : SchedulerWorld) (id : String) (plan : Plan) :
    Prop :=
  ∀ assignments, normalizeAssignments zones plan.destinations = some assignments →
    ∀ a, w.Renewed id assignments a →
      Orderly zones a.schedule ∧ id ∉ w.runTick.waiting.map Plan.id

theorem savePlan_advances (h : w.Sound zones) (hle : w.clock ≤ now)
    (hsave : w.savePlan zones now id plan = some w') (hcareful : w.CarefulSave zones id plan) :
    w.Advances zones now { w' with clock := now } := by
  obtain ⟨assignments, hn⟩ : ∃ assignments,
      normalizeAssignments zones plan.destinations = some assignments := by
    cases hn : normalizeAssignments zones plan.destinations with
    | none => simp [SchedulerWorld.savePlan, hn] at hsave
    | some assignments => exact ⟨assignments, rfl⟩
  have hedited := savePlan_track h hn hsave
  simp only [SchedulerWorld.savePlan, hn] at hsave
  split at hsave
  · cases hsave
  cases hsave
  refine h.advances hle (hedited.moves (Int.le_trans h.since hle) ?_) h.fresh ?_ h.destinations
    (hedited.claimed hle h.runClaims ?_) (hedited.claimed hle h.actionClaims ?_) ?_ h.alone
    h.copies
  · rintro _ _ ⟨a, hrenewed, -, rfl⟩
    exact (hcareful assignments hn a hrenewed).1
  · refine GoMap.forall_insert h.plans ⟨rfl, ?_⟩
    rw [map_id_keeping (saveAssignment_id zones now _)]
    exact normalizeAssignments_spec hn
  · rintro e he _ ⟨a, hrenewed, hkey, -⟩
    obtain ⟨p, hp, destinationID, hkey'⟩ := RunTick.mem_claims _ he
    have hid : p.id = id := (SlotKey.copy.inj (hkey'.symm.trans hkey)).1
    exact (hcareful assignments hn a hrenewed).2 (List.mem_map.mpr ⟨p, hp, hid⟩)
  · rintro e he _ ⟨a, -, hkey, -⟩
    obtain ⟨entry, -, hkey'⟩ := List.mem_map.mp (MaintenanceTick.mem_claims _ he)
    cases hkey'.trans hkey
  · intro p due rest hstarted
    obtain ⟨current, hp⟩ := h.started p due rest hstarted
    by_cases hid : p.id = id
    · exact ⟨_, by rw [GoMap.lookup_insert, if_pos hid]⟩
    · exact ⟨current, by rw [GoMap.lookup_insert, if_neg hid, hp]⟩

end SavePlan

variable {zones : Zones} {w w' : SchedulerWorld} {now : Instant} {id : String}
  {checkSchedule pruneSchedule : Schedule} {action : MaintenanceAction}

/-- The schedule that a save brings in for an action. -/
def newSchedule (checkSchedule pruneSchedule : Schedule) : MaintenanceAction → Schedule
  | .check => checkSchedule
  | .prune => pruneSchedule

/-- The save gives the action another schedule than the saved one. -/
def SchedulerWorld.Rescheduled (w : SchedulerWorld) (id : String) (schedule : Schedule)
    (action : MaintenanceAction) : Prop :=
  ∀ d, w.destinations.lookup id = some d → d.schedule action ≠ schedule

section

variable (hsave : w.saveDestination zones now id checkSchedule pruneSchedule = some w')
include hsave

/-- A save that is accepted finds no job, and changes only its destination. -/
theorem saveDestination_frame :
    (w.active = [] ∧ w.maintenanceTick.isStarted = false) ∧ ∃ d, d.id = id ∧
      w' = { w with destinations := w.destinations.insert id d, savedAt := w'.savedAt } ∧
      (∀ key, (∀ action, key ≠ .maintenance id action) → w'.savedAt key = w.savedAt key) ∧
      ∀ action,
        d.schedule action = newSchedule checkSchedule pruneSchedule action ∧
        d.last action =
          (if ((w.destinations.lookup id).getD .zero).schedule action ≠
              newSchedule checkSchedule pruneSchedule action then
            latestDue zones (newSchedule checkSchedule pruneSchedule action) now
          else ((w.destinations.lookup id).getD .zero).last action) ∧
        w'.savedAt (.maintenance id action) =
          if ((w.destinations.lookup id).getD .zero).schedule action ≠
                newSchedule checkSchedule pruneSchedule action ∨
              (w.destinations.lookup id).isNone then now
          else w.savedAt (.maintenance id action) := by
  simp only [SchedulerWorld.saveDestination] at hsave
  split at hsave
  · cases hsave
  rename_i hfree
  rw [Bool.or_eq_true, Bool.or_eq_true, not_or, not_or] at hfree
  obtain ⟨hactive, -, hidle⟩ := not_busy (Bool.eq_false_iff.mpr hfree.1.1)
  cases hsave
  refine ⟨⟨hactive, hidle⟩, _, rfl, rfl, ?_, ?_⟩
  · intro key hkey
    cases key with
    | copy planID destinationID => rfl
    | maintenance destinationID action =>
      have hne : destinationID ≠ id := fun he => hkey action (he ▸ rfl)
      simp [hne]
  · intro action
    cases action <;> exact ⟨rfl, rfl, by simp [newSchedule]⟩

/-- A save keeps the slot of an action or renews it. -/
theorem saveDestination_track :
    w.Edited zones now w' fun key schedule => ∃ action,
      key = .maintenance id action ∧
      schedule = newSchedule checkSchedule pruneSchedule action ∧
      w.Rescheduled id schedule action := by
  obtain ⟨⟨-, hidle⟩, d, -, hw', hsaved, hnew⟩ := saveDestination_frame hsave
  intro key
  by_cases hkey : ∃ action, key = .maintenance id action
  swap
  · left
    have hsame := hsaved key fun action heq => hkey ⟨action, heq⟩
    rw [track, hsame, hw']
    cases key with
    | copy planID destinationID => rfl
    | maintenance destinationID action =>
      have hne : destinationID ≠ id := fun he => hkey ⟨action, he ▸ rfl⟩
      simp [track, slot, hne]
      exact ⟨rfl, rfl⟩
  obtain ⟨action, rfl⟩ := hkey
  obtain ⟨hschedule, hlast, hsavedAt⟩ := hnew action
  have hflight := action_flight hidle id action
  have htrack : w'.track (.maintenance id action) =
      ⟨some ⟨newSchedule checkSchedule pruneSchedule action, d.last action⟩,
        w'.savedAt (.maintenance id action), none, w.startedFor (.maintenance id action)⟩ := by
    rw [track, hw', ← hschedule, ← hflight]
    simp [slot]
    exact ⟨rfl, rfl⟩
  cases hl : w.destinations.lookup id with
  | none =>
    refine .inr (.inr ⟨_, ⟨by simp [slot, hl], ?_⟩, action, rfl, rfl,
      by simp [SchedulerWorld.Rescheduled, hl]⟩)
    rw [htrack, hlast, hsavedAt, hl, if_pos (Or.inr Option.isNone_none), Option.getD_none]
    split
    · rfl
    · -- the schedule of a destination that is not there is never due
      rename_i hzero
      rw [← not_not.mp hzero]
      cases action <;> rfl
  | some old =>
    rw [hl, Option.getD_some] at hlast hsavedAt
    by_cases hsame : old.schedule action = newSchedule checkSchedule pruneSchedule action
    · left
      rw [htrack, hlast, hsavedAt]
      simp [track, slot, hl, hsame, hflight]
    · refine .inr (.inr ⟨_, ⟨by simpa [slot, hl] using hsame, ?_⟩, action, rfl, rfl,
        by simpa [SchedulerWorld.Rescheduled, hl] using hsame⟩)
      rw [htrack, hlast, hsavedAt, if_pos hsame, if_pos (.inl hsame)]

end

/-- What an edit must respect, for each action that it gives another schedule. -/
def SchedulerWorld.CarefulDestination (zones : Zones) (w : SchedulerWorld) (id : String)
    (checkSchedule pruneSchedule : Schedule) : Prop :=
  ∀ action, w.Rescheduled id (newSchedule checkSchedule pruneSchedule action) action →
    Orderly zones (newSchedule checkSchedule pruneSchedule action) ∧
      SlotKey.maintenance id action ∉ w.maintenanceTick.waiting.map actionKey

theorem saveDestination_advances (h : w.Sound zones) (hle : w.clock ≤ now)
    (hsave : w.saveDestination zones now id checkSchedule pruneSchedule = some w')
    (hcareful : w.CarefulDestination zones id checkSchedule pruneSchedule) :
    w.Advances zones now { w' with clock := now } := by
  have hedited := saveDestination_track hsave
  obtain ⟨⟨hactive, hidle⟩, d, hid, hw', -⟩ := saveDestination_frame hsave
  have hjobs : w'.active = [] := by rw [hw']; exact hactive
  have hruns : w'.runTick = w.runTick := by rw [hw']
  have htick : w'.maintenanceTick = w.maintenanceTick := by rw [hw']
  have hplans : w'.plans = w.plans := by rw [hw']
  have hdestinations : w'.destinations = w.destinations.insert id d := by rw [hw']
  have hlog : w'.log = w.log := by rw [hw']
  have hrunClaims : Claimed now w'.track w'.runTick.claims := by
    rw [hruns]
    refine hedited.claimed hle h.runClaims ?_
    rintro e he _ ⟨action, hkey, -, -⟩
    obtain ⟨p, -, destinationID, hkey'⟩ := RunTick.mem_claims _ he
    cases hkey'.symm.trans hkey
  have hactionClaims : Claimed now w'.track w'.maintenanceTick.claims := by
    rw [htick]
    refine hedited.claimed hle h.actionClaims ?_
    rintro e he _ ⟨action, hkey, rfl, hchanged⟩
    exact (hcareful action hchanged).2 (hkey ▸ MaintenanceTick.mem_claims _ he)
  refine h.advances hle (hedited.moves (Int.le_trans h.since hle) ?_) (hlog ▸ h.fresh)
    (hplans ▸ h.plans) ?_ hrunClaims hactionClaims (hruns ▸ hplans ▸ h.started) ?_ ?_
  · rintro _ _ ⟨action, -, rfl, hchanged⟩
    exact (hcareful action hchanged).1
  · rw [hdestinations]
    exact GoMap.forall_insert h.destinations hid
  · intro d' action due rest hstarted
    rw [htick] at hstarted
    rw [hstarted] at hidle
    cases hidle
  · intro job hjob
    rw [hjobs] at hjob
    cases hjob

end Stacklab.Backup
