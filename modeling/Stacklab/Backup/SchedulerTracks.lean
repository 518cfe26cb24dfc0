import Stacklab.Lib.Watermark
import Stacklab.Backup.Scheduler
import Stacklab.Backup.ScheduleExact

/-! What holds of the scheduler between two steps: each slot is a sound track, and what a tick
has read of a slot is what the slot still is. -/
namespace Stacklab.Backup

open Lib SchedulerWorld

section Settling

variable {zones : Zones} {schedule : Schedule} {now o : Instant}

/-- A schedule without a calendar, or one whose dates are met in order. -/
def Orderly (zones : Zones) (schedule : Schedule) : Prop :=
  schedule.frequency = .daily ∨ schedule.frequency = .weekly → DatesInOrder zones schedule

theorem latestDue_interval (hv : validateSchedule zones schedule = .ok ())
    (hf : schedule.frequency = .interval) (now : Instant) :
    latestDue zones schedule now = some (unixTime + (unixSeconds now).tdiv
      (schedule.intervalHours * 3600) * (schedule.intervalHours * 3600) * second) := by
  simp only [latestDue, hv, hf]

theorem intervalHours_pos (hv : validateSchedule zones schedule = .ok ())
    (hf : schedule.frequency = .interval) : 0 < schedule.intervalHours := by
  simp only [validateSchedule, hf] at hv
  split at hv
  · cases hv
  · omega

/-- Which schedules can be due at all. -/
theorem frequency_of_latestDue (h : latestDue zones schedule now = some o) :
    validateSchedule zones schedule = .ok () ∧
      (schedule.frequency = .interval ∨
        schedule.frequency = .daily ∨ schedule.frequency = .weekly) := by
  unfold latestDue at h
  split at h
  · cases h
  · cases h
  · cases h
  next hv hf =>
    exact ⟨hv, .inl hf⟩
  next hv hm hu hi =>
    refine ⟨hv, ?_⟩
    cases hf : schedule.frequency with
    | unset => exact absurd hf hu
    | manual => exact absurd hf hm
    | interval => exact .inl rfl
    | daily => exact .inr (.inl rfl)
    | weekly => exact .inr (.inr rfl)
    | other name => simp [validateSchedule, hf] at hv

theorem le_unixSeconds {x : ℤ} : x ≤ unixSeconds now ↔ unixTime + x * second ≤ now := by
  rw [unixSeconds, Int.le_ediv_iff_mul_le (by decide)]
  constructor
  · intro h
    exact Int.add_le_of_le_sub_left h
  · intro h
    exact Int.le_sub_left_of_add_le h

theorem unixSeconds_nonneg (hnow : unixTime ≤ now) : 0 ≤ unixSeconds now := by
  rw [le_unixSeconds]
  simpa using hnow

/-- The start of an interval is the greatest multiple of its length. -/
theorem multiple_le_iff {u length q : ℤ} (hu : 0 ≤ u) (hl : 0 < length) :
    q * length ≤ u ↔ q ≤ u.tdiv length := by
  rw [Int.tdiv_eq_ediv_of_nonneg hu, Int.le_ediv_iff_mul_le hl]

theorem latestDue_le (hnow : unixTime ≤ now) (h : latestDue zones schedule now = some o) :
    o ≤ now := by
  obtain ⟨hv, hf | hf⟩ := frequency_of_latestDue h
  · have hlength : 0 < schedule.intervalHours * 3600 := by
      have hpos := intervalHours_pos hv hf
      omega
    rw [latestDue_interval hv hf] at h
    cases h
    apply le_unixSeconds.mp
    exact (multiple_le_iff (unixSeconds_nonneg hnow) hlength).mpr (Int.le_refl _)
  · rw [latestDue_eq hv hf] at h
    obtain ⟨k, -, hc, -⟩ := head?_found.mp h
    exact le_of_dueAt hc

theorem Orderly.settles (ho : Orderly zones schedule) (hnow : unixTime ≤ now) :
    Track.Settles (latestDue zones) schedule now := by
  intro later hlater o hdue hle
  have hlaterSince : unixTime ≤ later := Int.le_trans hnow hlater
  obtain ⟨hv, hf | hf⟩ := frequency_of_latestDue hdue
  · have hlength : 0 < schedule.intervalHours * 3600 := by
      have hpos := intervalHours_pos hv hf
      omega
    refine ⟨_, latestDue_interval hv hf now, ?_⟩
    rw [latestDue_interval hv hf] at hdue
    cases hdue
    have hq := (multiple_le_iff (unixSeconds_nonneg hnow) hlength).mp (le_unixSeconds.mpr hle)
    have hmul := Int.mul_le_mul_of_nonneg_right hq (Int.le_of_lt hlength)
    exact Int.add_le_add_left (Int.mul_le_mul_of_nonneg_right hmul (by decide)) _
  · have hgreatest := ((ho hf).latest hv hf hlaterSince o).mp hdue
    obtain ⟨m, hm⟩ := exists_isGreatest hgreatest.1.1 hle
    exact ⟨m, ((ho hf).latest hv hf hnow m).mpr hm, hm.2 ⟨hgreatest.1.1, hle⟩⟩

end Settling

section Lists

variable {α β : Type} [DecidableEq β] {l : List α} {f : α → β} {a : α}

theorem find?_of_nodup (h : (l.map f).Nodup) (ha : a ∈ l) :
    l.find? (fun x => f x = f a) = some a := by
  induction l with
  | nil => cases ha
  | cons x l ih =>
    obtain ⟨hx, hl⟩ := List.nodup_cons.mp (List.map_cons ▸ h)
    rcases List.mem_cons.mp ha with rfl | ha
    · simp
    · have hne : f x ≠ f a := fun he => hx (he ▸ List.mem_map_of_mem ha)
      rw [List.find?_cons_of_neg (by simpa using hne)]
      exact ih hl ha

variable {entries : List (β × α)} {k : β}

theorem mem_of_lookup (h : entries.lookup k = some a) : (k, a) ∈ entries := by
  obtain ⟨l₁, l₂, rfl, -⟩ := List.lookup_eq_some_iff.mp h
  simp

/-- The values under a key are the one that is looked up. -/
theorem filter_key_eq_lookup (h : (entries.map Prod.fst).Nodup) :
    (entries.filter fun e => e.1 = k).map Prod.snd = (entries.lookup k).toList := by
  induction entries with
  | nil => rfl
  | cons e entries ih =>
    obtain ⟨he, hl⟩ := List.nodup_cons.mp (List.map_cons ▸ h)
    obtain ⟨k', a⟩ := e
    by_cases hk : k' = k
    · subst hk
      have hnone : entries.filter (fun e => e.1 = k') = [] := by
        apply List.filter_eq_nil_iff.mpr
        intro e hmem heq
        exact he (List.mem_map.mpr ⟨e, hmem, by simpa using heq⟩)
      simp [hnone]
    · have hne : (k == k') = false := by simpa using Ne.symm hk
      rw [List.filter_cons_of_neg (by simpa using hk), List.lookup_cons, hne]
      exact ih hl

end Lists

section Tracks

variable {zones : Zones} {w w' : SchedulerWorld} {now : Instant}

namespace SchedulerWorld

def assignment (w : SchedulerWorld) (planID destinationID : String) : Option Assignment :=
  (w.plans.lookup planID).bind fun plan =>
    plan.destinations.find? fun a => a.destinationID = destinationID

def slot (w : SchedulerWorld) : SlotKey → Option (Slot Schedule)
  | .copy planID destinationID =>
    (w.assignment planID destinationID).map fun a => ⟨a.schedule, a.lastScheduledAt⟩
  | .maintenance id action =>
    (w.destinations.lookup id).map fun d => ⟨d.schedule action, d.last action⟩

/-- The occurrence that was started for a slot and is not recorded yet. -/
def flight (w : SchedulerWorld) : SlotKey → Option Instant
  | .copy planID destinationID =>
    match w.runTick with
    | .started plan due _ => if plan.id = planID then due.lookup destinationID else none
    | _ => none
  | .maintenance id action =>
    match w.maintenanceTick with
    | .started d started due _ => if d.id = id ∧ started = action then some due else none
    | _ => none

def startedFor (w : SchedulerWorld) (key : SlotKey) : List Instant :=
  (w.log.filter fun e => e.key = key).map StartedOccurrence.occurrence

def track (w : SchedulerWorld) (key : SlotKey) : Track Schedule :=
  ⟨w.slot key, w.savedAt key, w.flight key, w.startedFor key⟩

/-- What a step does to all slots. -/
def Moves (zones : Zones) (now : Instant) (w w' : SchedulerWorld) : Prop :=
  ∀ key, Track.Step (latestDue zones) now (w.track key) (w'.track key)

end SchedulerWorld

/-- The plans that the tick has read and not yet gone through. -/
def RunTick.waiting : RunTick → List Plan
  | .idle => []
  | .plans rest => rest
  | .examining plan _ _ rest => plan :: rest
  | .started _ _ rest => rest

/-- What the tick has read of a plan. -/
def Plan.claims (plan : Plan) (todo : List Assignment) : List (SlotKey × Claim Schedule) :=
  todo.map fun a => (.copy plan.id a.destinationID, .read ⟨a.schedule, a.lastScheduledAt⟩)

def planClaims (plans : List Plan) : List (SlotKey × Claim Schedule) :=
  plans.flatMap fun plan => plan.claims plan.destinations

def RunTick.claims : RunTick → List (SlotKey × Claim Schedule)
  | .idle => []
  | .plans rest => planClaims rest
  | .examining plan todo due rest =>
    due.map (fun e => (.copy plan.id e.1, .found e.2)) ++ (plan.claims todo ++ planClaims rest)
  | .started _ _ rest => planClaims rest

/-- The actions that the tick has read and not yet gone through. -/
def MaintenanceTick.waiting : MaintenanceTick → List (MaintainedDestination × MaintenanceAction)
  | .idle => []
  | .actions rest => rest
  | .examined d action _ rest => (d, action) :: rest
  | .started _ _ _ rest => rest

def actionKey (entry : MaintainedDestination × MaintenanceAction) : SlotKey :=
  .maintenance entry.1.id entry.2

def actionClaim (entry : MaintainedDestination × MaintenanceAction) : SlotKey × Claim Schedule :=
  (actionKey entry, .read ⟨entry.1.schedule entry.2, entry.1.last entry.2⟩)

def MaintenanceTick.claims : MaintenanceTick → List (SlotKey × Claim Schedule)
  | .idle => []
  | .actions rest => rest.map actionClaim
  | .examined d action due rest => (actionKey (d, action), .found due) :: rest.map actionClaim
  | .started _ _ _ rest => rest.map actionClaim

structure SchedulerWorld.Sound (zones : Zones) (w : SchedulerWorld) : Prop where
  since : unixTime ≤ w.clock
  tracks : ∀ key, (w.track key).Sound (latestDue zones) w.clock
  fresh : ∀ e ∈ w.log, e.savedAt < e.occurrence
  plans : ∀ id plan, w.plans.lookup id = some plan →
    plan.id = id ∧ (plan.destinations.map Assignment.destinationID).Nodup
  destinations : ∀ id d, w.destinations.lookup id = some d → d.id = id
  runClaims : Claimed w.clock w.track w.runTick.claims
  actionClaims : Claimed w.clock w.track w.maintenanceTick.claims
  /-- The plan of a run that was started is still there. -/
  started : ∀ plan due rest, w.runTick = .started plan due rest →
    ∃ current, w.plans.lookup plan.id = some current
  /-- Maintenance that was started is alone with its destination. -/
  alone : ∀ d action due rest, w.maintenanceTick = .started d action due rest →
    w.runTick.holds d.id = false ∧ ∀ job ∈ w.active, d.id ∉ job.destinations
  /-- What a job has read of its destination is what the destination still is. -/
  copies : ∀ job ∈ w.active, ∀ d, job.copy = some d →
    d.id ∈ job.destinations ∧ w.destinations.lookup d.id = some d

theorem SchedulerWorld.Moves.of_eq (h : ∀ key, w'.track key = w.track key) :
    w.Moves zones now w' := fun key => h key ▸ .keep

/-- What was started is recorded. -/
theorem SchedulerWorld.Sound.lands (h : w.Sound zones)
    (ht : ∀ key, w'.track key = w.track key ∨ w'.track key = (w.track key).land) :
    w.Moves zones now w' := by
  intro key
  rcases ht key with heq | heq
  · exact heq ▸ .keep
  · exact heq ▸ (h.tracks key).land

/-- The tracks after a step that starts an occurrence for some slots. -/
theorem track_launch {f : SlotKey → Option Instant} {new : List StartedOccurrence}
    (hslot : ∀ key, w'.slot key = w.slot key) (hsaved : w'.savedAt = w.savedAt)
    (hflight : ∀ key, w'.flight key = (f key).or (w.flight key)) (hlog : w'.log = new ++ w.log)
    (hnew : ∀ key, (new.filter fun e => e.key = key).map StartedOccurrence.occurrence =
      (f key).toList) (key : SlotKey) : w'.track key = (w.track key).launch (f key) := by
  simp only [track, startedFor, hslot, hsaved, hflight, hlog, List.filter_append, List.map_append,
    hnew, Track.launch]

end Tracks

variable {zones : Zones} {w w' : SchedulerWorld} {now : Instant}

/-- Every slot makes a step, and the state after it is sound. -/
def SchedulerWorld.Advances (zones : Zones) (now : Instant) (w w' : SchedulerWorld) : Prop :=
  w'.Sound zones ∧ w.Moves zones now w'

/-- What has to be shown of a step. -/
theorem SchedulerWorld.Sound.advances (h : w.Sound zones) (hle : w.clock ≤ w'.clock)
    (hm : w.Moves zones w'.clock w') (fresh : ∀ e ∈ w'.log, e.savedAt < e.occurrence)
    (plans : ∀ id plan, w'.plans.lookup id = some plan →
      plan.id = id ∧ (plan.destinations.map Assignment.destinationID).Nodup)
    (destinations : ∀ id d, w'.destinations.lookup id = some d → d.id = id)
    (runClaims : Claimed w'.clock w'.track w'.runTick.claims)
    (actionClaims : Claimed w'.clock w'.track w'.maintenanceTick.claims)
    (started : ∀ plan due rest, w'.runTick = .started plan due rest →
      ∃ current, w'.plans.lookup plan.id = some current)
    (alone : ∀ d action due rest, w'.maintenanceTick = .started d action due rest →
      w'.runTick.holds d.id = false ∧ ∀ job ∈ w'.active, d.id ∉ job.destinations)
    (copies : ∀ job ∈ w'.active, ∀ d, job.copy = some d →
      d.id ∈ job.destinations ∧ w'.destinations.lookup d.id = some d) :
    w.Advances zones w'.clock w' :=
  ⟨{ since := Int.le_trans h.since hle
     tracks := fun key => (h.tracks key).step hle (hm key)
     fresh, plans, destinations, runClaims, actionClaims, started, alone, copies }, hm⟩

theorem run_flight (h : w.runTick.isStarted = false) (planID id : String) :
    w.flight (.copy planID id) = none := by
  cases ht : w.runTick <;> simp_all [flight, RunTick.isStarted]

theorem action_flight (h : w.maintenanceTick.isStarted = false) (id : String)
    (action : MaintenanceAction) : w.flight (.maintenance id action) = none := by
  cases ht : w.maintenanceTick <;> simp_all [flight, MaintenanceTick.isStarted]

theorem RunTick.mem_claims (tick : RunTick) {e : SlotKey × Claim Schedule} (he : e ∈ tick.claims) :
    ∃ plan ∈ tick.waiting, ∃ id, e.1 = .copy plan.id id := by
  have hplans : ∀ plans, e ∈ planClaims plans → ∃ plan ∈ plans, ∃ id, e.1 = .copy plan.id id := by
    intro plans hmem
    obtain ⟨plan, hp, hmem⟩ := List.mem_flatMap.mp hmem
    obtain ⟨a, -, rfl⟩ := List.mem_map.mp hmem
    exact ⟨plan, hp, a.destinationID, rfl⟩
  cases tick with
  | idle => cases he
  | plans rest => exact hplans rest he
  | started plan due rest => exact hplans rest he
  | examining plan todo due rest =>
    rcases List.mem_append.mp he with he | he
    · obtain ⟨entry, -, rfl⟩ := List.mem_map.mp he
      exact ⟨plan, List.mem_cons_self, entry.1, rfl⟩
    · rcases List.mem_append.mp he with he | he
      · obtain ⟨a, -, rfl⟩ := List.mem_map.mp he
        exact ⟨plan, List.mem_cons_self, a.destinationID, rfl⟩
      · obtain ⟨p, hp, id, hkey⟩ := hplans rest he
        exact ⟨p, List.mem_cons_of_mem _ hp, id, hkey⟩

theorem MaintenanceTick.mem_claims (tick : MaintenanceTick) {e : SlotKey × Claim Schedule}
    (he : e ∈ tick.claims) : e.1 ∈ tick.waiting.map actionKey := by
  have hkeys : tick.claims.map Prod.fst = tick.waiting.map actionKey := by
    cases tick <;> simp [claims, waiting, actionClaim]
  exact hkeys ▸ List.mem_map_of_mem he

theorem RunTick.holds_eq_false {tick : RunTick} (h : tick.isStarted = false) (id : String) :
    tick.holds id = false := by
  cases tick with
  | started plan due rest => cases h
  | _ => rfl

theorem SchedulerWorld.not_busy (h : w.configurationBusyLocked = false) :
    w.active = [] ∧ w.runTick.isStarted = false ∧ w.maintenanceTick.isStarted = false := by
  simpa [configurationBusyLocked, and_assoc] using h

end Stacklab.Backup
