import Stacklab.Backup.SchedulerTracks

/-! Every step of the two ticks is a step of every track. -/
namespace Stacklab.Backup

open Lib SchedulerWorld MaintenanceTick GoMap

section Runs

variable {zones : Zones} {w : SchedulerWorld} {now reading o : Instant} {plan : Plan}
  {due : List (String × Instant)} {rest : List Plan} {tick : RunTick} {a : Assignment}
  {last : Option Instant} {f : Assignment → Assignment}

theorem track_moveRunTick (now : Instant) (hs : w.runTick.isStarted = false)
    (ht : tick.isStarted = false) (key : SlotKey) :
    ({ w with clock := now, runTick := tick } : SchedulerWorld).track key = w.track key := by
  cases key with
  | copy planID id =>
    have hold := run_flight hs planID id
    have hnew := run_flight (w := { w with clock := now, runTick := tick }) ht planID id
    unfold track
    rw [hold, hnew]
    rfl
  | maintenance id action => rfl

section

variable (h : w.Sound zones)
include h

/-- A step that only moves the tick, and starts nothing. -/
theorem SchedulerWorld.Sound.moveRunTick (hle : w.clock ≤ now) (hs : w.runTick.isStarted = false)
    (ht : tick.isStarted = false) (hc : Claimed now w.track tick.claims) :
    w.Advances zones now { w with clock := now, runTick := tick } := by
  have htrack := track_moveRunTick now hs ht
  refine h.advances hle (.of_eq htrack) h.fresh h.plans h.destinations
    (hc.frame (Int.le_refl now) fun _ _ => .inl (htrack _))
    (h.actionClaims.frame hle fun _ _ => .inl (htrack _)) ?_ ?_ h.copies
  · rintro plan due rest rfl
    cases ht
  · intro d action due rest he
    exact ⟨RunTick.holds_eq_false ht d.id, (h.alone d action due rest he).2⟩

theorem slot_of_read {id : String} (hp : w.plans.lookup id = some plan)
    (ha : a ∈ plan.destinations) :
    w.slot (.copy id a.destinationID) = some ⟨a.schedule, a.lastScheduledAt⟩ := by
  have hfind := find?_of_nodup (h.plans id plan hp).2 ha
  simp [slot, assignment, hp, hfind]

theorem readPlans_advances (hle : w.clock ≤ now) (hs : w.runTick.isStarted = false) :
    w.Advances zones now { w with
      clock := now
      runTick := .plans ((w.plans.entries.map Sigma.snd).insertionSort
        fun p q => p.id ≤ q.id) } := by
  set plans := (w.plans.entries.map Sigma.snd).insertionSort fun p q => p.id ≤ q.id
  obtain ⟨hlookup, hids⟩ := values_of_perm (fun id plan hp => (h.plans id plan hp).1)
    (show plans.Perm _ from List.perm_insertionSort _ _)
  have hclaims : ∀ e ∈ planClaims plans, ∃ plan ∈ plans, ∃ a ∈ plan.destinations,
      (.copy plan.id a.destinationID, .read ⟨a.schedule, a.lastScheduledAt⟩) = e := by
    simp [planClaims, Plan.claims]
  refine h.moveRunTick hle hs rfl ⟨?_, ?_, ?_⟩
  · simp only [RunTick.claims, planClaims, Plan.claims, List.map_flatMap, List.map_map]
    refine List.nodup_flatMap.mpr ⟨fun plan hp => ?_, ?_⟩
    · have hdistinct := (h.plans _ _ (hlookup plan hp)).2.map (f := SlotKey.copy plan.id)
        fun _ _ heq => (SlotKey.copy.inj heq).2
      rwa [List.map_map] at hdistinct
    · refine (List.pairwise_map.mp hids).imp fun hne => ?_
      simp only [Function.onFun, List.disjoint_left, List.mem_map]
      rintro _ ⟨a, -, rfl⟩ ⟨b, -, heq⟩
      exact hne (SlotKey.copy.inj heq).1.symm
  · intro e he
    obtain ⟨plan, -, a, -, rfl⟩ := hclaims e he
    exact run_flight hs plan.id a.destinationID
  · intro e he
    obtain ⟨plan, hp, a, ha, rfl⟩ := hclaims e he
    intro s hslot
    exact Option.some.inj (hslot.symm.trans (slot_of_read h (hlookup plan hp) ha))

theorem nextPlan_advances (hle : w.clock ≤ now) (paused : Bool)
    (ht : w.runTick = .plans (plan :: rest)) :
    w.Advances zones now { w with
      clock := now
      runTick := if paused then .idle
        else if plan.enabled then .examining plan plan.destinations [] rest
        else .plans rest } := by
  have hc := h.runClaims
  rw [ht] at hc
  refine h.moveRunTick hle (by rw [ht]; rfl) ?_ ?_
  · repeat' split
    all_goals rfl
  · split
    · exact hc.forget hle (List.nil_sublist _)
    · split
      · exact hc.forget hle (List.Sublist.refl _)
      · exact hc.forget hle (List.sublist_append_right _ _)

end

/-- Nothing is marked beyond the clock, so a pending occurrence is beyond the mark. -/
theorem lt_of_pending (hp : occurrencePending last o now = true) :
    ∀ m, last = some m → m ≤ now → m < o := by
  rintro m rfl hm
  simp only [occurrencePending, Option.all_some, Bool.or_eq_true, decide_eq_true_eq] at hp
  rcases hp with hfuture | hlt
  · have htolerance : m ≤ now + clockSkewTolerance :=
      Int.le_trans hm (Int.le_add_of_nonneg_right (by decide))
    simp only [inFuture, decide_eq_true_eq] at hfuture
    exact absurd htolerance (Int.not_le.mpr hfuture)
  · exact hlt

/-- What a look at a slot finds due may be started. -/
theorem SchedulerWorld.Sound.find (h : w.Sound zones) (hle : w.clock ≤ reading)
    (hnow : reading ≤ now) {key : SlotKey} {schedule : Schedule}
    (l₁ : List (SlotKey × Claim Schedule)) {l₂ : List (SlotKey × Claim Schedule)}
    (hc : Claimed w.clock w.track (l₁ ++ (key, .read ⟨schedule, last⟩) :: l₂))
    (hdue : dueOccurrence zones schedule last reading now = some o) :
    Claimed now w.track (l₁ ++ (key, .found o) :: l₂) := by
  obtain ⟨hlatest, hpending⟩ := Option.filter_eq_some_iff.mp hdue
  exact hc.find (h.tracks key) hle hnow hlatest (latestDue_le (Int.le_trans h.since hle) hlatest)
    fun m hm hclock => lt_of_pending hpending m hm (Int.le_trans hclock (Int.le_trans hle hnow))

theorem examineAssignment_advances (h : w.Sound zones) (hle : w.clock ≤ reading)
    (hnow : reading ≤ now) {todo : List Assignment}
    (ht : w.runTick = .examining plan (a :: todo) due rest) :
    w.Advances zones now { w with
      clock := now
      runTick := .examining plan todo
        (match a.enabled, dueOccurrence zones a.schedule a.lastScheduledAt reading now with
          | true, some at_ => due ++ [(a.destinationID, at_)]
          | _, _ => due) rest } := by
  have hc := h.runClaims
  have hclock := Int.le_trans hle hnow
  rw [ht] at hc
  refine h.moveRunTick hclock (by rw [ht]; rfl) rfl ?_
  split
  next at_ _ hfound =>
    have hnew := h.find hle hnow _ hc hfound
    simpa [RunTick.claims, Plan.claims] using hnew
  · exact hc.forget hclock (List.Sublist.append_left (List.sublist_cons_self _ _) _)

/-- Whatever was found due is dropped when the run is refused. -/
theorem refuseRun_advances (h : w.Sound zones) (hle : w.clock ≤ now)
    (ht : w.runTick = .examining plan [] due rest) :
    w.Advances zones now { w with clock := now, runTick := .plans rest } := by
  have hc := h.runClaims
  rw [ht] at hc
  exact h.moveRunTick hle (by rw [ht]; rfl) rfl (hc.forget hle (List.sublist_append_right _ _))

/-- The occurrence that a run is started for, slot by slot. -/
def dueFor (plan : Plan) (due : List (String × Instant)) : SlotKey → Option Instant
  | .copy planID id => if plan.id = planID then due.lookup id else none
  | .maintenance _ _ => none

theorem occurrences_startedRun (w : SchedulerWorld) (plan : Plan)
    (hnodup : (due.map Prod.fst).Nodup) (key : SlotKey) :
    ((due.map (w.startedRun plan)).filter fun e => e.key = key).map
      StartedOccurrence.occurrence = (dueFor plan due key).toList := by
  rw [List.filter_map, List.map_map]
  by_cases hkey : ∃ id, key = .copy plan.id id
  · obtain ⟨id, rfl⟩ := hkey
    rw [dueFor, if_pos rfl, ← filter_key_eq_lookup hnodup]
    congr 1
    exact List.filter_congr fun e _ => by simp [startedRun]
  · have hnone : dueFor plan due key = none := by
      cases key with
      | copy planID id => exact if_neg fun heq => hkey ⟨id, by rw [heq]⟩
      | maintenance id action => rfl
    rw [hnone, Option.toList_none, List.map_eq_nil_iff, List.filter_eq_nil_iff]
    intro e _ he
    exact hkey ⟨e.1, (of_decide_eq_true he).symm⟩

theorem slot_of_admits (h : w.admits plan due = true) :
    (∃ current, w.plans.lookup plan.id = some current) ∧ ∀ entry ∈ due,
      (∃ s, w.slot (.copy plan.id entry.1) = some s) ∧ w.free entry.1 = true := by
  unfold admits at h
  cases hp : w.plans.lookup plan.id with
  | none => simp [hp] at h
  | some current =>
    refine ⟨⟨current, rfl⟩, fun entry he => ?_⟩
    rw [hp] at h
    have hentry := List.all_eq_true.mp h entry he
    rw [Bool.and_eq_true, List.any_eq_true] at hentry
    obtain ⟨⟨a, ha, hid⟩, hfree⟩ := hentry
    refine ⟨?_, hfree⟩
    have hsome : (current.destinations.find? fun a => a.destinationID = entry.1).isSome := by
      rw [List.find?_isSome]
      exact ⟨a, ha, by simpa using (Bool.and_eq_true_iff.mp hid).1⟩
    obtain ⟨a', ha'⟩ := Option.isSome_iff_exists.mp hsome
    exact ⟨⟨a'.schedule, a'.lastScheduledAt⟩, by simp [slot, assignment, hp, ha']⟩

theorem startRun_advances (h : w.Sound zones) (hle : w.clock ≤ now)
    (ht : w.runTick = .examining plan [] due rest) (hadmits : w.admits plan due = true) :
    w.Advances zones now { w with
      clock := now
      runTick := .started plan due rest
      log := due.map (w.startedRun plan) ++ w.log } := by
  have hs : w.runTick.isStarted = false := by rw [ht]; rfl
  obtain ⟨hplan, hslots⟩ := slot_of_admits hadmits
  have hc := h.runClaims
  rw [ht] at hc
  obtain ⟨hdue, -, hapart⟩ := List.nodup_append.mp (List.map_append ▸ hc.distinct)
  have hnodup : (due.map Prod.fst).Nodup := by
    refine List.Nodup.of_map (SlotKey.copy plan.id) ?_
    rw [List.map_map] at hdue ⊢
    exact hdue
  have hready : ∀ entry ∈ due, entry.2 ≤ now ∧ ∃ s, w.slot (.copy plan.id entry.1) = some s ∧
      (w.track (.copy plan.id entry.1)).Ready entry.2 := by
    intro entry he
    obtain ⟨s, hslot⟩ := (hslots entry he).1
    obtain ⟨hpast, hr⟩ := hc.holds _ (List.mem_append_left _ (List.mem_map_of_mem he))
    exact ⟨Int.le_trans hpast hle, s, hslot, hr s hslot⟩
  set w' : SchedulerWorld := { w with
    clock := now
    runTick := .started plan due rest
    log := due.map (w.startedRun plan) ++ w.log } with hw'
  have hflight : ∀ key, w'.flight key = (dueFor plan due key).or (w.flight key) := by
    intro key
    cases key with
    | copy planID id => rw [run_flight hs, Option.or_none, dueFor, hw', flight]
    | maintenance id action => rfl
  have htrack : ∀ key, w'.track key = (w.track key).launch (dueFor plan due key) :=
    track_launch (fun key => by cases key <;> rfl) rfl hflight rfl
      (occurrences_startedRun w plan hnodup)
  refine h.advances hle ?_ ?_ h.plans h.destinations
    ((hc.forget hle (List.sublist_append_right _ _)).launch (Int.le_refl now) htrack ?_)
    (h.actionClaims.launch hle htrack ?_) ?_ ?_ h.copies
  · intro key
    rw [htrack]
    refine .launch fun o ho => ?_
    cases key with
    | maintenance id action => cases ho
    | copy planID id =>
      rw [dueFor] at ho
      split at ho
      next hp =>
        subst hp
        obtain ⟨hpast, hslot⟩ := hready (id, o) (mem_of_lookup ho)
        exact ⟨hpast, run_flight hs plan.id id, hslot⟩
      · cases ho
  · intro e he
    rcases List.mem_append.mp he with he | he
    · obtain ⟨entry, hentry, rfl⟩ := List.mem_map.mp he
      obtain ⟨-, s, -, hr⟩ := hready entry hentry
      exact hr.fresh
    · exact h.fresh e he
  · intro e he
    obtain ⟨p, -, id, hkey⟩ := RunTick.mem_claims (.plans rest) he
    rw [hkey, dueFor]
    split
    next hp =>
      refine Option.eq_none_iff_forall_not_mem.mpr fun o ho => ?_
      have hdue := List.mem_map_of_mem (f := Prod.fst) (List.mem_map_of_mem
        (f := fun e => (SlotKey.copy plan.id e.1, Claim.found (σ := Schedule) e.2))
        (mem_of_lookup ho))
      exact hapart _ hdue _ (List.mem_map_of_mem he) (by rw [hkey, hp])
    · rfl
  · intro e he
    obtain ⟨entry, -, hkey⟩ := List.mem_map.mp (mem_claims _ he)
    rw [← hkey]
    rfl
  · rintro p due' rest' ⟨⟩
    exact hplan
  · intro d action o rest' hstarted
    refine ⟨?_, (h.alone d action o rest' hstarted).2⟩
    -- the run would not have been admitted with a destination that maintenance holds
    simp only [hw', RunTick.holds, List.any_eq_false]
    intro entry hentry heq
    have hfree := (hslots entry hentry).2
    have hid : entry.1 = d.id := by simpa using heq
    have hstarted : w.maintenanceTick = .started d action o rest' := hstarted
    simp [free, hstarted, holds, hid] at hfree

theorem find?_map_keeping (hf : ∀ a, (f a).destinationID = a.destinationID) (l : List Assignment)
    (id : String) :
    (l.map f).find? (fun a => a.destinationID = id) =
      (l.find? fun a => a.destinationID = id).map f := by
  rw [List.find?_map]
  congr 2
  funext a
  simp [hf]

theorem map_id_keeping (hf : ∀ a, (f a).destinationID = a.destinationID) (l : List Assignment) :
    (l.map f).map Assignment.destinationID = l.map Assignment.destinationID := by
  rw [List.map_map]
  exact List.map_congr_left fun a _ => hf a

theorem recordOccurrence_id (now : Instant) (due : List (String × Instant)) (a : Assignment) :
    (recordOccurrence now due a).destinationID = a.destinationID := by
  unfold recordOccurrence
  split <;> rfl

/-- The assignments of a plan after its occurrences were recorded. -/
theorem assignment_recordOccurrences (now : Instant) (due : List (String × Instant))
    (current : Plan) (id : String) :
    ((recordOccurrences now due current).destinations.find? fun a => a.destinationID = id).map
        (fun a => (⟨a.schedule, a.lastScheduledAt⟩ : Slot Schedule)) =
      ((current.destinations.find? fun a => a.destinationID = id).map
        fun a => (⟨a.schedule, a.lastScheduledAt⟩ : Slot Schedule)).map fun s =>
          { s with mark := (due.lookup id).or s.mark } := by
  rw [recordOccurrences, find?_map_keeping (recordOccurrence_id now due)]
  cases hcurrent : current.destinations.find? fun a => a.destinationID = id with
  | none => rfl
  | some a =>
    have hid : a.destinationID = id := by simpa using List.find?_some hcurrent
    simp only [Option.map_some, recordOccurrence, hid]
    cases due.lookup id <;> rfl

theorem recordRun_advances (h : w.Sound zones) (hle : w.clock ≤ now)
    (ht : w.runTick = .started plan due rest) :
    w.Advances zones now { w with
      clock := now
      plans := w.plans.insert plan.id
        (recordOccurrences now due ((w.plans.lookup plan.id).getD .zero))
      runTick := .plans rest
      active := ⟨due.map Prod.fst, none⟩ :: w.active } := by
  obtain ⟨current, hp⟩ := h.started plan due rest ht
  rw [hp, Option.getD_some]
  have hc := h.runClaims
  rw [ht] at hc
  set w' : SchedulerWorld :=
    { w with
      clock := now
      plans := w.plans.insert plan.id (recordOccurrences now due current)
      runTick := .plans rest
      active := ⟨due.map Prod.fst, none⟩ :: w.active } with hw'
  have htrack : ∀ key, w'.track key = w.track key ∨ w'.track key = (w.track key).land := by
    intro key
    cases key with
    | maintenance id action => exact .inl rfl
    | copy planID id =>
      have hslot : w'.slot (.copy planID id) = (w.slot (.copy planID id)).map fun s =>
          { s with mark := (w.flight (.copy planID id)).or s.mark } := by
        by_cases hid : planID = plan.id
        · subst hid
          have hrecorded := assignment_recordOccurrences now due current id
          simpa [slot, assignment, flight, hw', hp, ht] using hrecorded
        · simp [slot, assignment, flight, hw', hid, ht, Ne.symm hid]
      right
      rw [track, hslot]
      rfl
  refine h.advances hle (h.lands htrack) h.fresh ?_ h.destinations (hc.land hle htrack)
    (h.actionClaims.land hle htrack) (by simp [hw']) ?_ ?_
  · obtain ⟨hcurrent, hdistinct⟩ := h.plans plan.id current hp
    refine hw' ▸ forall_insert h.plans ⟨hcurrent, ?_⟩
    rw [recordOccurrences, map_id_keeping (recordOccurrence_id now due)]
    exact hdistinct
  · intro d action o rest' hstarted
    obtain ⟨hholds, hjobs⟩ := h.alone d action o rest' hstarted
    refine ⟨rfl, ?_⟩
    intro job hjob
    rcases List.mem_cons.mp hjob with rfl | hjob
    · intro hmem
      obtain ⟨entry, he, hid⟩ := List.mem_map.mp hmem
      rw [ht, RunTick.holds, List.any_eq_false] at hholds
      exact hholds entry he (by simpa using hid)
    · exact hjobs job hjob
  · intro job hjob d hd
    rcases List.mem_cons.mp hjob with rfl | hjob
    · cases hd
    · exact h.copies job hjob d hd

end Runs

variable {zones : Zones} {w w' : SchedulerWorld} {now reading o : Instant} {id : String}
  {d : MaintainedDestination} {action : MaintenanceAction}
  {rest : List (MaintainedDestination × MaintenanceAction)} {tick : MaintenanceTick}

theorem track_moveMaintenanceTick (now : Instant) (hs : w.maintenanceTick.isStarted = false)
    (ht : tick.isStarted = false) (key : SlotKey) :
    ({ w with clock := now, maintenanceTick := tick } : SchedulerWorld).track key =
      w.track key := by
  cases key with
  | maintenance id action =>
    have hold := action_flight hs id action
    have hnew := action_flight (w := { w with clock := now, maintenanceTick := tick }) ht id action
    unfold track
    rw [hold, hnew]
    rfl
  | copy planID id => rfl

/-- A step that only moves the tick, and starts nothing. -/
theorem SchedulerWorld.Sound.moveMaintenanceTick (h : w.Sound zones) (hle : w.clock ≤ now)
    (hs : w.maintenanceTick.isStarted = false) (ht : tick.isStarted = false)
    (hc : Claimed now w.track tick.claims) :
    w.Advances zones now { w with clock := now, maintenanceTick := tick } := by
  have htrack := track_moveMaintenanceTick now hs ht
  refine h.advances hle (.of_eq htrack) h.fresh h.plans h.destinations
    (h.runClaims.frame hle fun _ _ => .inl (htrack _))
    (hc.frame (Int.le_refl now) fun _ _ => .inl (htrack _)) h.started ?_ h.copies
  rintro d action due rest rfl
  cases ht

theorem idleMaintenance_advances (h : w.Sound zones) (hle : w.clock ≤ now)
    (hs : w.maintenanceTick.isStarted = false) :
    w.Advances zones now { w with clock := now, maintenanceTick := .idle } :=
  h.moveMaintenanceTick hle hs rfl (h.actionClaims.forget hle (List.nil_sublist _))

theorem slot_of_destination (h : w.destinations.lookup id = some d) :
    w.slot (.maintenance id action) = some ⟨d.schedule action, d.last action⟩ := by
  simp [slot, h]

theorem readDestinations_advances (h : w.Sound zones) (hle : w.clock ≤ now)
    (hs : w.maintenanceTick.isStarted = false) :
    w.Advances zones now { w with
      clock := now
      maintenanceTick := .actions (((w.destinations.entries.map Sigma.snd).insertionSort
        fun p q => p.id ≤ q.id).flatMap fun d => [(d, .check), (d, .prune)]) } := by
  set destinations := (w.destinations.entries.map Sigma.snd).insertionSort fun p q => p.id ≤ q.id
  obtain ⟨hlookup, hids⟩ := values_of_perm h.destinations
    (show destinations.Perm _ from List.perm_insertionSort _ _)
  have hclaims : ∀ e ∈ (destinations.flatMap fun d => [(d, MaintenanceAction.check),
      (d, MaintenanceAction.prune)]).map actionClaim,
      ∃ d ∈ destinations, ∃ action, actionClaim (d, action) = e := by
    simp only [List.mem_map, List.mem_flatMap, List.mem_pair]
    rintro _ ⟨_, ⟨d, hd, rfl | rfl⟩, rfl⟩
    · exact ⟨d, hd, .check, rfl⟩
    · exact ⟨d, hd, .prune, rfl⟩
  refine h.moveMaintenanceTick hle hs rfl ⟨?_, ?_, ?_⟩
  · simp only [claims, List.map_map, List.map_flatMap]
    refine List.nodup_flatMap.mpr ⟨fun d _ => by simp [actionClaim, actionKey], ?_⟩
    refine (List.pairwise_map.mp hids).imp fun hne => ?_
    simp [Function.onFun, actionClaim, actionKey, Ne.symm hne]
  · intro e he
    obtain ⟨d, -, action, rfl⟩ := hclaims e he
    exact action_flight hs d.id action
  · intro e he
    obtain ⟨d, hd, action, rfl⟩ := hclaims e he
    intro s hslot
    exact Option.some.inj (hslot.symm.trans (slot_of_destination (hlookup d hd)))

theorem examineAction_advances (h : w.Sound zones) (hle : w.clock ≤ reading) (hnow : reading ≤ now)
    (ht : w.maintenanceTick = .actions ((d, action) :: rest)) :
    w.Advances zones now { w with
      clock := now
      maintenanceTick :=
        match dueOccurrence zones (d.schedule action) (d.last action) reading now with
        | some at_ => .examined d action at_ rest
        | none => .actions rest } := by
  have hc := h.actionClaims
  have hclock := Int.le_trans hle hnow
  rw [ht] at hc
  have hs : w.maintenanceTick.isStarted = false := by rw [ht]; rfl
  cases hdue : dueOccurrence zones (d.schedule action) (d.last action) reading now with
  | none =>
    exact h.moveMaintenanceTick hclock hs rfl (hc.forget hclock (List.sublist_cons_self _ _))
  | some at_ => exact h.moveMaintenanceTick hclock hs rfl (h.find hle hnow [] hc hdue)

theorem refuseAction_advances (h : w.Sound zones) (hle : w.clock ≤ now)
    (ht : w.maintenanceTick = .examined d action o rest) :
    w.Advances zones now { w with clock := now, maintenanceTick := .actions rest } := by
  have hc := h.actionClaims
  rw [ht] at hc
  exact h.moveMaintenanceTick hle (by rw [ht]; rfl) rfl (hc.forget hle (List.sublist_cons_self _ _))

theorem startAction_advances (h : w.Sound zones) (hle : w.clock ≤ now)
    (ht : w.maintenanceTick = .examined d action o rest)
    (hexists : (w.destinations.lookup d.id).isSome) (hfree : w.free d.id = true) :
    w.Advances zones now { w with
      clock := now
      maintenanceTick := .started d action o rest
      log := ⟨.maintenance d.id action, o, w.savedAt (.maintenance d.id action)⟩ :: w.log } := by
  have hs : w.maintenanceTick.isStarted = false := by rw [ht]; rfl
  have hc := h.actionClaims
  rw [ht] at hc
  obtain ⟨current, hcurrent⟩ := Option.isSome_iff_exists.mp hexists
  have hslot : w.slot (.maintenance d.id action) = some _ := slot_of_destination hcurrent
  obtain ⟨hpast, hready⟩ := hc.holds _ List.mem_cons_self
  have hr := hready _ hslot
  set w' : SchedulerWorld := { w with
    clock := now
    maintenanceTick := .started d action o rest
    log := ⟨.maintenance d.id action, o, w.savedAt (.maintenance d.id action)⟩ :: w.log } with hw'
  set started : SlotKey → Option Instant := fun key =>
    if key = .maintenance d.id action then some o else none with hstarted
  have hflight : ∀ key, w'.flight key = (started key).or (w.flight key) := by
    intro key
    cases key with
    | copy planID id => rfl
    | maintenance id other =>
      rw [action_flight hs, Option.or_none]
      simp [flight, hw', hstarted, eq_comm]
  have htrack : ∀ key, w'.track key = (w.track key).launch (started key) := by
    refine track_launch (fun key => by cases key <;> rfl) rfl hflight List.singleton_append.symm ?_
    intro key
    by_cases hkey : key = .maintenance d.id action
    · simp [hkey, hstarted]
    · simp [hkey, Ne.symm hkey, hstarted]
  refine h.advances hle ?_ ?_ h.plans h.destinations (h.runClaims.launch hle htrack ?_)
    ((hc.forget hle (List.sublist_cons_self _ _)).launch (Int.le_refl now) htrack ?_) h.started ?_
    h.copies
  · intro key
    rw [htrack]
    refine .launch fun due hdue => ?_
    simp only [hstarted] at hdue
    split at hdue
    next hkey =>
      cases hdue
      rw [hkey]
      exact ⟨Int.le_trans hpast hle, action_flight hs _ _, _, hslot, hr⟩
    · cases hdue
  · intro e he
    rcases List.mem_cons.mp he with rfl | he
    · exact hr.fresh
    · exact h.fresh e he
  · intro e he
    obtain ⟨plan, -, id, hkey⟩ := RunTick.mem_claims _ he
    exact if_neg (by simp [hkey])
  · intro e he
    refine if_neg fun hkey => ?_
    exact (List.nodup_cons.mp hc.distinct).1 (List.mem_map.mpr ⟨e, he, hkey⟩)
  · rintro d' action' due' rest' ⟨⟩
    simp only [free, Bool.and_eq_true, List.all_eq_true, Bool.not_eq_true'] at hfree
    obtain ⟨⟨hjobs, hholds⟩, -⟩ := hfree
    refine ⟨hholds, fun job hjob hmem => ?_⟩
    have hnot := hjobs job hjob
    simp [hmem] at hnot

theorem setLast_spec (d : MaintainedDestination) (o : Instant) (action other : MaintenanceAction) :
    (d.setLast o action).id = d.id ∧ (d.setLast o action).schedule other = d.schedule other ∧
      (d.setLast o action).last other = if action = other then some o else d.last other := by
  cases action <;> cases other <;> exact ⟨rfl, rfl, rfl⟩

theorem recordAction_advances (h : w.Sound zones) (hle : w.clock ≤ now)
    (ht : w.maintenanceTick = .started d action o rest) :
    w.Advances zones now { w with
      clock := now
      destinations := w.destinations.insert d.id
        (((w.destinations.lookup d.id).getD .zero).setLast o action)
      maintenanceTick := .actions rest
      active := ⟨[d.id], none⟩ :: w.active } := by
  obtain ⟨hholds, hjobs⟩ := h.alone d action o rest ht
  have hc := h.actionClaims
  rw [ht] at hc
  have hflight : w.flight (.maintenance d.id action) = some o := by simp [flight, ht]
  obtain ⟨s, hs, -⟩ := (h.tracks (.maintenance d.id action)).ahead o hflight
  obtain ⟨current, hcurrent, -⟩ := Option.map_eq_some_iff.mp hs
  rw [hcurrent, Option.getD_some]
  set w' : SchedulerWorld :=
    { w with
      clock := now
      destinations := w.destinations.insert d.id (current.setLast o action)
      maintenanceTick := .actions rest
      active := ⟨[d.id], none⟩ :: w.active } with hw'
  have htrack : ∀ key, w'.track key = w.track key ∨ w'.track key = (w.track key).land := by
    intro key
    cases key with
    | copy planID id => exact .inl rfl
    | maintenance id other =>
      have hslot : w'.slot (.maintenance id other) = (w.slot (.maintenance id other)).map fun s =>
          { s with mark := (w.flight (.maintenance id other)).or s.mark } := by
        by_cases hid : d.id = id
        · subst hid
          obtain ⟨-, hschedule, hlast⟩ := setLast_spec current o action other
          simp only [slot, hw', lookup_insert, if_true, Option.map_some, hschedule, hlast,
            hcurrent, flight, ht, true_and]
          split <;> rfl
        · simp [slot, flight, hw', ht, hid, Ne.symm hid, Function.comp_def]
      right
      rw [track, hslot]
      rfl
  refine h.advances hle (h.lands htrack) h.fresh h.plans ?_ (h.runClaims.land hle htrack)
    (hc.land hle htrack) h.started (by simp [hw']) ?_
  · refine hw' ▸ forall_insert h.destinations ?_
    rw [(setLast_spec current o action action).1]
    exact h.destinations d.id current hcurrent
  · intro job hjob d' hd'
    rcases List.mem_cons.mp hjob with rfl | hjob
    · cases hd'
    · obtain ⟨hmem, hl⟩ := h.copies job hjob d' hd'
      -- the job that is started is alone with its destination
      have hne : d'.id ≠ d.id := fun heq => hjobs job hjob (heq ▸ hmem)
      refine ⟨hmem, ?_⟩
      rw [hw', lookup_insert, if_neg hne]
      exact hl

end Stacklab.Backup
