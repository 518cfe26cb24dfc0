import Stacklab.Backup.Protection
import Stacklab.Lib.Lts

/-! A plan that is reported as healthy has a protected copy for every enabled assignment. -/
namespace Stacklab.Backup

open Lib GoMap

section Steps

/-- `normalizeCheckEvidence` on a stored destination. -/
def StoredDestination.normalize (d : StoredDestination) : StoredDestination :=
  { d with toDestination := normalizeCheckEvidence d.toDestination }

/-- `SaveDestination` as far as protection depends on it. -/
def saveDestination (st : HealthState) (id : String) (secrets : Bool) : HealthState :=
  let d := { (st.destination id).normalize with id := id }
  let fresh := (st.destinations.lookup id).isNone || secrets
  { st with
    destinations := st.destinations.insert id
      (if fresh then { d with status := .untested, error := "" } else d) }

/-- Some plan copies to the destination. -/
def HealthState.assigned (st : HealthState) (id : String) : Bool :=
  st.plans.entries.any fun entry => entry.2.destinations.any fun a => a.destinationID = id

def deleteDestination (st : HealthState) (id : String) : HealthState :=
  let ofDestination (key : String) : Bool := hasSuffix key ("/" ++ id)
  if st.assigned id then st
  else { st with
    destinations := st.destinations.erase id
    copyAttempts := st.copyAttempts.eraseWhere ofDestination
    maintenanceAttempts := st.maintenanceAttempts.eraseWhere ofDestination
    copyCheckpoints := st.copyCheckpoints.eraseWhere ofDestination }

/-- `SavePlan` of a plan that is normalized and has its schedule times. -/
def savePlan (st : HealthState) (plan : Plan) : HealthState :=
  if plan.destinations.all fun a => (st.destinations.lookup a.destinationID).isSome then
    { st with plans := st.plans.insert plan.id plan }
  else st

def deletePlan (st : HealthState) (id : String) : HealthState :=
  let ofPlan (key : String) : Bool := hasPrefix key (id ++ "/")
  { st with
    plans := st.plans.erase id
    copyAttempts := st.copyAttempts.eraseWhere ofPlan
    maintenanceAttempts := st.maintenanceAttempts.eraseWhere ofPlan
    copyCheckpoints := st.copyCheckpoints.eraseWhere ofPlan }

/-- A copy was uploaded and verified. -/
def copySucceeded (st : HealthState) (id : String) : HealthState :=
  { st with
    destinations := st.destinations.insert id
      { st.destination id with status := .available, error := "" } }

inductive RepositoryAction
  | destinationTest
  | repositoryInit
  | check
  | other
  deriving DecidableEq, Repr

/-- Status and error that a repository job leaves on its destination. -/
def jobAvailability (d : StoredDestination) (action : RepositoryAction) (err : Option String) :
    StoredDestination :=
  match action, err with
  | .destinationTest, some err | .repositoryInit, some err =>
    { d with status := .error, error := err }
  | .destinationTest, none | .repositoryInit, none | .check, none =>
    { d with status := .available, error := "" }
  | _, _ => d

/-- The end of `ExecuteRepositoryJob`: only the inventory fields are read again. -/
def writeBack (st : HealthState) (d : StoredDestination) (action : RepositoryAction)
    (err : Option String) : HealthState :=
  let current := st.destination d.id
  let d := { d with
    lastInventoryAt := current.lastInventoryAt
    lastInventoryAttemptAt := current.lastInventoryAttemptAt
    inventoryError := current.inventoryError }
  { st with destinations := st.destinations.insert d.id (jobAvailability d action err) }

/-- The state, and what inventories and repository jobs have read from it but not yet written
back. -/
structure ProtectionWorld where
  st : HealthState
  inventories : List (String × Instant × List (String × CopyCheckpoint))
  jobs : List StoredDestination

inductive ProtectionStep
  | saveDestination (id : String) (secrets : Bool)
  | deleteDestination (id : String)
  | savePlan (plan : Plan)
  | deletePlan (id : String)
  | setRuns (runs : GoMap String PersistedRun)
  | recordRun (now : Instant) (run : Run) (plan : Plan)
  | copySucceeded (id : String)
  | readInventory (id : String) (inventory : Inventory)
  | commitInventory (index : ℕ)
  | inventoryError (now : Instant) (id err : String)
  | readDestination (id : String)
  | check (index : ℕ) (policy : CheckScope) (at_ : Instant) (err : Option CheckError)
  | writeBack (index : ℕ) (action : RepositoryAction) (err : Option String)
  | restart

variable (sum256 : Bytes → Digest)

def ProtectionWorld.next (w : ProtectionWorld) : ProtectionStep → ProtectionWorld
  | .saveDestination id secrets => { w with st := Backup.saveDestination w.st id secrets }
  | .deleteDestination id => { w with st := Backup.deleteDestination w.st id }
  | .savePlan plan => { w with st := Backup.savePlan w.st plan }
  | .deletePlan id => { w with st := Backup.deletePlan w.st id }
  | .setRuns runs => { w with st := { w.st with runs := runs } }
  | .recordRun now run plan => { w with st := recordCheckpointsLocked sum256 now w.st run plan }
  | .copySucceeded id => { w with st := Backup.copySucceeded w.st id }
  | .readInventory id inventory =>
    { w with
      inventories := w.inventories ++
        [(id, inventory.now, (inventoryCheckpoints w.st id).map fun entry =>
          (entry.1, examineCheckpoint inventory entry.2))] }
  | .commitInventory index =>
    match w.inventories[index]? with
    | none => w
    | some (id, now, checkpoints) =>
      { w with
        st := Backup.commitInventory w.st id now checkpoints
        inventories := w.inventories.eraseIdx index }
  | .inventoryError now id err => { w with st := recordInventoryError now w.st id err }
  | .readDestination id =>
    match w.st.destinations.lookup id with
    | none => w
    | some d => { w with jobs := w.jobs ++ [{ d with id := id }] }
  | .check index policy at_ err =>
    match w.jobs[index]? with
    | none => w
    | some d =>
      { w with
        jobs := w.jobs.set index
          { d with toDestination := recordCheckAttempt d.toDestination policy at_ err } }
  | .writeBack index action err =>
    match w.jobs[index]? with
    | none => w
    | some d =>
      { w with st := Backup.writeBack w.st d action err, jobs := w.jobs.eraseIdx index }
  | .restart =>
    ⟨{ w.st with destinations := w.st.destinations.mapValues StoredDestination.normalize }, [], []⟩

/-- Every critical section of the service may come at any time. -/
def protectionLts : Lts ProtectionWorld ProtectionStep where
  Tr w step w' := w' = w.next sum256 step

def ProtectionWorld.initial : ProtectionWorld := ⟨.empty, [], []⟩

/-- The states that the service can get into from an empty one. -/
def ProtectionWorld.Reached (w : ProtectionWorld) : Prop :=
  (protectionLts sum256).Reachable (· = ProtectionWorld.initial) w

end Steps

section Invariant

/-- A verified checkpoint that was looked at is known to be present or missing. -/
def CopyCheckpoint.Settled (c : CopyCheckpoint) : Prop :=
  c.verification = .recoveryObjectsVerified → c.snapshotCheckedAt ≠ none →
    c.snapshotStatus = .present ∨ c.snapshotStatus = .missing

/-- The aggregate shows every failed check. -/
def Destination.Aggregated (d : Destination) : Prop :=
  d.metadataCheck.status = .failed ∨ d.dataCheck.status = .failed → d.checkStatus = .failed

structure HealthState.Sound (st : HealthState) : Prop where
  checkpoints : ∀ key c, st.copyCheckpoints.lookup key = some c → c.Settled
  destinations : ∀ id d, st.destinations.lookup id = some d → d.toDestination.Aggregated

structure ProtectionWorld.Sound (w : ProtectionWorld) : Prop where
  state : w.st.Sound
  inventories : ∀ pending ∈ w.inventories, ∀ entry ∈ pending.2.2, entry.2.Settled
  jobs : ∀ d ∈ w.jobs, d.toDestination.Aggregated

variable {sum256 : Bytes → Digest} {st : HealthState} {w : ProtectionWorld} {id : String}
  {d : StoredDestination}

theorem updateAggregate_aggregated (d : Destination) :
    (updateAggregateCheckEvidence d).Aggregated := by
  intro h
  unfold updateAggregateCheckEvidence at h ⊢
  split
  · rfl
  next hdata =>
    split
    · rfl
    next hmeta =>
      rw [if_neg hdata, if_neg hmeta] at h
      have hn : d.metadataCheck.status = .failed ∨ d.dataCheck.status = .failed := by
        revert h
        cases d.checkHold with
        | some hold => exact id
        | none =>
          dsimp only
          split <;> exact id
      rcases hn with hn | hn
      · exact absurd hn hmeta
      · exact absurd hn hdata

theorem normalize_aggregated (d : StoredDestination) : d.normalize.toDestination.Aggregated :=
  updateAggregate_aggregated _

theorem recordCheckAttempt_aggregated (d : Destination) (policy : CheckScope) (at_ : Instant)
    (err : Option CheckError) : (recordCheckAttempt d policy at_ err).Aggregated :=
  updateAggregate_aggregated _

theorem HealthState.Sound.destination (h : st.Sound) (id : String) :
    (st.destination id).toDestination.Aggregated := by
  unfold HealthState.destination
  cases hd : st.destinations.lookup id with
  | none => simp [StoredDestination.zero, Destination.Aggregated]
  | some d => exact h.destinations id d hd

/-- Only what is inserted has to be looked at. -/
theorem HealthState.Sound.insertDestination (h : st.Sound) (hd : d.toDestination.Aggregated) :
    ({ st with destinations := st.destinations.insert id d } : HealthState).Sound :=
  ⟨h.checkpoints, forall_insert h.destinations hd⟩

theorem newCheckpoint_settled (run : Run) (plan : Plan) (capturedAt : Instant)
    (copy : CopyResult) : (newCheckpoint sum256 run plan capturedAt copy).Settled := by
  intro hv hc
  by_cases h : copy.verification = .recoveryObjectsVerified ∧ copy.verifiedAt ≠ none
  · left
    simp [newCheckpoint, h]
  · simp [newCheckpoint, h] at hc

theorem examineCheckpoint_settled (inventory : Inventory) (c : CopyCheckpoint) :
    (examineCheckpoint inventory c).Settled := by
  intro hv hc
  unfold examineCheckpoint at hv ⊢
  split
  · exact .inr rfl
  next hlisted =>
    rw [if_neg hlisted] at hv
    split
    · exact .inl rfl
    next hverified =>
      rw [if_neg hverified] at hv
      split
      · exact .inl rfl
      next err herr =>
        rw [herr] at hv
        exact absurd hv hverified

section

variable (h : st.Sound)
include h

theorem HealthState.Sound.recordCopyAttempts (now : Instant) (run : Run) :
    (recordCopyAttemptsLocked now st run).Sound := by
  unfold recordCopyAttemptsLocked
  induction run.copies generalizing st with
  | nil => exact h
  | cons copy copies ih =>
    apply ih
    unfold recordCopyAttempt
    split
    · exact h
    · exact ⟨h.checkpoints, h.destinations⟩

theorem HealthState.Sound.recordCheckpoint (now : Instant) (run : Run) (plan : Plan)
    (capturedAt : Instant) (copy : CopyResult) :
    (recordCheckpoint sum256 now run plan capturedAt st copy).Sound := by
  have hnew : ∀ key c, (st.copyCheckpoints.insert (checkpointKey run.planID copy.destinationID)
      (newCheckpoint sum256 run plan capturedAt copy)).lookup key = some c → c.Settled :=
    forall_insert h.checkpoints (newCheckpoint_settled run plan capturedAt copy)
  unfold Backup.recordCheckpoint
  dsimp only
  split
  · exact h
  · split
    · exact h
    · split
      · exact ⟨hnew, h.destinations⟩
      · exact ⟨hnew, h.destinations⟩

theorem HealthState.Sound.recordCheckpoints (now : Instant) (run : Run) (plan : Plan) :
    (recordCheckpointsLocked sum256 now st run plan).Sound := by
  have hattempts := h.recordCopyAttempts now run
  unfold recordCheckpointsLocked
  cases run.capturedAt with
  | none => exact hattempts
  | some capturedAt =>
    generalize recordCopyAttemptsLocked now st run = st' at hattempts ⊢
    induction run.copies generalizing st' with
    | nil => exact hattempts
    | cons copy copies ih => exact ih _ (hattempts.recordCheckpoint now run plan capturedAt copy)

theorem HealthState.Sound.commitInventory {now : Instant}
    {checkpoints : List (String × CopyCheckpoint)} (hc : ∀ entry ∈ checkpoints, entry.2.Settled) :
    (commitInventory st id now checkpoints).Sound := by
  have hfold : ∀ m : GoMap String CopyCheckpoint, (∀ key c, m.lookup key = some c → c.Settled) →
      ∀ key c, (checkpoints.foldl commitCheckpoint m).lookup key = some c → c.Settled := by
    induction checkpoints with
    | nil => exact fun m hm => hm
    | cons entry rest ih =>
      intro m hm
      apply ih (fun e he => hc e (List.mem_cons_of_mem _ he))
      unfold commitCheckpoint
      split
      · exact forall_insert hm (hc entry List.mem_cons_self)
      · exact hm
  refine ⟨hfold _ h.checkpoints, ?_⟩
  unfold Backup.commitInventory
  exact forall_insert h.destinations (by exact h.destination id)

theorem HealthState.Sound.recordInventoryError (now : Instant) (id err : String) :
    (recordInventoryError now st id err).Sound := by
  unfold Backup.recordInventoryError
  split
  · exact h
  next current hl =>
    exact h.insertDestination (h.destinations id current hl)

theorem HealthState.Sound.eraseCheckpoints {p : String → Bool} :
    ∀ key c, (st.copyCheckpoints.eraseWhere p).lookup key = some c → c.Settled :=
  fun key c hl => h.checkpoints key c (lookup_of_lookup_eraseWhere hl)

theorem HealthState.Sound.saveDestination (id : String) (secrets : Bool) :
    (saveDestination st id secrets).Sound := by
  apply h.insertDestination
  split <;> exact normalize_aggregated _

theorem HealthState.Sound.deleteDestination (id : String) : (deleteDestination st id).Sound := by
  unfold Backup.deleteDestination
  split
  · exact h
  · exact ⟨h.eraseCheckpoints, fun id' d hl => h.destinations id' d (lookup_of_lookup_erase hl)⟩

end

theorem jobAvailability_aggregated (h : d.toDestination.Aggregated) (action : RepositoryAction)
    (err : Option String) : (jobAvailability d action err).toDestination.Aggregated := by
  unfold jobAvailability
  split <;> exact h

theorem HealthState.Sound.writeBack (h : st.Sound) (hd : d.toDestination.Aggregated)
    (action : RepositoryAction) (err : Option String) : (writeBack st d action err).Sound := by
  apply h.insertDestination
  apply jobAvailability_aggregated
  exact hd

theorem HealthState.Sound.restart (h : st.Sound) :
    ({ st with destinations := st.destinations.mapValues StoredDestination.normalize } :
      HealthState).Sound := by
  refine ⟨h.checkpoints, ?_⟩
  intro id d hl
  rw [lookup_mapValues, Option.map_eq_some_iff] at hl
  obtain ⟨d', -, rfl⟩ := hl
  exact normalize_aggregated d'

theorem ProtectionWorld.Sound.next (h : w.Sound) (step : ProtectionStep) :
    (w.next sum256 step).Sound := by
  cases step with
  | saveDestination id secrets => exact { h with state := h.state.saveDestination id secrets }
  | deleteDestination id => exact { h with state := h.state.deleteDestination id }
  | savePlan plan =>
    refine { h with state := ?_ }
    change (Backup.savePlan w.st plan).Sound
    unfold Backup.savePlan
    split
    · exact ⟨h.state.checkpoints, h.state.destinations⟩
    · exact h.state
  | deletePlan id =>
    exact { h with state := ⟨h.state.eraseCheckpoints, h.state.destinations⟩ }
  | setRuns runs => exact { h with state := ⟨h.state.checkpoints, h.state.destinations⟩ }
  | recordRun now run plan => exact { h with state := h.state.recordCheckpoints now run plan }
  | copySucceeded id =>
    exact { h with state := h.state.insertDestination (h.state.destination id) }
  | readInventory id inventory =>
    refine { h with inventories := ?_ }
    intro pending hp entry he
    rcases List.mem_append.mp hp with hp | hp
    · exact h.inventories pending hp entry he
    · cases List.mem_singleton.mp hp
      obtain ⟨old, -, rfl⟩ := List.mem_map.mp he
      exact examineCheckpoint_settled inventory old.2
  | commitInventory index =>
    unfold ProtectionWorld.next
    dsimp only
    split
    · exact h
    next id now checkpoints hi =>
      have hsettled := h.inventories _ (List.mem_of_getElem? hi)
      refine ⟨h.state.commitInventory hsettled, ?_, h.jobs⟩
      intro pending hp
      exact h.inventories pending (List.mem_of_mem_eraseIdx hp)
  | inventoryError now id err =>
    exact { h with state := h.state.recordInventoryError now id err }
  | readDestination id =>
    unfold ProtectionWorld.next
    dsimp only
    split
    · exact h
    next d hl =>
      refine { h with jobs := ?_ }
      intro d' hd
      rcases List.mem_append.mp hd with hd | hd
      · exact h.jobs d' hd
      · cases List.mem_singleton.mp hd
        exact h.state.destinations id d hl
  | check index policy at_ err =>
    unfold ProtectionWorld.next
    dsimp only
    split
    · exact h
    · refine { h with jobs := ?_ }
      intro d' hd
      rcases List.mem_or_eq_of_mem_set hd with hd | rfl
      · exact h.jobs d' hd
      · exact recordCheckAttempt_aggregated _ policy at_ err
  | writeBack index action err =>
    unfold ProtectionWorld.next
    dsimp only
    split
    · exact h
    next d hi =>
      have hd := h.jobs d (List.mem_of_getElem? hi)
      refine ⟨h.state.writeBack hd action err, h.inventories, ?_⟩
      intro d' hd'
      exact h.jobs d' (List.mem_of_mem_eraseIdx hd')
  | restart =>
    refine ⟨h.state.restart, ?_, ?_⟩
    · simp [ProtectionWorld.next]
    · simp [ProtectionWorld.next]

theorem sound_of_reached (h : w.Reached sum256) : w.Sound := by
  refine Lts.reachable_of_trInv ?_ ?_ h
  · rintro s rfl
    refine ⟨⟨?_, ?_⟩, ?_, ?_⟩
    · intro key c hl
      simp [ProtectionWorld.initial, HealthState.empty] at hl
    · intro id d hl
      simp [ProtectionWorld.initial, HealthState.empty] at hl
    · simp [ProtectionWorld.initial]
    · simp [ProtectionWorld.initial]
  · rintro s step t rfl hs
    exact hs.next step

end Invariant

section Verdict

/-- What makes the checkpoint of an assignment a protected copy. -/
structure Protects (env : ProtectionEnv) (plan : Plan) (a : Assignment) (d : StoredDestination)
    (c : CopyCheckpoint) : Prop where
  present : c.snapshotStatus = .present
  verified : c.verification = .recoveryObjectsVerified
  checked : ∃ checkedAt, c.snapshotCheckedAt = some checkedAt ∧
    env.now - checkedAt ≤ 24 * 60 * minute ∧ checkedAt ≤ env.now + clockSkewTolerance
  selection : c.selection = selectionFingerprint env.sum256 plan
  captured : c.capturedAt ≤ env.now + clockSkewTolerance
  due : a.schedule.frequency.isManual = false →
    ∀ due, latestDue env.zones a.schedule env.now = some due → due ≤ c.capturedAt
  check : d.checkStatus ≠ .failed ∧ d.metadataCheck.status ≠ .failed ∧ d.dataCheck.status ≠ .failed
  hold : d.checkHold = none
  available : d.status ≠ .error
  inventory : d.inventoryError = ""

/-- The states of a copy that need no attention. -/
def CopyVerdict.Good (state : CopyVerdict) : Prop := state = .current ∨ state = .manual

variable {env : ProtectionEnv} {st : HealthState} {plan : Plan} {a : Assignment}
  {d : StoredDestination} {c : CopyCheckpoint} {state : CopyVerdict} {loop : ProtectionLoop}

theorem not_inFuture {now t : Instant} (h : ¬inFuture now t = true) :
    t ≤ now + clockSkewTolerance := by
  unfold inFuture at h
  have hlt : ¬t > now + clockSkewTolerance := by simpa using h
  exact Int.not_lt.mp hlt

theorem not_good (hc : state ≠ .current) (hm : state ≠ .manual) : ¬state.Good := by
  rintro (h | h)
  · exact hc h
  · exact hm h

/-- A good verdict passed every case of the `switch`. -/
theorem evidenceState_good (h : (evidenceState env a d c state).1.Good) :
    state.Good ∧ c.capturedAt ≤ env.now + clockSkewTolerance ∧ c.snapshotStatus ≠ .missing ∧
    d.checkStatus ≠ .failed ∧ d.checkHold = none ∧ d.status ≠ .error ∧ d.inventoryError = "" ∧
    c.verification = .recoveryObjectsVerified ∧
    ∃ checkedAt, c.snapshotCheckedAt = some checkedAt ∧
      env.now - checkedAt ≤ 24 * 60 * minute ∧ checkedAt ≤ env.now + clockSkewTolerance := by
  unfold evidenceState at h
  split at h
  · exact absurd h (not_good (by simp) (by simp))
  rename_i hskew
  have hcaptured : c.capturedAt ≤ env.now + clockSkewTolerance := by
    apply not_inFuture
    intro hf
    simp [hf] at hskew
  split at h
  · exact absurd h (not_good (by simp) (by simp))
  rename_i hmissing
  split at h
  · exact absurd h (not_good (by simp) (by simp))
  rename_i hfailed
  split at h
  · exact absurd h (not_good (by simp) (by simp))
  rename_i hhold
  split at h
  · exact absurd h (not_good (by simp) (by simp))
  rename_i herror
  split at h
  · exact absurd h (not_good (by simp) (by simp))
  rename_i hinventory
  split at h
  · exact absurd h (not_good (by simp) (by simp))
  rename_i hverified
  split at h
  · exact absurd h (not_good (by simp) (by simp))
  rename_i checkedAt hchecked
  split at h
  · exact absurd h (not_good (by simp) (by simp))
  rename_i hfuture
  split at h
  · exact absurd h (not_good (by simp) (by simp))
  rename_i hold
  have hrecent : env.now - checkedAt ≤ 24 * 60 * minute := Int.not_lt.mp hold
  exact ⟨h, hcaptured, hmissing, hfailed, hhold, herror, not_not.mp hinventory,
    not_not.mp hverified, checkedAt, hchecked, hrecent, not_inFuture hfuture⟩

theorem selectedState_good (h : (selectedState env plan a c).Good) :
    c.selection = selectionFingerprint env.sum256 plan ∧
      (a.schedule.frequency.isManual = false →
        ∀ due, latestDue env.zones a.schedule env.now = some due → due ≤ c.capturedAt) := by
  unfold selectedState at h
  split at h
  · exact absurd h (not_good (by simp) (by simp))
  next hsel =>
    refine ⟨not_not.mp hsel, ?_⟩
    intro hmanual due hdue
    unfold scheduledState at h
    rw [hmanual, hdue] at h
    by_contra hlt
    have hbefore : c.capturedAt < due := Int.not_le.mp hlt
    simp only [Bool.false_eq_true, if_false, hbefore, if_true] at h
    exact absurd h (not_good (by simp) (by simp))

/-- A saved copy whose state is good is protected. -/
theorem protects_of_good (hst : st.Sound) (hc : c.Settled)
    (h : (assignedState env plan a (st.destination a.destinationID) (some c)).1.Good) :
    Protects env plan a (st.destination a.destinationID) c := by
  obtain ⟨hgood, hcaptured, hmissing, hfailed, hhold, herror, hinventory, hverified, checkedAt,
    hchecked, hrecent, hpast⟩ := evidenceState_good h
  obtain ⟨hselection, hdue⟩ := selectedState_good hgood
  have hpresent : c.snapshotStatus = .present := by
    rcases hc hverified (by simp [hchecked]) with hp | hm
    · exact hp
    · exact absurd hm hmissing
  have haggregated := hst.destination a.destinationID
  have hmetadata : (st.destination a.destinationID).metadataCheck.status ≠ .failed :=
    fun hm => hfailed (haggregated (.inl hm))
  have hdata : (st.destination a.destinationID).dataCheck.status ≠ .failed :=
    fun hd => hfailed (haggregated (.inr hd))
  exact
    { present := hpresent
      verified := hverified
      checked := ⟨checkedAt, hchecked, hrecent, hpast⟩
      selection := hselection
      captured := hcaptured
      due := hdue
      check := ⟨hfailed, hmetadata, hdata⟩
      hold := hhold
      available := herror
      inventory := hinventory }

def HealthState.checkpointOf (st : HealthState) (plan : Plan) (a : Assignment) :
    Option CopyCheckpoint :=
  st.copyCheckpoints.lookup (checkpointKey plan.id a.destinationID)

theorem copyProtection_state (runs : List PersistedRun) :
    (copyProtection env st plan a runs).state =
      (assignedState env plan a (st.destination a.destinationID) (st.checkpointOf plan a)).1 := rfl

theorem copyProtection_quiet (hst : st.Sound) {runs : List PersistedRun}
    (h : (copyProtection env st plan a runs).needsAttention = false) :
    (∃ c, st.checkpointOf plan a = some c ∧
      Protects env plan a (st.destination a.destinationID) c) ∧
    (copyProtection env st plan a runs).usable = true := by
  have hgood : (copyProtection env st plan a runs).state.Good := by
    simp only [CopyProtection.needsAttention, Bool.or_eq_false_iff, Bool.and_eq_false_iff,
      decide_eq_false_iff_not, not_not] at h
    exact h.1
  have hstate := hgood
  rw [copyProtection_state] at hstate
  cases hsaved : st.checkpointOf plan a with
  | none =>
    rw [hsaved] at hstate
    exact absurd hstate (not_good (by simp [assignedState]) (by simp [assignedState]))
  | some c =>
    rw [hsaved] at hstate
    have hp := protects_of_good hst (hst.checkpoints _ c hsaved) hstate
    refine ⟨⟨c, rfl, hp⟩, ?_⟩
    have husable : (copyProtection env st plan a runs).evidenceUsable = true := by
      have hs : st.copyCheckpoints.lookup (checkpointKey plan.id a.destinationID) = some c := hsaved
      rcases hgood with hg | hg
      · simp_all [copyProtection, hp.present]
      · simp_all [copyProtection, hp.present]
    unfold CopyProtection.usable
    rcases hgood with hg | hg
    · simp [husable, hg]
    · simp [husable, hg]

/-- An assignment that counts. -/
def Plan.Active (plan : Plan) (a : Assignment) : Prop := plan.enabled = true ∧ a.enabled = true

/-- The rest of the loop, if it asks for no attention: nothing did before, every active
assignment is protected, and each of them counted as current. -/
theorem protectAssignments_quiet (hst : st.Sound) (runs : ℕ → List PersistedRun)
    {assignments : List Assignment} {round : ℕ}
    (h : (protectAssignments env st plan runs round loop assignments).attention = false) :
    loop.attention = false ∧
    (∀ a ∈ assignments, plan.Active a → ∃ c, st.checkpointOf plan a = some c ∧
      Protects env plan a (st.destination a.destinationID) c) ∧
    (protectAssignments env st plan runs round loop assignments).result.currentCopies +
        loop.result.expectedCopies =
      (protectAssignments env st plan runs round loop assignments).result.expectedCopies +
        loop.result.currentCopies := by
  induction assignments generalizing round loop with
  | nil => exact ⟨h, by simp, by simp [protectAssignments, Nat.add_comm]⟩
  | cons a rest ih =>
    obtain ⟨hattention, hrest, hcount⟩ := ih h
    set copy := copyProtection env st plan a (runs round) with hcopy
    have hor : loop.attention = false ∧
        (plan.enabled && a.enabled && copy.needsAttention) = false :=
      Bool.or_eq_false_iff.mp hattention
    refine ⟨hor.1, ?_, ?_⟩
    · intro b hb hactive
      rcases List.mem_cons.mp hb with rfl | hb
      · have hquiet : copy.needsAttention = false := by simpa [hactive.1, hactive.2] using hor.2
        exact (copyProtection_quiet hst hquiet).1
      · exact hrest b hb hactive
    · rw [protectAssignments, ← hcopy]
      by_cases hactive : plan.enabled = true ∧ a.enabled = true
      · have hquiet : copy.needsAttention = false := by simpa [hactive.1, hactive.2] using hor.2
        have husable := (copyProtection_quiet hst hquiet).2
        rw [← hcopy] at husable
        have hcur : (protectAssignment plan loop a copy).result.currentCopies =
            loop.result.currentCopies + 1 := by
          simp [protectAssignment, hactive, husable]
        have hexp : (protectAssignment plan loop a copy).result.expectedCopies =
            loop.result.expectedCopies + 1 := by
          simp [protectAssignment, hactive]
        rw [hcur, hexp] at hcount
        omega
      · have hinactive : (plan.enabled && a.enabled) = false := by
          simpa [← Bool.not_eq_true, Bool.and_eq_true] using hactive
        have hcur : (protectAssignment plan loop a copy).result.currentCopies =
            loop.result.currentCopies := by
          simp [protectAssignment, hinactive]
        have hexp : (protectAssignment plan loop a copy).result.expectedCopies =
            loop.result.expectedCopies := by
          simp [protectAssignment, hinactive]
        rw [hcur, hexp] at hcount
        exact hcount

/-- A healthy plan is enabled, expects a copy, and its loop asked for no attention. -/
theorem planVerdict_healthy (h : (planVerdict plan loop).state = .healthy) :
    plan.enabled = true ∧ 0 < loop.result.expectedCopies ∧ loop.attention = false ∧
      planVerdict plan loop = loop.result := by
  unfold planVerdict at h ⊢
  dsimp only at h ⊢
  split at h
  · cases h
  rename_i hexpected
  split at h
  · cases h
  rename_i hsaved
  split at h
  · cases h
  rename_i hattention
  split at h
  · cases h
  rename_i hmanual
  rw [if_neg hexpected, if_neg hsaved, if_neg hattention, if_neg hmanual]
  have hen : plan.enabled = true ∧ loop.result.expectedCopies ≠ 0 := by simpa using hexpected
  exact ⟨hen.1, Nat.pos_of_ne_zero hen.2, Bool.eq_false_iff.mpr hattention, rfl⟩

/-- What is reported as healthy is protected; times count as future only beyond the tolerance
for a clock that was set back. -/
theorem healthy_plan_is_protected {sum256 : Bytes → Digest} {w : ProtectionWorld}
    (hw : w.Reached sum256) (h : (protectionLocked env w.st plan).state = .healthy) :
    (protectionLocked env w.st plan).currentCopies =
      (protectionLocked env w.st plan).expectedCopies ∧
    0 < (protectionLocked env w.st plan).expectedCopies ∧
    ∀ a ∈ plan.destinations, a.enabled = true → ∃ c, w.st.checkpointOf plan a = some c ∧
      Protects env plan a (w.st.destination a.destinationID) c := by
  unfold protectionLocked at h ⊢
  obtain ⟨henabled, hpos, hattention, hresult⟩ := planVerdict_healthy h
  obtain ⟨-, hprotects, hcount⟩ :=
    protectAssignments_quiet (sound_of_reached hw).state _ hattention
  rw [hresult]
  exact ⟨hcount, hpos, fun a ha hen => hprotects a ha ⟨henabled, hen⟩⟩

end Verdict

def nightly : Assignment where
  destinationID := "d"
  enabled := true
  schedule := ⟨.interval, "", 0, "", 24⟩
  retention := ⟨0, 0, 0⟩
  lastScheduledAt := none
  scheduleActivatedAt := none

def onePlan : Plan := ⟨"p", "p", true, "stop", [], [nightly]⟩

/-- Ten o'clock on the first day of 1970. -/
def tenOClock : Instant := unixTime + 600 * minute

def oneCopy : CopyResult where
  destinationID := "d"
  state := .succeeded
  snapshotID := "s"
  uploadedAt := some tenOClock
  verification := .recoveryObjectsVerified
  verifiedAt := some tenOClock

/-- A run that captured, uploaded and verified its copy at once. -/
def oneRun : Run where
  id := "r"
  jobID := "j"
  planID := "p"
  planName := "p"
  state := .succeeded
  captureState := .succeeded
  capturedAt := some tenOClock
  createdAt := tenOClock
  expiresAt := tenOClock
  copies := [oneCopy]

def oneDigest : Bytes → Digest := fun _ => ⟨List.replicate 32 17, rfl⟩

def oneCopyWorld : ProtectionWorld :=
  [ProtectionStep.saveDestination "d" true, .savePlan onePlan,
    .recordRun tenOClock oneRun onePlan].foldl (·.next oneDigest) .initial

theorem oneCopyWorld_reached : oneCopyWorld.Reached oneDigest :=
  ⟨.initial, rfl, [.saveDestination "d" true, .savePlan onePlan,
    .recordRun tenOClock oneRun onePlan], .stepL rfl (.stepL rfl (.stepL rfl .refl))⟩

def envAt (now : Instant) : ProtectionEnv where
  sum256 := oneDigest
  zones := ⟨fun _ => none, .utc⟩
  now := now
  overdueGraceMinutes := 60
  runOrder := .stored

/-- The hypotheses hold for a plan whose only copy has just been made. -/
theorem fresh_copy_is_healthy :
    (protectionLocked (envAt tenOClock) oneCopyWorld.st onePlan).state = .healthy ∧
    0 < (protectionLocked (envAt tenOClock) oneCopyWorld.st onePlan).expectedCopies := by
  have h : (protectionLocked (envAt tenOClock) oneCopyWorld.st onePlan).state = .healthy := by
    decide +kernel
  exact ⟨h, (healthy_plan_is_protected oneCopyWorld_reached h).2.1⟩

/-- A clock that was set back by a minute leaves the plan healthy, although the capture and the
check of its copy are then in the future. -/
theorem healthy_before_its_capture :
    ∃ w now c, ProtectionWorld.Reached oneDigest w ∧
      (protectionLocked (envAt now) w.st onePlan).state = .healthy ∧
      w.st.checkpointOf onePlan nightly = some c ∧ now < c.capturedAt ∧
      ∃ checkedAt, c.snapshotCheckedAt = some checkedAt ∧ now < checkedAt := by
  refine ⟨oneCopyWorld, tenOClock - minute, newCheckpoint oneDigest oneRun onePlan tenOClock oneCopy,
    oneCopyWorld_reached, ?_, ?_, ?_, tenOClock, ?_, ?_⟩
  all_goals decide +kernel

end Stacklab.Backup
