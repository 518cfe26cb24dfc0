import Stacklab.Lib.GoMap
import Mathlib.Data.Finset.Card

/-! The runtime state of a stack, from its services and its containers. -/
namespace Stacklab.Stacks

open Lib

inductive RuntimeState
  | defined
  | running
  | partially
  | stopped
  | error
  | orphaned
  deriving DecidableEq, Repr

structure Service where
  name : String
  deriving DecidableEq, Repr

structure Container where
  serviceName : String
  status : String
  deriving DecidableEq, Repr

def serviceStatusPriority (status : String) : ℕ :=
  if status = "restarting" ∨ status = "dead" then 5
  else if status = "running" then 4
  else if status = "paused" then 3
  else if status = "created" then 2
  else if status = "exited" then 1
  else 0

/-- One round of the loop over the containers. -/
def addStatus (statusByService : GoMap String String) (container : Container) :
    GoMap String String :=
  let current := (statusByService.lookup container.serviceName).getD ""
  if current = "" ∨ serviceStatusPriority current < serviceStatusPriority container.status then
    statusByService.insert container.serviceName container.status
  else statusByService

def deriveRuntimeState (definitionExists : Bool) (services : List Service)
    (containers : List Container) : RuntimeState :=
  if definitionExists = false ∧ containers ≠ [] then .orphaned
  else if containers = [] then .defined
  else
    let statusByService := containers.foldl addStatus ∅
    let statuses := statusByService.entries.map Sigma.snd
    let runningServices := statuses.countP (· = "running")
    if statuses.any fun status => status = "restarting" ∨ status = "dead" then .error
    else if runningServices = 0 then .stopped
    else if services ≠ [] ∧ runningServices < services.length then .partially
    else if services = [] ∧ runningServices < statuses.length then .partially
    else .running

section Statuses

variable {services : List Service} {containers : List Container} {name status : String}
  {c : Container}

def HasRunning (containers : List Container) (name : String) : Prop :=
  ∃ c ∈ containers, c.serviceName = name ∧ c.status = "running"

/-- Some container is restarting or dead. -/
def HasFailed (containers : List Container) : Prop :=
  ∃ c ∈ containers, c.status = "restarting" ∨ c.status = "dead"

def runningNames (containers : List Container) : Finset String :=
  ((containers.filter fun c => c.status = "running").map Container.serviceName).toFinset

theorem mem_runningNames : name ∈ runningNames containers ↔ HasRunning containers name := by
  simp [runningNames, HasRunning, and_assoc, and_comm]

theorem status_of_priority (h : 4 ≤ serviceStatusPriority status) :
    status = "running" ∨ status = "restarting" ∨ status = "dead" := by
  unfold serviceStatusPriority at h
  split at h
  · exact .inr ‹_›
  · split at h
    · exact .inl ‹_›
    · repeat' split at h
      all_goals omega

theorem failed_of_priority (h : 5 ≤ serviceStatusPriority status) :
    status = "restarting" ∨ status = "dead" := by
  rcases status_of_priority (Nat.le_of_succ_le h) with rfl | hfailed
  · exact absurd h (by decide)
  · exact hfailed

theorem lookup_addStatus (m : GoMap String String) (c : Container) (name : String) :
    (addStatus m c).lookup name = m.lookup name ∨
      name = c.serviceName ∧ (addStatus m c).lookup name = some c.status := by
  unfold addStatus
  dsimp only
  split
  · rw [GoMap.lookup_insert]
    split
    · exact .inr ⟨‹_›, rfl⟩
    · exact .inl rfl
  · exact .inl rfl

/-- A round never lowers the priority of a service, and covers the container. -/
theorem priority_addStatus (m : GoMap String String) (c : Container) :
    (∀ name status, m.lookup name = some status → ∃ status',
      (addStatus m c).lookup name = some status' ∧
        serviceStatusPriority status ≤ serviceStatusPriority status') ∧
    ∃ status', (addStatus m c).lookup c.serviceName = some status' ∧
      serviceStatusPriority c.status ≤ serviceStatusPriority status' := by
  unfold addStatus
  dsimp only
  split
  next hreplace =>
    refine ⟨?_, c.status, by simp, Nat.le_refl _⟩
    intro name status hl
    rw [GoMap.lookup_insert]
    split
    next heq =>
      rw [← heq, hl, Option.getD_some] at hreplace
      refine ⟨c.status, rfl, ?_⟩
      rcases hreplace with rfl | hlt
      · exact Nat.zero_le _
      · exact Nat.le_of_lt hlt
    · exact ⟨status, hl, Nat.le_refl _⟩
  next hkeep =>
    refine ⟨fun name status hl => ⟨status, hl, Nat.le_refl _⟩, ?_⟩
    cases hl : m.lookup c.serviceName with
    | none => simp [hl] at hkeep
    | some status =>
      rw [hl, Option.getD_some, not_or] at hkeep
      exact ⟨status, rfl, Nat.not_lt.mp hkeep.2⟩

theorem container_of_status (h : (containers.foldl addStatus ∅).lookup name = some status) :
    ∃ c ∈ containers, c.serviceName = name ∧ c.status = status := by
  induction containers using List.reverseRecOn with
  | nil => cases h
  | append_singleton rest c ih =>
    rw [List.foldl_append, List.foldl_cons, List.foldl_nil] at h
    rcases lookup_addStatus (rest.foldl addStatus ∅) c name with hold | ⟨hname, hnew⟩
    · obtain ⟨c', hc', hspec⟩ := ih (hold ▸ h)
      exact ⟨c', List.mem_append_left _ hc', hspec⟩
    · exact ⟨c, by simp, hname.symm, Option.some.inj (hnew.symm.trans h)⟩

theorem status_of_container (hc : c ∈ containers) :
    ∃ status, (containers.foldl addStatus ∅).lookup c.serviceName = some status ∧
      serviceStatusPriority c.status ≤ serviceStatusPriority status := by
  induction containers using List.reverseRecOn with
  | nil => cases hc
  | append_singleton rest last ih =>
    rw [List.foldl_append, List.foldl_cons, List.foldl_nil]
    obtain ⟨hkept, hcovered⟩ := priority_addStatus (rest.foldl addStatus ∅) last
    rcases List.mem_append.mp hc with hold | hlast
    · obtain ⟨status, hl, hle⟩ := ih hold
      obtain ⟨status', hl', hle'⟩ := hkept c.serviceName status hl
      exact ⟨status', hl', Nat.le_trans hle hle'⟩
    · cases List.mem_singleton.mp hlast
      exact hcovered

theorem mem_statuses :
    status ∈ (containers.foldl addStatus ∅).entries.map Sigma.snd ↔
      ∃ name, (containers.foldl addStatus ∅).lookup name = some status := by
  simp [GoMap.lookup_eq_some_iff]

theorem hasFailed_iff :
    ((containers.foldl addStatus ∅).entries.map Sigma.snd).any
      (fun status => status = "restarting" ∨ status = "dead") = true ↔ HasFailed containers := by
  simp only [List.any_eq_true, decide_eq_true_eq]
  constructor
  · rintro ⟨status, hmem, hfailed⟩
    obtain ⟨name, hl⟩ := mem_statuses.mp hmem
    obtain ⟨c, hc, -, rfl⟩ := container_of_status hl
    exact ⟨c, hc, hfailed⟩
  · rintro ⟨c, hc, hfailed⟩
    obtain ⟨status, hl, hle⟩ := status_of_container hc
    rw [serviceStatusPriority, if_pos hfailed] at hle
    exact ⟨status, mem_statuses.mpr ⟨_, hl⟩, failed_of_priority hle⟩

/-- Without failures, a service counts as running if one of its containers is. -/
theorem lookup_running_iff (h : ¬HasFailed containers) :
    (containers.foldl addStatus ∅).lookup name = some "running" ↔ HasRunning containers name := by
  refine ⟨container_of_status, ?_⟩
  rintro ⟨c, hc, rfl, hrunning⟩
  obtain ⟨status, hl, hle⟩ := status_of_container hc
  rw [hrunning] at hle
  rcases status_of_priority hle with rfl | hfailed
  · exact hl
  · obtain ⟨c', hc', -, rfl⟩ := container_of_status hl
    exact absurd ⟨c', hc', hfailed⟩ h

theorem countP_running (h : ¬HasFailed containers) :
    ((containers.foldl addStatus ∅).entries.map Sigma.snd).countP (· = "running") =
      (runningNames containers).card := by
  set m := containers.foldl addStatus ∅ with hm
  have hnodup : ((m.entries.filter fun e => e.2 = "running").map Sigma.fst).Nodup :=
    List.Nodup.sublist (List.filter_sublist.map _) m.nodupKeys
  have hnames : runningNames containers =
      ((m.entries.filter fun e => e.2 = "running").map Sigma.fst).toFinset := by
    ext name
    rw [mem_runningNames, ← lookup_running_iff h, ← hm, GoMap.lookup_eq_some_iff]
    simp
  rw [hnames, List.toFinset_card_of_nodup hnodup, List.length_map, List.countP_map,
    List.countP_eq_length_filter]
  rfl

/-- The names that run are as many as the services, but they are not the services. -/
structure Miscounted (services : List Service) (containers : List Container) : Prop where
  steady : ¬HasFailed containers
  enough : services.length ≤ (runningNames containers).card
  missing : ∃ s ∈ services, ¬HasRunning containers s.name

theorem deriveRuntimeState_running (hne : services ≠ []) :
    deriveRuntimeState true services containers = .running ↔
      ¬HasFailed containers ∧ services.length ≤ (runningNames containers).card := by
  have hpos := List.length_pos_iff.mpr hne
  unfold deriveRuntimeState
  dsimp only
  rw [if_neg (by simp)]
  by_cases hempty : containers = []
  · subst hempty
    simp [runningNames, hne]
  · rw [if_neg hempty]
    by_cases hfailed : HasFailed containers
    · rw [if_pos (hasFailed_iff.mpr hfailed)]
      simp [hfailed]
    · rw [if_neg (by rw [hasFailed_iff]; exact hfailed), countP_running hfailed]
      split
      · simp [*]
      · simp [hne, hfailed]

end Statuses

end Stacklab.Stacks
