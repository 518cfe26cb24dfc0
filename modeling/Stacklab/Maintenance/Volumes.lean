import Stacklab.Lib.GoMap
import Stacklab.Lib.GoText

/-! The volume inventory: how often each volume is mounted and which stacks use it. -/
namespace Stacklab.Maintenance

open Lib GoMap

inductive MountType
  | volume
  | other (name : String)
  deriving DecidableEq, Repr

structure Mount where
  type : MountType
  name : String
  deriving DecidableEq, Repr

structure Container where
  id : String
  running : Bool
  labels : GoMap String String
  mounts : List Mount

structure Volume where
  name : String
  driver : String
  mountpoint : String
  scope : String
  size : ℤ
  options : GoMap String String
  labels : GoMap String String

structure VolumeRow where
  name : String
  driver : String

structure StackServiceUsage where
  stackID : String
  serviceNames : List String
  deriving DecidableEq, Repr

inductive ImageUsage
  | unset
  | all
  | used
  | unused
  | other (name : String)
  deriving DecidableEq, Repr

inductive ImageOrigin
  | unset
  | all
  | stackManaged
  | external
  | other (name : String)
  deriving DecidableEq, Repr

inductive VolumeSource
  | stackManaged
  | external
  deriving DecidableEq, Repr

structure VolumesQuery where
  search : String
  usage : ImageUsage
  origin : ImageOrigin
  managedStackIDs : List String

structure VolumeItem where
  name : String
  driver : String
  mountpoint : String
  scope : String
  sizeBytes : ℤ
  optionsCount : ℕ
  containersUsing : ℕ
  stacksUsing : List StackServiceUsage
  isUnused : Bool
  source : VolumeSource
  deriving DecidableEq, Repr

/-- The zero value stands for an object that no container uses. -/
structure UsageByObject where
  count : ℕ := 0
  stackServices : GoMap String (List String) := ∅

/-- The value of a label, empty when the label is missing. -/
def label (labels : GoMap String String) (key : String) : String := (labels.lookup key).getD ""

def composeProject : String := "com.docker.compose.project"

def composeService : String := "com.docker.compose.service"

def addUsageStackService (usage : UsageByObject) (stackID serviceName : String) :
    UsageByObject :=
  { usage with
    stackServices := usage.stackServices.insert stackID
      (((usage.stackServices.lookup stackID).getD []).insert serviceName) }

/-- One round of the mount loop of `objectUsage`. -/
def addMount (managedStackIDs : List String) (container : Container)
    (volumes : GoMap String UsageByObject) (mount : Mount) : GoMap String UsageByObject :=
  if mount.type ≠ .volume ∨ mount.name = "" then volumes
  else
    let project := label container.labels composeProject
    let serviceName := label container.labels composeService
    let usage := (volumes.lookup mount.name).getD {}
    let usage := { usage with count := usage.count + 1 }
    volumes.insert mount.name
      (if project ∈ managedStackIDs ∧ serviceName ≠ "" then
        addUsageStackService usage project serviceName
      else usage)

/-- The volume half of `objectUsage`: the usage of every mounted volume. -/
def objectUsage (managedStackIDs : List String) (containers : List Container) :
    GoMap String UsageByObject :=
  containers.foldl (fun volumes container =>
    container.mounts.foldl (addMount managedStackIDs container) volumes) ∅

/-- A map of service sets as a list sorted by stack, with sorted services. -/
def sortedUsage (services : GoMap String (List String)) : List StackServiceUsage :=
  (services.entries.map fun e =>
    (⟨e.1, e.2.mergeSort (fun a b => decide (a ≤ b))⟩ : StackServiceUsage)).mergeSort
      fun a b => decide (a.stackID ≤ b.stackID)

def usageMapToStackServiceUsage (items : GoMap String (List String)) : List StackServiceUsage :=
  sortedUsage items

def labelsToStackUsage (labels : GoMap String String) (managedStackIDs : List String) :
    List StackServiceUsage :=
  let project := trimSpace (label labels composeProject)
  if project = "" then []
  else if project ∉ managedStackIDs then []
  else [⟨project, []⟩]

def mergeItem (merged : GoMap String (List String)) (item : StackServiceUsage) :
    GoMap String (List String) :=
  merged.insert item.stackID
    (item.serviceNames.foldl (fun set name => set.insert name)
      ((merged.lookup item.stackID).getD []))

def mergeStackServiceUsage (usages : List (List StackServiceUsage)) : List StackServiceUsage :=
  sortedUsage (usages.flatten.foldl mergeItem ∅)

def stackUsageHaystack (items : List StackServiceUsage) : List String :=
  items.flatMap fun usage => usage.stackID :: usage.serviceNames

def matchesInventoryFilters (search : String) (primary : List String) : Bool :=
  search = "" || primary.any fun candidate => contains candidate.toLower search

def matchesUsageOrigin (usage : ImageUsage) (origin : ImageOrigin) (isUnused : Bool)
    (source : VolumeSource) : Bool :=
  (match usage with
    | .unset | .all => true
    | .used => !isUnused
    | .unused => isUnused
    | .other _ => false) &&
  match origin with
    | .unset | .all => true
    | .stackManaged => source = .stackManaged
    | .external => source = .external
    | .other _ => false

def uniqueVolumeNames (rows : List VolumeRow) : List String := (rows.map (·.name)).eraseDups

def inspectedByName (inspected : List Volume) : GoMap String Volume :=
  inspected.foldl (fun result item => result.insert item.name item) ∅

/-- One round of the row loop of `Volumes`: the item, unless it is filtered out. -/
def volumeItem (query : VolumesQuery) (inspectedVolumes : GoMap String Volume)
    (usage : GoMap String UsageByObject) (row : VolumeRow) : Option VolumeItem := do
  let inspected ← inspectedVolumes.lookup row.name
  let volumeUsage := (usage.lookup row.name).getD {}
  let stacksUsing := mergeStackServiceUsage
    [usageMapToStackServiceUsage volumeUsage.stackServices,
      labelsToStackUsage inspected.labels query.managedStackIDs]
  let item : VolumeItem :=
    { name := row.name
      driver := row.driver
      mountpoint := inspected.mountpoint
      scope := inspected.scope
      sizeBytes := inspected.size
      optionsCount := inspected.options.entries.length
      containersUsing := volumeUsage.count
      stacksUsing := stacksUsing
      isUnused := volumeUsage.count = 0
      source := if stacksUsing.length > 0 then .stackManaged else .external }
  if matchesInventoryFilters (trimSpace query.search).toLower
      (item.name :: item.driver :: item.mountpoint :: stackUsageHaystack stacksUsing) &&
      matchesUsageOrigin query.usage query.origin item.isUnused item.source then
    some item
  else none

def itemLE (a b : VolumeItem) : Bool :=
  if a.name = b.name then a.mountpoint ≤ b.mountpoint else a.name ≤ b.name

/-- The items that `Volumes` answers from what Docker reported. -/
def volumeItems (query : VolumesQuery) (rows : List VolumeRow) (inspected : List Volume)
    (containers : List Container) : List VolumeItem :=
  (rows.filterMap (volumeItem query (inspectedByName inspected)
    (objectUsage query.managedStackIDs containers))).mergeSort itemLE

def Container.Mounts (c : Container) (name : String) : Prop :=
  ∃ m ∈ c.mounts, m.type = .volume ∧ m.name = name

variable {ids : List String} {cs : List Container} {name : String} {m : GoMap String (List String)}
  {v : Volume} {inspected : GoMap String Volume} {row : VolumeRow}

theorem lookup_addMount {volumes : GoMap String UsageByObject} {c : Container} {m : Mount}
    (hn : name ≠ "") :
    ((addMount ids c volumes m).lookup name = none ↔
      volumes.lookup name = none ∧ ¬(m.type = .volume ∧ m.name = name)) ∧
    ((∀ u, volumes.lookup name = some u → 0 < u.count) →
      ∀ u, (addMount ids c volumes m).lookup name = some u → 0 < u.count) := by
  rw [addMount]
  split
  next h =>
    have hm : ¬(m.type = .volume ∧ m.name = name) := by
      rintro ⟨ht, rfl⟩
      exact h.elim (· ht) hn
    simp [hm]
  next h =>
    obtain ⟨ht, -⟩ := not_or.mp h
    rw [lookup_insert]
    by_cases hm : name = m.name
    · subst hm
      simp_all only [not_not, if_true, and_true, not_true, and_false, Option.some.injEq]
      refine ⟨by simp, ?_⟩
      rintro - u rfl
      split <;> exact Nat.succ_pos _
    · simp [hm, Ne.symm hm]

theorem lookup_foldl_addMount (hn : name ≠ "") (ps : List (Container × Mount))
    (volumes : GoMap String UsageByObject)
    (hv : ∀ u, volumes.lookup name = some u → 0 < u.count) :
    ((ps.foldl (fun v p => addMount ids p.1 v p.2) volumes).lookup name = none ↔
      volumes.lookup name = none ∧ ∀ p ∈ ps, ¬(p.2.type = .volume ∧ p.2.name = name)) ∧
    ∀ u, (ps.foldl (fun v p => addMount ids p.1 v p.2) volumes).lookup name = some u →
      0 < u.count := by
  induction ps generalizing volumes with
  | nil => simpa using hv
  | cons p ps ih =>
    obtain ⟨hl, hc⟩ := @lookup_addMount ids name volumes p.1 p.2 hn
    obtain ⟨hi, hu⟩ := ih _ (hc hv)
    refine ⟨?_, hu⟩
    rw [List.foldl_cons, hi, hl, List.forall_mem_cons]
    tauto

theorem objectUsage_eq_foldl : objectUsage ids cs =
    (cs.flatMap fun c => c.mounts.map (c, ·)).foldl (fun v p => addMount ids p.1 v p.2) ∅ := by
  simp [objectUsage, List.foldl_flatMap, List.foldl_map]

theorem lookup_objectUsage (hn : name ≠ "") :
    ((objectUsage ids cs).lookup name = none ↔ ∀ c ∈ cs, ¬c.Mounts name) ∧
    ∀ u, (objectUsage ids cs).lookup name = some u → 0 < u.count := by
  obtain ⟨h, hu⟩ := @lookup_foldl_addMount ids name hn
    (cs.flatMap fun c => c.mounts.map (c, ·)) ∅ (by simp)
  rw [objectUsage_eq_foldl]
  refine ⟨h.trans ?_, hu⟩
  simp only [AList.lookup_empty, true_and, List.mem_flatMap, List.mem_map, Container.Mounts]
  constructor
  · rintro h c hc ⟨m, hm, ht⟩
    exact h (c, m) ⟨c, hc, m, hm, rfl⟩ ht
  · rintro h _ ⟨c, hc, m, hm, rfl⟩ ht
    exact h c hc ⟨m, hm, ht⟩

theorem sortedUsage_eq_nil : sortedUsage m = [] ↔ m.entries = [] := by
  rw [sortedUsage, ← List.length_eq_zero_iff, List.length_mergeSort, List.length_map,
    List.length_eq_zero_iff]

theorem lookup_foldl_mergeItem {id : String} (items : List StackServiceUsage)
    (h : m.lookup id ≠ none) : (items.foldl mergeItem m).lookup id ≠ none := by
  induction items generalizing m with
  | nil => exact h
  | cons item items ih =>
    apply ih
    rw [mergeItem, lookup_insert]
    split
    · simp
    · exact h

theorem mergeStackServiceUsage_eq_nil {usages : List (List StackServiceUsage)} :
    mergeStackServiceUsage usages = [] ↔ usages.flatten = [] := by
  rw [mergeStackServiceUsage, sortedUsage_eq_nil]
  cases usages.flatten with
  | nil => simp
  | cons item items =>
    have hi : (items.foldl mergeItem (mergeItem ∅ item)).lookup item.stackID ≠ none := by
      apply lookup_foldl_mergeItem
      rw [mergeItem, lookup_insert, if_pos rfl]
      exact Option.some_ne_none _
    simp only [List.foldl_cons, reduceCtorEq, iff_false]
    exact fun h => hi (entries_eq_nil_iff.mp h _)

theorem lookup_inspectedByName {vs : List Volume} (hd : (vs.map (·.name)).Nodup) (hv : v ∈ vs) :
    (inspectedByName vs).lookup v.name = some v := by
  -- later volumes have other names, so the entry is not overwritten
  have hkeep : ∀ (rest : List Volume) (m : GoMap String Volume), v.name ∉ rest.map (·.name) →
      (rest.foldl (fun r item => r.insert item.name item) m).lookup v.name =
        m.lookup v.name := by
    intro rest
    induction rest with
    | nil => exact fun _ _ => rfl
    | cons w rest ih =>
      intro m hm
      rw [List.map_cons, List.mem_cons, not_or] at hm
      rw [List.foldl_cons, ih _ hm.2, lookup_insert, if_neg hm.1]
  obtain ⟨before, after, rfl⟩ := List.append_of_mem hv
  rw [List.map_append, List.map_cons, List.nodup_append] at hd
  have hafter := (List.nodup_cons.mp hd.2.1).1
  rw [inspectedByName, List.foldl_append, List.foldl_cons, hkeep _ _ hafter,
    lookup_insert, if_pos rfl]

/-- The query of the volume prune and of its preview. -/
def unusedExternal (managedStackIDs : List String) : VolumesQuery :=
  ⟨"", .unused, .external, managedStackIDs⟩

theorem volumeItem_name {query : VolumesQuery} {usage : GoMap String UsageByObject}
    {item : VolumeItem} (h : volumeItem query inspected usage row = some item) :
    item.name = row.name := by
  simp only [volumeItem, Option.bind_eq_bind, Option.bind_eq_some_iff,
    Option.ite_none_right_eq_some] at h
  obtain ⟨v, -, -, h⟩ := h
  rw [← Option.some.inj h]

/-- A volume is listed when no container mounts it and its label names no managed stack. -/
theorem volumeItem_unusedExternal (hn : row.name ≠ "") (hv : inspected.lookup row.name = some v) :
    (volumeItem (unusedExternal ids) inspected (objectUsage ids cs) row ≠ none) ↔
      (∀ c ∈ cs, ¬c.Mounts row.name) ∧ labelsToStackUsage v.labels ids = [] := by
  obtain ⟨hnone, hcount⟩ := @lookup_objectUsage ids cs row.name hn
  have hsearch : (trimSpace "").toLower = "" := by decide +kernel
  have hempty : usageMapToStackServiceUsage ∅ = [] := sortedUsage_eq_nil.mpr rfl
  cases hu : (objectUsage ids cs).lookup row.name with
  | none =>
    have hm := hnone.mp hu
    have hmerge : mergeStackServiceUsage
        [usageMapToStackServiceUsage ∅, labelsToStackUsage v.labels ids] = [] ↔
          labelsToStackUsage v.labels ids = [] := by
      simp [mergeStackServiceUsage_eq_nil, hempty]
    rw [and_iff_right hm, ← hmerge]
    simp [volumeItem, hv, hu, unusedExternal, hsearch, matchesInventoryFilters,
      matchesUsageOrigin]
  | some u =>
    have hc : u.count ≠ 0 := (hcount u hu).ne'
    have hm : ¬∀ c ∈ cs, ¬c.Mounts row.name := fun h => by simp [hnone.mpr h] at hu
    simp [volumeItem, hv, hu, hc, hm, unusedExternal, matchesUsageOrigin]

theorem map_name_filterMap {rows : List VolumeRow} {f : VolumeRow → Option VolumeItem}
    (hf : ∀ row item, f row = some item → item.name = row.name) :
    ((rows.filterMap f).map (·.name)).Sublist (rows.map (·.name)) := by
  induction rows with
  | nil => simp
  | cons row rows ih =>
    cases hr : f row with
    | none => simpa [List.filterMap_cons, hr] using ih.cons _
    | some item => simpa [List.filterMap_cons, hr, hf row item hr] using ih.cons_cons row.name

end Stacklab.Maintenance
