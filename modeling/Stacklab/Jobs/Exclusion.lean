import Stacklab.Jobs.Resource

/-! The normalised resources of a job exclude exactly the jobs that the requested ones exclude. -/
namespace Stacklab.Jobs

open Lib

variable {r s x : Resource} {stackID : String}
  {unique collected requested requested' resources : List Resource}

def Resource.Valid (r : Resource) : Prop := r.validate = .ok ()

/-- The text of a resource up to its id. -/
def ResourceKind.text : ResourceKind → String
  | .global => "global"
  | .dockerDaemon => "docker-daemon"
  | .dockerRegistry => "docker-registry"
  | .selfUpdate => "self-update"
  | .imageUpdates => "image-updates"
  | .stack => "stack"
  | .backupRepository => "backup-repository"
  | .unknown _ => "invalid"

theorem takeWhile_string (r : Resource) :
    r.string.toList.takeWhile (· ≠ ':') = r.kind.text.toList := by
  obtain ⟨kind, id⟩ := r
  cases kind <;> simp [Resource.string, ResourceKind.text]

theorem kind_eq_of_text (hr : r.Valid) (hs : s.Valid) (h : r.kind.text = s.kind.text) :
    r.kind = s.kind := by
  obtain ⟨rk, ri⟩ := r
  obtain ⟨sk, si⟩ := s
  cases rk <;> cases sk <;> first
    | rfl
    | cases hr
    | cases hs
    | simp [ResourceKind.text] at h

/-- A valid resource is determined by its text. -/
theorem string_injective (hr : r.Valid) (hs : s.Valid) (h : r.string = s.string) : r = s := by
  have hkind : r.kind = s.kind := by
    apply kind_eq_of_text hr hs
    rw [← String.toList_inj, ← takeWhile_string, h, takeWhile_string]
  obtain ⟨kind, ri⟩ := r
  obtain ⟨_, si⟩ := s
  cases hkind
  rw [Resource.Valid, Resource.validate] at hr hs
  cases kind with
  | stack => simpa [Resource.string] using h
  | backupRepository => simpa [Resource.string] using h
  | unknown code => cases hr
  | _ => simp_all

/-- The resource of the job's stack, if it has one. -/
def stackPart (stackID : String) : List Resource :=
  if trimSpace stackID ≠ "" then [stackResource stackID] else []

theorem stackPart_valid (h : r ∈ stackPart stackID) : r.Valid := by
  rw [stackPart] at h
  split at h
  next hne =>
    obtain rfl := List.mem_singleton.mp h
    exact if_neg hne
  · cases h

/-- The members of a set after the requested resources were added to it. -/
structure Collected (unique requested collected : List Resource) : Prop where
  valid : ∀ r ∈ requested, r.Valid
  mem : ∀ r, r ∈ collected ↔ r ∈ unique ∨ r ∈ requested
  nodup : unique.Nodup → collected.Nodup

theorem collectRequested_spec (h : collectRequested unique requested = .ok collected) :
    Collected unique requested collected := by
  induction requested generalizing unique with
  | nil =>
    cases h
    exact ⟨by simp, by simp, id⟩
  | cons resource rest ih =>
    rw [collectRequested] at h
    split at h
    · cases h
    next hvalid =>
      obtain ⟨hrest, hmem, hnodup⟩ := ih h
      refine ⟨List.forall_mem_cons.mpr ⟨hvalid, hrest⟩, fun r => ?_, fun hu => ?_⟩
      · rw [hmem, List.mem_insert_iff, List.mem_cons]
        tauto
      · exact hnodup hu.insert

theorem exists_collected (unique : List Resource) (h : ∀ r ∈ requested, r.Valid) :
    ∃ collected, collectRequested unique requested = .ok collected := by
  induction requested generalizing unique with
  | nil => exact ⟨unique, rfl⟩
  | cons resource rest ih =>
    obtain ⟨hvalid, hrest⟩ := List.forall_mem_cons.mp h
    rw [collectRequested, hvalid]
    exact ih _ hrest

/-- What is left of a set when it holds the global resource. -/
def keptResources (unique : List Resource) : List Resource :=
  if globalResource ∈ unique then
    unique.filter fun r => r = globalResource ∨ r.kind = .backupRepository
  else unique

theorem normalizeResources_eq (h : normalizeResources stackID requested = .ok resources) :
    ∃ collected, Collected (stackPart stackID) requested collected ∧ collected ≠ [] ∧
      resources = (keptResources collected).mergeSort fun a b => decide (a.string ≤ b.string) := by
  simp only [normalizeResources] at h
  split at h
  · cases h
  next collected hcollected =>
    split at h
    · cases h
    next hne =>
      cases h
      exact ⟨collected, collectRequested_spec hcollected, mt List.length_eq_zero_iff.mpr hne, rfl⟩

theorem normalizeResources_ok (hcollected : collectRequested (stackPart stackID) requested =
    .ok collected) (hne : collected ≠ []) :
    normalizeResources stackID requested =
      .ok ((keptResources collected).mergeSort fun a b => decide (a.string ≤ b.string)) := by
  rw [stackPart] at hcollected
  simp only [normalizeResources, hcollected]
  rw [if_neg (mt List.length_eq_zero_iff.mp hne)]
  rfl

/-- What the global resource covers conflicts with nothing that it does not conflict with. -/
theorem conflict_global (hr : r.kind ≠ .backupRepository) (h : resourcesConflict x r = true) :
    resourcesConflict x globalResource = true := by
  by_cases hx : x.kind = .backupRepository
  · have hne : x ≠ r := fun he => hr (he ▸ hx)
    simp [resourcesConflict, hne, hx] at h
  · by_cases he : x = globalResource
    · rw [he, resourcesConflict_self]
    · simp [resourcesConflict, hx, globalResource]

theorem conflict_keptResources (unique : List Resource) (x : Resource) :
    (∃ r ∈ unique, resourcesConflict x r = true) ↔
      ∃ r ∈ keptResources unique, resourcesConflict x r = true := by
  rw [keptResources]
  split
  next hglobal =>
    constructor
    · rintro ⟨r, hr, hx⟩
      by_cases hrepository : r.kind = .backupRepository
      · exact ⟨r, by simp [hr, hrepository], hx⟩
      · exact ⟨globalResource, globalResource_mem_kept hglobal, conflict_global hrepository hx⟩
    · rintro ⟨r, hr, hx⟩
      exact ⟨r, List.mem_of_mem_filter hr, hx⟩
  · rfl

theorem keptResources_sublist (unique : List Resource) : (keptResources unique).Sublist unique := by
  rw [keptResources]
  split
  · exact List.filter_sublist
  · exact List.Sublist.refl _

theorem keptResources_perm (h : unique.Perm collected) :
    (keptResources unique).Perm (keptResources collected) := by
  rw [keptResources, keptResources]
  by_cases hglobal : globalResource ∈ unique
  · rw [if_pos hglobal, if_pos (h.mem_iff.mp hglobal)]
    exact h.filter _
  · rw [if_neg hglobal, if_neg (mt h.mem_iff.mpr hglobal)]
    exact h

theorem Collected.all_valid (h : Collected (stackPart stackID) requested collected)
    (hr : r ∈ collected) : r.Valid := by
  rcases (h.mem r).mp hr with hr | hr
  · exact stackPart_valid hr
  · exact h.valid r hr

theorem Collected.distinct (h : Collected (stackPart stackID) requested collected) :
    collected.Nodup := by
  apply h.nodup
  rw [stackPart]
  split <;> simp

theorem sort_pairwise (unique : List Resource) :
    (unique.mergeSort fun a b => decide (a.string ≤ b.string)).Pairwise
      fun a b => a.string ≤ b.string := by
  have htrans : ∀ a b c : Resource, decide (a.string ≤ b.string) = true →
      decide (b.string ≤ c.string) = true → decide (a.string ≤ c.string) = true := by
    intro a b c hab hbc
    rw [decide_eq_true_eq] at hab hbc ⊢
    exact le_trans hab hbc
  have htotal : ∀ a b : Resource,
      (decide (a.string ≤ b.string) || decide (b.string ≤ a.string)) = true := by
    intro a b
    rw [Bool.or_eq_true, decide_eq_true_eq, decide_eq_true_eq]
    exact le_total _ _
  simpa using List.pairwise_mergeSort htrans htotal unique

/-- The order in which a set is walked does not show in the sorted list. -/
theorem sort_eq_of_perm (hvalid : ∀ r ∈ unique, r.Valid) (h : unique.Perm collected) :
    (unique.mergeSort fun a b => decide (a.string ≤ b.string)) =
      collected.mergeSort fun a b => decide (a.string ≤ b.string) := by
  have hleft := List.mergeSort_perm unique fun a b => decide (a.string ≤ b.string)
  have hright := List.mergeSort_perm collected fun a b => decide (a.string ≤ b.string)
  refine List.Perm.eq_of_pairwise ?_ (sort_pairwise unique) (sort_pairwise collected)
    (hleft.trans (h.trans hright.symm))
  intro a b ha hb hab hba
  apply string_injective
  · exact hvalid a (hleft.mem_iff.mp ha)
  · exact hvalid b (h.mem_iff.mpr (hright.mem_iff.mp hb))
  · exact le_antisymm hab hba

/-- A request that names the same resources in another order, or more often, has the same
outcome. -/
theorem normalizeResources_same (h : normalizeResources stackID requested = .ok resources)
    (hsame : ∀ r, r ∈ requested' ↔ r ∈ requested) :
    normalizeResources stackID requested' = .ok resources := by
  obtain ⟨collected, hspec, hne, rfl⟩ := normalizeResources_eq h
  have hvalid : ∀ r ∈ requested', r.Valid := fun r hr => hspec.valid r ((hsame r).mp hr)
  obtain ⟨collected', hcollected'⟩ := exists_collected (stackPart stackID) hvalid
  have hspec' := collectRequested_spec hcollected'
  have hperm : collected'.Perm collected := by
    rw [List.perm_ext_iff_of_nodup hspec'.distinct hspec.distinct]
    intro r
    rw [hspec'.mem, hspec.mem, hsame]
  have hne' : collected' ≠ [] := by
    rintro rfl
    exact hne hperm.nil_eq.symm
  rw [normalizeResources_ok hcollected' hne']
  refine congrArg Except.ok (sort_eq_of_perm (fun r hr => ?_) (keptResources_perm hperm))
  exact hspec'.all_valid ((keptResources_sublist collected').subset hr)

/-- A resource conflicts with the request, or with the stack of the job, exactly if it conflicts
with the normalised resources; those are sorted without repetition, and depend only on which
resources were requested. -/
theorem normalizeResources_exclusion (h : normalizeResources stackID requested = .ok resources) :
    (∀ x, ((∃ r ∈ requested, resourcesConflict x r = true) ∨
        trimSpace stackID ≠ "" ∧ resourcesConflict x (stackResource stackID) = true) ↔
      ∃ r ∈ resources, resourcesConflict x r = true) ∧
    resources ≠ [] ∧ resources.Nodup ∧ resources.Pairwise (fun a b => a.string ≤ b.string) ∧
    ∀ requested', (∀ r, r ∈ requested' ↔ r ∈ requested) →
      normalizeResources stackID requested' = .ok resources := by
  refine ⟨?_, normalizeResources_ne_nil h, ?_, ?_, fun _ => normalizeResources_same h⟩
  · intro x
    obtain ⟨collected, hspec, -, rfl⟩ := normalizeResources_eq h
    simp only [List.mem_mergeSort]
    rw [← conflict_keptResources]
    constructor
    · rintro (⟨r, hr, hx⟩ | ⟨hstack, hx⟩)
      · exact ⟨r, (hspec.mem r).mpr (.inr hr), hx⟩
      · refine ⟨stackResource stackID, (hspec.mem _).mpr (.inl ?_), hx⟩
        rw [stackPart, if_pos hstack]
        exact List.mem_singleton_self _
    · rintro ⟨r, hr, hx⟩
      rcases (hspec.mem r).mp hr with hr | hr
      · rw [stackPart] at hr
        split at hr
        next hstack =>
          obtain rfl := List.mem_singleton.mp hr
          exact .inr ⟨hstack, hx⟩
        · cases hr
      · exact .inl ⟨r, hr, hx⟩
  · obtain ⟨collected, hspec, -, rfl⟩ := normalizeResources_eq h
    exact (List.mergeSort_perm _ _).nodup_iff.mpr
      (hspec.distinct.sublist (keptResources_sublist collected))
  · obtain ⟨collected, -, -, rfl⟩ := normalizeResources_eq h
    exact sort_pairwise _

/-- The global lock swallows the stack and keeps the repository. -/
theorem global_request_normalised :
    normalizeResources "web" [globalResource, backupRepositoryResource "dst"] =
        .ok [backupRepositoryResource "dst", globalResource] ∧
      (∃ r ∈ [backupRepositoryResource "dst", globalResource],
        resourcesConflict (stackResource "web") r = true) := by
  have h : normalizeResources "web" [globalResource, backupRepositoryResource "dst"] =
      .ok [backupRepositoryResource "dst", globalResource] := by
    have hcollected : collectRequested (stackPart "web")
        [globalResource, backupRepositoryResource "dst"] =
        .ok [backupRepositoryResource "dst", globalResource, stackResource "web"] := by
      decide +kernel
    rw [normalizeResources_ok hcollected (by simp)]
    exact congrArg Except.ok (List.mergeSort_of_pairwise (by decide +kernel))
  exact ⟨h, ((normalizeResources_exclusion h).1 (stackResource "web")).mp
    (.inr ⟨by decide, resourcesConflict_self _⟩)⟩

end Stacklab.Jobs
