import Stacklab.Maintenance.Prune

/-! A prune removes volumes that were free before it exactly when no volume hangs on stopped
containers that the same prune removes first. -/
namespace Stacklab.Maintenance

open Lib Stacks Prog CommandResult

variable {Allowed : Cmd → Out → World → Prop} {I : World → Prop} {w : World} {d : Docker}
  {ids : List String} {query : VolumesQuery} {name : String} {α : Type} {item : VolumeItem}
  {items : List VolumeItem} {gone : Prop} {kind : PruneKind} {step : PruneAction}
  {scope : PruneScope}

/-- What `Volumes` answers about a Docker state. -/
def inventory (query : VolumesQuery) (d : Docker) : List VolumeItem :=
  volumeItems query d.rows d.volumes d.containers

/-- Some command is allowed to fail. -/
def Fails (Allowed : Cmd → Out → World → Prop) : Prop :=
  ∃ c o w, Allowed c o w ∧ o.failure ≠ none

/-- The answer is the value, or an error because a command failed. -/
def Answers {α : Type} (Allowed : Cmd → Out → World → Prop) (r : Except String α) (value : α) :
    Prop :=
  r = .ok value ∨ (∃ err, r = .error err) ∧ Fails Allowed

theorem answers_answer {c : Cmd} {o : Out} (value : α) (ho : Allowed c o w) :
    Answers Allowed (o.answer value) value := by
  cases hf : o.failure with
  | none => exact .inl (by simp [Out.answer, hf])
  | some err => exact .inr ⟨⟨err, by simp [Out.answer, hf]⟩, c, o, w, ho, by simp [hf]⟩

theorem wp_query {β : Type} {value : α} {p : DockerProg (Except String α)}
    {k : Except String α → DockerProg β} {Q : β → World → Prop}
    (hp : Wp dockerMachine Allowed I p (fun r w' => w = w' ∧ Answers Allowed r value) w)
    (hok : Wp dockerMachine Allowed I (k (.ok value)) Q w)
    (herr : ∀ err, Fails Allowed → Wp dockerMachine Allowed I (k (.error err)) Q w) :
    Wp dockerMachine Allowed I (p >>= k) Q w := by
  refine wp_bind (hp.post ?_)
  rintro _ _ - ⟨rfl, rfl | ⟨⟨err, rfl⟩, hf⟩⟩
  · exact hok
  · exact herr err hf

theorem wp_inspectAllContainers (hI : I w) :
    Wp dockerMachine Allowed I inspectAllContainers (fun r w' => w = w' ∧
      Answers Allowed r w.docker.containers) w := by
  refine wp_query (wp_issue hI fun o ho => ⟨hI, rfl, answers_answer _ ho⟩) ?_
    fun _ hf => wp_pure hI ⟨rfl, .inr ⟨⟨_, rfl⟩, hf⟩⟩
  cases hc : w.docker.containers.map (·.id) with
  | nil => exact wp_pure hI ⟨rfl, .inl (by simpa using hc.symm)⟩
  | cons id rest =>
    have hall : w.docker.containers.filter (·.id ∈ id :: rest) = w.docker.containers := by
      rw [← hc, List.filter_eq_self]
      intro c hmem
      simpa using ⟨c, hmem, rfl⟩
    refine wp_query (wp_issue hI fun o ho => ⟨hI, rfl, answers_answer _ ho⟩)
      (wp_pure hI ⟨rfl, .inl ?_⟩) fun _ hf => wp_pure hI ⟨rfl, .inr ⟨⟨_, rfl⟩, hf⟩⟩
    rw [hall]

theorem wp_volumes (hI : I w) :
    Wp dockerMachine Allowed I (volumes query) (fun r w' => w = w' ∧
      Answers Allowed r (inventory query w.docker)) w := by
  refine wp_query (wp_issue hI fun o ho => ⟨hI, rfl, answers_answer _ ho⟩) ?_
    fun _ hf => wp_pure hI ⟨rfl, .inr ⟨⟨_, rfl⟩, hf⟩⟩
  cases hr : w.docker.rows with
  | nil => exact wp_pure hI ⟨rfl, .inl (by simp [inventory, hr, volumeItems])⟩
  | cons row rest =>
    have hall : w.docker.volumes.filter (·.name ∈ uniqueVolumeNames (row :: rest)) =
        w.docker.volumes := by
      rw [← hr, List.filter_eq_self]
      intro v hmem
      rw [decide_eq_true_iff, uniqueVolumeNames, List.mem_eraseDups, Docker.rows, List.map_map]
      exact List.mem_map_of_mem hmem
    refine wp_query (wp_issue hI fun o ho => ⟨hI, rfl, answers_answer _ ho⟩)
      (wp_query (wp_inspectAllContainers hI) (wp_pure hI ⟨rfl, .inl ?_⟩) ?_) ?_
    · rw [hall, inventory, hr]
    all_goals exact fun _ hf => wp_pure hI ⟨rfl, .inr ⟨⟨_, rfl⟩, hf⟩⟩

theorem mem_inventory :
    name ∈ (inventory (unusedExternal ids) d).map (·.name) ↔
      ∃ v ∈ d.volumes, v.name = name ∧ (∀ c ∈ d.containers, ¬c.Mounts name) ∧
        labelsToStackUsage v.labels ids = [] := by
  have hrow : ∀ v ∈ d.volumes, volumeItem (unusedExternal ids) (inspectedByName d.volumes)
      (objectUsage ids d.containers) ⟨v.name, v.driver⟩ ≠ none ↔
        (∀ c ∈ d.containers, ¬c.Mounts v.name) ∧ labelsToStackUsage v.labels ids = [] :=
    fun v hv => volumeItem_unusedExternal (d.named v hv) (lookup_inspectedByName d.distinct hv)
  simp only [inventory, volumeItems, Docker.rows, List.mem_map, List.mem_mergeSort, List.mem_filterMap]
  constructor
  · rintro ⟨item, ⟨_, ⟨v, hv, rfl⟩, hi⟩, rfl⟩
    have hn := volumeItem_name hi
    have hsome := (hrow v hv).mp (by simpa [unusedExternal] using hi ▸ Option.some_ne_none item)
    exact ⟨v, hv, hn.symm, hn ▸ hsome⟩
  · rintro ⟨v, hv, rfl, hfree⟩
    obtain ⟨item, hi⟩ := Option.ne_none_iff_exists'.mp ((hrow v hv).mpr hfree)
    exact ⟨item, ⟨_, ⟨v, hv, rfl⟩, hi⟩, volumeItem_name hi⟩

theorem nodup_inventory : ((inventory query d).map (·.name)).Nodup := by
  have hp : ((inventory query d).map (·.name)).Perm _ :=
    (List.mergeSort_perm _ itemLE).map VolumeItem.name
  have hs := @map_name_filterMap d.rows _
    fun _ _ => @volumeItem_name (inspectedByName d.volumes) _ query
      (objectUsage query.managedStackIDs d.containers) _
  refine hp.nodup_iff.mpr (List.Nodup.sublist hs ?_)
  rw [Docker.rows, List.map_map]
  exact d.distinct

/-- Docker would remove every item: the volumes exist, are different and not mounted. -/
structure Removable (d : Docker) (items : List VolumeItem) : Prop where
  distinct : (items.map (·.name)).Nodup
  present : ∀ item ∈ items, ∃ v ∈ d.volumes, v.name = item.name
  free : ∀ item ∈ items, ∀ c ∈ d.containers, ¬c.Mounts item.name

theorem removable_inventory : Removable d (inventory (unusedExternal ids) d) where
  distinct := nodup_inventory
  present := by
    intro item hi
    obtain ⟨v, hv, hn, -⟩ := mem_inventory.mp (List.mem_map_of_mem hi)
    exact ⟨v, hv, hn⟩
  free := by
    intro item hi
    obtain ⟨-, -, -, hfree, -⟩ := mem_inventory.mp (List.mem_map_of_mem hi)
    exact hfree

theorem Removable.tail (h : Removable d (item :: items)) : Removable (d.rm item.name) items where
  distinct := (List.nodup_cons.mp h.distinct).2
  present := by
    intro other ho
    obtain ⟨v, hv, hn⟩ := h.present other (List.mem_cons_of_mem _ ho)
    have hne : v.name ≠ item.name := by
      intro he
      have hmem := List.mem_map_of_mem ho (f := VolumeItem.name)
      rw [← hn, he] at hmem
      exact (List.nodup_cons.mp h.distinct).1 hmem
    exact ⟨v, List.mem_filter.mpr ⟨hv, by simpa using hne⟩, hn⟩
  free := fun other ho => h.free other (List.mem_cons_of_mem _ ho)

theorem Removable.rmError (h : Removable d (item :: items)) : volumeRmError d item.name = none := by
  obtain ⟨v, hv, hn⟩ := h.present item List.mem_cons_self
  have hused : ¬∃ c ∈ d.containers, c.Mounts item.name := by
    rintro ⟨c, hc, hm⟩
    exact h.free item List.mem_cons_self c hc hm
  rw [volumeRmError, if_neg (fun hall => hall v hv hn), if_neg hused]

/-- What a command that changes the world leaves behind. -/
theorem changed_or_failed {c : Cmd} {o : Out} {w' : World} {x : CommandResult × World}
    (ho : Allowed c o w) (hx : x = match o.failure with
      | some err => (⟨o.output, some err⟩, w)
      | none => (⟨o.output, none⟩, w')) :
    (text x.1).2 = none ∧ x.2 = w' ∨ (text x.1).2 ≠ none ∧ x.2 = w ∧ Fails Allowed := by
  cases hf : o.failure with
  | none => exact .inl (by simp [hx, hf, text])
  | some err => exact .inr ⟨by simp [hx, hf, text], by simp [hx, hf], c, o, w, ho, by simp [hf]⟩

/-- The removal loop keeps what every single removal keeps, and removes every item unless a
command fails. -/
theorem wp_removeVolumes (items : List VolumeItem) (outputs : List String)
    (hrm : ∀ item ∈ items, ∀ w, I w → I (w.rm item.name)) (hI : I w)
    (hr : Removable w.docker items) :
    Wp dockerMachine Allowed I (removeVolumes items outputs) (fun _ w' =>
      w.removed ⊆ w'.removed ∧
        ((∀ item ∈ items, item.name ∈ w'.removed) ∨ Fails Allowed)) w := by
  induction items generalizing outputs w with
  | nil => exact wp_pure hI ⟨fun _ h => h, .inl (by simp)⟩
  | cons item items ih =>
    refine wp_issue_bind (fun r w' => (text r).2 = none ∧ w' = w.rm item.name ∨
      (text r).2 ≠ none ∧ w' = w ∧ Fails Allowed) hI (fun o ho => changed_or_failed ho ?_) ?_
    · simp only [dockerMachine, hr.rmError, Option.or_none]
      rfl
    · rintro r w' (⟨ht, rfl⟩ | ⟨ht, rfl, hf⟩)
      · rcases hr' : text r with ⟨trimmed, _ | err⟩
        · simp only
          have hI' := hrm item List.mem_cons_self w hI
          refine (ih _ (fun i hi => hrm i (List.mem_cons_of_mem _ hi)) hI' hr.tail).post ?_
          rintro - w' - ⟨hsub, hall⟩
          have hmem : item.name ∈ w'.removed := hsub List.mem_cons_self
          refine ⟨fun n hn => hsub (List.mem_cons_of_mem _ hn), ?_⟩
          exact hall.imp_left fun h => List.forall_mem_cons.mpr ⟨hmem, h⟩
        · simp [hr'] at ht
      · rcases hr' : text r with ⟨trimmed, _ | err⟩
        · simp [hr'] at ht
        · simp only
          exact wp_pure hI ⟨fun _ h => h, .inr hf⟩

theorem wp_pruneExternalVolumes (hI : I w)
    (hrm : ∀ item ∈ inventory (unusedExternal ids) w.docker, ∀ w, I w → I (w.rm item.name)) :
    Wp dockerMachine Allowed I (pruneExternalVolumes ids) (fun _ w' =>
      (∀ item ∈ inventory (unusedExternal ids) w.docker, item.name ∈ w'.removed) ∨
        Fails Allowed) w := by
  refine wp_query (wp_volumes hI) ?_ fun _ hf => wp_pure hI (.inr hf)
  cases hi : inventory (unusedExternal ids) w.docker with
  | nil => exact wp_pure hI (.inl (by simp))
  | cons item items =>
    rw [hi] at hrm
    exact (wp_removeVolumes _ _ hrm hI (hi ▸ removable_inventory)).post fun _ _ _ h => h.2

theorem mem_firstByName {seen : List String} :
    name ∈ (firstByName seen items).map (·.name) ↔ name ∈ items.map (·.name) ∧ name ∉ seen := by
  induction items generalizing seen with
  | nil => simp [firstByName]
  | cons item items ih =>
    rw [firstByName]
    split
    next hs =>
      rw [ih, List.map_cons, List.mem_cons]
      constructor
      · exact fun h => ⟨.inr h.1, h.2⟩
      · rintro ⟨rfl | h, hn⟩
        · exact absurd hs hn
        · exact ⟨h, hn⟩
    next hs =>
      rw [List.map_cons, List.mem_cons, ih, List.map_cons, List.mem_cons, List.mem_cons]
      by_cases hn : name = item.name
      · simp [hn, hs]
      · simp [hn]

theorem mem_buildVolumePrunePreview {fallback : ℤ} :
    name ∈ (buildVolumePrunePreview items fallback).items.map (·.reference) ↔
      name ∈ items.map (·.name) := by
  have h := @mem_firstByName name items []
  simp only [List.not_mem_nil, not_false_iff, and_true] at h
  rw [← h, buildVolumePrunePreview]
  simp only [List.mem_map, List.mem_mergeSort, exists_exists_and_eq_and]

theorem wp_prunePreview (hI : I w) :
    Wp dockerMachine Allowed I (prunePreview ids) (fun r _ =>
      (∃ fallback, r = .ok (buildVolumePrunePreview (inventory (unusedExternal ids) w.docker)
        fallback)) ∨ (∃ err, r = .error err) ∧ Fails Allowed) w := by
  refine wp_issue_bind (fun r w' => w = w' ∧ ∃ total, Answers Allowed r total) hI
    (fun o ho => ⟨rfl, o.reclaimable, answers_answer _ ho⟩) ?_
  rintro _ _ ⟨rfl, total, rfl | ⟨⟨err, rfl⟩, hf⟩⟩
  · exact wp_query (wp_volumes hI) (wp_pure hI (.inl ⟨total, rfl⟩))
      fun _ hf => wp_pure hI (.inr ⟨⟨_, rfl⟩, hf⟩)
  · exact wp_pure hI (.inr ⟨⟨_, rfl⟩, hf⟩)

/-- Some preview of the state reports the volume. -/
def PreviewReports (d : Docker) (ids : List String) (name : String) : Prop :=
  ∃ outs preview w', (prunePreview ids).run dockerMachine outs ⟨d, []⟩ = (.ret (.ok preview), w') ∧
    name ∈ preview.items.map (·.reference)

def Succeeds (_ : Cmd) (o : Out) (_ : World) : Prop := o.failure = none

theorem not_fails_succeeds : ¬Fails Succeeds := by
  rintro ⟨c, o, w, ho, hf⟩
  exact hf ho

theorem previewReports_iff :
    PreviewReports d ids name ↔ name ∈ (inventory (unusedExternal ids) d).map (·.name) := by
  constructor
  · rintro ⟨outs, preview, w', hrun, hmem⟩
    rcases Ensures.returned (wp_prunePreview trivial) hrun with ⟨total, hr⟩ | ⟨⟨err, hr⟩, -⟩
    · cases hr
      exact mem_buildVolumePrunePreview.mp hmem
    · cases hr
  · intro hmem
    have hwp : Wp dockerMachine Succeeds (fun _ => True) (prunePreview ids) _ ⟨d, []⟩ :=
      wp_prunePreview trivial
    obtain ⟨n, r, w', hrun, hr⟩ := hwp.returns ⟨none, "", 0⟩ fun _ _ => rfl
    rcases hr with ⟨total, rfl⟩ | ⟨-, hf⟩
    · exact ⟨_, _, w', hrun, mem_buildVolumePrunePreview.mpr hmem⟩
    · exact absurd hf not_fails_succeeds

/-- The managed stack ids as the stack reader lists them. -/
structure ManagedStacks where
  ids : List String
  valid : ∀ id ∈ ids, isValidStackID id = true

variable {managed : ManagedStacks}

theorem labelsToStackUsage_eq_nil {labels : GoMap String String} :
    labelsToStackUsage labels managed.ids = [] ↔
      trimSpace (label labels composeProject) ∉ managed.ids := by
  rw [labelsToStackUsage]
  split
  next he =>
    rw [he]
    exact ⟨fun _ hm => ne_empty_of_valid (managed.valid _ hm) rfl, fun _ => rfl⟩
  · split <;> simp_all

/-- No container mounts the volume and it carries no managed stack's compose project. -/
def Free (d : Docker) (ids : List String) (name : String) : Prop :=
  (∀ c ∈ d.containers, ¬c.Mounts name) ∧
    ∀ v ∈ d.volumes, v.name = name → label v.labels composeProject ∉ ids

theorem free_of_inventory
    (h : name ∈ (inventory (unusedExternal managed.ids) d).map (·.name)) :
    Free d managed.ids name := by
  obtain ⟨v, hv, rfl, hfree, hl⟩ := mem_inventory.mp h
  refine ⟨hfree, ?_⟩
  intro u hu hn hm
  have huv : u = v := List.inj_on_of_nodup_map d.distinct hu hv hn
  subst huv
  have htrim := trimSpace_of_valid (managed.valid _ hm)
  exact labelsToStackUsage_eq_nil.mp hl (by rwa [htrim])

/-- Some volume outside the managed stacks is mounted, but only by stopped containers. -/
def Stranded (d : Docker) (ids : List String) : Prop :=
  ∃ v ∈ d.volumes, (∃ c ∈ d.containers, c.Mounts v.name) ∧
    (∀ c ∈ d.containers, c.Mounts v.name → c.running = false) ∧
    trimSpace (label v.labels composeProject) ∉ ids

/-- Whatever fails, the volumes removed were free before and in the preview. -/
def RemovesOnlyFree {α : Type} (p : DockerProg α) (d : Docker) (ids : List String) : Prop :=
  ∀ outs, ∀ name ∈ (p.run dockerMachine outs ⟨d, []⟩).2.removed,
    Free d ids name ∧ PreviewReports d ids name

/-- Where a prune has come: running containers are all there, stopped ones too unless the
prune removes them, and only free volumes are gone. -/
structure Pruning (d : Docker) (ids : List String) (gone : Prop) (w : World) : Prop where
  containers : ∀ c ∈ d.containers, (gone → c.running = true) → c ∈ w.docker.containers
  volumes : ∀ v ∈ w.docker.volumes, v ∈ d.volumes
  removed : ∀ name ∈ w.removed, Free d ids name ∧ PreviewReports d ids name

theorem pruning_start : Pruning d ids gone ⟨d, []⟩ where
  containers := fun _ hc _ => hc
  volumes := fun _ hv => hv
  removed := by simp

/-- What the filter lists later in the prune it already lists at the start. -/
theorem Pruning.inventory_mono (h : Pruning d managed.ids gone w)
    (hs : ¬(gone ∧ Stranded d managed.ids))
    (hn : name ∈ (inventory (unusedExternal managed.ids) w.docker).map (·.name)) :
    name ∈ (inventory (unusedExternal managed.ids) d).map (·.name) := by
  obtain ⟨v, hv, rfl, hfree, hl⟩ := mem_inventory.mp hn
  refine mem_inventory.mpr ⟨v, h.volumes v hv, rfl, ?_, hl⟩
  intro c hc hm
  have hstopped : ∀ c ∈ d.containers, c.Mounts v.name → gone ∧ c.running = false := by
    intro c hc hm
    by_contra hnot
    have hkept := h.containers c hc fun hg => by simpa [hg] using hnot
    exact hfree c hkept hm
  exact hs ⟨(hstopped c hc hm).1, v, h.volumes v hv, ⟨c, hc, hm⟩,
    fun c hc hm => (hstopped c hc hm).2, labelsToStackUsage_eq_nil.mp hl⟩

theorem Pruning.rm (h : Pruning d managed.ids gone w)
    (hn : name ∈ (inventory (unusedExternal managed.ids) d).map (·.name)) :
    Pruning d managed.ids gone (w.rm name) where
  containers := h.containers
  volumes := fun v hv => h.volumes v (List.mem_of_mem_filter hv)
  removed := List.forall_mem_cons.mpr
    ⟨⟨free_of_inventory hn, previewReports_iff.mpr hn⟩, h.removed⟩

theorem Pruning.prune (h : Pruning d managed.ids gone w)
    (hg : kind = .container ∨ kind = .system → gone) :
    Pruning d managed.ids gone { w with docker := w.docker.prune kind } where
  containers := by
    intro c hc hrun
    have hmem := h.containers c hc hrun
    cases kind with
    | image => exact hmem
    | builder => exact hmem
    | container => exact List.mem_filter.mpr ⟨hmem, hrun (hg (by simp))⟩
    | system => exact List.mem_filter.mpr ⟨hmem, hrun (hg (by simp))⟩
  volumes := by cases kind <;> exact h.volumes
  removed := h.removed

theorem wp_runPrune (hI : I w) (hp : I { w with docker := w.docker.prune kind }) :
    Wp dockerMachine Allowed I (runPrune kind) (fun r w' =>
      r.2 = none ∧ w' = { w with docker := w.docker.prune kind } ∨
        r.2 ≠ none ∧ w' = w ∧ Fails Allowed) w := by
  refine wp_issue_bind (fun r w' => (text r).2 = none ∧
    w' = { w with docker := w.docker.prune kind } ∨
      (text r).2 ≠ none ∧ w' = w ∧ Fails Allowed) hI (fun o ho => changed_or_failed ho rfl) ?_
  rintro r w' (⟨ht, rfl⟩ | ⟨ht, rfl, hf⟩)
  · exact wp_pure hp (.inl ⟨ht, rfl⟩)
  · exact wp_pure hI (.inr ⟨ht, rfl, hf⟩)

theorem wp_pruneExternalVolumes_safe (h : Pruning d managed.ids gone w)
    (hs : ¬(gone ∧ Stranded d managed.ids)) :
    Wp dockerMachine Allowed (Pruning d managed.ids gone)
      (pruneExternalVolumes managed.ids) (fun _ _ => True) w := by
  refine (wp_pruneExternalVolumes h ?_).post fun _ _ _ _ => trivial
  intro item hi w' hw'
  exact hw'.rm (h.inventory_mono hs (List.mem_map_of_mem hi))

theorem wp_runPruneStep_safe (hc : step = .stoppedContainers → gone)
    (hv : step = .volumes → ¬(gone ∧ Stranded d managed.ids)) (h : Pruning d managed.ids gone w) :
    Wp dockerMachine Allowed (Pruning d managed.ids gone) (runPruneStep managed.ids step)
      (fun _ _ => True) w := by
  have hplain : ∀ kind, (kind = .container ∨ kind = .system → gone) →
      Wp dockerMachine Allowed (Pruning d managed.ids gone) (runPrune kind)
        (fun _ _ => True) w :=
    fun kind hk => (wp_runPrune h (h.prune hk)).post fun _ _ _ _ => trivial
  cases step with
  | images => exact hplain _ (by simp)
  | buildCache => exact hplain _ (by simp)
  | stoppedContainers => exact hplain _ fun _ => hc rfl
  | volumes => exact wp_pruneExternalVolumes_safe h (hv rfl)
  | other name => exact wp_pure h trivial

theorem wp_executePrune_safe (steps : List PruneAction) (hc : .stoppedContainers ∈ steps → gone)
    (hv : .volumes ∈ steps → ¬(gone ∧ Stranded d managed.ids)) (h : Pruning d managed.ids gone w) :
    Wp dockerMachine Allowed (Pruning d managed.ids gone) (executePrune managed.ids steps)
      (fun _ _ => True) w := by
  induction steps generalizing w with
  | nil => exact wp_pure h trivial
  | cons step steps ih =>
    have hc' : step = .stoppedContainers → gone := fun he => hc (by simp [he])
    have hv' : step = .volumes → ¬(gone ∧ Stranded d managed.ids) := fun he => hv (by simp [he])
    refine wp_bind ((wp_runPruneStep_safe hc' hv' h).post ?_)
    rintro ⟨output, _ | runErr⟩ w' hw' -
    · refine wp_issue_bind (fun _ w'' => w' = w'') hw' (fun _ _ => rfl) ?_
      rintro (_ | updateErr) _ rfl
      · exact ih (fun hm => hc (List.mem_cons_of_mem _ hm))
          (fun hm => hv (List.mem_cons_of_mem _ hm)) hw'
      · exact wp_pure hw' trivial
    · exact wp_pure hw' trivial

/-- The Docker state after a step that leaves the volumes alone. -/
def afterStep (d : Docker) : PruneAction → Docker
  | .stoppedContainers => d.prune .container
  | _ => d

theorem wp_runPruneStep_plain (hs : step ∈ [.images, .buildCache, .stoppedContainers]) :
    Wp dockerMachine Allowed (fun _ => True) (runPruneStep ids step) (fun r w' =>
      r.2 = none ∧ w'.docker = afterStep w.docker step ∨ Fails Allowed) w := by
  have hplain : ∀ kind, w.docker.prune kind = afterStep w.docker step →
      Wp dockerMachine Allowed (fun _ => True) (runPrune kind) (fun r w' =>
        r.2 = none ∧ w'.docker = afterStep w.docker step ∨ Fails Allowed) w := by
    intro kind hk
    refine (wp_runPrune trivial trivial).post ?_
    rintro r w' - (⟨hr, rfl⟩ | ⟨-, -, hf⟩)
    · exact .inl ⟨hr, hk⟩
    · exact .inr hf
  simp only [List.mem_cons, List.not_mem_nil, or_false] at hs
  rcases hs with rfl | rfl | rfl
  · exact hplain .image rfl
  · exact hplain .builder rfl
  · exact hplain .container rfl

/-- A job that ends with the volumes step removes all that its last inventory lists. -/
theorem wp_executePrune_removes (steps : List PruneAction)
    (hs : ∀ step ∈ steps, step ∈ [.images, .buildCache, .stoppedContainers]) :
    Wp dockerMachine Allowed (fun _ => True) (executePrune ids (steps ++ [.volumes]))
      (fun _ w' => (∀ item ∈ inventory (unusedExternal ids) (steps.foldl afterStep w.docker),
        item.name ∈ w'.removed) ∨ Fails Allowed) w := by
  induction steps generalizing w with
  | nil =>
    refine wp_bind ((wp_pruneExternalVolumes trivial fun _ _ _ _ => trivial).post ?_)
    rintro ⟨output, _ | runErr⟩ w' - h
    · refine wp_issue_bind (fun _ w'' => w' = w'') trivial (fun _ _ => rfl) ?_
      rintro (_ | updateErr) _ rfl
      · exact wp_pure trivial h
      · exact wp_pure trivial h
    · exact wp_pure trivial h
  | cons step steps ih =>
    obtain ⟨hstep, hrest⟩ := List.forall_mem_cons.mp hs
    refine wp_bind ((wp_runPruneStep_plain hstep).post ?_)
    rintro ⟨output, _ | runErr⟩ w' - h
    · refine wp_issue_bind (fun r w'' => w' = w'' ∧ (r = none ∨ Fails Allowed)) trivial
        (fun o ho => ⟨rfl, ?_⟩) ?_
      · by_cases hf : o.failure = none
        · exact .inl hf
        · exact .inr ⟨_, o, w', ho, hf⟩
      · rintro (_ | updateErr) _ ⟨rfl, hr⟩
        · refine (ih hrest).post ?_
          rintro - w'' - hall
          rcases h with ⟨-, hd⟩ | hf
          · rwa [hd] at hall
          · exact .inr hf
        · exact wp_pure trivial (.inr (hr.resolve_left (by simp)))
    · exact wp_pure trivial (.inr (h.resolve_left (by simp)))

/-- The volume of a stranded state is listed once the stopped containers are gone. -/
theorem Stranded.listed (h : Stranded d managed.ids) :
    ∃ item ∈ inventory (unusedExternal managed.ids) (d.prune .container),
      ¬Free d managed.ids item.name := by
  obtain ⟨v, hv, ⟨c, hc, hm⟩, hstopped, hl⟩ := h
  have hmem : v.name ∈ (inventory (unusedExternal managed.ids) (d.prune .container)).map
      (·.name) := by
    refine mem_inventory.mpr ⟨v, hv, rfl, ?_, labelsToStackUsage_eq_nil.mpr hl⟩
    intro c' hc' hm'
    obtain ⟨hin, hrun⟩ := List.mem_filter.mp hc'
    simp [hstopped c' hin hm'] at hrun
  obtain ⟨item, hi, hn⟩ := List.mem_map.mp hmem
  exact ⟨item, hi, fun hfree => hfree.1 c hc (hn ▸ hm)⟩

theorem removesOnlyFree_of_wp {p : DockerProg α} (gone : Prop)
    (h : Wp dockerMachine (fun _ _ _ => True) (Pruning d ids gone) p (fun _ _ => True)
      ⟨d, []⟩) : RemovesOnlyFree p d ids :=
  fun _ => (h.run meets_true).1.removed

theorem RemovesOnlyFree.free {p : DockerProg α} (h : RemovesOnlyFree p d ids)
    (hp : Wp dockerMachine Succeeds (fun _ => True) p (fun _ w' =>
      (∀ item ∈ items, item.name ∈ w'.removed) ∨ Fails Succeeds) ⟨d, []⟩) :
    ∀ item ∈ items, Free d ids item.name := by
  intro item hi
  obtain ⟨n, r, w', hrun, hall⟩ := hp.returns ⟨none, "", 0⟩ fun _ _ => rfl
  have hmem := hall.resolve_right not_fails_succeeds item hi
  have hfree := h (List.replicate n ⟨none, "", 0⟩) item.name
  rw [hrun] at hfree
  exact (hfree hmem).1

theorem mem_buildPruneWorkflow :
    (.stoppedContainers ∈ buildPruneWorkflow scope → scope.stoppedContainers = true) ∧
      (.volumes ∈ buildPruneWorkflow scope → scope.volumes = true) := by
  rcases scope with ⟨_ | _, _ | _, _ | _, _ | _⟩ <;> decide

/-- With both scopes the workflow prunes the containers and ends with the volumes. -/
theorem buildPruneWorkflow_eq (hc : scope.stoppedContainers = true) (hv : scope.volumes = true) :
    ∃ steps, buildPruneWorkflow scope = steps ++ [.volumes] ∧
      (∀ step ∈ steps, step ∈ [.images, .buildCache, .stoppedContainers]) ∧
      ∀ d, steps.foldl afterStep d = d.prune .container := by
  obtain ⟨images, buildCache, _, _⟩ := scope
  subst hc hv
  refine ⟨_, rfl, ?_, ?_⟩
  · cases images <;> cases buildCache <;> decide
  · cases images <;> cases buildCache <;> exact fun _ => rfl

theorem executePrune_removesOnlyFree_iff :
    RemovesOnlyFree (executePrune managed.ids (buildPruneWorkflow scope)) d managed.ids ↔
      ¬(scope.stoppedContainers = true ∧ scope.volumes = true ∧ Stranded d managed.ids) := by
  constructor
  · rintro h ⟨hc, hv, hs⟩
    obtain ⟨steps, hw, hplain, hafter⟩ := buildPruneWorkflow_eq hc hv
    obtain ⟨item, hi, hnot⟩ := hs.listed
    rw [hw] at h
    refine hnot (h.free (wp_executePrune_removes steps hplain) item ?_)
    rwa [hafter]
  · intro hnot
    obtain ⟨hc, hv⟩ := @mem_buildPruneWorkflow scope
    refine removesOnlyFree_of_wp _ (wp_executePrune_safe _ hc ?_ pruning_start)
    rintro hm ⟨hg, hs⟩
    exact hnot ⟨hg, hv hm, hs⟩

theorem runSystemPrune_removesOnlyFree_iff {includeVolumes : Bool} :
    RemovesOnlyFree (runSystemPrune includeVolumes managed.ids) d managed.ids ↔
      ¬(includeVolumes = true ∧ Stranded d managed.ids) := by
  constructor
  · rintro h ⟨rfl, hs⟩
    obtain ⟨item, hi, hnot⟩ := hs.listed
    have hall : ∀ item ∈ inventory (unusedExternal managed.ids) (d.prune .system),
        Free d managed.ids item.name := h.free ?_
    · exact hnot (hall item hi)
    refine wp_bind ((wp_runPrune trivial trivial).post ?_)
    rintro ⟨output, _ | err⟩ w' - (⟨hr, rfl⟩ | ⟨-, -, hf⟩)
    · refine wp_bind ((wp_pruneExternalVolumes trivial fun _ _ _ _ => trivial).post ?_)
      rintro ⟨volumeOutput, _ | err⟩ w' - hall
      · exact wp_pure trivial hall
      · exact wp_pure trivial hall
    · exact absurd hf not_fails_succeeds
    · cases hr
    · exact absurd hf not_fails_succeeds
  · intro hnot
    have h : Pruning d managed.ids True ⟨d, []⟩ := pruning_start
    refine removesOnlyFree_of_wp True ?_
    refine wp_bind ((wp_runPrune h (h.prune fun _ => trivial)).post ?_)
    rintro ⟨output, _ | err⟩ w' hw' -
    · cases includeVolumes with
      | false => exact wp_pure hw' trivial
      | true =>
        refine wp_bind ((wp_pruneExternalVolumes_safe hw' ?_).post ?_)
        · exact fun hs => hnot ⟨rfl, hs.2⟩
        · rintro ⟨volumeOutput, _ | err⟩ w'' hw'' -
          · exact wp_pure hw'' trivial
          · exact wp_pure hw'' trivial
    · exact wp_pure hw' trivial

/-- A prune removes only volumes that were free before it unless it removes the stopped
containers first, prunes volumes, and some unmanaged volume hangs on stopped containers. -/
theorem prune_removes_only_free_iff (d : Docker) (managed : ManagedStacks) :
    (∀ scope, RemovesOnlyFree (executePrune managed.ids (buildPruneWorkflow scope)) d
        managed.ids ↔
      ¬(scope.stoppedContainers = true ∧ scope.volumes = true ∧ Stranded d managed.ids)) ∧
    ∀ includeVolumes, RemovesOnlyFree (runSystemPrune includeVolumes managed.ids) d
        managed.ids ↔
      ¬(includeVolumes = true ∧ Stranded d managed.ids) :=
  ⟨fun _ => executePrune_removesOnlyFree_iff, fun _ => runSystemPrune_removesOnlyFree_iff⟩

/-- One stopped container that mounts the volume `data`, which belongs to no stack. -/
def stoppedDatabase : Docker where
  containers := [⟨"db", false, ∅, [⟨.volume, "data"⟩]⟩]
  volumes := [⟨"data", "local", "/var/lib/docker/volumes/data", "local", 0, ∅, ∅⟩]
  named := by decide
  distinct := by decide

/-- Pruning the containers and then the volumes removes the volume, though the stopped
container mounted it and the preview did not list it. -/
theorem prune_removes_mounted_volume :
    ¬RemovesOnlyFree (executePrune [] (buildPruneWorkflow ⟨false, false, true, true⟩))
      stoppedDatabase [] ∧
    inventory (unusedExternal []) stoppedDatabase = [] := by
  refine ⟨?_, by decide +kernel⟩
  intro h
  have hmem : "data" ∈ ((executePrune [] (buildPruneWorkflow ⟨false, false, true, true⟩)).run
      dockerMachine (List.replicate 8 ⟨none, "", 0⟩) ⟨stoppedDatabase, []⟩).2.removed := by
    decide +kernel
  obtain ⟨hmounts, -⟩ := (h _ _ hmem).1
  exact hmounts _ List.mem_cons_self ⟨_, List.mem_cons_self, rfl, rfl⟩

end Stacklab.Maintenance
