import Stacklab.Backup.ConfigCalls
import Stacklab.Backup.LeaseSafety

/-! What the configuration calls leave when they fail. -/
namespace Stacklab.Backup

open Lib GoMap
open Jobs LeaseWorld ConfigWorld

variable {checks : Checks} {env : CallEnv} {w w' : ConfigWorld} {id : String}
  {V : Type} {m m' : GoMap String V} {pick : String → Bool}

theorem lookup_putBack {entries : List (Sigma fun _ : String => V)}
    (h : ∀ e ∈ entries, m.lookup e.1 = some e.2) (k : String) :
    (putBack entries m').lookup k =
      if ∃ e ∈ entries, e.1 = k then m.lookup k else m'.lookup k := by
  induction entries generalizing m' with
  | nil => simp [putBack]
  | cons e rest ih =>
    have hrest : ∀ x ∈ rest, m.lookup x.1 = some x.2 := fun x hx => h x (List.mem_cons_of_mem _ hx)
    change (putBack rest (m'.insert e.1 e.2)).lookup k = _
    rw [ih hrest, lookup_insert]
    by_cases hr : ∃ x ∈ rest, x.1 = k
    · rw [if_pos hr, if_pos]
      obtain ⟨x, hx, hk⟩ := hr
      exact ⟨x, List.mem_cons_of_mem _ hx, hk⟩
    · rw [if_neg hr]
      by_cases hk : k = e.1
      · subst hk
        rw [if_pos rfl, if_pos ⟨e, List.mem_cons_self, rfl⟩]
        exact (h e List.mem_cons_self).symm
      · rw [if_neg hk, if_neg]
        rintro ⟨x, hx, rfl⟩
        rcases List.mem_cons.mp hx with rfl | hx
        · exact hk rfl
        · exact hr ⟨x, hx, rfl⟩

/-- Deleting the entries that a predicate picks and putting them back restores the map. -/
theorem lookup_restored (k : String) :
    (putBack (picked pick m) (m.eraseWhere pick)).lookup k = m.lookup k := by
  rw [lookup_putBack (m := m)]
  · split
    · rfl
    next hnone =>
      cases hk : pick k with
      | false => exact lookup_eraseWhere_of_not hk
      | true =>
        rw [lookup_eraseWhere_of hk]
        cases hm : m.lookup k with
        | none => rfl
        | some v =>
          refine absurd ⟨⟨k, v⟩, ?_, rfl⟩ hnone
          exact List.mem_filter.mpr ⟨lookup_eq_some_iff.mp hm, hk⟩
  · intro e he
    exact lookup_eq_some_iff.mpr (List.mem_of_mem_filter he)

@[simp] theorem lookup_undo (previous : Option V) (key k : String) :
    (undo previous key m).lookup k = if k = key then previous else m.lookup k := by
  cases previous with
  | some old => exact lookup_insert _ _ _ _
  | none => exact lookup_erase _ _ _

theorem Unchanged.refl (env : CallEnv) (w : ConfigWorld) : Unchanged env w w :=
  ⟨fun _ => rfl, fun _ => rfl, fun _ => rfl, fun _ => rfl, fun _ => rfl, fun _ => rfl,
    fun _ => rfl, fun _ _ => rfl⟩

/-- Every run stands under its own id. -/
def Keyed (runs : GoMap String PersistedRun) : Prop :=
  ∀ id p, runs.lookup id = some p → p.run.id = id

/-- Some runs, all of them expired, are gone. -/
def Pruned (env : CallEnv) (runs runs' : GoMap String PersistedRun) : Prop :=
  ∀ id, runs'.lookup id = runs.lookup id ∨
    (runs'.lookup id = none ∧ ∀ p, runs.lookup id = some p → ConfigWorld.expiredRun env p = true)

theorem pruned_refl (runs : GoMap String PersistedRun) : Pruned env runs runs := fun _ => .inl rfl

theorem pruneMetadataLocked_spec (hkeyed : Keyed w.lease.runs) :
    ∃ runs, pruneMetadataLocked env w = w.setRuns runs ∧
      Pruned env w.lease.runs runs := by
  refine ⟨_, rfl, fun id => ?_⟩
  generalize hdropped : (((((env.order.order 0 (w.lease.runs.entries.map Sigma.snd)).filter
    (expiredRun env)).mergeSort fun a b => b.run.createdAt ≤ a.run.createdAt).drop
    200).map fun p => p.run.id).filter env.removable = dropped
  cases hid : dropped.contains id with
  | false => exact .inl (lookup_eraseWhere_of_not hid)
  | true =>
    refine .inr ⟨lookup_eraseWhere_of hid, fun p hp => ?_⟩
    have hmem : id ∈ dropped := by simpa using hid
    rw [← hdropped] at hmem
    obtain ⟨q, hq, hqid⟩ := List.mem_map.mp (List.mem_of_mem_filter hmem)
    have hsorted := List.mem_of_mem_drop hq
    rw [List.mem_mergeSort] at hsorted
    obtain ⟨hstored, hexpired⟩ := List.mem_filter.mp hsorted
    obtain ⟨e, he, rfl⟩ := List.mem_map.mp (env.order.mem_order.mp hstored)
    have hlookup := lookup_eq_some_iff.mpr he
    have hkey : e.1 = id := (hkeyed e.1 e.2 hlookup).symm.trans hqid
    rw [hkey, hp] at hlookup
    cases hlookup
    exact hexpired

theorem persist_eq {err : Option CallError} (h : persist env w = (err, w'))
    (hkeyed : Keyed w.lease.runs) :
    ∃ runs, w' = w.setRuns runs ∧ Pruned env w.lease.runs runs := by
  unfold persist at h
  split at h
  · cases h
    exact ⟨w.lease.runs, rfl, pruned_refl _⟩
  · cases h
    exact pruneMetadataLocked_spec hkeyed

theorem persist_ok_iff :
    (persist env w).1 = none ↔ w.initErr = none ∧ env.persistErr = none := by
  unfold persist
  cases w.initErr with
  | some err => simp
  | none => simp

theorem liveRun_pruned {runs : GoMap String PersistedRun} (h : Pruned env w.lease.runs runs) :
    ∀ id, liveRun env (w.setRuns runs) id = liveRun env w id := by
  intro id
  change (runs.lookup id).filter _ = (w.lease.runs.lookup id).filter _
  rcases h id with hsame | ⟨hgone, hexpired⟩
  · rw [hsame]
  · rw [hgone]
    cases hp : w.lease.runs.lookup id with
    | none => rfl
    | some p => simp [Option.filter, hexpired p hp]

theorem refuse_ok {refusals : List (Bool × CallError)} (h : refuse refusals = .ok ()) :
    ∀ r ∈ refusals, r.1 = false := by
  unfold refuse at h
  split at h
  · cases h
  next hnone =>
    intro r hr
    exact Bool.eq_false_of_not_eq_true (List.find?_eq_none.mp hnone r hr)

/-- The record is stored under the id of the call, or under a new one. -/
theorem prepareDestination_ok {request : DestinationRequest}
    {p : ConfigWorld.PreparedDestination}
    (h : w.prepareDestination checks env id request = .ok p) :
    p.id = (if id = "" then env.newID else id) ∧
      (id = "" ∨ (w.lease.destinations.lookup id).isSome) ∧ w.initErr = none := by
  unfold prepareDestination at h
  obtain ⟨r, -, h⟩ := exists_of_bind_ok h
  obtain ⟨r, -, h⟩ := exists_of_bind_ok h
  obtain ⟨_, hchecked, h⟩ := exists_of_bind_ok h
  obtain ⟨secrets, -, h⟩ := exists_of_bind_ok h
  cases h
  have hall := refuse_ok hchecked
  have hinit := hall (w.initErr.isSome, _) List.mem_cons_self
  have hknown := hall (decide (id ≠ "") && !(w.lease.destinations.lookup id).isSome, .notFound)
    (by simp [destinationRefusals])
  refine ⟨rfl, ?_, by simpa using hinit⟩
  by_cases hid : id = ""
  · exact .inl hid
  · exact .inr (by simpa [hid] using hknown)

theorem preparePlan_ok {plan plan' : Plan} (h : w.preparePlan checks env id plan = .ok plan') :
    plan'.id = (if id = "" then env.newID else id) ∧
      (id = "" ∨ (w.lease.plans.lookup id).isSome) := by
  unfold preparePlan at h
  obtain ⟨r, -, h⟩ := exists_of_bind_ok h
  obtain ⟨_, hchecked, h⟩ := exists_of_bind_ok h
  cases h
  have hknown := refuse_ok hchecked
    (decide (id ≠ "") && (w.lease.plans.lookup id).isNone, .notFound)
    (by simp [ConfigWorld.planRefusals])
  refine ⟨rfl, ?_⟩
  by_cases hid : id = ""
  · exact .inl hid
  · refine .inr (Option.isSome_iff_ne_none.mpr fun hnone => ?_)
    simp [hid, hnone] at hknown

/-- Ids that the service draws are not empty and not in use. -/
structure NewIDs (env : CallEnv) (w : ConfigWorld) : Prop where
  destination : w.lease.destinations.lookup env.newID = none
  plan : w.lease.plans.lookup env.newID = none
  run : w.lease.runs.lookup env.newID = none
  noDestination : w.lease.destinations.lookup "" = none
  noPlan : w.lease.plans.lookup "" = none

variable {runs : GoMap String PersistedRun} {record : PersistedRun} {resources : List Resource}
  {request : List String}

/-- Replace an entry and put back what was under the id, or delete the new one. -/
theorem lookup_undone {target : String} {v : V}
    (htarget : target = if id = "" then env.newID else id)
    (hnew : m.lookup env.newID = none) (hempty : m.lookup "" = none) (k : String) :
    (undo (m.lookup id) target (m.insert target v)).lookup k = m.lookup k := by
  have hold : m.lookup target = m.lookup id := by
    by_cases hid : id = ""
    · rw [htarget, if_pos hid, hid, hnew, hempty]
    · rw [htarget, if_neg hid]
  rw [lookup_undo, lookup_insert]
  split
  next hk => rw [hk, hold]
  · rfl

theorem savePlan_unchanged {plan : Plan} (hkeyed : Keyed w.lease.runs) (hnew : NewIDs env w)
    (herr : (w.savePlan checks env id plan).1 ≠ none) :
    Unchanged env w (w.savePlan checks env id plan).2 := by
  unfold ConfigWorld.savePlan at herr ⊢
  split at herr
  · exact .refl env w
  next plan' hprepared =>
    obtain ⟨hid, hknown⟩ := preparePlan_ok hprepared
    split at herr
    · exact absurd rfl herr
    next err saved hpersist =>
      obtain ⟨runs, rfl, hpruned⟩ := persist_eq hpersist hkeyed
      refine ⟨fun _ => rfl, fun k => ?_, fun _ => rfl, fun _ => rfl, fun _ => rfl,
        liveRun_pruned (w := w) hpruned, fun _ => rfl, fun _ _ => rfl⟩
      exact lookup_undone hid hnew.plan hnew.noPlan k

theorem deletePlan_unchanged (hkeyed : Keyed w.lease.runs) (herr : (w.deletePlan env id).1 ≠ none) :
    Unchanged env w (w.deletePlan env id).2 := by
  unfold ConfigWorld.deletePlan at herr ⊢
  by_cases hbusy : w.busy = true
  · rw [if_pos hbusy]
    exact .refl env w
  · rw [if_neg hbusy] at herr ⊢
    split at herr
    · exact .refl env w
    next plan hplan =>
      dsimp only at herr ⊢
      split at herr
      · exact absurd rfl herr
      next err saved hpersist =>
        obtain ⟨runs, rfl, hpruned⟩ := persist_eq hpersist hkeyed
        refine ⟨fun _ => rfl, fun k => ?_, fun k => ?_, fun k => ?_, fun k => ?_,
          liveRun_pruned (w := w) hpruned, fun _ => rfl, fun _ _ => rfl⟩
        · change ((w.lease.plans.erase id).insert id plan).lookup k = _
          rw [lookup_insert, lookup_erase]
          split
          next hk =>
            rw [hk]
            exact hplan.symm
          · rfl
        · exact lookup_restored k
        · exact lookup_restored k
        · exact lookup_restored k

theorem lookup_of_deletable {d : LeasedDestination} (h : deletable w id = .ok d) :
    w.lease.destinations.lookup id = some d := by
  unfold deletable at h
  split at h
  · cases h
  · split at h
    · cases h
    next d' hd' =>
      split at h
      · cases h
      · cases h
        exact hd'

/-- A failed removal of a destination that left the destination in place. -/
theorem deleteDestination_unchanged (hkeyed : Keyed w.lease.runs)
    (herr : (w.deleteDestination env id).1 ≠ none)
    (hremove : ∀ d, deletable w id = .ok d → w.initErr = none → env.persistErr = none →
      env.remove = .removed) :
    Unchanged env w (w.deleteDestination env id).2 := by
  unfold ConfigWorld.deleteDestination at herr ⊢
  split at herr
  · exact .refl env w
  next d hd =>
    dsimp only at herr ⊢
    split at herr
    next err saved hpersist =>
      obtain ⟨runs, rfl, hpruned⟩ := persist_eq hpersist hkeyed
      refine ⟨fun k => ?_, fun _ => rfl, fun k => ?_, fun k => ?_, fun k => ?_,
        liveRun_pruned (w := w) hpruned, fun _ => rfl, fun _ _ => rfl⟩
      · change ((w.lease.destinations.erase id).insert id d).lookup k = _
        rw [lookup_insert, lookup_erase]
        split
        next hk =>
          rw [hk]
          exact (lookup_of_deletable hd).symm
        · rfl
      · exact lookup_restored k
      · exact lookup_restored k
      · exact lookup_restored k
    next saved hpersist =>
      -- the destination is deleted: only a failed removal of its files can return an error
      obtain ⟨hinit, hok⟩ := persist_ok_iff.mp (congrArg Prod.fst hpersist)
      simp [ConfigWorld.removeCredentials, hremove d hd hinit hok] at herr

theorem keyed_insert (hkeyed : Keyed runs) : Keyed (runs.insert record.run.id record) :=
  forall_insert hkeyed rfl

theorem liveRun_undone (h : Pruned env (w.lease.runs.insert record.run.id record) runs)
    (id : String) :
    liveRun env (w.setRuns (undo (w.lease.runs.lookup record.run.id) record.run.id runs)) id =
      liveRun env w id := by
  refine liveRun_pruned (fun k => ?_) id
  rw [lookup_undo]
  split
  next hk =>
    rw [hk]
    exact .inl rfl
  next hk =>
    have hother := h k
    rw [lookup_insert, if_neg hk] at hother
    exact hother

/-- What a job has reserved is released by its id, and nothing else is. -/
theorem lookup_released {digest : String → String → String} {lease : LeaseWorld} {ids : List String}
    {j : String} (hsound : lease.Sound digest)
    (hr : LeaseWorld.Reservable digest lease ids resources) (hfresh : j ∉ lease.issued)
    (key : String) :
    ((lease.repositoryJobs.insertAll j (ids.map (lease.keyOf digest))).eraseWhere fun k =>
      (lease.repositoryJobs.insertAll j (ids.map (lease.keyOf digest))).lookup k = some j).lookup
        key = lease.repositoryJobs.lookup key := by
  by_cases hkey : key ∈ ids.map (lease.keyOf digest)
  · rw [lookup_eraseWhere_of, lookup_of_holder hsound.tables (hr.free key hkey).1]
    rw [decide_eq_true_eq, lookup_insertAll, if_pos hkey]
  · rw [lookup_eraseWhere_of_not, lookup_insertAll, if_neg hkey]
    rw [decide_eq_false_iff_not, lookup_insertAll, if_neg hkey]
    exact hsound.not_holder hfresh key

/-- The run and the reservation of a start that could not be persisted are taken back. -/
theorem storeRun_unchanged {started : ConfigWorld} {copies : List CopyResult} {more : List Resource}
    (hsound : w.lease.Sound checks.digest)
    (hr : LeaseWorld.Reservable checks.digest w.lease (pendingIDs copies) resources)
    (hstarted : startJob env w more = .ok started)
    (herr : (storeRun checks env w started copies record).1 ≠ none) :
    Unchanged env w (storeRun checks env w started copies record).2 := by
  unfold startJob at hstarted
  split at hstarted
  · cases hstarted
  next lease hlease =>
    cases hstarted
    obtain ⟨hfresh, locks, -, rfl⟩ := startWithResources_eq_some hsound.tables hlease
    unfold storeRun at herr ⊢
    dsimp only at herr ⊢
    split at herr
    · exact absurd rfl herr
    next err saved hpersist =>
      obtain ⟨runs, rfl, hpruned⟩ := persist_eq hpersist (keyed_insert hsound.tables.runIDs)
      have hreleased := lookup_released hsound hr hfresh
      exact ⟨fun _ => rfl, fun _ => rfl, fun _ => rfl, fun _ => rfl, fun _ => rfl,
        liveRun_undone hpruned, hreleased, fun _ _ => rfl⟩

theorem startRun_unchanged {planID : String} (hsound : w.lease.Sound checks.digest)
    (herr : (w.startRun checks env planID request).1 ≠ none) :
    Unchanged env w (w.startRun checks env planID request).2 := by
  unfold ConfigWorld.startRun at herr ⊢
  split at herr
  · exact .refl env w
  · exact .refl env w
  next plan hinit hplan =>
    dsimp only at herr ⊢
    split at herr
    next hselected =>
      rw [if_pos hselected]
      exact .refl env w
    next hselected =>
      rw [if_neg hselected]
      split at herr
      · exact .refl env w
      · exact .refl env w
      next resources hpaused hresources =>
        split at herr
        · exact .refl env w
        next started hstarted =>
          obtain ⟨hr, -⟩ := repositoryResourcesLocked_ok hresources
          exact storeRun_unchanged hsound hr hstarted herr

theorem startRetry_unchanged {runID : String} (hsound : w.lease.Sound checks.digest)
    (herr : (w.startRetry checks env runID request).1 ≠ none) :
    Unchanged env w (w.startRetry checks env runID request).2 := by
  unfold ConfigWorld.startRetry at herr ⊢
  split at herr
  · exact .refl env w
  · exact .refl env w
  next stored hinit hstored =>
    dsimp only at herr ⊢
    split at herr
    · exact .refl env w
    next run hrun =>
      split at herr
      · exact .refl env w
      next resources hresources =>
        split at herr
        · exact .refl env w
        next started hstarted =>
          obtain ⟨hr, -⟩ := repositoryResourcesLocked_ok hresources
          exact storeRun_unchanged hsound hr hstarted herr

end Stacklab.Backup
