import Stacklab.Lib.Fallible
import Stacklab.Backup.LeaseLocks

/-! Reads that begin and end, and jobs that start: each takes only what nobody else has. -/
namespace Stacklab.Backup

open Lib GoMap
open Jobs

namespace LeaseWorld

variable {digest : String → String → String} {w w' : LeaseWorld} {j : String}
  {i : ℕ} {stage : LeaseStage}

section Readers

variable {lease : ReadLease} {id : String}

theorem Tables.reads_pos (h : w.Tables digest) (hlease : some lease ∈ w.readers) :
    0 < w.reads lease.key := by
  rw [h.counted, Int.natCast_pos, List.countP_pos_iff]
  exact ⟨some lease, hlease, by simp⟩

/-- No job has the repository of a reader. -/
theorem Tables.no_holder (h : w.Tables digest) (hlease : some lease ∈ w.readers) :
    w.repositoryJobs.lookup (w.keyOf digest lease.destination.id) ≠ some j := by
  intro hholder
  rw [(h.leases lease hlease).2] at hholder
  have hzero := h.exclusive _ _ hholder
  have hpos := h.reads_pos hlease
  omega

theorem lookup_of_holder (h : w.Tables digest) {key : String} (hfree : w.holder key = "") :
    w.repositoryJobs.lookup key = none := by
  cases hlookup : w.repositoryJobs.lookup key with
  | none => rfl
  | some j =>
    simp only [holder, hlookup, Option.getD_some] at hfree
    exact absurd hfree (h.named key j hlookup)

/-- A change of a destination that this job has not reserved. -/
theorem Keeps.setDestination {d : LeasedDestination}
    (hfree : w.repositoryJobs.lookup (w.keyOf digest id) ≠ some j) :
    Keeps digest w (w.setDestination id d) j stage := by
  refine ⟨?_, fun _ => Iff.rfl, fun _ _ => rfl, fun h => h⟩
  intro id' hid'
  rw [lookup_setDestination, if_neg]
  rintro rfl
  exact hfree hid'

theorem InventoryUpdate.apply_id (update : InventoryUpdate) (d : LeasedDestination) :
    (update.apply d).id = d.id := by
  cases update <;> rfl

theorem InventoryUpdate.apply_key (update : InventoryUpdate) (d : LeasedDestination) :
    repositoryKey digest (update.apply d) = repositoryKey digest d := by
  cases update <;> rfl

theorem destination_id (h : w.Tables digest) (hid : (w.destinations.lookup id).isSome) :
    (w.destination id).id = id := by
  obtain ⟨d, hd⟩ := Option.isSome_iff_exists.mp hid
  simp only [destination, hd, Option.getD_some]
  exact (h.ids id d hd).1

theorem Tables.refresh (h : w.Tables digest) (hid : (w.destinations.lookup id).isSome)
    (update : InventoryUpdate) : (w.refresh id update).Tables digest :=
  h.setDestination hid ((InventoryUpdate.apply_id update _).trans (destination_id h hid))
    (InventoryUpdate.apply_key update _)

theorem Sound.readerRefreshes (h : w.Sound digest) (hlease : some lease ∈ w.readers)
    (update : InventoryUpdate) : (w.refresh lease.destination.id update).Sound digest := by
  refine h.quiet (h.tables.refresh (h.tables.leases lease hlease).1 update) ?_
    ⟨rfl, fun _ h => h, fun _ _ h => h⟩
  intro i t _
  exact Keeps.setDestination (h.tables.no_holder hlease)

theorem reads_insert (key key' : String) (n : ℤ) :
    { w with repositoryReads := w.repositoryReads.insert key n }.reads key' =
      if key' = key then n else w.reads key' := by
  simp only [reads, lookup_insert]
  split <;> rfl

theorem Sound.beginRepositoryRead (h : w.Sound digest)
    (hstep : w.beginRepositoryRead digest id = some w') : w'.Sound digest := by
  unfold LeaseWorld.beginRepositoryRead at hstep
  split at hstep
  · cases hstep
  next d hd =>
    dsimp only at hstep
    split at hstep
    · cases hstep
    next hfree =>
      cases hstep
      have hfree := lookup_of_holder h.tables (not_not.mp hfree)
      have hkey : w.keyOf digest id = repositoryKey digest d := by
        simp only [keyOf, destination, hd, Option.getD_some]
      have hid := (h.tables.ids id d hd).1
      refine h.quiet { h.tables with
        exclusive := ?_, counted := ?_, total := ?_, active := ?_, leases := ?_ }
        (fun _ _ _ => .of_eq rfl rfl rfl fun _ h => h) ⟨rfl, fun _ h => h, fun _ _ h => h⟩
      · intro key j hholder
        have hne : key ≠ repositoryKey digest d := by
          rintro rfl
          exact absurd (hfree.symm.trans hholder) (by simp)
        have hreads := h.tables.exclusive key j hholder
        have hsame := reads_insert (w := w) (repositoryKey digest d) key
          (w.reads (repositoryKey digest d) + 1)
        rw [if_neg hne] at hsame
        exact le_of_eq_of_le hsame hreads
      · intro key
        have hreads := reads_insert (w := w) (repositoryKey digest d) key
          (w.reads (repositoryKey digest d) + 1)
        refine Eq.trans hreads ?_
        rw [List.countP_append, Int.natCast_add, ← h.tables.counted key]
        by_cases hkey : key = repositoryKey digest d
        · simp [hkey]
        · simp [hkey, Ne.symm hkey]
      · dsimp only
        rw [total_insert, h.tables.total]
        simp only [reads]
        omega
      · dsimp only
        rw [List.countP_append, Int.natCast_add, ← h.tables.active]
        rfl
      · intro lease hlease
        rcases List.mem_append.mp hlease with hlease | hlease
        · exact h.tables.leases lease hlease
        · cases List.mem_singleton.mp hlease
          refine ⟨?_, ?_⟩
          · dsimp only
            rw [hid, hd]
            rfl
          · change w.keyOf digest d.id = _
            rw [hid]
            exact hkey

theorem reads_lowerReads (key key' : String) :
    ((w.lowerReads key).lookup key').getD 0 =
      if key' = key then w.reads key - 1 else w.reads key' := by
  simp only [lowerReads]
  split
  next hzero =>
    rw [lookup_erase]
    split
    · exact hzero.symm
    · rfl
  · exact reads_insert key key' _

theorem total_lowerReads (key : String) :
    total (w.lowerReads key) = total w.repositoryReads - 1 := by
  simp only [lowerReads]
  split
  next hzero =>
    rw [total_erase]
    simp only [reads] at hzero
    omega
  · rw [total_insert]
    simp only [reads]
    omega

theorem Sound.releaseRead (h : w.Sound digest) {reader : ℕ}
    (hstep : w.releaseRead reader = some w') : w'.Sound digest := by
  unfold LeaseWorld.releaseRead at hstep
  split at hstep
  next lease hlease =>
    cases hstep
    have hmem : some lease ∈ w.readers := List.mem_of_getElem? hlease
    have hlt : reader < w.readers.length := (List.getElem?_eq_some_iff.mp hlease).1
    have hget : w.readers[reader] = some lease := (List.getElem?_eq_some_iff.mp hlease).2
    refine h.quiet { h.tables with
      exclusive := ?_, counted := ?_, total := ?_, active := ?_, leases := ?_ }
      (fun _ _ _ => .of_eq rfl rfl rfl fun _ h => h) ⟨rfl, fun _ h => h, fun _ _ h => h⟩
    · intro key j hholder
      have hold := h.tables.exclusive key j hholder
      refine le_of_eq_of_le (reads_lowerReads lease.key key) ?_
      split
      next heq => rw [heq] at hold; omega
      · exact hold
    · intro key
      refine (reads_lowerReads lease.key key).trans ?_
      have hcount := h.tables.counted key
      have hset := List.countP_set (p := fun r : Option ReadLease => r.any (·.key = key))
        (a := none) hlt
      rw [hget] at hset
      by_cases hkey : key = lease.key
      · have hpos := h.tables.reads_pos hmem
        rw [hkey] at hcount hset ⊢
        simp only [Option.any_some, decide_true, if_true, Option.any_none, Bool.false_eq_true,
          if_false] at hset
        rw [if_pos rfl, hset]
        omega
      · simp only [Option.any_some, Ne.symm hkey, decide_false, Option.any_none, Bool.false_eq_true,
          if_false] at hset
        rw [if_neg hkey, hset]
        omega
    · dsimp only
      rw [total_lowerReads, h.tables.total]
    · dsimp only
      have hactive := h.tables.active
      have hpos : 0 < w.readers.countP Option.isSome :=
        List.countP_pos_iff.mpr ⟨some lease, hmem, rfl⟩
      have hset := List.countP_set (p := Option.isSome) (a := (none : Option ReadLease)) hlt
      rw [hget] at hset
      simp only [Option.isSome_some, if_true, Option.isSome_none, Bool.false_eq_true,
        if_false] at hset
      rw [hset, hactive]
      omega
    · intro lease' hlease'
      rcases List.mem_or_eq_of_mem_set hlease' with hlease' | hlease'
      · exact h.tables.leases lease' hlease'
      · cases hlease'
  · cases hstep

end Readers

variable {ro : RangeOrder Jobs.Holding} {token id runID : String} {resources : List Resource}
  {ids request : List String} {locks : LockTable} {run : Run} {persisted : Bool} {env : RetryEnv}

theorem Sound.not_holder (h : w.Sound digest) (hfresh : j ∉ w.issued) (key : String) :
    w.repositoryJobs.lookup key ≠ some j := by
  intro hkey
  obtain ⟨i, t, ht, rfl⟩ := h.holders key j hkey
  exact hfresh (h.issued i t ht)

theorem Keeps.trans {w'' : LeaseWorld} (h : Keeps digest w w' j stage)
    (h' : Keeps digest w' w'' j stage) : Keeps digest w w'' j stage := by
  refine ⟨?_, fun key => (h'.jobs key).trans (h.jobs key), ?_,
    fun ht => h'.terminal (h.terminal ht)⟩
  · intro id hid
    have hlookup := h.destinations id hid
    refine (h'.destinations id ?_).trans hlookup
    rw [keyOf_congr hlookup]
    exact (h.jobs _).mpr hid
  · intro runID hrun
    exact (h'.runs runID hrun).trans (h.runs runID hrun)

/-- What a start finds before it locks: the destinations exist, and their repositories differ and
are free. -/
structure Reservable (digest : String → String → String) (w : LeaseWorld) (ids : List String)
    (resources : List Resource) : Prop where
  exist : ∀ id ∈ ids, (w.destinations.lookup id).isSome
  distinct : (ids.map (w.keyOf digest)).Nodup
  free : ∀ key ∈ ids.map (w.keyOf digest), w.holder key = "" ∧ w.reads key ≤ 0
  requested : ∀ key ∈ ids.map (w.keyOf digest), backupRepositoryResource key ∈ resources

/-- The world after a job has reserved the repositories of these destinations. -/
def reserved (digest : String → String → String) (w : LeaseWorld) (jobID : String)
    (ids : List String) (locks : LockTable) : LeaseWorld :=
  { w with
    repositoryJobs := w.repositoryJobs.insertAll jobID (ids.map (w.keyOf digest))
    locks := locks
    issued := jobID :: w.issued }

theorem lookup_reserved (key : String) :
    (w.reserved digest j ids locks).repositoryJobs.lookup key =
      if key ∈ ids.map (w.keyOf digest) then some j else w.repositoryJobs.lookup key :=
  lookup_insertAll _ _ _ _

section

variable (hr : Reservable digest w ids resources) (h : w.Sound digest)
include hr h

theorem Reservable.tables (hfresh : newJobID token ∉ w.issued)
    (hg : Granted w.locks locks (newJobID token) resources) :
    (w.reserved digest (newJobID token) ids locks).Tables digest := by
  refine h.tables.grant hg (newJobID_ne_empty token) ?_
  intro key holder hkey
  rw [lookup_insertAll] at hkey
  split at hkey
  next hmem =>
    cases hkey
    exact .inl ⟨rfl, (hr.free key hmem).2, hr.requested key hmem⟩
  · refine .inr ⟨?_, hkey⟩
    rintro rfl
    exact h.not_holder hfresh key hkey

theorem Reservable.holds (hfresh : j ∉ w.issued) :
    (w.reserved digest j ids locks).Holds digest j ids := by
  refine ⟨?_, hr.distinct, ?_⟩
  · intro id hid
    refine ⟨hr.exist id hid, (lookup_reserved _).trans (if_pos ?_)⟩
    exact List.mem_map_of_mem hid
  · intro key hkey
    rw [lookup_reserved] at hkey
    split at hkey
    next hmem => exact hmem
    · exact absurd hkey (h.not_holder hfresh key)

theorem Reservable.keeps (locks : LockTable) {other : String} (hne : other ≠ j) :
    Keeps digest w (w.reserved digest j ids locks) other stage := by
  refine ⟨fun _ _ => rfl, ?_, fun _ _ => rfl, fun h => h⟩
  intro key
  rw [lookup_reserved]
  split
  next hmem =>
    rw [lookup_of_holder h.tables (hr.free key hmem).1]
    constructor
    · intro heq
      exact absurd (Option.some.inj heq).symm hne
    · intro heq
      cases heq
  · exact Iff.rfl

end

theorem reserved_holders (locks : LockTable) (key holder : String)
    (hkey : (w.reserved digest j ids locks).repositoryJobs.lookup key = some holder) :
    holder = j ∨ w.repositoryJobs.lookup key = some holder := by
  rw [lookup_reserved] at hkey
  split at hkey
  · exact .inl (Option.some.inj hkey).symm
  · exact .inr hkey

theorem keyOf_eq {d : LeasedDestination} (hd : w.destinations.lookup id = some d) :
    w.keyOf digest id = repositoryKey digest d := by
  simp only [keyOf, destination, hd, Option.getD_some]

theorem Sound.startRepositoryJob (h : w.Sound digest) {action : JobAction} {acknowledged : Bool}
    {listed : Option (LeasedDestination × MaintenanceAction)}
    (hlisted : ∀ d m, listed = some (d, m) → (w.destinations.lookup id).isSome →
      d.id = id ∧ repositoryKey digest d = w.keyOf digest id)
    (hstep : w.startRepositoryJob digest id action acknowledged listed ro token = some w') :
    w'.Sound digest := by
  unfold LeaseWorld.startRepositoryJob at hstep
  split at hstep
  · cases hstep
  next d hd =>
    dsimp only at hstep
    split at hstep
    · cases hstep
    · split at hstep
      · cases hstep
      next hfree =>
        simp only [Bool.or_eq_true, decide_eq_true_eq, not_or, not_lt, not_not] at hfree
        obtain ⟨u, hstart, hw⟩ := Option.bind_eq_some_iff.mp hstep
        obtain ⟨hfresh, locks, hg, rfl⟩ := startWithResources_eq_some h.tables hstart
        cases hw
        have hkey : w.keyOf digest id = repositoryKey digest d := keyOf_eq hd
        have hr : Reservable digest w [id] [backupRepositoryResource (repositoryKey digest d)] := by
          refine ⟨?_, ?_, ?_, ?_⟩
          · intro id' hid'
            rw [List.mem_singleton.mp hid', hd]
            rfl
          · simp
          · intro key hmem
            rw [List.mem_singleton.mp hmem, hkey]
            exact ⟨hfree.2, hfree.1⟩
          · intro key hmem
            rw [List.mem_singleton.mp hmem, hkey]
            exact List.mem_singleton_self _
        have hworld : w.reserved digest (newJobID token) [id] locks = { w with
            repositoryJobs := w.repositoryJobs.insert (repositoryKey digest d) (newJobID token)
            locks := locks
            issued := newJobID token :: w.issued } := by
          simp only [reserved, List.map_cons, List.map_nil, hkey]
          rfl
        have hstage : (w.reserved digest (newJobID token) [id] locks).StageSound digest
            (newJobID token) (.reserved id action listed) :=
          ⟨hr.holds h hfresh, fun d' m hm => hlisted d' m hm (by rw [hd]; rfl)⟩
        have hsound : ((w.reserved digest (newJobID token) [id] locks).addThread (newJobID token)
            (.reserved id action listed)).Sound digest :=
          h.start hfresh rfl (hr.tables h hfresh hg) rfl (reserved_holders locks)
            (fun k t _ hne => hr.keeps h locks hne) hstage (fun _ _ _ _ hrun => by cases hrun)
        rw [hworld] at hsound
        exact hsound

theorem pendingIDs_cons (copy : CopyResult) (copies : List CopyResult) :
    pendingIDs (copy :: copies) =
      if copyWorkPending copy then copy.destinationID :: pendingIDs copies
      else pendingIDs copies := by
  simp only [pendingIDs, List.filter_cons]
  split <;> rfl

/-- What `repositoryResourcesLocked` has checked when it returns. -/
theorem repositoryResourcesLocked_ok {copies : List CopyResult} {seen : List String}
    (h : w.repositoryResourcesLocked digest seen copies = .ok resources) :
    Reservable digest w (pendingIDs copies) resources ∧
      ∀ key ∈ (pendingIDs copies).map (w.keyOf digest), key ∉ seen := by
  induction copies generalizing seen resources with
  | nil =>
    cases h
    exact ⟨⟨by simp [pendingIDs], by simp [pendingIDs], by simp [pendingIDs],
      by simp [pendingIDs]⟩, by simp [pendingIDs]⟩
  | cons copy copies ih =>
    rw [pendingIDs_cons]
    simp only [repositoryResourcesLocked] at h
    split at h
    next hpending =>
      rw [if_neg (by simpa using hpending)]
      exact ih h
    next hpending =>
      rw [if_pos (by simpa using hpending)]
      split at h
      · cases h
      next hexists =>
        split at h
        · cases h
        next hseen =>
          split at h
          · cases h
          next hfree =>
            simp only [Bool.or_eq_true, decide_eq_true_eq, not_or, not_lt, not_not] at hfree
            obtain ⟨rest, hrest, heq⟩ := exists_of_bind_ok h
            cases heq
            obtain ⟨hr, hnew⟩ := ih hrest
            refine ⟨⟨?_, ?_, ?_, ?_⟩, ?_⟩
            · intro id hid
              rcases List.mem_cons.mp hid with rfl | hid
              · simpa [Option.isSome_iff_ne_none] using hexists
              · exact hr.exist id hid
            · rw [List.map_cons, List.nodup_cons]
              refine ⟨?_, hr.distinct⟩
              intro hmem
              exact hnew _ hmem List.mem_cons_self
            · intro key hmem
              rcases List.mem_cons.mp hmem with rfl | hmem
              · exact hfree
              · exact hr.free key hmem
            · intro key hmem
              rcases List.mem_cons.mp hmem with rfl | hmem
              · exact List.mem_cons_self
              · exact List.mem_cons_of_mem _ (hr.requested key hmem)
            · intro key hmem
              rcases List.mem_cons.mp hmem with rfl | hmem
              · simpa using hseen
              · intro hin
                exact hnew key hmem (List.mem_cons_of_mem _ hin)

theorem Reservable.mono (hr : Reservable digest w ids resources) {more : List Resource}
    (hsub : resources ⊆ more) : Reservable digest w ids more :=
  ⟨hr.exist, hr.distinct, hr.free, fun key hmem => hsub (hr.requested key hmem)⟩

/-- A run that starts is saved as running under an id that no job works on. -/
theorem Sound.reserveRun (h : w.Sound digest) {plan : Plan}
    (hr : Reservable digest w (pendingIDs run.copies) resources) (hid : run.id = runID)
    (hstate : run.state = .running) (hfresh : newJobID token ∉ w.issued)
    (hg : Granted w.locks locks (newJobID token) resources)
    (hidle : ∀ (k : ℕ) (t : LeaseThread), w.threads[k]? = some t → activeRun t.stage ≠ some runID) :
    ({ w.reserved digest (newJobID token) (pendingIDs run.copies) locks with
      runs := w.runs.insert runID ⟨run, plan⟩ }.addThread (newJobID token)
        (.runReserved runID)).Sound digest := by
  refine h.start hfresh rfl ((hr.tables h hfresh hg).saveRun hid) rfl (reserved_holders locks) ?_ ?_
    ?_
  · intro k t ht hne
    refine (hr.keeps h locks hne).trans ⟨fun _ _ => rfl, fun _ => Iff.rfl, ?_, fun h => h⟩
    intro runID' hrun
    refine (lookup_insert _ _ _ _).trans (if_neg ?_)
    rintro rfl
    exact hidle k t ht hrun
  · have hholds : (w.reserved digest _ _ locks).Holds digest _ _ := hr.holds h hfresh
    refine ⟨⟨run, plan⟩, ?_, hstate, ⟨hholds.owns, hholds.distinct, hholds.only⟩⟩
    exact (lookup_insert _ _ _ _).trans (if_pos rfl)
  · intro k t runID' ht hrun
    cases hrun
    exact hidle k t ht

/-- A start that could not be saved leaves a job that only has to be finished. -/
theorem Sound.startUnsaved (h : w.Sound digest) (hfresh : newJobID token ∉ w.issued)
    (hg : Granted w.locks locks (newJobID token) resources) :
    ({ w with locks := locks, issued := newJobID token :: w.issued }.addThread (newJobID token)
      .finishing).Sound digest := by
  refine h.start hfresh rfl ?_ rfl (fun _ _ hkey => .inr hkey) ?_ trivial ?_
  · refine h.tables.grant hg (newJobID_ne_empty token) ?_
    intro key holder hkey
    refine .inr ⟨?_, hkey⟩
    rintro rfl
    exact h.not_holder hfresh key hkey
  · intro k t ht hne
    exact .of_eq rfl rfl rfl fun _ h => h
  · intro k t runID ht hrun
    cases hrun

theorem Sound.active_running (h : w.Sound digest) {t : LeaseThread} (ht : w.threads[i]? = some t)
    (hrun : activeRun t.stage = some runID) :
    ∃ p, w.runs.lookup runID = some p ∧ p.run.state = .running := by
  have hstage := h.stages i t ht
  obtain ⟨jobID, stage⟩ := t
  cases stage with
  | runReserved runID' =>
    cases hrun
    obtain ⟨p, hp, hstate, -⟩ := hstage
    exact ⟨p, hp, hstate⟩
  | capturing run plan =>
    cases hrun
    exact hstage.1.2
  | requesting run plan resources =>
    cases hrun
    exact hstage.1.2
  | transferring run plan todo =>
    cases hrun
    exact hstage.1.2
  | reserved => cases hrun
  | executing => cases hrun
  | finishing => cases hrun
  | unlocking => cases hrun
  | releasing => cases hrun
  | done => cases hrun

theorem Sound.startRun (h : w.Sound digest) {planID : String} {now expiresAt : Instant}
    (hstep : w.startRun digest planID request ro token runID now expiresAt persisted = some w') :
    w'.Sound digest := by
  unfold LeaseWorld.startRun at hstep
  split at hstep
  · cases hstep
  next plan hplan =>
    dsimp only at hstep
    split at hstep
    · cases hstep
    next hguard =>
      simp only [Bool.or_eq_true, not_or, Bool.not_eq_true, Option.isSome_eq_false_iff,
        Option.isNone_iff_eq_none] at hguard
      split at hstep
      · cases hstep
      next resources hresources =>
        obtain ⟨hr, -⟩ := repositoryResourcesLocked_ok hresources
        have hr := hr.mono (List.subset_append_left _ [globalResource])
        obtain ⟨u, hstart, hw⟩ := Option.bind_eq_some_iff.mp hstep
        obtain ⟨hfresh, locks, hg, rfl⟩ := startWithResources_eq_some h.tables hstart
        split at hw
        · cases hw
          refine h.reserveRun hr rfl rfl hfresh hg ?_
          intro k t ht hrun
          obtain ⟨p, hp, -⟩ := h.active_running ht hrun
          exact absurd (hguard.2.symm.trans hp) (by simp)
        · cases hw
          exact h.startUnsaved hfresh hg

theorem startRetry_ok {run' : Run} (h : Backup.startRetry request env run = .ok run') :
    run.state ≠ .running ∧ run'.id = run.id ∧ run'.state = .running := by
  unfold Backup.startRetry at h
  split at h
  · cases h
  next hstate =>
    split at h
    · cases h
    · obtain ⟨scan, -, h⟩ := exists_of_bind_ok h
      split at h
      · cases h
      · split at h
        · cases h
        · split at h
          · cases h
          · cases h
          · cases h
            exact ⟨hstate, rfl, rfl⟩

theorem Sound.startRetry (h : w.Sound digest)
    (hstep : w.startRetry digest runID request env ro token persisted = some w') :
    w'.Sound digest := by
  unfold LeaseWorld.startRetry at hstep
  split at hstep
  · cases hstep
  next stored hstored =>
    dsimp only at hstep
    split at hstep
    · cases hstep
    next run hrun =>
      obtain ⟨hidle, hid, hstate⟩ := startRetry_ok hrun
      split at hstep
      · cases hstep
      next resources hresources =>
        obtain ⟨hr, -⟩ := repositoryResourcesLocked_ok hresources
        obtain ⟨u, hstart, hw⟩ := Option.bind_eq_some_iff.mp hstep
        obtain ⟨hfresh, locks, hg, rfl⟩ := startWithResources_eq_some h.tables hstart
        split at hw
        · cases hw
          refine h.reserveRun hr (hid.trans (h.tables.runIDs runID stored hstored)) hstate hfresh
            hg ?_
          intro k t ht hactive
          obtain ⟨p, hp, hrunning⟩ := h.active_running ht hactive
          cases hstored.symm.trans hp
          exact hidle hrunning
        · cases hw
          exact h.startUnsaved hfresh hg

end LeaseWorld

end Stacklab.Backup
