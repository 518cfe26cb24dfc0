import Stacklab.Backup.Retention

/-! Retention passes only proven surplus to `restic forget`. -/
namespace Stacklab.Backup

open Lib

variable {env : RetentionEnv} {planID destinationID key id : String} {st : RetentionState}
  {s : Scan} {snapshot a b : Snapshot} {round rounds : ℕ} {order snapshots : List Snapshot}
  {policy : Retention} {d : Destination} {c : SnapshotClassification} {status : SnapshotStatus}
  {t : Instant} {outcome : Option VerificationError}

theorem lookup_evictClassifications {m : GoMap String SnapshotClassification}
    (h : (evictClassifications rounds m).lookup key = some c) : m.lookup key = some c := by
  induction rounds generalizing m with
  | zero => exact h
  | succ rounds ih =>
    rw [evictClassifications] at h
    split at h
    · exact GoMap.lookup_of_lookup_erase (ih h)
    · exact h

theorem lookup_remember (h : (rememberSnapshotClassificationLocked st destinationID id status
      t).snapshotClassifications.lookup key = some c) :
    key = snapshotEvidenceKey destinationID id ∧ c.status = status ∨
      st.snapshotClassifications.lookup key = some c := by
  rcases GoMap.lookup_insert_cases (lookup_evictClassifications h) with ⟨hk, rfl⟩ | hold
  · exact .inl ⟨hk, rfl⟩
  · exact .inr hold

theorem snapshotEvidenceKey_inj {id' : String}
    (h : snapshotEvidenceKey destinationID id = snapshotEvidenceKey destinationID id') :
    id = id' := by
  have hl := congrArg String.toList h
  simp only [snapshotEvidenceKey, String.toList_append, List.append_cancel_left_eq] at hl
  exact String.toList_injective hl

/-- A cache of the start, or a verification of this run, says that the snapshot is complete. -/
def ProvenComplete (st : RetentionState) (destinationID : String)
    (checks : List (String × Option VerificationError)) (id : String) : Prop :=
  (∃ c, st.snapshotClassifications.lookup (snapshotEvidenceKey destinationID id) = some c ∧
    c.status = .complete) ∨
  (st.verifiedSnapshots.lookup (snapshotEvidenceKey destinationID id)).isSome = true ∨
  (id, none) ∈ checks

/-- The snapshot's own round of the scan found it usable. -/
structure Eligible (env : RetentionEnv) (order : List Snapshot) (snapshot : Snapshot) : Prop where
  valid : validSnapshotID snapshot.id = true
  dated : snapshot.time ≠ 0
  past : ∃ round, order[round]? = some snapshot ∧
    snapshot.time ≤ env.now round + clockSkewTolerance

/-- What holds of the scan's variables between any two rounds. -/
structure Scanned (st : RetentionState) (env : RetentionEnv) (destinationID : String)
    (order : List Snapshot) (s : Scan) : Prop where
  eligible : ∀ snapshot ∈ s.verified, Eligible env order snapshot
  complete : ∀ snapshot ∈ s.verified, ProvenComplete st destinationID s.checks snapshot.id
  cache : ∀ key c, s.state.snapshotClassifications.lookup key = some c →
    st.snapshotClassifications.lookup key = some c ∨
      ∃ check ∈ s.checks, key = snapshotEvidenceKey destinationID check.1 ∧
        savedSnapshotClassification check.2 = some c.status
  legacy : s.state.verifiedSnapshots = st.verifiedSnapshots
  checkpoints : s.state.copyCheckpoints = st.copyCheckpoints

theorem savedSnapshotClassification_complete
    (h : savedSnapshotClassification outcome = some .complete) : outcome = none := by
  rcases outcome with _ | (_ | _ | _ | _ | _) <;> simp_all [savedSnapshotClassification]

theorem ProvenComplete.mono {checks checks' : List (String × Option VerificationError)}
    (h : ProvenComplete st destinationID checks id) (hs : checks ⊆ checks') :
    ProvenComplete st destinationID checks' id :=
  h.imp_right (Or.imp_right (hs ·))

section

variable (h : Scanned st env destinationID order s)
include h

/-- A complete classification during the scan goes back to the caches or to a check. -/
theorem Scanned.proven (hc : snapshotClassificationLocked s.state destinationID id = some c)
    (hs : c.status = .complete) : ProvenComplete st destinationID s.checks id := by
  have hlegacy : (s.state.verifiedSnapshots.lookup
      (snapshotEvidenceKey destinationID id)).isSome = true →
        ProvenComplete st destinationID s.checks id :=
    fun hv => .inr (.inl (h.legacy ▸ hv))
  simp only [snapshotClassificationLocked] at hc
  split at hc
  next evidence he =>
    split at hc
    · cases hc
      rcases h.cache _ _ he with hst | ⟨⟨id', outcome⟩, hm, hk, ho⟩
      · exact .inl ⟨_, hst, hs⟩
      · cases snapshotEvidenceKey_inj hk
        rw [hs] at ho
        cases savedSnapshotClassification_complete ho
        exact .inr (.inr hm)
    · obtain ⟨t, ht, -⟩ := Option.map_eq_some_iff.mp hc
      exact hlegacy (by simp [ht])
  · obtain ⟨t, ht, -⟩ := Option.map_eq_some_iff.mp hc
    exact hlegacy (by simp [ht])

theorem Scanned.add (he : Eligible env order snapshot)
    (hp : status = .complete → ProvenComplete st destinationID s.checks snapshot.id) :
    Scanned st env destinationID order (s.add snapshot status) := by
  rw [Scan.add]
  split
  next hc =>
    refine { h with eligible := ?_, complete := ?_ }
    · intro other ho
      rcases List.mem_append.mp ho with ho | ho
      · exact h.eligible other ho
      · exact List.mem_singleton.mp ho ▸ he
    · intro other ho
      rcases List.mem_append.mp ho with ho | ho
      · exact h.complete other ho
      · exact List.mem_singleton.mp ho ▸ hp hc
  · exact h

/-- One more verification, whose outcome is not remembered yet. -/
theorem Scanned.check (outcome : Option VerificationError) :
    Scanned st env destinationID order { s with
      state := rememberRetentionCursorLocked s.state planID destinationID snapshot.id
      remainingChecks := s.remainingChecks - 1
      checks := s.checks ++ [(snapshot.id, outcome)] } := by
  have hsub : s.checks ⊆ s.checks ++ [(snapshot.id, outcome)] := List.subset_append_left _ _
  refine { h with complete := ?_, cache := ?_ }
  · exact fun other ho => (h.complete other ho).mono hsub
  · intro key c hk
    refine (h.cache key c hk).imp_right ?_
    rintro ⟨check, hm, hrest⟩
    exact ⟨check, hsub hm, hrest⟩

theorem Scanned.remember (hm : (snapshot.id, outcome) ∈ s.checks)
    (ho : savedSnapshotClassification outcome = some status) :
    Scanned st env destinationID order { s with
      state := rememberSnapshotClassificationLocked s.state destinationID snapshot.id
        status t } := by
  refine { h with cache := ?_ }
  intro key c hk
  rcases lookup_remember hk with ⟨hkey, hc⟩ | hst
  · exact .inr ⟨_, hm, hkey, hc ▸ ho⟩
  · exact h.cache key c hst

end

/-- Every verification so far led to a classification. -/
def Classified (s : Scan) : Prop :=
  ∀ check ∈ s.checks, savedSnapshotClassification check.2 ≠ none

theorem classified_add (h : Classified s) : Classified (s.add snapshot status) := by
  rw [Scan.add]
  split <;> exact h

theorem scanRound_spec (h : Scanned st env destinationID order s)
    (hr : order[round]? = some snapshot) :
    Scanned st env destinationID order (scanRound env planID destinationID round snapshot s).2 ∧
    ((scanRound env planID destinationID round snapshot s).1 = none → Classified s →
      Classified (scanRound env planID destinationID round snapshot s).2) := by
  rw [scanRound]
  split
  · exact ⟨h, fun _ hc => hc⟩
  next hskip =>
    simp only [Bool.not_eq_true, not_or, not_lt] at hskip
    have he : Eligible env order snapshot :=
      ⟨by simpa using hskip.1, hskip.2.1, round, hr, hskip.2.2⟩
    split
    next c hc =>
      exact ⟨h.add he (h.proven hc), fun _ => classified_add⟩
    · split
      · exact ⟨h, fun _ hc => hc⟩
      · have hcheck := @Scanned.check env planID destinationID st s snapshot order h
          (env.verify round)
        dsimp only
        split
        · exact ⟨hcheck, fun hn => by simp at hn⟩
        next status hs =>
          have hmem : (snapshot.id, env.verify round) ∈
              s.checks ++ [(snapshot.id, env.verify round)] := by simp
          refine ⟨(hcheck.remember hmem hs).add he ?_, fun _ hc => classified_add ?_⟩
          · rintro rfl
            have hnone := savedSnapshotClassification_complete hs
            exact .inr (.inr (by simp [hnone]))
          · intro check hm
            rcases List.mem_append.mp hm with hm | hm
            · exact hc check hm
            · rw [List.mem_singleton.mp hm, hs]
              exact Option.some_ne_none _

theorem scan_spec (rest : List Snapshot) (h : Scanned st env destinationID order s)
    (hr : order.drop round = rest) :
    Scanned st env destinationID order (scan env planID destinationID round rest s).2 ∧
    ((scan env planID destinationID round rest s).1 = none → Classified s →
      Classified (scan env planID destinationID round rest s).2) := by
  induction rest generalizing round s with
  | nil => exact ⟨h, fun _ hc => hc⟩
  | cons snapshot rest ih =>
    have hget : order[round]? = some snapshot := by
      rw [← List.head?_drop, hr, List.head?_cons]
    have hdrop : order.drop (round + 1) = rest := by
      rw [← List.drop_drop, hr, List.drop_one, List.tail_cons]
    obtain ⟨hs, hc⟩ := @scanRound_spec env planID destinationID st s snapshot round order h hget
    rw [scan]
    rcases hround : scanRound env planID destinationID round snapshot s with ⟨_ | err, s'⟩
    · rw [hround] at hs hc
      obtain ⟨hs', hc'⟩ := ih hs hdrop
      exact ⟨hs', fun hn hcs => hc' hn (hc rfl hcs)⟩
    · rw [hround] at hs
      exact ⟨hs, fun hn => by simp at hn⟩

theorem scanned_start : Scanned st env destinationID order ⟨st, 64, [], []⟩ where
  eligible := by simp
  complete := by simp
  cache := fun _ _ hk => .inl hk
  legacy := rfl
  checkpoints := rfl

theorem mem_scanOrder :
    snapshot ∈ scanOrder planID destinationID st snapshots ↔ snapshot ∈ snapshots := by
  simp [scanOrder, List.mem_rotate]

theorem flatten_batches {remove : List String} (h : remove.length ≤ rounds) :
    (batches rounds remove).flatten = remove := by
  induction rounds generalizing remove with
  | zero => simp_all [batches]
  | succ rounds ih =>
    cases remove with
    | nil => rfl
    | cons id rest =>
      have hlen : ((id :: rest).drop 128).length ≤ rounds := by
        simp only [List.length_drop, List.length_cons] at h ⊢
        omega
      rw [batches, List.flatten_cons, ih hlen, List.take_append_drop]
      simp

theorem forgetBatches_sublist (call : ℕ) (bs : List (List String)) :
    (forgetBatches env call bs).1 ⊆ bs := by
  induction bs generalizing call with
  | nil => simp [forgetBatches]
  | cons batch rest ih =>
    rw [forgetBatches]
    split
    · simp
    · exact List.cons_subset_cons _ (ih (call + 1))

/-- Only what the filter of the verified snapshots leaves is ever passed on. -/
theorem mem_forgets {batch : List String}
    (hb : batch ∈ (removeSurplus env planID d policy s).forgets) (hid : id ∈ batch) :
    env.persist = none ∧ (∃ snapshot ∈ s.verified, snapshot.id = id) ∧
      id ∉ retainedSnapshotIDs s.verified policy ∧
      s.state.copyCheckpoints.lookup (checkpointKey planID d.id) ≠ some id := by
  rw [removeSurplus] at hb
  split at hb
  · cases hb
  next hp =>
    have hmem := List.mem_flatten.mpr ⟨batch, forgetBatches_sublist _ _ hb, hid⟩
    rw [flatten_batches (le_refl _)] at hmem
    obtain ⟨snapshot, hs, rfl⟩ := List.mem_map.mp hmem
    obtain ⟨hv, hk⟩ := List.mem_filter.mp hs
    simp only [decide_eq_true_eq, List.mem_append, not_or, Option.mem_toList] at hk
    exact ⟨hp, ⟨snapshot, hv, rfl⟩, hk.1, hk.2⟩

theorem newerFirst_iff : newerFirst a b = true ↔
    b.time < a.time ∨ a.time = b.time ∧ a.id ≤ b.id := by
  rw [newerFirst]
  split
  next h =>
    simp [h]
  next h =>
    simp [h]

theorem newerFirst_total (a b : Snapshot) : newerFirst a b = true ∨ newerFirst b a = true := by
  rw [newerFirst_iff, newerFirst_iff]
  rcases lt_trichotomy a.time b.time with h | h | h
  · exact .inr (.inl h)
  · exact (le_total a.id b.id).imp (fun hi => .inr ⟨h, hi⟩) (fun hi => .inr ⟨h.symm, hi⟩)
  · exact .inl (.inl h)

theorem newerFirst_trans (a b c : Snapshot) (hab : newerFirst a b = true)
    (hbc : newerFirst b c = true) : newerFirst a c = true := by
  rw [newerFirst_iff] at hab hbc ⊢
  rcases hab with hab | ⟨hab, hi⟩
  · rcases hbc with hbc | ⟨hbc, -⟩
    · exact .inl (hbc.trans hab)
    · exact .inl (hbc ▸ hab)
  · rcases hbc with hbc | ⟨hbc, hj⟩
    · exact .inl (hab ▸ hbc)
    · exact .inr ⟨hab.trans hbc, hi.trans hj⟩

instance : Std.Total (fun a b : Snapshot => newerFirst a b = true) := ⟨newerFirst_total⟩

instance : IsTrans Snapshot (fun a b => newerFirst a b = true) := ⟨newerFirst_trans⟩

theorem newerFirst_antisymm (hab : newerFirst a b = true) (hba : newerFirst b a = true) :
    a.id = b.id := by
  rw [newerFirst_iff] at hab hba
  rcases hab with hab | ⟨hab, hi⟩
  · rcases hba with hba | ⟨hba, -⟩
    · exact absurd (hab.trans hba) (lt_irrefl _)
    · exact absurd (hba ▸ hab) (lt_irrefl _)
  · rcases hba with hba | ⟨-, hj⟩
    · exact absurd (hab ▸ hba) (lt_irrefl _)
    · exact le_antisymm hi hj

theorem head_mem_keepBucket {rest : List Snapshot} {count : ℤ} {key : Instant → String}
    (hc : 0 < count) : snapshot.id ∈ keepBucket (snapshot :: rest) count key := by
  have hcount : ¬count ≤ 0 := by omega
  simp [keepBucket, keepPeriods, hcount]

structure Retention.NonNegative (policy : Retention) : Prop where
  daily : 0 ≤ policy.daily
  weekly : 0 ≤ policy.weekly
  monthly : 0 ≤ policy.monthly

/-- The newest snapshot is kept by every policy that keeps anything by count. -/
theorem newest_mem_retained (hp : policy.NonNegative) (hk : keepAllSnapshots policy = false)
    (hs : snapshot ∈ snapshots) (hn : ∀ other ∈ snapshots, newerFirst snapshot other = true) :
    snapshot.id ∈ retainedSnapshotIDs snapshots policy := by
  have hsorted := List.pairwise_insertionSort (newerFirst · ·) snapshots
  have hmem : snapshot ∈ snapshots.insertionSort (newerFirst · ·) := by simpa using hs
  rw [retainedSnapshotIDs]
  cases ho : snapshots.insertionSort (newerFirst · ·) with
  | nil => simp [ho] at hmem
  | cons first rest =>
    rw [ho] at hsorted hmem
    have hfirst : first ∈ snapshots := by
      have hmem' : first ∈ snapshots.insertionSort (newerFirst · ·) := ho ▸ List.mem_cons_self
      simpa using hmem'
    have hle : newerFirst first snapshot = true := by
      rcases List.mem_cons.mp hmem with rfl | hr
      · exact hn _ hs
      · exact (List.pairwise_cons.mp hsorted).1 snapshot hr
    rw [newerFirst_antisymm (hn first hfirst) hle]
    obtain ⟨hd, hw, hm⟩ := hp
    have hpos : 0 < policy.daily ∨ 0 < policy.weekly ∨ 0 < policy.monthly := by
      simp only [keepAllSnapshots, Bool.and_eq_false_iff, decide_eq_false_iff_not] at hk
      omega
    rcases hpos with h | h | h
    · simp [head_mem_keepBucket h]
    · simp [head_mem_keepBucket h]
    · simp [head_mem_keepBucket h]

/-- A run that forgets anything got past every earlier return. -/
theorem retain_cases (h : (retain env planID st d policy).forgets ≠ []) :
    keepAllSnapshots policy = false ∧ repositoryMaintenanceBlocked d = false ∧
      ∃ snapshots s, env.snapshots = .ok snapshots ∧
        scan env planID d.id 0 (scanOrder planID d.id st snapshots) ⟨st, 64, [], []⟩ =
          (none, s) ∧
        retain env planID st d policy = removeSurplus env planID d policy s := by
  rw [retain] at h ⊢
  split at h
  · cases h rfl
  next hk =>
    split at h
    · cases h rfl
    next hb =>
      split at h
      · cases h rfl
      next snapshots hs =>
        dsimp only at h ⊢
        split at h
        · cases h rfl
        next s hscan =>
          refine ⟨by simpa using hk, retentionBlockedError_eq_none.mp hb, snapshots, s, hs, hscan, ?_⟩
          simp [hk]

/-- One run of retention: what it may forget, when it forgets nothing, and that the newest
complete snapshot stays. -/
theorem retain_forgets_only_surplus (hp : policy.NonNegative) :
    (∀ batch ∈ (retain env planID st d policy).forgets, ∀ id ∈ batch,
      ∃ snapshots, env.snapshots = .ok snapshots ∧
        (∃ snapshot ∈ snapshots, snapshot.id = id ∧
          Eligible env (scanOrder planID d.id st snapshots) snapshot) ∧
        ProvenComplete st d.id (retain env planID st d policy).checks id ∧
        id ∉ retainedSnapshotIDs (retain env planID st d policy).verified policy ∧
        st.copyCheckpoints.lookup (checkpointKey planID d.id) ≠ some id) ∧
    (keepAllSnapshots policy = true ∨ repositoryMaintenanceBlocked d = true ∨
      (∃ check ∈ (retain env planID st d policy).checks,
        savedSnapshotClassification check.2 = none) ∨
      env.persist ≠ none → (retain env planID st d policy).forgets = []) ∧
    ∀ snapshot ∈ (retain env planID st d policy).verified,
      (∀ other ∈ (retain env planID st d policy).verified, newerFirst snapshot other = true) →
        ∀ batch ∈ (retain env planID st d policy).forgets, snapshot.id ∉ batch := by
  by_cases hf : (retain env planID st d policy).forgets = []
  · simp [hf]
  · obtain ⟨hk, hb, snapshots, s, hs, hscan, hr⟩ := retain_cases hf
    obtain ⟨hscanned, hclass⟩ := @scan_spec env planID d.id st ⟨st, 64, [], []⟩ 0 _ _
      scanned_start (List.drop_zero (l := scanOrder planID d.id st snapshots))
    rw [hscan] at hscanned hclass
    have hverified : (retain env planID st d policy).verified = s.verified := by
      rw [hr, removeSurplus]
      split <;> rfl
    have hchecks : (retain env planID st d policy).checks = s.checks := by
      rw [hr, removeSurplus]
      split <;> rfl
    have hpersist : env.persist = none := by
      by_contra hne
      obtain ⟨err, he⟩ := Option.ne_none_iff_exists'.mp hne
      simp [hr, removeSurplus, he] at hf
    rw [hverified, hchecks]
    refine ⟨?_, ?_, ?_⟩
    · intro batch hbatch id hid
      rw [hr] at hbatch
      obtain ⟨-, ⟨snapshot, hv, rfl⟩, hkeep, hcp⟩ := mem_forgets hbatch hid
      have he := hscanned.eligible snapshot hv
      obtain ⟨round, hget, -⟩ := he.past
      have hmem := mem_scanOrder.mp (List.mem_of_getElem? hget)
      exact ⟨snapshots, hs, ⟨snapshot, hmem, rfl, he⟩, hscanned.complete snapshot hv, hkeep,
        hscanned.checkpoints ▸ hcp⟩
    · rintro (h | h | ⟨check, hc, hn⟩ | h)
      · simp [hk] at h
      · simp [hb] at h
      · exact absurd hn (hclass rfl (by simp [Classified]) check hc)
      · exact absurd hpersist h
    · intro snapshot hv hn batch hbatch hid
      rw [hr] at hbatch
      obtain ⟨-, -, hkeep, -⟩ := mem_forgets hbatch hid
      exact hkeep (newest_mem_retained hp hk hv hn)

/-- The clock of the machine in the runs below. -/
def localClock : Instant := 63850000000 * 1000000000

/-- Two complete snapshots of a host whose clock is one and two minutes ahead. -/
def aheadSnapshots : List Snapshot :=
  [⟨"aaaaaaaa", localClock + minute⟩, ⟨"bbbbbbbb", localClock + 2 * minute⟩]

def aheadEnv : RetentionEnv where
  snapshots := .ok aheadSnapshots
  now := fun _ => localClock
  verify := fun _ => none
  classifiedAt := fun _ => localClock
  persist := none
  deferredPersist := none
  forget := fun _ => none
  prune := none

def emptyRetentionState : RetentionState := ⟨["plan"], ["local"], ∅, ∅, ∅, ∅⟩

/-- Within the tolerance of the clock comparison a snapshot from the future is forgotten. -/
theorem retain_forgets_future_snapshot :
    (retain aheadEnv "plan" emptyRetentionState { id := "local" } ⟨1, 0, 0⟩).forgets =
      [["aaaaaaaa"]] ∧
    ∀ snapshot ∈ aheadSnapshots, ∀ round, aheadEnv.now round < snapshot.time := by
  refine ⟨by decide +kernel, ?_⟩
  intro snapshot hs round
  have hnow : aheadEnv.now round = localClock := rfl
  rw [hnow]
  revert snapshot
  decide

/-- The newer of the two stays. -/
theorem retain_keeps_newest_ahead :
    (retain aheadEnv "plan" emptyRetentionState { id := "local" } ⟨1, 0, 0⟩).forgets ≠ [] ∧
    ∀ batch ∈ (retain aheadEnv "plan" emptyRetentionState { id := "local" } ⟨1, 0, 0⟩).forgets,
      "bbbbbbbb" ∉ batch := by
  refine ⟨by decide +kernel, ?_⟩
  exact (retain_forgets_only_surplus ⟨by decide, by decide, by decide⟩).2.2
    ⟨"bbbbbbbb", localClock + 2 * minute⟩ (by decide +kernel) (by decide +kernel)

end Stacklab.Backup
