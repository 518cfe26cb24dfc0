import Stacklab.Backup.RetentionSafety
import Stacklab.Lib.CalendarKeys
import Stacklab.Lib.RecentPeriods

/-! The snapshots that a retention policy keeps, in terms of the calendar. -/
namespace Stacklab.Backup

open Lib

variable {snapshots ordered kept : List Snapshot} {policy policy' : Retention} {s : Snapshot}
  {count : ℤ} {key : Instant → String} {period : Instant → ℤ} {snapshotID : String}
  {periods : List String} {seen : Finset String} {front : List Snapshot}

def Newer (a b : Snapshot) : Prop := newerFirst a b = true

theorem newer_refl (a : Snapshot) : Newer a a :=
  (newerFirst_total a a).elim (fun h => h) fun h => h

theorem Newer.time_le {a b : Snapshot} (h : Newer a b) : b.time ≤ a.time := by
  rcases newerFirst_iff.mp h with hlt | ⟨heq, -⟩
  · exact hlt.le
  · exact heq.ge

/-- A snapshot that the policy keeps for its day, its week or its month. -/
def Retained (snapshots : List Snapshot) (policy : Retention) (s : Snapshot) : Prop :=
  KeptBy Newer (fun s => dayNumber s.time) policy.daily snapshots s ∨
    KeptBy Newer (fun s => weekNumber s.time) policy.weekly snapshots s ∨
    KeptBy Newer (fun s => monthNumber s.time) policy.monthly snapshots s

section Loop

variable {x : Snapshot}

/-- The snapshot is the first of a new period, and fewer periods than the count came before. -/
def Starts (count : ℤ) (key : Instant → String) (seen : Finset String) (front : List Snapshot)
    (s : Snapshot) : Prop :=
  key s.time ∉ seen ∪ (front.map fun s => key s.time).toFinset ∧
    ((seen ∪ (front.map fun s => key s.time).toFinset).card : ℤ) < count

/-- The id of some snapshot of the list that starts a period. -/
def StartsIn (count : ℤ) (key : Instant → String) (seen : Finset String)
    (ordered : List Snapshot) (snapshotID : String) : Prop :=
  ∃ front s after, ordered = front ++ s :: after ∧ s.id = snapshotID ∧ Starts count key seen front s

theorem starts_cons : Starts count key seen (x :: front) s ↔
    Starts count key (insert (key x.time) seen) front s := by
  rw [Starts, Starts, List.map_cons, List.toFinset_cons, Finset.union_insert, Finset.insert_union]

theorem startsIn_cons {rest : List Snapshot} :
    StartsIn count key seen (x :: rest) snapshotID ↔
      x.id = snapshotID ∧ Starts count key seen [] x ∨
        StartsIn count key (insert (key x.time) seen) rest snapshotID := by
  constructor
  · rintro ⟨front, s, after, hsplit, hid, hstarts⟩
    cases front with
    | nil =>
      cases hsplit
      exact .inl ⟨hid, hstarts⟩
    | cons y front =>
      cases hsplit
      exact .inr ⟨front, s, after, rfl, hid, starts_cons.mp hstarts⟩
  · rintro (⟨hid, hstarts⟩ | ⟨front, s, after, rfl, hid, hstarts⟩)
    · exact ⟨[], x, rest, rfl, hid, hstarts⟩
    · exact ⟨x :: front, s, after, rfl, hid, starts_cons.mpr hstarts⟩

/-- With as many periods as the count, no snapshot starts another one. -/
theorem not_startsIn (h : count ≤ seen.card) : ¬ StartsIn count key seen ordered snapshotID := by
  rintro ⟨front, s, after, -, -, -, hlt⟩
  have hsub : seen ⊆ seen ∪ (front.map fun s => key s.time).toFinset := Finset.subset_union_left
  have hle := Finset.card_le_card hsub
  omega

theorem mem_keepPeriods (hnodup : periods.Nodup) :
    snapshotID ∈ (keepPeriods count key periods ordered).1 ↔
      StartsIn count key periods.toFinset ordered snapshotID := by
  induction ordered generalizing periods with
  | nil => simp [keepPeriods, StartsIn]
  | cons x rest ih =>
    rw [keepPeriods]
    have hcard : periods.toFinset.card = periods.length := List.toFinset_card_of_nodup hnodup
    by_cases hold : key x.time ∈ periods
    · have hseen : key x.time ∈ periods.toFinset := List.mem_toFinset.mpr hold
      rw [if_pos hold, ih hnodup, startsIn_cons, Finset.insert_eq_of_mem hseen]
      constructor
      · exact .inr
      · rintro (⟨-, hnew, -⟩ | h)
        · exact absurd (Finset.mem_union_left _ (List.mem_toFinset.mpr hold)) hnew
        · exact h
    · rw [if_neg hold]
      by_cases hfull : count ≤ periods.length
      · rw [if_pos hfull]
        exact iff_of_false List.not_mem_nil (not_startsIn (by omega))
      · rw [if_neg hfull, startsIn_cons, ← List.toFinset_cons]
        have hstarts : Starts count key periods.toFinset [] x := by
          refine ⟨by simpa using hold, ?_⟩
          simp only [List.map_nil, List.toFinset_nil, Finset.union_empty]
          omega
        rw [List.mem_cons, ih (List.nodup_cons.mpr ⟨hold, hnodup⟩)]
        exact or_congr ⟨fun h => ⟨h.symm, hstarts⟩, fun h => h.1.symm⟩ Iff.rfl

/-- The loop has fewer periods than the count exactly if there are fewer. -/
theorem length_keepPeriods_lt (hnodup : periods.Nodup) :
    ((keepPeriods count key periods ordered).2.length : ℤ) < count ↔
      ((periods.toFinset ∪ (ordered.map fun s => key s.time).toFinset).card : ℤ) < count := by
  induction ordered generalizing periods with
  | nil => simp [keepPeriods, List.toFinset_card_of_nodup hnodup]
  | cons x rest ih =>
    rw [keepPeriods, List.map_cons, List.toFinset_cons, Finset.union_insert, ← Finset.insert_union]
    by_cases hold : key x.time ∈ periods
    · rw [if_pos hold, ih hnodup, Finset.insert_eq_of_mem (List.mem_toFinset.mpr hold)]
    · rw [if_neg hold]
      by_cases hfull : count ≤ periods.length
      · rw [if_pos hfull]
        have hcard : periods.toFinset.card = periods.length := List.toFinset_card_of_nodup hnodup
        have hsub : periods.toFinset ⊆ insert (key x.time) periods.toFinset ∪
            (rest.map fun s => key s.time).toFinset :=
          (Finset.subset_insert _ _).trans Finset.subset_union_left
        have hle := Finset.card_le_card hsub
        exact iff_of_false (by dsimp only; omega) (by omega)
      · rw [if_neg hfull, ← List.toFinset_cons]
        exact ih (List.nodup_cons.mpr ⟨hold, hnodup⟩)

end Loop

section Bucket

variable {after : List Snapshot}

/-- Snapshots with different ids, the newest first. -/
structure Ordered (ordered : List Snapshot) : Prop where
  sorted : ordered.Pairwise Newer
  ids : (ordered.map Snapshot.id).Nodup

theorem Ordered.eq_of_newer {a b : Snapshot} (h : Ordered ordered) (ha : a ∈ ordered)
    (hb : b ∈ ordered) (hab : Newer a b) (hba : Newer b a) : a = b :=
  List.inj_on_of_nodup_map h.ids ha hb (newerFirst_antisymm hab hba)

/-- The calendar period of a text key, which moves forward with time. -/
structure PeriodOf (key : Instant → String) (period : Instant → ℤ) : Prop where
  same : ∀ t u, key t = key u ↔ period t = period u
  mono : ∀ t u, t ≤ u → period t ≤ period u

theorem newestOf_split (h : Ordered (front ++ s :: after)) :
    NewestOf Newer (fun s => period s.time) (front ++ s :: after) s ↔
      period s.time ∉ front.map fun s => period s.time := by
  have hsorted := h.sorted
  rw [List.pairwise_append, List.pairwise_cons] at hsorted
  obtain ⟨-, ⟨hafter, -⟩, hfront⟩ := hsorted
  constructor
  · intro hnewest hmem
    obtain ⟨x, hx, hperiod⟩ := List.mem_map.mp hmem
    have hxs : x = s := by
      refine h.eq_of_newer (List.mem_append_left _ hx) (by simp) (hfront x hx s (by simp)) ?_
      exact hnewest.newest x (List.mem_append_left _ hx) hperiod
    subst hxs
    have hids := h.ids
    rw [List.map_append, List.map_cons, List.nodup_append] at hids
    exact hids.2.2 x.id (List.mem_map_of_mem hx) x.id List.mem_cons_self rfl
  · intro hnew
    refine ⟨by simp, fun b hb hperiod => ?_⟩
    rcases List.mem_append.mp hb with hb | hb
    · exact absurd (List.mem_map.mpr ⟨b, hb, hperiod⟩) hnew
    · rcases List.mem_cons.mp hb with rfl | hb
      · exact newer_refl b
      · exact hafter b hb

theorem starts_iff (hkey : PeriodOf key period) (h : Ordered (front ++ s :: after)) :
    Starts count key ∅ front s ↔
      NewestOf Newer (fun s => period s.time) (front ++ s :: after) s ∧
        (laterPeriods (fun s => period s.time) (front ++ s :: after) (period s.time) : ℤ) <
          count := by
  have hsame : ∀ a b : Snapshot, key a.time = key b.time ↔ period a.time = period b.time :=
    fun a b => hkey.same a.time b.time
  have hmem : key s.time ∈ front.map (fun s => key s.time) ↔
      period s.time ∈ front.map (fun s => period s.time) := by
    simp only [List.mem_map, hsame]
  rw [newestOf_split h, Starts, Finset.empty_union, List.mem_toFinset, hmem,
    card_toFinset_map hsame]
  refine and_congr_right fun hnew => ?_
  rw [laterPeriods_eq (fun a b hab => hkey.mono _ _ hab.time_le) h.sorted hnew]

theorem oldest_iff (h : Ordered ordered) :
    snapshotID ∈ (ordered.getLast?.map Snapshot.id).toList ↔
      ∃ s ∈ ordered, s.id = snapshotID ∧ ∀ b ∈ ordered, Newer b s := by
  rcases List.eq_nil_or_concat ordered with rfl | ⟨front, last, rfl⟩
  · simp
  · rw [List.concat_eq_append] at h ⊢
    have hlast : ∀ b ∈ front ++ [last], Newer b last := by
      intro b hb
      rcases List.mem_append.mp hb with hb | hb
      · exact (List.pairwise_append.mp h.sorted).2.2 b hb last (List.mem_singleton_self last)
      · rw [List.mem_singleton.mp hb]
        exact newer_refl last
    rw [List.getLast?_concat, Option.map_some, Option.mem_toList,
      Option.some_inj]
    constructor
    · intro hid
      exact ⟨last, by simp, hid, hlast⟩
    · rintro ⟨s, hs, rfl, holdest⟩
      rw [h.eq_of_newer hs (by simp) (hlast s hs) (holdest last (by simp))]

/-- One bucket keeps what the count of its periods keeps. -/
theorem mem_keepBucket (hkey : PeriodOf key period) (h : Ordered ordered) :
    snapshotID ∈ keepBucket ordered count key ↔ ∃ s ∈ ordered, s.id = snapshotID ∧
      KeptBy Newer (fun s => period s.time) count ordered s := by
  have hpopulated : ((ordered.map fun s => key s.time).toFinset.card : ℤ) =
      (populated (fun s : Snapshot => period s.time) ordered).card := by
    rw [populated, card_toFinset_map fun a b : Snapshot => hkey.same a.time b.time]
  rw [keepBucket]
  by_cases hcount : count ≤ 0
  · rw [if_pos hcount]
    refine iff_of_false List.not_mem_nil ?_
    rintro ⟨s, -, -, hkept⟩
    cases hkept with
    | newest _ hrecent => omega
    | oldest _ _ hfew => omega
  · rw [if_neg hcount]
    have hkeep := @mem_keepPeriods ordered count key snapshotID [] List.nodup_nil
    have hfilled := @length_keepPeriods_lt ordered count key [] List.nodup_nil
    rw [List.toFinset_nil] at hkeep hfilled
    rw [Finset.empty_union, hpopulated] at hfilled
    rw [List.mem_append, hkeep]
    constructor
    · rintro (⟨front, s, after, rfl, hid, hstarts⟩ | hoption)
      · obtain ⟨hnewest, hrecent⟩ := (starts_iff hkey h).mp hstarts
        exact ⟨s, by simp, hid, .newest hnewest hrecent⟩
      · split at hoption
        next hfew =>
          obtain ⟨s, hs, hid, holdest⟩ := (oldest_iff h).mp hoption
          exact ⟨s, hs, hid, .oldest hs holdest (hfilled.mp hfew)⟩
        · cases hoption
    · rintro ⟨s, hs, hid, hkept⟩
      cases hkept with
      | newest hnewest hrecent =>
        obtain ⟨front, after, rfl⟩ := List.append_of_mem hs
        exact .inl ⟨front, s, after, rfl, hid, (starts_iff hkey h).mpr ⟨hnewest, hrecent⟩⟩
      | oldest _ holdest hfew =>
        rw [if_pos (hfilled.mpr hfew)]
        exact .inr ((oldest_iff h).mpr ⟨s, hs, hid, holdest⟩)

end Bucket

theorem ordered_insertionSort (hids : (snapshots.map Snapshot.id).Nodup) :
    Ordered (snapshots.insertionSort (newerFirst · ·)) where
  sorted := List.pairwise_insertionSort (newerFirst · ·) snapshots
  ids := ((List.perm_insertionSort _ _).map Snapshot.id).nodup_iff.mpr hids

/-- What the policy keeps, read off the calendar. -/
theorem mem_retained (hids : (snapshots.map Snapshot.id).Nodup) :
    snapshotID ∈ retainedSnapshotIDs snapshots policy ↔
      ∃ s ∈ snapshots, s.id = snapshotID ∧ Retained snapshots policy s := by
  have hordered := ordered_insertionSort hids
  have hmem : ∀ s, s ∈ snapshots.insertionSort (newerFirst · ·) ↔ s ∈ snapshots := by simp
  have hday : PeriodOf dayPeriod dayNumber :=
    ⟨fun _ _ => dayPeriod_eq_iff, fun _ _ => dayNumber_mono⟩
  have hweek : PeriodOf weekPeriod weekNumber :=
    ⟨fun _ _ => weekPeriod_eq_iff, fun _ _ => weekNumber_mono⟩
  have hmonth : PeriodOf monthPeriod monthNumber :=
    ⟨fun _ _ => monthPeriod_eq_iff, fun _ _ => monthNumber_mono⟩
  rw [retainedSnapshotIDs]
  rw [List.mem_append, List.mem_append, mem_keepBucket hday hordered,
    mem_keepBucket hweek hordered, mem_keepBucket hmonth hordered]
  simp only [hmem, keptBy_congr hmem, Retained]
  constructor
  · rintro ((⟨s, hs, hid, h⟩ | ⟨s, hs, hid, h⟩) | ⟨s, hs, hid, h⟩)
    · exact ⟨s, hs, hid, .inl h⟩
    · exact ⟨s, hs, hid, .inr (.inl h)⟩
    · exact ⟨s, hs, hid, .inr (.inr h)⟩
  · rintro ⟨s, hs, hid, h | h | h⟩
    · exact .inl (.inl ⟨s, hs, hid, h⟩)
    · exact .inl (.inr ⟨s, hs, hid, h⟩)
    · exact .inr ⟨s, hs, hid, h⟩

theorem Retained.of_subset (h : Retained snapshots policy s) (hsub : kept ⊆ snapshots)
    (hs : s ∈ kept) : Retained kept policy s := by
  rcases h with h | h | h
  · exact .inl (h.of_subset hsub hs)
  · exact .inr (.inl (h.of_subset hsub hs))
  · exact .inr (.inr (h.of_subset hsub hs))

theorem Retained.mono (h : Retained snapshots policy s) (hdaily : policy.daily ≤ policy'.daily)
    (hweekly : policy.weekly ≤ policy'.weekly) (hmonthly : policy.monthly ≤ policy'.monthly) :
    Retained snapshots policy' s := by
  rcases h with h | h | h
  · exact .inl (h.mono hdaily)
  · exact .inr (.inl (h.mono hweekly))
  · exact .inr (.inr (h.mono hmonthly))

def keptSnapshots (snapshots : List Snapshot) (policy : Retention) : List Snapshot :=
  snapshots.filter fun s => s.id ∈ retainedSnapshotIDs snapshots policy

/-- A policy keeps exactly the snapshots that the calendar says, whatever the order of the list;
it keeps all of them again, and a policy with higher counts keeps them too. -/
theorem retained_meets_calendar (hids : (snapshots.map Snapshot.id).Nodup) (policy : Retention) :
    (∀ id, id ∈ retainedSnapshotIDs snapshots policy ↔
      ∃ s ∈ snapshots, s.id = id ∧ Retained snapshots policy s) ∧
    (∀ other : List Snapshot, other.Perm snapshots → ∀ id,
      id ∈ retainedSnapshotIDs other policy ↔ id ∈ retainedSnapshotIDs snapshots policy) ∧
    (∀ s ∈ keptSnapshots snapshots policy,
      s.id ∈ retainedSnapshotIDs (keptSnapshots snapshots policy) policy) ∧
    ∀ policy' : Retention, policy.daily ≤ policy'.daily → policy.weekly ≤ policy'.weekly →
      policy.monthly ≤ policy'.monthly →
      retainedSnapshotIDs snapshots policy ⊆ retainedSnapshotIDs snapshots policy' := by
  refine ⟨fun id => mem_retained hids, ?_, ?_, ?_⟩
  · intro other hperm id
    have hids' : (other.map Snapshot.id).Nodup := (hperm.map Snapshot.id).nodup_iff.mpr hids
    have hmem : ∀ s, s ∈ other ↔ s ∈ snapshots := fun s => hperm.mem_iff
    rw [mem_retained hids', mem_retained hids]
    simp only [Retained, keptBy_congr hmem, hmem]
  · intro s hs
    have hsub : keptSnapshots snapshots policy ⊆ snapshots := List.filter_subset_self _
    have hids' : ((keptSnapshots snapshots policy).map Snapshot.id).Nodup :=
      hids.sublist (List.filter_sublist.map _)
    obtain ⟨hmem, hkept⟩ := List.mem_filter.mp hs
    obtain ⟨x, hx, hid, hretained⟩ := (mem_retained hids).mp (of_decide_eq_true hkept)
    obtain rfl := List.inj_on_of_nodup_map hids hx hmem hid
    exact (mem_retained hids').mpr ⟨x, hs, rfl, hretained.of_subset hsub hs⟩
  · intro policy' hdaily hweekly hmonthly id hid
    obtain ⟨s, hs, hid, hretained⟩ := (mem_retained hids).mp hid
    exact (mem_retained hids).mpr ⟨s, hs, hid, hretained.mono hdaily hweekly hmonthly⟩

/-- The newer of two snapshots of one day is kept, also when more days are. -/
theorem newer_of_day_retained :
    "b" ∈ retainedSnapshotIDs [⟨"a", 0⟩, ⟨"b", 1⟩] ⟨1, 0, 0⟩ ∧
      "a" ∉ retainedSnapshotIDs [⟨"a", 0⟩, ⟨"b", 1⟩] ⟨1, 0, 0⟩ ∧
      "b" ∈ retainedSnapshotIDs [⟨"a", 0⟩, ⟨"b", 1⟩] ⟨2, 0, 0⟩ := by
  have hkept : "b" ∈ retainedSnapshotIDs [⟨"a", 0⟩, ⟨"b", 1⟩] ⟨1, 0, 0⟩ := by decide +kernel
  refine ⟨hkept, by decide +kernel, ?_⟩
  exact (retained_meets_calendar (by decide) ⟨1, 0, 0⟩).2.2.2 ⟨2, 0, 0⟩ (by decide) (by decide)
    (by decide) hkept

end Stacklab.Backup
