import Stacklab.Lib.Fallible
import Stacklab.Store.RetentionSafety

/-! When the order of the stored texts is the order of the times. -/
namespace Stacklab.Store

open Lib

variable {a b : Time} {x y e : AuditEntry} {rows : List AuditEntry}

/-- Two times whose texts are in the wrong order. -/
def MisreadAt (a b : Time) : Prop := Misread (a + unixTime) (b + unixTime)

instance (a b : Time) : Decidable (MisreadAt a b) := inferInstanceAs (Decidable (Misread _ _))

/-- Newest first, with the id as tie-break. -/
def timeKey (e : AuditEntry) : ℤ ×ₗ String := toLex (e.requestedAt, e.id)

def entryReadable (e : AuditEntry) : Bool := readable e.requestedAt && e.finishedAt.all readable

theorem timeText_lt_iff : timeText a < timeText b ↔ (a < b ↔ ¬ MisreadAt a b) := by
  unfold timeText MisreadAt
  rw [rfc3339Nano_lt_iff, add_lt_add_iff_right]

theorem timeText_injective (h : timeText a = timeText b) : a = b :=
  add_right_cancel (rfc3339Nano_injective h)

theorem not_misreadAt_self (a : Time) : ¬ MisreadAt a a := by
  rintro (⟨h, -⟩ | ⟨-, h, -⟩)
  · exact h rfl
  · exact h rfl

theorem textBefore_eq_iff : (textBefore a b = true ↔ a < b) ↔ ¬ MisreadAt a b := by
  rw [textBefore, decide_eq_true_eq, timeText_lt_iff]
  by_cases h : a < b <;> simp [h]

theorem textKey_lt_iff (h : timeKey y < timeKey x) :
    textKey y < textKey x ↔ ¬ MisreadAt y.requestedAt x.requestedAt := by
  rw [timeKey, timeKey, Prod.Lex.toLex_lt_toLex] at h
  rw [textKey, textKey, Prod.Lex.toLex_lt_toLex]
  rcases h with hlt | ⟨heq, hid⟩
  · have hne : timeText y.requestedAt ≠ timeText x.requestedAt :=
      fun htext => hlt.ne (timeText_injective htext)
    simp only [hne, false_and, or_false, timeText_lt_iff]
    exact iff_true_left hlt
  · dsimp only at heq hid
    rw [heq]
    exact iff_of_true (.inr ⟨rfl, hid⟩) (not_misreadAt_self _)

theorem nodup_timeKey (h : (rows.map AuditEntry.id).Nodup) : (rows.map timeKey).Nodup := by
  refine List.Nodup.of_map (fun k => (ofLex k).2) ?_
  rw [List.map_map]
  exact h

theorem nodup_textKey (h : (rows.map AuditEntry.id).Nodup) : (rows.map textKey).Nodup := by
  refine List.Nodup.of_map (fun k => (ofLex k).2) ?_
  rw [List.map_map]
  exact h

/-- Rows sorted by their texts begin with the `n` newest ones exactly if none of these is misread
against an older row. -/
theorem take_newest_iff {n : ℕ} {sorted : List AuditEntry}
    (hids : (rows.map AuditEntry.id).Nodup)
    (hsorted : sorted.Pairwise fun a b => textKey b < textKey a) (hperm : sorted.Perm rows) :
    sorted.take n = (descending timeKey rows).take n ↔
      ∀ x ∈ rows, ∀ y ∈ rows, timeKey y < timeKey x → rank timeKey rows x < n →
        ¬ MisreadAt y.requestedAt x.requestedAt := by
  rw [take_eq_take_iff (pairwise_descending (nodup_timeKey hids)) hsorted
    (hperm.trans perm_descending.symm)]
  have hmem : ∀ e, e ∈ descending timeKey rows ↔ e ∈ rows := fun e => perm_descending.mem_iff
  simp only [hmem, rank_perm perm_descending]
  constructor
  · intro h x hx y hy hlt hrank
    exact (textKey_lt_iff hlt).mp (h x hx y hy hlt hrank)
  · intro h x hx y hy hlt hrank
    exact (textKey_lt_iff hlt).mpr (h x hx y hy hlt hrank)

theorem scanAuditEntry_eq : scanAuditEntry e = .ok e ↔ entryReadable e = true := by
  unfold scanAuditEntry entryReadable
  cases readable e.requestedAt with
  | false => simp
  | true =>
    cases e.finishedAt with
    | none => simp
    | some t => cases readable t <;> simp

theorem scanAuditEntry_ok (h : scanAuditEntry e = .ok x) : x = e := by
  unfold scanAuditEntry at h
  split at h
  · cases h
  · split at h
    · cases h
    · cases h
      rfl

theorem mapM_scan_ok {items : List AuditEntry} (h : rows.mapM scanAuditEntry = .ok items) :
    items = rows ∧ ∀ e ∈ rows, entryReadable e = true := by
  induction rows generalizing items with
  | nil =>
    cases h
    exact ⟨rfl, by simp⟩
  | cons e rows ih =>
    rw [List.mapM_cons] at h
    obtain ⟨e', he, h⟩ := exists_of_bind_ok h
    obtain ⟨rest, hrest, h⟩ := exists_of_bind_ok h
    cases h
    obtain rfl := scanAuditEntry_ok he
    obtain ⟨rfl, hall⟩ := ih hrest
    exact ⟨rfl, List.forall_mem_cons.mpr ⟨scanAuditEntry_eq.mp he, hall⟩⟩

theorem mapM_scan_of_readable (h : ∀ e ∈ rows, entryReadable e = true) :
    rows.mapM scanAuditEntry = .ok rows := by
  induction rows with
  | nil => rfl
  | cons e rows ih =>
    obtain ⟨he, hrest⟩ := List.forall_mem_cons.mp h
    rw [List.mapM_cons, scanAuditEntry_eq.mpr he, ih hrest]
    rfl

section Lists

variable (lib : AuditLib) (query : AuditQuery) (t : AuditTable)

/-- What a listing is to return: the newest matching entries, newest first. -/
def newestItems : Except StoreError (List AuditEntry) := do
  let cursor ← queryCursor lib query
  .ok ((descending timeKey (t.entries.filter (query.selects lib cursor))).take (queryLimit query))

def ListsChronologically : Prop :=
  (listAuditEntries lib query t).map AuditListResult.items = newestItems lib query t

/-- No entry of the page is misread against an older one, and every row that is read has years of
four digits. -/
def ListClear : Prop :=
  ∀ cursor, queryCursor lib query = .ok cursor →
    let rows := t.entries.filter (query.selects lib cursor)
    (∀ x ∈ rows, rank textKey rows x < queryLimit query + 1 → entryReadable x = true) ∧
      ∀ x ∈ rows, ∀ y ∈ rows, timeKey y < timeKey x → rank timeKey rows x < queryLimit query →
        ¬ MisreadAt y.requestedAt x.requestedAt

variable {lib query t}

theorem nodup_filter (p : AuditEntry → Bool) : ((t.entries.filter p).map AuditEntry.id).Nodup :=
  t.ids.sublist (List.filter_sublist.map _)

theorem pairwise_textKey (p : AuditEntry → Bool) :
    (descending textKey (t.entries.filter p)).Pairwise fun a b => textKey b < textKey a :=
  pairwise_descending (nodup_textKey (nodup_filter p))

theorem auditPage_items {limit : ℕ} {sorted : List AuditEntry} :
    (auditPage lib limit (sorted.take (limit + 1))).items = sorted.take limit := by
  unfold auditPage
  split
  · rw [List.take_take, min_eq_left (by omega)]
  next hshort =>
    rw [List.length_take] at hshort
    rw [List.take_of_length_le (by omega), List.take_of_length_le (by omega)]

/-- The items of a page that could be read. -/
theorem listAuditEntries_items {cursor : Option (Time × String)}
    (hcursor : queryCursor lib query = .ok cursor) (items : List AuditEntry) :
    (listAuditEntries lib query t).map AuditListResult.items = .ok items ↔
      (∀ e ∈ (descending textKey (t.entries.filter (query.selects lib cursor))).take
        (queryLimit query + 1), entryReadable e = true) ∧
      (descending textKey (t.entries.filter (query.selects lib cursor))).take
        (queryLimit query) = items := by
  unfold listAuditEntries
  rw [hcursor]
  change (((descending textKey (t.entries.filter (query.selects lib cursor))).take
    (queryLimit query + 1)).mapM scanAuditEntry >>= fun items =>
      Except.ok (auditPage lib (queryLimit query) items)).map AuditListResult.items = .ok items ↔ _
  generalize descending textKey (t.entries.filter (query.selects lib cursor)) = sorted
  constructor
  · intro h
    cases hscan : (sorted.take (queryLimit query + 1)).mapM scanAuditEntry with
    | error err =>
      rw [hscan] at h
      cases h
    | ok page =>
      obtain ⟨rfl, hall⟩ := mapM_scan_ok hscan
      rw [hscan] at h
      exact ⟨hall, auditPage_items.symm.trans (Except.ok.inj h)⟩
  · rintro ⟨hall, rfl⟩
    rw [mapM_scan_of_readable hall]
    exact congrArg Except.ok auditPage_items

theorem listsChronologically_iff : ListsChronologically lib query t ↔ ListClear lib query t := by
  unfold ListsChronologically newestItems ListClear
  cases hcursor : queryCursor lib query with
  | error err =>
    refine iff_of_true ?_ fun cursor h => ?_
    · unfold listAuditEntries
      rw [hcursor]
      rfl
    · cases h
  | ok cursor =>
    have hids : ((t.entries.filter (query.selects lib cursor)).map AuditEntry.id).Nodup :=
      nodup_filter _
    have hsorted : (descending textKey (t.entries.filter (query.selects lib cursor))).Pairwise
        fun a b => textKey b < textKey a := pairwise_textKey _
    change (listAuditEntries lib query t).map AuditListResult.items = .ok _ ↔ _
    rw [listAuditEntries_items hcursor, take_newest_iff hids hsorted perm_descending]
    simp only [mem_take_iff hsorted, perm_descending.mem_iff, rank_perm perm_descending,
      Except.ok.injEq, forall_eq', and_imp]

end Lists

section Latest

variable {stackIDs : List String} {t : AuditTable} {id : String}

def ofStack (id : String) (e : AuditEntry) : Bool := e.stackID = some id

theorem lookup_firstByStack (rows : List AuditEntry) (id : String) :
    (firstByStack rows).lookup id = (rows.filter (ofStack id)).head? := by
  have hempty : (rows.filter (ofStack id)).head? =
      ((∅ : GoMap String AuditEntry).lookup id).or (rows.filter (ofStack id)).head? := rfl
  rw [hempty, firstByStack]
  generalize (∅ : GoMap String AuditEntry) = m
  induction rows generalizing m with
  | nil => simp
  | cons e rows ih =>
    rw [List.foldl_cons, ih rfl, List.filter_cons]
    cases hstack : e.stackID with
    | none => simp [ofStack, hstack]
    | some k =>
      dsimp only
      by_cases hk : k = id
      · subst hk
        cases hm : m.lookup k <;> simp [ofStack, hstack, hm]
      · have hfilter : ofStack id e = false := by simp [ofStack, hstack, hk]
        have hother : (m.insert k e).lookup id = m.lookup id := by
          rw [GoMap.lookup_insert, if_neg (Ne.symm hk)]
        rw [hfilter]
        split
        · rfl
        · rw [hother]
          rfl

/-- The newest entry of each of the stacks. -/
def LatestChronologically (stackIDs : List String) (t : AuditTable) : Prop :=
  ∃ latest, latestAuditEntriesByStackIDs stackIDs t = .ok latest ∧ ∀ id, latest.lookup id =
    if id ∈ stackIDs then (descending timeKey (t.entries.filter (ofStack id))).head? else none

/-- No newest entry of a stack is misread against another one, and every row that is read has
years of four digits. -/
def LatestClear (stackIDs : List String) (t : AuditTable) : Prop :=
  (∀ e ∈ t.entries, e.stackID.any stackIDs.contains = true → entryReadable e = true) ∧
    ∀ id ∈ stackIDs, ∀ x ∈ t.entries.filter (ofStack id), ∀ y ∈ t.entries.filter (ofStack id),
      timeKey y < timeKey x → rank timeKey (t.entries.filter (ofStack id)) x < 1 →
        ¬ MisreadAt y.requestedAt x.requestedAt

theorem head?_eq_iff_take {α : Type} {l l' : List α} :
    l.head? = l'.head? ↔ l.take 1 = l'.take 1 := by
  cases l <;> cases l' <;> simp

theorem filter_ofStack (hid : id ∈ stackIDs) :
    (t.entries.filter fun e => e.stackID.any stackIDs.contains).filter (ofStack id) =
      t.entries.filter (ofStack id) := by
  rw [List.filter_filter]
  refine List.filter_congr fun e _ => ?_
  by_cases hstack : e.stackID = some id
  · simp [ofStack, hstack, hid]
  · simp [ofStack, hstack]

/-- The first row of a stack in the order of the texts is its newest one. -/
theorem head?_ofStack_iff (hid : id ∈ stackIDs) :
    ((descending textKey (t.entries.filter fun e => e.stackID.any stackIDs.contains)).filter
      (ofStack id)).head? = (descending timeKey (t.entries.filter (ofStack id))).head? ↔
    ∀ x ∈ t.entries.filter (ofStack id), ∀ y ∈ t.entries.filter (ofStack id),
      timeKey y < timeKey x → rank timeKey (t.entries.filter (ofStack id)) x < 1 →
        ¬ MisreadAt y.requestedAt x.requestedAt := by
  rw [head?_eq_iff_take]
  refine take_newest_iff (nodup_filter _) ((pairwise_textKey _).filter _) ?_
  rw [← filter_ofStack hid]
  exact perm_descending.filter _

theorem latestChronologically_iff :
    LatestChronologically stackIDs t ↔ LatestClear stackIDs t := by
  unfold LatestChronologically LatestClear latestAuditEntriesByStackIDs
  dsimp only
  generalize hsorted : descending textKey
    (t.entries.filter fun e => e.stackID.any stackIDs.contains) = sorted
  have hmem : ∀ e, e ∈ sorted ↔ e ∈ t.entries ∧ e.stackID.any stackIDs.contains = true := by
    intro e
    rw [← hsorted, perm_descending.mem_iff, List.mem_filter]
  have hnone : ∀ id ∉ stackIDs, (sorted.filter (ofStack id)).head? = none := by
    intro id hid
    rw [List.head?_eq_none_iff, List.filter_eq_nil_iff]
    intro e he hstack
    have hany := ((hmem e).mp he).2
    rw [of_decide_eq_true hstack, Option.any_some] at hany
    exact hid (by simpa using hany)
  constructor
  · rintro ⟨latest, hlatest, hlookup⟩
    obtain ⟨items, hitems, hlatest⟩ := exists_of_bind_ok hlatest
    cases hlatest
    obtain ⟨rfl, hall⟩ := mapM_scan_ok hitems
    refine ⟨fun e he hstack => hall e ((hmem e).mpr ⟨he, hstack⟩), fun id hid => ?_⟩
    apply (head?_ofStack_iff hid).mp
    have hid' := hlookup id
    rw [lookup_firstByStack, if_pos hid] at hid'
    rw [hsorted]
    exact hid'
  · rintro ⟨hall, hclear⟩
    have hread : ∀ e ∈ sorted, entryReadable e = true :=
      fun e he => hall e ((hmem e).mp he).1 ((hmem e).mp he).2
    rw [mapM_scan_of_readable hread]
    refine ⟨firstByStack sorted, rfl, fun id => ?_⟩
    rw [lookup_firstByStack]
    split
    next hid =>
      rw [← hsorted]
      exact (head?_ofStack_iff hid).mpr (hclear id hid)
    next hid => exact hnone id hid

end Latest

section Prunes

open OperationalTables

variable {now : Time} {policy : OperationalRetentionPolicy} {t : OperationalTables} {id : String}

/-- Whether one time lies before another. -/
def earlier (a b : Time) : Bool := a < b

/-- The times that end a session. -/
def sessionEnds (s : SessionRow) : List Time := s.expiresAt :: s.revokedAt.toList

/-- The prune deletes what it would delete if it compared times. -/
structure PrunesChronologically (now : Time) (policy : OperationalRetentionPolicy)
    (t : OperationalTables) : Prop where
  audit : ∀ e, e ∈ (pruneOperationalData now policy t).2.audit.entries ↔
    e ∈ (pruneBy earlier now policy t).2.audit.entries
  jobs : ∀ id, (pruneOperationalData now policy t).2.jobs.rows.lookup id =
    (pruneBy earlier now policy t).2.jobs.rows.lookup id
  events : ∀ e, e ∈ (pruneOperationalData now policy t).2.jobs.events ↔
    e ∈ (pruneBy earlier now policy t).2.jobs.events
  sessions : ∀ id, (pruneOperationalData now policy t).2.sessions.lookup id =
    (pruneBy earlier now policy t).2.sessions.lookup id

/-- No time that decides is misread against its cutoff: an audit entry's; that of a finished job
which no entry at or after the cutoff refers to; an event's whose job is neither active nor pruned.
A session may have one time misread if the other decides. -/
structure PruneClear (now : Time) (policy : OperationalRetentionPolicy) (t : OperationalTables) :
    Prop where
  audit : ∀ e ∈ t.audit.entries, ¬ MisreadAt e.requestedAt (now - policy.auditEntryRetention)
  jobs : ∀ id row, t.jobs.rows.lookup id = some row → row.job.state.isActive = false →
    (∀ e ∈ t.audit.entries, e.jobID = some id →
      e.requestedAt < now - policy.auditEntryRetention) →
    ¬ MisreadAt row.job.endedAt (now - policy.jobRetention)
  events : ∀ e ∈ t.jobs.events, t.jobActive e.jobID = false →
    prunable earlier now policy t e.jobID = false →
    ¬ MisreadAt e.timestamp (now - policy.jobEventRetention)
  sessions : ∀ id s, t.sessions.lookup id = some s →
    ((∃ x ∈ sessionEnds s, x < now - policy.expiredSessionRetention) ↔
      ∃ x ∈ sessionEnds s, (x < now - policy.expiredSessionRetention ↔
        ¬ MisreadAt x (now - policy.expiredSessionRetention)))

theorem textBefore_eq (h : ¬ MisreadAt a b) : textBefore a b = earlier a b := by
  rw [Bool.eq_iff_iff, earlier, decide_eq_true_eq]
  exact textBefore_eq_iff.mpr h

theorem not_misreadAt_of_eq (h : textBefore a b = earlier a b) : ¬ MisreadAt a b := by
  refine textBefore_eq_iff.mp ?_
  rw [h, earlier, decide_eq_true_eq]

theorem sessionEnded_iff (before : Time → Time → Bool) (cutoff : Time) (s : SessionRow) :
    sessionEnded before cutoff s = true ↔ ∃ x ∈ sessionEnds s, before x cutoff = true := by
  unfold sessionEnded sessionEnds
  cases s.revokedAt <;> simp

theorem prunable_iff (before : Time → Time → Bool) :
    prunable before now policy t id = true ↔ ∃ row, t.jobs.rows.lookup id = some row ∧
      row.job.state.isActive = false ∧
      before row.job.endedAt (now - policy.jobRetention) = true ∧
      ∀ e ∈ t.audit.entries, e.jobID = some id →
        before e.requestedAt (now - policy.auditEntryRetention) = true := by
  unfold prunable
  cases t.jobs.rows.lookup id with
  | none => simp
  | some row => simp [and_assoc]

theorem audit_iff :
    (∀ e, e ∈ (pruneOperationalData now policy t).2.audit.entries ↔
      e ∈ (pruneBy earlier now policy t).2.audit.entries) ↔
    ∀ e ∈ t.audit.entries, ¬ MisreadAt e.requestedAt (now - policy.auditEntryRetention) := by
  unfold pruneOperationalData
  simp only [mem_pruned_audit]
  constructor
  · intro h e he
    apply not_misreadAt_of_eq
    have hiff := h e
    simp only [he, true_and] at hiff
    rw [Bool.eq_iff_iff, ← not_iff_not, Bool.not_eq_true, Bool.not_eq_true]
    exact hiff
  · intro h e
    refine and_congr_right fun he => ?_
    rw [textBefore_eq (h e he)]

/-- With the audit entries read right, a job is selected wrongly exactly if its own time is
misread. -/
theorem prunable_eq_iff
    (haudit : ∀ e ∈ t.audit.entries,
      ¬ MisreadAt e.requestedAt (now - policy.auditEntryRetention)) :
    prunable textBefore now policy t id = prunable earlier now policy t id ↔
      ∀ row, t.jobs.rows.lookup id = some row → row.job.state.isActive = false →
        (∀ e ∈ t.audit.entries, e.jobID = some id →
          e.requestedAt < now - policy.auditEntryRetention) →
        ¬ MisreadAt row.job.endedAt (now - policy.jobRetention) := by
  have hentries : (∀ e ∈ t.audit.entries, e.jobID = some id →
      textBefore e.requestedAt (now - policy.auditEntryRetention) = true) ↔
      ∀ e ∈ t.audit.entries, e.jobID = some id →
        e.requestedAt < now - policy.auditEntryRetention := by
    refine forall₂_congr fun e he => imp_congr_right fun _ => ?_
    exact textBefore_eq_iff.mpr (haudit e he)
  have hentries' : (∀ e ∈ t.audit.entries, e.jobID = some id →
      earlier e.requestedAt (now - policy.auditEntryRetention) = true) ↔
      ∀ e ∈ t.audit.entries, e.jobID = some id →
        e.requestedAt < now - policy.auditEntryRetention := by
    simp [earlier]
  rw [Bool.eq_iff_iff, prunable_iff, prunable_iff]
  simp only [hentries, hentries']
  cases hrow : t.jobs.rows.lookup id with
  | none => simp
  | some row =>
    simp only [Option.some.injEq, exists_eq_left', forall_eq', earlier, decide_eq_true_eq,
      ← textBefore_eq_iff]
    rw [and_congr_right_iff]
    exact imp_congr_right fun _ => and_congr_left_iff

/-- A row that is there stays or goes alike exactly if the conditions agree. -/
theorem kept_eq_iff {α : Type} {p q : Bool} {row : α} :
    ((if p then none else some row) = if q then none else some row) ↔ p = q := by
  cases p <;> cases q <;> simp

theorem jobs_iff :
    (∀ id, (pruneOperationalData now policy t).2.jobs.rows.lookup id =
      (pruneBy earlier now policy t).2.jobs.rows.lookup id) ↔
    ∀ id, prunable textBefore now policy t id = prunable earlier now policy t id := by
  refine forall_congr' fun id => ?_
  unfold pruneOperationalData
  rw [lookup_pruned, lookup_pruned]
  cases hrow : t.jobs.rows.lookup id with
  | none =>
    have hnone : ∀ before, prunable before now policy t id = false := by
      intro before
      unfold prunable
      rw [hrow]
    simp [hnone]
  | some row => exact kept_eq_iff

theorem events_iff
    (hjobs : ∀ id, prunable textBefore now policy t id = prunable earlier now policy t id) :
    (∀ e, e ∈ (pruneOperationalData now policy t).2.jobs.events ↔
      e ∈ (pruneBy earlier now policy t).2.jobs.events) ↔
    ∀ e ∈ t.jobs.events, t.jobActive e.jobID = false →
      prunable earlier now policy t e.jobID = false →
      ¬ MisreadAt e.timestamp (now - policy.jobEventRetention) := by
  refine forall_congr' fun e => ?_
  unfold pruneOperationalData
  rw [mem_pruned_events, mem_pruned_events, hjobs, ← textBefore_eq_iff, earlier,
    decide_eq_true_eq, and_congr_right_iff]
  refine imp_congr_right fun _ => ?_
  cases t.jobActive e.jobID with
  | true => simp
  | false =>
    cases prunable earlier now policy t e.jobID with
    | true => simp
    | false =>
      simp only [Bool.false_eq_true, imp_false, and_true, true_imp_iff, not_iff_not]

theorem sessions_iff :
    (∀ id, (pruneOperationalData now policy t).2.sessions.lookup id =
      (pruneBy earlier now policy t).2.sessions.lookup id) ↔
    ∀ id s, t.sessions.lookup id = some s →
      ((∃ x ∈ sessionEnds s, x < now - policy.expiredSessionRetention) ↔
        ∃ x ∈ sessionEnds s, (x < now - policy.expiredSessionRetention ↔
          ¬ MisreadAt x (now - policy.expiredSessionRetention))) := by
  refine forall_congr' fun id => ?_
  unfold pruneOperationalData
  rw [lookup_pruned_sessions, lookup_pruned_sessions]
  cases hs : t.sessions.lookup id with
  | none => simp
  | some s =>
    have htext := sessionEnded_iff textBefore (now - policy.expiredSessionRetention) s
    have htime := sessionEnded_iff earlier (now - policy.expiredSessionRetention) s
    simp only [textBefore, decide_eq_true_eq, timeText_lt_iff] at htext
    simp only [earlier, decide_eq_true_eq] at htime
    simp only [Option.any_some, Option.some.injEq, forall_eq', ← htext, ← htime]
    rw [kept_eq_iff, eq_comm, Bool.eq_iff_iff]

theorem prunesChronologically_iff :
    PrunesChronologically now policy t ↔ PruneClear now policy t := by
  constructor
  · intro h
    have haudit := audit_iff.mp h.audit
    have hjobs := jobs_iff.mp h.jobs
    exact ⟨haudit, fun id => (prunable_eq_iff haudit).mp (hjobs id), (events_iff hjobs).mp h.events,
      sessions_iff.mp h.sessions⟩
  · intro h
    have hjobs := fun id => (prunable_eq_iff h.audit).mpr (h.jobs id)
    exact ⟨audit_iff.mpr h.audit, jobs_iff.mpr hjobs, (events_iff hjobs).mpr h.events,
      sessions_iff.mpr h.sessions⟩

end Prunes

def entryAt (id : String) (requestedAt : Time) : AuditEntry :=
  ⟨id, some "web", none, "deploy", "local", "succeeded", requestedAt, none, none, "stack", none,
    none⟩

/-- An entry at the full second and one half a second later. -/
def halfSecondApart : OperationalTables where
  jobs := ⟨∅, []⟩
  audit := ⟨[entryAt "a" 0, entryAt "b" 500000000], by decide⟩
  sessions := ∅

def plainLib : AuditLib where
  toLower s := s
  like _ _ := true
  lower s := s
  julianday _ := none
  encodeBase64 s := s
  decodeBase64 s := some s
  parseTime _ := none

end Stacklab.Store
