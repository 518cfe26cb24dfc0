import Stacklab.Store.TextOrder

/-! Following the cursors of the audit listing while entries are added. -/
namespace Stacklab.Store

open Lib

variable {lib : AuditLib} {query : AuditQuery} {t u : AuditTable} {ts : List AuditTable}
  {e last : AuditEntry} {bound : Option (String ×ₗ String)} {page : AuditListResult}
  {pages : List AuditListResult} {n : ℕ}

/-- Request a page on each table, each from the cursor of the page before, until there is none. -/
def followPages (lib : AuditLib) : AuditQuery → List AuditTable →
    Except StoreError (List AuditListResult)
  | _, [] => .ok []
  | query, t :: ts => do
    let page ← listAuditEntries lib query t
    match page.nextCursor with
    | none => .ok [page]
    | some cursor =>
      let rest ← followPages lib { query with cursor } ts
      .ok (page :: rest)

def Finished (pages : List AuditListResult) : Prop :=
  ∃ page, pages.getLast? = some page ∧ page.nextCursor = none

theorem Finished.tail (h : Finished (page :: pages)) (hcursor : page.nextCursor ≠ none) :
    Finished pages := by
  obtain ⟨lastPage, hfinal, hnone⟩ := h
  rw [List.getLast?_cons] at hfinal
  cases hrest : pages.getLast? with
  | none =>
    rw [hrest] at hfinal
    cases hfinal
    exact absurd hnone hcursor
  | some other =>
    rw [hrest] at hfinal
    cases hfinal
    exact ⟨other, hrest, hnone⟩

theorem Finished.cons (h : Finished pages) : Finished (page :: pages) := by
  obtain ⟨lastPage, hfinal, hnone⟩ := h
  refine ⟨lastPage, ?_, hnone⟩
  rw [List.getLast?_cons, hfinal]
  rfl

def allItems (pages : List AuditListResult) : List AuditEntry := pages.flatMap AuditListResult.items

/-- What the cursors need of `encoding/base64` and `time.Parse`. -/
structure CursorCodec (lib : AuditLib) : Prop where
  decode_encode : ∀ text, lib.decodeBase64 (lib.encodeBase64 text) = some text
  encode_empty : lib.encodeBase64 "" = ""
  parse_format : ∀ t, readable t = true → lib.parseTime (timeText t) = some t

theorem bar_not_mem_timeText (t : Time) : '|' ∉ (timeText t).toList := by
  intro h
  exact absurd (le_Z_of_mem_rfc3339Nano _ h) (by decide)

theorem splitCursor_append {time id : List Char} (h : '|' ∉ time) :
    splitCursor (time ++ '|' :: id) = some (time, id) := by
  have hne : ∀ c ∈ time, decide (c ≠ '|') = true := by
    intro c hc
    rw [decide_eq_true_eq]
    rintro rfl
    exact h hc
  rw [splitCursor, if_pos (by simp), List.takeWhile_append_of_pos hne,
    List.dropWhile_append_of_pos hne]
  simp

/-- A cursor gives back the time and the id, whatever characters the id has. -/
theorem decode_encodeAuditCursor (hlib : CursorCodec lib) {requestedAt : Time} {id : String}
    (h : readable requestedAt = true) :
    decodeAuditCursor lib (encodeAuditCursor lib requestedAt id) = .ok (requestedAt, id) := by
  have hsplit : splitCursor (timeText requestedAt ++ "|" ++ id).toList =
      some ((timeText requestedAt).toList, id.toList) := by
    rw [String.toList_append, String.toList_append, List.append_assoc]
    exact splitCursor_append (bar_not_mem_timeText requestedAt)
  rw [decodeAuditCursor, encodeAuditCursor, hlib.decode_encode]
  simp only [hsplit, String.ofList_toList, hlib.parse_format requestedAt h]

theorem encodeAuditCursor_ne_empty (hlib : CursorCodec lib) (requestedAt : Time) (id : String) :
    encodeAuditCursor lib requestedAt id ≠ "" := by
  intro h
  have hdecoded := hlib.decode_encode (timeText requestedAt ++ "|" ++ id)
  have hempty := hlib.decode_encode ""
  rw [encodeAuditCursor] at h
  rw [h, ← hlib.encode_empty, hempty, Option.some.injEq] at hdecoded
  have hbar : '|' ∈ (timeText requestedAt ++ "|" ++ id).toList := by simp
  rw [← hdecoded] at hbar
  cases hbar

/-- The entry comes after the bound, if there is one. -/
def Below (bound : Option (String ×ₗ String)) (e : AuditEntry) : Prop :=
  ∀ key ∈ bound, textKey e < key

/-- The query asks for what comes after the bound. -/
def CursorAt (lib : AuditLib) (query : AuditQuery) (bound : Option (String ×ₗ String)) : Prop :=
  ∃ cursor, queryCursor lib query = .ok cursor ∧
    bound = cursor.map fun c => toLex (timeText c.1, c.2)

theorem selects_cursor (cursor : Option (Time × String)) :
    query.selects lib cursor e = true ↔ query.selects lib none e = true ∧
      Below (cursor.map fun c => toLex (timeText c.1, c.2)) e := by
  cases cursor with
  | none => simp [AuditQuery.selects, Below]
  | some c =>
    have hsplit : query.selects lib (some c) e = (query.selects lib none e &&
        (timeText e.requestedAt < timeText c.1 ||
          (timeText e.requestedAt = timeText c.1 && e.id < c.2))) := by
      simp only [AuditQuery.selects, Option.all_none, Option.all_some, Bool.and_true]
    have hkey : textKey e < toLex (timeText c.1, c.2) ↔
        timeText e.requestedAt < timeText c.1 ∨
          timeText e.requestedAt = timeText c.1 ∧ e.id < c.2 := Prod.Lex.toLex_lt_toLex
    rw [hsplit, Bool.and_eq_true]
    simp [Below, hkey]

/-- The matching entries after the bound, in the order of the listing. -/
def listing (lib : AuditLib) (query : AuditQuery) (bound : Option (String ×ₗ String))
    (t : AuditTable) : List AuditEntry :=
  descending textKey (t.entries.filter fun e =>
    query.selects lib none e && bound.all fun key => textKey e < key)

theorem mem_listing : e ∈ listing lib query bound t ↔
    e ∈ t.entries ∧ query.selects lib none e = true ∧ Below bound e := by
  rw [listing, perm_descending.mem_iff, List.mem_filter, Bool.and_eq_true]
  cases bound <;> simp [Below]

theorem listing_pairwise :
    (listing lib query bound t).Pairwise fun a b => textKey b < textKey a :=
  pairwise_textKey _

theorem queryLimit_pos (query : AuditQuery) : 0 < queryLimit query := by
  rw [queryLimit]
  split
  · omega
  · split <;> omega

/-- What one request returns: everything that is left, or the first entries and a cursor at the
last of them. -/
inductive PageOf (lib : AuditLib) (query : AuditQuery) (bound : Option (String ×ₗ String))
    (t : AuditTable) : AuditListResult → Prop
  | all : PageOf lib query bound t ⟨listing lib query bound t, none⟩
  | part (last : AuditEntry)
      (hlast : ((listing lib query bound t).take (queryLimit query)).getLast? = some last) :
      PageOf lib query bound t ⟨(listing lib query bound t).take (queryLimit query),
        some (encodeAuditCursor lib last.requestedAt last.id)⟩

theorem getElem?_eq_getLast?_take {α : Type} {l : List α} (hn : 0 < n) (h : n < l.length) :
    (l.take (n + 1))[n - 1]? = (l.take n).getLast? := by
  rw [List.getLast?_eq_getElem?, List.length_take, List.getElem?_take, List.getElem?_take]
  have hmin : min n l.length = n := by omega
  rw [hmin, if_pos (by omega), if_pos (by omega)]

theorem listAuditEntries_page (hq : CursorAt lib query bound)
    (hread : ∀ e ∈ t.entries, entryReadable e = true) :
    ∃ page, listAuditEntries lib query t = .ok page ∧ PageOf lib query bound t page := by
  obtain ⟨cursor, hcursor, rfl⟩ := hq
  have hrows : descending textKey (t.entries.filter (query.selects lib cursor)) =
      listing lib query (cursor.map fun c => toLex (timeText c.1, c.2)) t := by
    refine eq_of_mem_iff (pairwise_textKey _) listing_pairwise fun e => ?_
    rw [mem_listing, perm_descending.mem_iff, List.mem_filter, selects_cursor]
  generalize hbound : (cursor.map fun c => toLex (timeText c.1, c.2)) = bound at hrows
  refine ⟨auditPage lib (queryLimit query) ((listing lib query bound t).take
    (queryLimit query + 1)), ?_, ?_⟩
  · rw [listAuditEntries, hcursor]
    change ((descending textKey (t.entries.filter (query.selects lib cursor))).take
      (queryLimit query + 1)).mapM scanAuditEntry >>= _ = _
    rw [hrows, mapM_scan_of_readable]
    · rfl
    · intro e he
      exact hread e (mem_listing.mp (List.mem_of_mem_take he)).1
  · rw [auditPage]
    split
    next hlong =>
      rw [List.length_take] at hlong
      have hlimit := queryLimit_pos query
      rw [getElem?_eq_getLast?_take hlimit (by omega), List.take_take, min_eq_left (by omega)]
      cases hlast : ((listing lib query bound t).take (queryLimit query)).getLast? with
      | none =>
        rw [List.getLast?_eq_none_iff, List.take_eq_nil_iff] at hlast
        rcases hlast with hlast | hlast
        · omega
        · rw [hlast] at hlong
          simp at hlong
      | some last => exact .part last hlast
    next hshort =>
      rw [List.length_take] at hshort
      rw [List.take_of_length_le (by omega)]
      exact .all

/-- The next query asks for what comes after the last entry of the page. -/
theorem cursorAt_next (hlib : CursorCodec lib) (h : entryReadable last = true) :
    CursorAt lib { query with cursor := encodeAuditCursor lib last.requestedAt last.id }
      (some (textKey last)) := by
  rw [entryReadable, Bool.and_eq_true] at h
  refine ⟨some (last.requestedAt, last.id), ?_, rfl⟩
  rw [queryCursor, if_neg (encodeAuditCursor_ne_empty hlib _ _),
    decode_encodeAuditCursor hlib h.1]
  rfl

/-- The pages of a query that starts after the bound, one table for each request. -/
inductive Follows (lib : AuditLib) (query : AuditQuery) :
    Option (String ×ₗ String) → List AuditTable → List AuditListResult → Prop
  | stop {bound : Option (String ×ₗ String)} : Follows lib query bound [] []
  | all {bound : Option (String ×ₗ String)} {t : AuditTable} {ts : List AuditTable} :
      Follows lib query bound (t :: ts) [⟨listing lib query bound t, none⟩]
  | part {bound : Option (String ×ₗ String)} {t : AuditTable} {ts : List AuditTable}
      {last : AuditEntry} {pages : List AuditListResult}
      (hlast : ((listing lib query bound t).take (queryLimit query)).getLast? = some last)
      (hrest : Follows lib query (some (textKey last)) ts pages) :
      Follows lib query bound (t :: ts) (⟨(listing lib query bound t).take (queryLimit query),
        some (encodeAuditCursor lib last.requestedAt last.id)⟩ :: pages)

/-- Another cursor text does not change what matches. -/
theorem Follows.of_cursor {cursor : String}
    (h : Follows lib { query with cursor } bound ts pages) : Follows lib query bound ts pages := by
  induction h with
  | stop => exact .stop
  | all => exact .all
  | part hlast _ ih => exact .part hlast ih

theorem mem_of_last (hlast : ((listing lib query bound t).take n).getLast? = some last) :
    last ∈ listing lib query bound t :=
  List.mem_of_mem_take (List.mem_of_getLast? hlast)

theorem followPages_follows (hlib : CursorCodec lib) (hq : CursorAt lib query bound)
    (hread : ∀ t ∈ ts, ∀ e ∈ t.entries, entryReadable e = true) :
    ∃ pages, followPages lib query ts = .ok pages ∧ Follows lib query bound ts pages := by
  induction ts generalizing query bound with
  | nil => exact ⟨[], rfl, .stop⟩
  | cons t ts ih =>
    obtain ⟨ht, hts⟩ := List.forall_mem_cons.mp hread
    obtain ⟨page, hpage, hof⟩ := listAuditEntries_page hq ht
    rw [followPages, hpage]
    cases hof with
    | all => exact ⟨_, rfl, .all⟩
    | part last hlast =>
      have hlastRead := ht last (mem_listing.mp (mem_of_last hlast)).1
      obtain ⟨pages, hpages, hfollows⟩ := ih (cursorAt_next hlib hlastRead) hts
      refine ⟨_, ?_, .part hlast hfollows.of_cursor⟩
      change (followPages lib _ ts >>= fun rest => Except.ok (_ :: rest)) = _
      rw [hpages]
      rfl

theorem Below.of_last (h : Below bound last)
    (hlt : Below (some (textKey last)) e) : Below bound e := by
  intro key hkey
  exact lt_trans (hlt _ rfl) (h key hkey)

namespace Follows

section

variable (h : Follows lib query bound ts pages)
include h

theorem mem_allItems (he : e ∈ allItems pages) :
    query.selects lib none e = true ∧ Below bound e := by
  induction h with
  | stop => cases he
  | all =>
    rw [allItems, List.flatMap_singleton] at he
    exact (mem_listing.mp he).2
  | part hlast _ ih =>
    rw [allItems, List.flatMap_cons] at he
    rcases List.mem_append.mp he with he | he
    · exact (mem_listing.mp (List.mem_of_mem_take he)).2
    · obtain ⟨hselects, hbelow⟩ := ih he
      exact ⟨hselects, (mem_listing.mp (mem_of_last hlast)).2.2.of_last hbelow⟩

/-- The items of all pages are in the order of the listing; so none comes twice. -/
theorem pairwise : (allItems pages).Pairwise fun a b => textKey b < textKey a := by
  induction h with
  | stop => exact .nil
  | all =>
    rw [allItems, List.flatMap_singleton]
    exact listing_pairwise
  | part hlast hrest ih =>
    rw [allItems, List.flatMap_cons, List.pairwise_append]
    refine ⟨listing_pairwise.sublist (List.take_sublist _ _), ih, fun a ha b hb => ?_⟩
    have hkey := ((mem_take_iff_key listing_pairwise hlast).mp ha).2
    exact lt_of_lt_of_le ((hrest.mem_allItems hb).2 _ rfl) hkey

/-- An entry that was there for every request is on one of the pages. -/
theorem complete (hfinished : Finished pages) (he : ∀ t ∈ ts, e ∈ t.entries)
    (hselects : query.selects lib none e = true) (hbelow : Below bound e) : e ∈ allItems pages := by
  induction h with
  | stop =>
    obtain ⟨page, hpage, -⟩ := hfinished
    cases hpage
  | all =>
    rw [allItems, List.flatMap_singleton]
    exact mem_listing.mpr ⟨he _ List.mem_cons_self, hselects, hbelow⟩
  | @part _ _ _ last _ hlast hrest ih =>
    obtain ⟨ht, hts⟩ := List.forall_mem_cons.mp he
    rw [allItems, List.flatMap_cons, List.mem_append]
    rcases lt_or_ge (textKey e) (textKey last) with hlt | hge
    · refine .inr (ih (hfinished.tail (by simp)) hts fun key hkey => ?_)
      cases hkey
      exact hlt
    · exact .inl ((mem_take_iff_key listing_pairwise hlast).mpr
        ⟨mem_listing.mpr ⟨ht, hselects, hbelow⟩, hge⟩)

theorem cursor_last (hpage : page ∈ pages) {cursor : String}
    (hcursor : page.nextCursor = some cursor) :
    ∃ last, page.items.getLast? = some last ∧ (∃ t ∈ ts, last ∈ t.entries) ∧
      cursor = encodeAuditCursor lib last.requestedAt last.id := by
  induction h with
  | stop => cases hpage
  | all =>
    rw [List.mem_singleton.mp hpage] at hcursor
    cases hcursor
  | part hlast _ ih =>
    rcases List.mem_cons.mp hpage with rfl | hpage
    · cases hcursor
      exact ⟨_, hlast, ⟨_, List.mem_cons_self, (mem_listing.mp (mem_of_last hlast)).1⟩, rfl⟩
    · obtain ⟨last, hitems, ⟨t, ht, hin⟩, rfl⟩ := ih hpage
      exact ⟨last, hitems, ⟨t, List.mem_cons_of_mem _ ht, hin⟩, rfl⟩

end

end Follows

section Ends

variable {n : ℕ}

theorem length_listing_le (h : Below bound last) :
    (listing lib query (some (textKey last)) u).length ≤ (listing lib query bound u).length := by
  have hsub : listing lib query (some (textKey last)) u ⊆ listing lib query bound u := by
    intro e he
    obtain ⟨hmem, hselects, hbelow⟩ := mem_listing.mp he
    exact mem_listing.mpr ⟨hmem, hselects, h.of_last hbelow⟩
  exact (List.subperm_of_subset (nodup_of_descending listing_pairwise) hsub).length_le

theorem length_listing_lt (h : last ∈ listing lib query bound u) :
    (listing lib query (some (textKey last)) u).length < (listing lib query bound u).length := by
  have hsub : last :: listing lib query (some (textKey last)) u ⊆ listing lib query bound u := by
    refine List.cons_subset.mpr ⟨h, fun e he => ?_⟩
    obtain ⟨hmem, hselects, hbelow⟩ := mem_listing.mp he
    exact mem_listing.mpr ⟨hmem, hselects, (mem_listing.mp h).2.2.of_last hbelow⟩
  have hnodup : (last :: listing lib query (some (textKey last)) u).Nodup := by
    refine List.nodup_cons.mpr ⟨fun hself => ?_, nodup_of_descending listing_pairwise⟩
    exact lt_irrefl _ ((mem_listing.mp hself).2.2 _ rfl)
  exact (List.subperm_of_subset hnodup hsub).length_le

/-- Without further entries every request leaves fewer of them. -/
theorem Follows.finished_replicate (h : Follows lib query bound (List.replicate n u) pages)
    (hn : (listing lib query bound u).length < n) : Finished pages := by
  induction n generalizing bound pages with
  | zero => omega
  | succ n ih =>
    cases h with
    | all => exact ⟨_, rfl, rfl⟩
    | part hlast hrest =>
      have hlt := length_listing_lt (mem_of_last hlast)
      exact (ih hrest (by omega)).cons

theorem Follows.finished (h : Follows lib query bound (ts ++ List.replicate n u) pages)
    (hn : (listing lib query bound u).length < n) : Finished pages := by
  induction ts generalizing bound pages with
  | nil => exact h.finished_replicate hn
  | cons t ts ih =>
    cases h with
    | all => exact ⟨_, rfl, rfl⟩
    | @part _ _ _ last _ hlast hrest =>
      have hle : (listing lib query (some (textKey last)) u).length ≤
          (listing lib query bound u).length :=
        length_listing_le (mem_listing.mp (mem_of_last hlast)).2.2
      exact (ih hrest (by omega)).cons

end Ends

theorem cursorAt_first (h : query.cursor = "") : CursorAt lib query none :=
  ⟨none, if_pos h, rfl⟩

/-- A parser that reads exactly the texts of times. -/
noncomputable def exactLib : AuditLib :=
  { plainLib with
    parseTime := fun text =>
      haveI := Classical.propDecidable (∃ t, timeText t = text)
      if h : ∃ t, timeText t = text then some h.choose else none }

theorem exactLib_codec : CursorCodec exactLib where
  decode_encode _ := rfl
  encode_empty := rfl
  parse_format t _ := by
    have h : ∃ u, timeText u = timeText t := ⟨t, rfl⟩
    simp only [exactLib, dif_pos h]
    rw [timeText_injective h.choose_spec]

/-- Two entries of one second, one with a bar in its id. -/
def barredTable : AuditTable where
  entries := [entryAt "a|b" 0, entryAt "c" 0]
  ids := by decide

end Stacklab.Store
