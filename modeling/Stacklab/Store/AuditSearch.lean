import Stacklab.Store.AuditLog
import Mathlib.Data.List.Infix

/-! The search of the audit listing finds literal text, whatever characters it has. -/
namespace Stacklab.Store

open Lib

variable {lib : AuditLib} {query : AuditQuery} {e : AuditEntry} {c : Char} {s text : List Char}

/-- The parts of a pattern of SQLite's `LIKE`; an escape at its end matches nothing. -/
inductive LikeToken
  | char (c : Char)
  | one
  | many
  | never
  deriving DecidableEq, Repr

/-- The tokens of a pattern with the escape character `\`; the flag says that one was just read. -/
def likeTokens : Bool → List Char → List LikeToken
  | false, [] => []
  | true, [] => [.never]
  | true, c :: p => .char c :: likeTokens false p
  | false, c :: p =>
    if c = '\\' then likeTokens true p
    else if c = '%' then .many :: likeTokens false p
    else if c = '_' then .one :: likeTokens false p
    else .char c :: likeTokens false p

/-- Letters of ASCII match in either case. -/
def likeMatch : List LikeToken → List Char → Bool
  | [], text => text.isEmpty
  | .many :: p, text => text.tails.any fun rest => likeMatch p rest
  | .char c :: p, x :: text => c.toLower = x.toLower && likeMatch p text
  | .one :: p, _ :: text => likeMatch p text
  | .never :: _, _ => false
  | .char _ :: _, [] => false
  | .one :: _, [] => false

/-- `text LIKE pattern ESCAPE '\'`. -/
def sqliteLike (pattern text : String) : Bool :=
  likeMatch (likeTokens false pattern.toList) text.toList

/-- SQLite's `LOWER`, which knows only ASCII. -/
def asciiLower (text : String) : String := String.ofList (text.toList.map Char.toLower)

/-- What the search uses of SQLite and of `strings.ToLower`. -/
structure SearchText (lib : AuditLib) : Prop where
  like : lib.like = sqliteLike
  lower : lib.lower = asciiLower
  toLower : ∀ value, ∀ c ∈ (lib.toLower value).toList, c.isUpper = false

/-- The three replacements in one pass. -/
def escapeChars (s : List Char) : List Char :=
  s.flatMap fun c => if c = '\\' ∨ c = '%' ∨ c = '_' then ['\\', c] else [c]

/-- The backslashes that a replacement puts in are not replaced by a later one. -/
theorem toList_escapeLikePattern (value : String) :
    (escapeLikePattern value).toList = escapeChars value.toList := by
  simp only [escapeLikePattern, replaceAll, String.toList_ofList, List.flatMap_assoc]
  refine List.flatMap_congr fun c _ => ?_
  by_cases hslash : c = '\\'
  · subst hslash
    decide
  by_cases hpercent : c = '%'
  · subst hpercent
    decide
  by_cases hunder : c = '_'
  · subst hunder
    decide
  simp [hslash, hpercent, hunder]

/-- An escaped text is read as its own characters, without a wildcard. -/
theorem likeTokens_escapeChars (s p : List Char) :
    likeTokens false (escapeChars s ++ p) = s.map .char ++ likeTokens false p := by
  induction s with
  | nil => rfl
  | cons c s ih =>
    rw [escapeChars, List.flatMap_cons, List.append_assoc]
    change likeTokens false (_ ++ (escapeChars s ++ p)) = _
    split
    · rw [List.cons_append, List.cons_append, List.nil_append, likeTokens, if_pos rfl, likeTokens,
        ih, List.map_cons, List.cons_append]
    next hplain =>
      rw [not_or, not_or] at hplain
      rw [List.cons_append, List.nil_append, likeTokens, if_neg hplain.1, if_neg hplain.2.1,
        if_neg hplain.2.2, ih, List.map_cons, List.cons_append]

theorem toLower_eq_self (h : c.isUpper = false) : c.toLower = c :=
  dif_neg (of_decide_eq_false h)

theorem isUpper_toLower (c : Char) : c.toLower.isUpper = false := by
  delta Char.toLower
  split
  next h =>
    obtain ⟨hlow, hhigh⟩ := h
    refine decide_eq_false ?_
    rintro ⟨-, hle⟩
    rw [ge_iff_le, UInt32.le_iff_toNat_le] at hlow
    rw [UInt32.le_iff_toNat_le] at hhigh hle
    rw [UInt32.toNat_add] at hle
    have hA : ('A'.val).toNat = 65 := rfl
    have hZ : ('Z'.val).toNat = 90 := rfl
    have hshift : ('a'.val - 'A'.val).toNat = 32 := rfl
    omega
  next h =>
    exact decide_eq_false h

theorem likeMatch_chars {p : List LikeToken} (hs : ∀ c ∈ s, c.isUpper = false)
    (htext : ∀ c ∈ text, c.isUpper = false) :
    likeMatch (s.map .char ++ p) text = true ↔
      ∃ rest, text = s ++ rest ∧ likeMatch p rest = true := by
  induction s generalizing text with
  | nil => simp
  | cons c s ih =>
    obtain ⟨hc, hs⟩ := List.forall_mem_cons.mp hs
    cases text with
    | nil => simp [likeMatch]
    | cons x text =>
      obtain ⟨hx, htext⟩ := List.forall_mem_cons.mp htext
      rw [List.map_cons, List.cons_append, likeMatch, Bool.and_eq_true, decide_eq_true_eq,
        toLower_eq_self hc, toLower_eq_self hx, ih hs htext]
      simp only [List.cons_append, List.cons.injEq]
      constructor
      · rintro ⟨rfl, rest, rfl, hp⟩
        exact ⟨rest, ⟨rfl, rfl⟩, hp⟩
      · rintro ⟨rest, ⟨rfl, rfl⟩, hp⟩
        exact ⟨rfl, rest, rfl, hp⟩

theorem likeMatch_many_end (text : List Char) : likeMatch [.many] text = true := by
  rw [likeMatch, List.any_eq_true]
  exact ⟨[], (List.mem_tails _ _).mpr (List.nil_suffix), rfl⟩

theorem not_isUpper_asciiLower (value : String) :
    ∀ c ∈ (asciiLower value).toList, c.isUpper = false := by
  intro c hc
  rw [asciiLower, String.toList_ofList] at hc
  obtain ⟨x, -, rfl⟩ := List.mem_map.mp hc
  exact isUpper_toLower x

/-- A pattern of an escaped text between two percent signs asks for the text itself. -/
theorem sqliteLike_iff_contains {needle value : String}
    (hneedle : ∀ c ∈ needle.toList, c.isUpper = false) :
    sqliteLike ("%" ++ escapeLikePattern needle ++ "%") (asciiLower value) = true ↔
      contains (asciiLower value) needle = true := by
  have htokens : likeTokens false ("%" ++ escapeLikePattern needle ++ "%").toList =
      .many :: (needle.toList.map .char ++ [.many]) := by
    rw [String.toList_append, String.toList_append, toList_escapeLikePattern, List.append_assoc]
    change LikeToken.many :: likeTokens false (escapeChars needle.toList ++ ['%']) = _
    rw [likeTokens_escapeChars]
    rfl
  rw [sqliteLike, htokens, likeMatch, contains, List.any_eq_true, List.any_eq_true]
  refine exists_congr fun rest => and_congr_right fun hrest => ?_
  have hlower : ∀ c ∈ rest, c.isUpper = false := fun c hc =>
    not_isUpper_asciiLower value c (((List.mem_tails _ _).mp hrest).subset hc)
  rw [likeMatch_chars hneedle hlower, List.isPrefixOf_iff_prefix]
  constructor
  · rintro ⟨after, rfl, -⟩
    exact List.prefix_append _ _
  · rintro ⟨after, rfl⟩
    exact ⟨after, rfl, likeMatch_many_end after⟩

/-- A search selects the entries whose action or stack id contains its text, among those that the
query selects without it. -/
theorem search_selects_literal (hlib : SearchText lib) (query : AuditQuery)
    (cursor : Option (Time × String)) (e : AuditEntry) :
    query.selects lib cursor e = true ↔
      (query.search = "" ∨
        contains (asciiLower e.action) (lib.toLower (trimSpace query.search)) = true ∨
        contains (asciiLower (e.stackID.getD "")) (lib.toLower (trimSpace query.search)) = true) ∧
      ({ query with search := "" } : AuditQuery).selects lib cursor e = true := by
  have hsplit : query.selects lib cursor e = ((query.search = "" ||
      lib.like ("%" ++ escapeLikePattern (lib.toLower (trimSpace query.search)) ++ "%")
        (lib.lower e.action) ||
      lib.like ("%" ++ escapeLikePattern (lib.toLower (trimSpace query.search)) ++ "%")
        (lib.lower (e.stackID.getD ""))) &&
      ({ query with search := "" } : AuditQuery).selects lib cursor e) := by
    simp only [AuditQuery.selects, decide_true, Bool.true_or, Bool.and_true]
    ac_rfl
  have hneedle := hlib.toLower (trimSpace query.search)
  rw [hsplit, hlib.like, hlib.lower, Bool.and_eq_true, Bool.or_eq_true, Bool.or_eq_true,
    decide_eq_true_eq, sqliteLike_iff_contains hneedle, sqliteLike_iff_contains hneedle, or_assoc]

/-- SQLite's functions, and a `strings.ToLower` for ASCII. -/
def sqliteLib : AuditLib where
  toLower := asciiLower
  like := sqliteLike
  lower := asciiLower
  julianday _ := none
  encodeBase64 text := text
  decodeBase64 text := some text
  parseTime _ := none

theorem sqliteLib_searchText : SearchText sqliteLib :=
  ⟨rfl, rfl, not_isUpper_asciiLower⟩

def pulledEntry (action : String) : AuditEntry :=
  ⟨"id", some "web", none, action, "local", "succeeded", 0, none, none, "stack", none, none⟩

/-- An underscore in the search is not found in a hyphen. -/
theorem underscore_found_literally :
    ({ search := "Pull_I" } : AuditQuery).selects sqliteLib none (pulledEntry "pull_image") = true ∧
    ¬ ({ search := "Pull_I" } : AuditQuery).selects sqliteLib none (pulledEntry "pull-image") =
      true := by
  rw [search_selects_literal sqliteLib_searchText, search_selects_literal sqliteLib_searchText]
  decide +kernel

end Stacklab.Store
