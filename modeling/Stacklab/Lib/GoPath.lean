import Mathlib.Data.List.Basic

/-! Go's slash-separated paths over byte strings, and what `path.Clean` makes of them. -/
namespace Stacklab.Lib

/-- A Go string, which may hold any bytes. -/
abbrev Bytes : Type := List UInt8

def bytes (text : String) : Bytes := text.toUTF8.toList

def slash : UInt8 := 47

def dot : Bytes := [46]

def dotdot : Bytes := [46, 46]

/-- A path that cannot be shortened: its leading `..`, then plain names. -/
@[ext]
structure CleanPath where
  rooted : Bool
  ups : ℕ
  names : List Bytes
  deriving DecidableEq, Repr

namespace CleanPath

def push (c : CleanPath) (part : Bytes) : CleanPath :=
  if part = [] ∨ part = dot then c
  else if part = dotdot then
    if c.names ≠ [] then { c with names := c.names.dropLast }
    else if c.rooted then c
    else { c with ups := c.ups + 1 }
  else { c with names := c.names ++ [part] }

def parts (c : CleanPath) : List Bytes := List.replicate c.ups dotdot ++ c.names

def text (c : CleanPath) : Bytes :=
  if c.rooted then slash :: [slash].intercalate c.names
  else if c.parts = [] then dot
  else [slash].intercalate c.parts

/-- Relative, and not above the directory that it starts from. -/
def Inside (c : CleanPath) : Prop := c.rooted = false ∧ c.ups = 0

instance (c : CleanPath) : Decidable c.Inside := inferInstanceAs (Decidable (_ ∧ _))

/-- The path that is joined to a directory. -/
def join (c : CleanPath) (s : Bytes) : CleanPath := (s.splitOn slash).foldl push c

end CleanPath

def isAbs (s : Bytes) : Bool := s.head? = some slash

def cleaned (s : Bytes) : CleanPath := CleanPath.join ⟨isAbs s, 0, []⟩ s

/-- `path.Clean`. -/
def clean (s : Bytes) : Bytes := (cleaned s).text

/-- A name that can stand in a path that is clean. -/
def PlainPart (part : Bytes) : Prop :=
  part ≠ [] ∧ part ≠ dot ∧ part ≠ dotdot ∧ slash ∉ part

namespace CleanPath

def WellFormed (c : CleanPath) : Prop :=
  (∀ part ∈ c.names, PlainPart part) ∧ (c.rooted = true → c.ups = 0)

variable {c : CleanPath} {part s : Bytes} {parts : List Bytes} {b : UInt8}

theorem WellFormed.push (h : c.WellFormed) (hpart : slash ∉ part) : (c.push part).WellFormed := by
  unfold CleanPath.push
  split
  · exact h
  next hnot =>
    split
    · split
      · exact ⟨fun p hp => h.1 p (List.dropLast_subset _ hp), h.2⟩
      · split
        · exact h
        next hrel =>
          exact ⟨h.1, fun hr => absurd hr hrel⟩
    next hup =>
      refine ⟨fun p hp => ?_, h.2⟩
      rcases List.mem_append.mp hp with hp | hp
      · exact h.1 p hp
      · obtain rfl := List.mem_singleton.mp hp
        exact ⟨fun he => hnot (.inl he), fun he => hnot (.inr he), hup, hpart⟩

theorem push_plain (hpart : PlainPart part) :
    c.push part = { c with names := c.names ++ [part] } := by
  unfold push
  rw [if_neg (not_or.mpr ⟨hpart.1, hpart.2.1⟩), if_neg hpart.2.2.1]

theorem push_dotdot (hrel : c.rooted = false) (hnames : c.names = []) :
    c.push dotdot = { c with ups := c.ups + 1 } := by
  unfold push
  rw [if_neg (by decide), if_pos rfl, if_neg (by simp [hnames]), if_neg (by simp [hrel])]

theorem foldl_push_plain {names : List Bytes} (h : ∀ part ∈ names, PlainPart part) :
    names.foldl push c = { c with names := c.names ++ names } := by
  induction names generalizing c with
  | nil => simp
  | cons part rest ih =>
    rw [List.foldl_cons, push_plain (h part List.mem_cons_self),
      ih fun p hp => h p (List.mem_cons_of_mem _ hp)]
    simp

theorem foldl_push_dotdot {n k : ℕ} :
    (List.replicate n dotdot).foldl push ⟨false, k, []⟩ = ⟨false, k + n, []⟩ := by
  induction n generalizing k with
  | zero => rfl
  | succ n ih =>
    rw [List.replicate_succ, List.foldl_cons, push_dotdot rfl rfl, ih]
    simp [Nat.add_assoc, Nat.add_comm 1 n]

theorem WellFormed.foldl_push (h : c.WellFormed) (hparts : ∀ part ∈ parts, slash ∉ part) :
    (parts.foldl CleanPath.push c).WellFormed := by
  induction parts generalizing c with
  | nil => exact h
  | cons part rest ih =>
    exact ih (h.push (hparts part List.mem_cons_self))
      fun p hp => hparts p (List.mem_cons_of_mem _ hp)

theorem slash_not_mem_splitOn (h : part ∈ s.splitOn slash) : slash ∉ part := by
  induction s generalizing part with
  | nil => simp_all
  | cons b rest ih =>
    rw [List.splitOn_cons_eq_if_modifyHead] at h
    split at h
    · rcases List.mem_cons.mp h with rfl | h
      · exact List.not_mem_nil
      · exact ih h
    next hb =>
      obtain ⟨first, others, hsplit⟩ := List.exists_cons_of_ne_nil
        (List.splitOn_ne_nil slash rest)
      rw [hsplit, List.modifyHead_cons] at h
      rw [hsplit] at ih
      rcases List.mem_cons.mp h with rfl | h
      · have hne : slash ≠ b := fun he => hb (by simp [he])
        rw [List.mem_cons, not_or]
        exact ⟨hne, ih List.mem_cons_self⟩
      · exact ih (List.mem_cons_of_mem _ h)

theorem wellFormed_cleaned (s : Bytes) : (cleaned s).WellFormed :=
  WellFormed.foldl_push ⟨by simp, fun _ => rfl⟩ fun _ => slash_not_mem_splitOn

theorem slash_not_mem_parts (h : c.WellFormed) (hpart : part ∈ c.parts) : slash ∉ part := by
  rcases List.mem_append.mp hpart with hpart | hpart
  · obtain ⟨-, rfl⟩ := List.mem_replicate.mp hpart
    decide
  · exact (h.1 part hpart).2.2.2

theorem splitOn_join (h : ∀ part ∈ parts, slash ∉ part) :
    CleanPath.join c ([slash].intercalate parts) = parts.foldl push c := by
  by_cases hnil : parts = []
  · subst hnil
    rfl
  · rw [join, List.splitOn_intercalate slash h hnil]

theorem isAbs_intercalate (h : ∀ part ∈ parts, part ≠ [] ∧ slash ∉ part) :
    isAbs ([slash].intercalate parts) = false := by
  cases parts with
  | nil => rfl
  | cons part rest =>
    obtain ⟨hne, hslash⟩ := h part List.mem_cons_self
    obtain ⟨b, bs, rfl⟩ := List.exists_cons_of_ne_nil hne
    have hb : b ≠ slash := fun he => hslash (he ▸ List.mem_cons_self)
    cases rest <;> simp [isAbs, List.intercalate, hb]

theorem part_ne_nil (h : c.WellFormed) (hpart : part ∈ c.parts) : part ≠ [] := by
  rcases List.mem_append.mp hpart with hpart | hpart
  · obtain ⟨-, rfl⟩ := List.mem_replicate.mp hpart
    decide
  · exact (h.1 part hpart).1

theorem cleaned_text (h : c.WellFormed) : cleaned c.text = c := by
  obtain ⟨rooted, ups, names⟩ := c
  cases rooted with
  | true =>
    obtain rfl : ups = 0 := h.2 rfl
    have htext : CleanPath.text ⟨true, 0, names⟩ = slash :: [slash].intercalate names := rfl
    have hjoin : cleaned (slash :: [slash].intercalate names) =
        CleanPath.join ⟨true, 0, []⟩ ([slash].intercalate names) := by
      rw [cleaned, join, List.splitOn_cons_eq_if_modifyHead, if_pos (by simp), List.foldl_cons]
      rfl
    rw [htext, hjoin, splitOn_join fun part hpart => (h.1 part hpart).2.2.2, foldl_push_plain h.1]
    rfl
  | false =>
    have hslash := fun part => @slash_not_mem_parts ⟨false, ups, names⟩ part h
    by_cases hnil : (CleanPath.parts ⟨false, ups, names⟩) = []
    · obtain ⟨hups, rfl⟩ := List.append_eq_nil_iff.mp hnil
      obtain rfl : ups = 0 := by simpa using hups
      rfl
    · have habs : isAbs ([slash].intercalate (CleanPath.parts ⟨false, ups, names⟩)) = false :=
        isAbs_intercalate fun part hpart => ⟨part_ne_nil h hpart, hslash part hpart⟩
      rw [text, if_neg (by simp), if_neg hnil, cleaned, habs, splitOn_join hslash, parts,
        List.foldl_append, foldl_push_dotdot, foldl_push_plain h.1]
      simp

theorem length_intercalate (parts : List Bytes) :
    ([slash].intercalate parts).length =
      parts.foldr (fun part n => part.length + 1 + n) 0 - 1 := by
  induction parts with
  | nil => rfl
  | cons part rest ih =>
    cases rest with
    | nil => simp [List.intercalate]
    | cons next others =>
      simp only [List.intercalate_cons_cons, List.length_append, ih, List.foldr_cons,
        List.length_cons, List.length_nil]
      omega

theorem length_intercalate_sublist {others : List Bytes} (h : parts.Sublist others) :
    ([slash].intercalate parts).length ≤ ([slash].intercalate others).length := by
  rw [length_intercalate, length_intercalate]
  have hsum : parts.foldr (fun part n => part.length + 1 + n) 0 ≤
      others.foldr (fun part n => part.length + 1 + n) 0 := by
    induction h with
    | slnil => exact Nat.le_refl _
    | cons part _ ih =>
      simp only [List.foldr_cons]
      omega
    | cons_cons part _ ih =>
      simp only [List.foldr_cons]
      omega
  omega

theorem mem_intercalate (h : b ∈ [slash].intercalate parts) :
    b = slash ∨ ∃ part ∈ parts, b ∈ part := by
  induction parts with
  | nil => cases h
  | cons part rest ih =>
    cases rest with
    | nil =>
      refine .inr ⟨part, List.mem_cons_self, ?_⟩
      simpa [List.intercalate] using h
    | cons next others =>
      rw [List.intercalate_cons_cons, List.append_assoc, List.mem_append, List.mem_append] at h
      rcases h with h | h | h
      · exact .inr ⟨part, List.mem_cons_self, h⟩
      · exact .inl (List.mem_singleton.mp h)
      · rcases ih h with h | ⟨other, hother, h⟩
        · exact .inl h
        · exact .inr ⟨other, List.mem_cons_of_mem _ hother, h⟩

theorem mem_intercalate_of_mem (hpart : part ∈ parts) (hb : b ∈ part) :
    b ∈ [slash].intercalate parts := by
  induction parts with
  | nil => cases hpart
  | cons first rest ih =>
    cases rest with
    | nil =>
      obtain rfl := List.mem_singleton.mp hpart
      simpa [List.intercalate] using hb
    | cons next others =>
      rw [List.intercalate_cons_cons, List.append_assoc, List.mem_append, List.mem_append]
      rcases List.mem_cons.mp hpart with rfl | hpart
      · exact .inl hb
      · exact .inr (.inr (ih hpart))

theorem parts_push (c : CleanPath) (part : Bytes) :
    (c.push part).parts.Sublist (c.parts ++ [part]) := by
  have hkept : c.parts.Sublist (c.parts ++ [part]) := List.sublist_append_left _ _
  unfold push
  split
  · exact hkept
  · split
    next hup =>
      split
      · exact (List.Sublist.append_left (List.dropLast_sublist _) _).trans hkept
      next hnames =>
        split
        · exact hkept
        · have hnil : c.names = [] := not_not.mp hnames
          simp [parts, hup, hnil, List.replicate_succ']
    · simp [parts]

theorem parts_foldl_push (l : List Bytes) (c : CleanPath) :
    (l.foldl push c).parts.Sublist (c.parts ++ l) := by
  induction l generalizing c with
  | nil => simp
  | cons part rest ih =>
    have hpush := (parts_push c part).append_right rest
    rw [List.append_assoc] at hpush
    exact (ih (c.push part)).trans hpush

theorem rooted_push (c : CleanPath) (part : Bytes) : (c.push part).rooted = c.rooted := by
  unfold push
  split_ifs <;> rfl

theorem rooted_cleaned (s : Bytes) : (cleaned s).rooted = isAbs s := by
  have hfold : ∀ (l : List Bytes) (c : CleanPath), (l.foldl push c).rooted = c.rooted := by
    intro l
    induction l with
    | nil => intro c; rfl
    | cons part rest ih =>
      intro c
      exact (ih (c.push part)).trans (rooted_push c part)
  exact hfold _ _

/-- Cleaning only leaves parts out. -/
theorem parts_cleaned (s : Bytes) : (cleaned s).parts.Sublist (s.splitOn slash) :=
  parts_foldl_push (s.splitOn slash) ⟨isAbs s, 0, []⟩

theorem mem_of_mem_parts (hpart : part ∈ (cleaned s).parts) (hb : b ∈ part) : b ∈ s := by
  have hsplit : [slash].intercalate (s.splitOn slash) = s := List.intercalate_splitOn slash
  rw [← hsplit]
  exact mem_intercalate_of_mem ((parts_cleaned s).subset hpart) hb

theorem parts_cleaned_abs (s : Bytes) :
    (cleaned (slash :: s)).parts.Sublist (s.splitOn slash) := by
  have hsplit : (slash :: s).splitOn slash = [] :: s.splitOn slash := by
    rw [List.splitOn_cons_eq_if_modifyHead, if_pos (by simp)]
  have hjoin : cleaned (slash :: s) = (s.splitOn slash).foldl push ⟨true, 0, []⟩ := by
    rw [cleaned, join, hsplit, List.foldl_cons]
    rfl
  rw [hjoin]
  exact parts_foldl_push (s.splitOn slash) ⟨true, 0, []⟩

theorem length_clean (s : Bytes) : (clean s).length ≤ max 1 s.length := by
  rw [clean, text]
  split
  next hroot =>
    rw [rooted_cleaned, isAbs, decide_eq_true_eq] at hroot
    obtain ⟨rest, rfl⟩ := List.head?_eq_some_iff.mp hroot
    have hparts := length_intercalate_sublist (parts_cleaned_abs rest)
    have hups := (wellFormed_cleaned (slash :: rest)).2 (by rw [rooted_cleaned]; rfl)
    rw [List.intercalate_splitOn, parts, hups, List.replicate_zero, List.nil_append] at hparts
    simp only [List.length_cons]
    omega
  · have hparts := length_intercalate_sublist (parts_cleaned s)
    rw [List.intercalate_splitOn] at hparts
    split
    · exact Nat.le_max_left _ _
    · omega

end CleanPath

end Stacklab.Lib
