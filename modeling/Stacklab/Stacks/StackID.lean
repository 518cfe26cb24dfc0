import Stacklab.Lib.GoText

/-! Stack ids: the directory and compose project names that the stack reader accepts. -/
namespace Stacklab.Stacks

open Lib

variable {id : String}

def isIDChar (c : Char) : Bool := ('a' ≤ c && c ≤ 'z') || ('0' ≤ c && c ≤ '9')

/-- `^[a-z0-9]+(?:-[a-z0-9]+)*$`; the flag says that a letter or digit must come next. -/
def matchStackID : Bool → List Char → Bool
  | needed, [] => !needed
  | needed, c :: cs =>
    if isIDChar c then matchStackID false cs else c == '-' && !needed && matchStackID true cs

def isValidStackID (value : String) : Bool := matchStackID true value.toList

theorem mem_matchStackID {needed : Bool} {cs : List Char} (h : matchStackID needed cs = true) :
    ∀ c ∈ cs, isIDChar c = true ∨ c = '-' := by
  induction cs generalizing needed with
  | nil => simp
  | cons c cs ih =>
    rw [matchStackID] at h
    intro d hd
    rcases List.mem_cons.mp hd with rfl | hd
    · split at h <;> simp_all
    · split at h
      · exact ih h d hd
      · simp only [Bool.and_eq_true] at h
        exact ih h.2 d hd

theorem isSpace_of_idChar {c : Char} (h : isIDChar c = true ∨ c = '-') : isSpace c = false := by
  have hc : c.toNat = 45 ∨ 48 ≤ c.toNat ∧ c.toNat ≤ 122 := by
    rcases h with h | rfl
    · simp only [isIDChar, Bool.or_eq_true, Bool.and_eq_true, decide_eq_true_eq, Char.le_def,
        UInt32.le_iff_toNat_le] at h
      have ha : 'a'.val.toNat = 97 := rfl
      have hz : 'z'.val.toNat = 122 := rfl
      have h0 : '0'.val.toNat = 48 := rfl
      have h9 : '9'.val.toNat = 57 := rfl
      have ht : c.toNat = c.val.toNat := rfl
      omega
    · exact .inl rfl
  simp only [isSpace, Bool.or_eq_false_iff, decide_eq_false_iff_not, Bool.and_eq_false_iff,
    List.mem_cons, List.not_mem_nil, or_false]
  omega

theorem trimSpace_of_valid (h : isValidStackID id = true) : trimSpace id = id :=
  trimSpace_eq_self fun c hc => isSpace_of_idChar (mem_matchStackID h c hc)

theorem ne_empty_of_valid (h : isValidStackID id = true) : id ≠ "" := by
  rintro rfl
  exact absurd h (by decide)

end Stacklab.Stacks
