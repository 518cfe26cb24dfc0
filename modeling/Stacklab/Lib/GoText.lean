import Mathlib.Algebra.Group.Int.Defs
import Mathlib.Data.List.TakeWhile
import Mathlib.Data.String.Basic

/-! The parts of Go's string package that the models need, on code points. -/
namespace Stacklab.Lib

/-- Unicode white space, as `unicode.IsSpace` decides it. -/
def isSpace (c : Char) : Bool :=
  c.toNat ∈ [0x09, 0x0a, 0x0b, 0x0c, 0x0d, 0x20, 0x85, 0xa0, 0x1680, 0x2028, 0x2029,
    0x202f, 0x205f, 0x3000] || (0x2000 ≤ c.toNat && c.toNat ≤ 0x200a)

def trimSpaceList (cs : List Char) : List Char :=
  ((cs.dropWhile isSpace).reverse.dropWhile isSpace).reverse

def trimSpace (s : String) : String := String.ofList (trimSpaceList s.toList)

def hasPrefix (s pre : String) : Bool := pre.toList.isPrefixOf s.toList

def hasSuffix (s suf : String) : Bool := suf.toList.isSuffixOf s.toList

def contains (s sub : String) : Bool := s.toList.tails.any (sub.toList.isPrefixOf ·)

/-- `strings.Split` at one character. -/
def splitChar (c : Char) (s : String) : List (List Char) := s.toList.splitOn c

/-- `strings.Cut` at one character. -/
def cut (c : Char) (s : String) : Option (String × String) :=
  match s.toList.dropWhile (· ≠ c) with
  | [] => none
  | _ :: after => some (String.ofList (s.toList.takeWhile (· ≠ c)), String.ofList after)

/-- `strings.ReplaceAll` of one character. -/
def replaceAll (s : String) (old : Char) (new : String) : String :=
  String.ofList (s.toList.flatMap fun c => if c = old then new.toList else [c])

/-- `strings.Fields`. -/
def fields (s : String) : List String :=
  ((s.toList.splitOnP isSpace).filter (· ≠ [])).map String.ofList

/-- The value of a run of decimal digits. -/
def decimal (cs : List Char) : Option ℕ :=
  if cs ≠ [] ∧ cs.all Char.isDigit then
    some (cs.foldl (fun n c => n * 10 + (c.toNat - '0'.toNat)) 0)
  else none

/-- `strconv.Atoi`: an optional sign, digits, and the range of a 64-bit integer. -/
def atoi (cs : List Char) : Option ℤ :=
  let value : Option ℤ :=
    match cs with
    | '-' :: digits => (decimal digits).map fun n => -(n : ℤ)
    | '+' :: digits => (decimal digits).map fun n => (n : ℤ)
    | digits => (decimal digits).map fun n => (n : ℤ)
  value.filter fun n => -2 ^ 63 ≤ n && n < 2 ^ 63

theorem dropWhile_isSpace {cs : List Char} (h : ∀ c ∈ cs, isSpace c = false) :
    cs.dropWhile isSpace = cs := by
  cases cs with
  | nil => rfl
  | cons c cs => simp [h c (by simp)]

theorem trimSpace_eq_self {s : String} (h : ∀ c ∈ s.toList, isSpace c = false) :
    trimSpace s = s := by
  have hr : ∀ c ∈ s.toList.reverse, isSpace c = false := fun c hc => h c (by simpa using hc)
  simp [trimSpace, trimSpaceList, dropWhile_isSpace h, dropWhile_isSpace hr]

theorem cut_eq_none {c : Char} {s : String} (h : c ∉ s.toList) : cut c s = none := by
  have hall : s.toList.dropWhile (· ≠ c) = [] := by
    rw [List.dropWhile_eq_nil_iff]
    intro x hx
    exact decide_eq_true fun heq => h (heq ▸ hx)
  rw [cut, hall]

theorem cut_append {c : Char} {a sep : String} (hsep : sep.toList = [c]) (h : c ∉ a.toList)
    (b : String) : cut c (a ++ (sep ++ b)) = some (a, b) := by
  have hne : ∀ x ∈ a.toList, decide (x ≠ c) = true :=
    fun x hx => decide_eq_true fun heq => h (heq ▸ hx)
  rw [cut, String.toList_append, String.toList_append, hsep, List.takeWhile_append_of_pos hne,
    List.dropWhile_append_of_pos hne]
  simp

end Stacklab.Lib
