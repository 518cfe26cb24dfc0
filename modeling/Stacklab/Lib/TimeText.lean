import Stacklab.Lib.DateOrder
import Mathlib.Data.List.DropRight
import Mathlib.Data.Nat.Log
import Mathlib.Data.String.Basic

/-! Times as RFC 3339 text with a fraction of variable length, and the order of the texts. -/
namespace Stacklab.Lib

/-- The last `width` decimal digits of a number, most significant first. -/
def fixedDigits : ℕ → ℕ → List Char
  | 0, _ => []
  | width + 1, n => fixedDigits width (n / 10) ++ [Nat.digitChar (n % 10)]

/-- A number with at least `width` digits. -/
def appendInt (width : ℕ) (n : ℤ) : List Char :=
  (if n < 0 then ['-'] else []) ++ fixedDigits (max width (Nat.log 10 n.natAbs + 1)) n.natAbs

def secondOf (t : Instant) : ℤ := t / 1000000000

def nanosOf (t : Instant) : ℕ := (t % 1000000000).toNat

def yearOf (t : Instant) : ℤ := (dateOfDay (secondOf t / 86400)).year

/-- The digits after the decimal point, without the zeros at their end. -/
def fractionDigits (nanos : ℕ) : List Char := (fixedDigits 9 nanos).rdropWhile (· = '0')

/-- What follows the seconds. -/
def fractionText (nanos : ℕ) : List Char :=
  (if fractionDigits nanos = [] then [] else '.' :: fractionDigits nanos) ++ ['Z']

/-- The time of a day, given in seconds. -/
def clockText (clock : ℤ) : List Char :=
  appendInt 2 (clock / 3600) ++ ':' :: (appendInt 2 (clock / 60 % 60) ++
    ':' :: appendInt 2 (clock % 60))

def monthText (date : Date) : List Char := appendInt 2 date.month ++ '-' :: appendInt 2 date.day

/-- `Format(time.RFC3339Nano)` of a time in UTC. -/
def rfc3339Nano (t : Instant) : String :=
  let date := dateOfDay (secondOf t / 86400)
  String.ofList (appendInt 4 date.year ++ '-' :: (monthText date ++
    'T' :: (clockText (secondOf t % 86400) ++ fractionText (nanosOf t))))

/-- Two times whose texts are in the wrong order: the digits of one fraction continue those of the
other in the same second, or the texts of their years are in the wrong order. -/
def Misread (a b : Instant) : Prop :=
  (yearOf a ≠ yearOf b ∧
    ¬ (appendInt 4 (yearOf a) < appendInt 4 (yearOf b) ↔ yearOf a < yearOf b)) ∨
  (secondOf a = secondOf b ∧ a ≠ b ∧
    (fractionDigits (nanosOf a) <+: fractionDigits (nanosOf b) ∨
      fractionDigits (nanosOf b) <+: fractionDigits (nanosOf a)))

instance (a b : Instant) : Decidable (Misread a b) :=
  inferInstanceAs (Decidable (_ ∨ _))

section Digits

variable {w a b : ℕ} {r s : List Char}

theorem digitChar_lt : ∀ d e : Fin 10,
    (Nat.digitChar d < Nat.digitChar e ↔ d < e) ∧
      (Nat.digitChar d = Nat.digitChar e ↔ d = e) := by
  decide

theorem length_fixedDigits (w n : ℕ) : (fixedDigits w n).length = w := by
  induction w generalizing n with
  | zero => rfl
  | succ w ih => simp [fixedDigits, ih]

theorem mem_fixedDigits {c : Char} {n : ℕ} (h : c ∈ fixedDigits w n) :
    ∃ d : Fin 10, c = Nat.digitChar d := by
  induction w generalizing n with
  | zero => cases h
  | succ w ih =>
    rcases List.mem_append.mp h with h | h
    · exact ih h
    · exact ⟨⟨n % 10, by omega⟩, List.mem_singleton.mp h⟩

/-- Numbers of one width are ordered as their digits. -/
theorem fixedDigits_append_lt (ha : a < 10 ^ w) (hb : b < 10 ^ w) :
    fixedDigits w a ++ r < fixedDigits w b ++ s ↔ a < b ∨ a = b ∧ r < s := by
  induction w generalizing a b r s with
  | zero =>
    have hab : a = b := by omega
    simp [fixedDigits, hab]
  | succ w ih =>
    have hdigit := digitChar_lt ⟨a % 10, by omega⟩ ⟨b % 10, by omega⟩
    simp only [Fin.mk_lt_mk, Fin.mk.injEq] at hdigit
    rw [pow_succ] at ha hb
    simp only [fixedDigits, List.append_assoc, List.singleton_append]
    rw [ih (by omega) (by omega), List.cons_lt_cons_iff, hdigit.1, hdigit.2]
    constructor
    · rintro (h | ⟨h, h' | ⟨h', hrs⟩⟩)
      · left
        omega
      · left
        omega
      · exact .inr ⟨by omega, hrs⟩
    · rintro (h | ⟨rfl, hrs⟩)
      · omega
      · exact .inr ⟨rfl, .inr ⟨rfl, hrs⟩⟩

theorem fixedDigits_injective (ha : a < 10 ^ w) (hb : b < 10 ^ w)
    (h : fixedDigits w a = fixedDigits w b) : a = b := by
  have hirrefl : ¬ fixedDigits w a ++ [] < fixedDigits w b ++ [] := by
    rw [h]
    exact lt_irrefl _
  have hirrefl' : ¬ fixedDigits w b ++ [] < fixedDigits w a ++ [] := by
    rw [h]
    exact lt_irrefl _
  rw [fixedDigits_append_lt ha hb] at hirrefl
  rw [fixedDigits_append_lt hb ha] at hirrefl'
  omega

end Digits

section Fields

variable {width : ℕ} {n m y z : ℤ} {p q r s : List Char} {c : Char}

theorem appendInt_of_lt (hwidth : 0 < width) (h0 : 0 ≤ n) (h : n < 10 ^ width) :
    appendInt width n = fixedDigits width n.toNat := by
  have hnat : n.natAbs = n.toNat := by omega
  have hlt : n.toNat < 10 ^ width := by
    rw [Int.toNat_lt h0]
    exact_mod_cast h
  have hlog : Nat.log 10 n.toNat + 1 ≤ width := Nat.log_lt_of_lt_pow' hwidth.ne' hlt
  rw [appendInt, if_neg (by omega), hnat, max_eq_left hlog]
  rfl

/-- Fields of two digits are ordered as their values. -/
theorem field_lt (hn0 : 0 ≤ n) (hn : n < 100) (hm0 : 0 ≤ m) (hm : m < 100) :
    appendInt 2 n ++ r < appendInt 2 m ++ s ↔ n < m ∨ n = m ∧ r < s := by
  rw [appendInt_of_lt (by decide) hn0 hn, appendInt_of_lt (by decide) hm0 hm,
    fixedDigits_append_lt (by omega) (by omega)]
  have hlt : n.toNat < m.toNat ↔ n < m := by omega
  have heq : n.toNat = m.toNat ↔ n = m := by omega
  rw [hlt, heq]

theorem field_cons_lt (hn0 : 0 ≤ n) (hn : n < 100) (hm0 : 0 ≤ m) (hm : m < 100) :
    appendInt 2 n ++ c :: r < appendInt 2 m ++ c :: s ↔ n < m ∨ n = m ∧ r < s := by
  rw [field_lt hn0 hn hm0 hm]
  simp

theorem natAbs_lt_width (width : ℕ) (n : ℤ) :
    n.natAbs < 10 ^ max width (Nat.log 10 n.natAbs + 1) :=
  (Nat.lt_pow_succ_log_self (by decide) n.natAbs).trans_le
    (Nat.pow_le_pow_right (by decide) (le_max_right _ _))

theorem separator_lt_of_mem_fixedDigits {w k : ℕ} (h : c ∈ fixedDigits w k) : '-' < c := by
  have hdigits : ∀ d : Fin 10, '-' < Nat.digitChar d := by decide
  obtain ⟨d, rfl⟩ := mem_fixedDigits h
  exact hdigits d

theorem appendInt_injective (h : appendInt width y = appendInt width z) : y = z := by
  have hsign : ∀ {k : ℤ} {w : ℕ}, '-' ∉ fixedDigits w k.natAbs :=
    fun hmem => lt_irrefl _ (separator_lt_of_mem_fixedDigits hmem)
  have hcount : ∀ k : ℤ, (appendInt width k).count '-' = if k < 0 then 1 else 0 := by
    intro k
    rw [appendInt, List.count_append, List.count_eq_zero_of_not_mem hsign]
    split <;> rfl
  have hneg : (y < 0 ↔ z < 0) := by
    have hcounts := hcount y
    rw [h, hcount z] at hcounts
    split at hcounts <;> split at hcounts <;> omega
  have hdigits : fixedDigits (max width (Nat.log 10 y.natAbs + 1)) y.natAbs =
      fixedDigits (max width (Nat.log 10 z.natAbs + 1)) z.natAbs := by
    simp only [appendInt, hneg] at h
    exact List.append_cancel_left h
  have hwidth := congrArg List.length hdigits
  rw [length_fixedDigits, length_fixedDigits] at hwidth
  rw [hwidth] at hdigits
  have habs := fixedDigits_injective (hwidth ▸ natAbs_lt_width width y) (natAbs_lt_width width z)
    hdigits
  omega

/-- A separator below every other character leaves the order of what it ends. -/
theorem append_separator_lt (hp : ∀ x ∈ p, c < x) (hq : ∀ x ∈ q, c < x) (hne : p ≠ q) :
    p ++ c :: r < q ++ c :: s ↔ p < q := by
  induction p generalizing q with
  | nil =>
    cases q with
    | nil => exact absurd rfl hne
    | cons y q =>
      refine iff_of_true ?_ (List.nil_lt_cons y q)
      exact List.cons_lt_cons_iff.mpr (.inl (hq y List.mem_cons_self))
  | cons x p ih =>
    cases q with
    | nil =>
      refine iff_of_false ?_ (List.not_lt_nil _)
      intro hlt
      have hx := hp x List.mem_cons_self
      rcases List.cons_lt_cons_iff.mp hlt with hlt | ⟨rfl, -⟩
      · exact lt_asymm hx hlt
      · exact lt_irrefl _ hx
    | cons y q =>
      rw [List.cons_append, List.cons_append, List.cons_lt_cons_iff, List.cons_lt_cons_iff]
      refine or_congr_right (and_congr_right fun hxy => ?_)
      refine ih (fun x hx => hp x (List.mem_cons_of_mem _ hx))
        (fun y hy => hq y (List.mem_cons_of_mem _ hy)) ?_
      rintro rfl
      exact hne (by rw [hxy])

/-- A year is a sign or a digit, and digits after it. -/
theorem exists_appendInt_eq_cons (width : ℕ) (y : ℤ) :
    ∃ x p, appendInt width y = x :: p ∧ ∀ d ∈ p, '-' < d := by
  let digits := fixedDigits (max width (Nat.log 10 y.natAbs + 1)) y.natAbs
  have hdigits : ∀ d ∈ digits, '-' < d := fun _ => separator_lt_of_mem_fixedDigits
  by_cases hy : y < 0
  · exact ⟨'-', digits, by simp [appendInt, hy, digits], hdigits⟩
  · have hlength : 0 < digits.length := by simp [digits, length_fixedDigits]
    obtain ⟨x, p, hp⟩ := List.exists_cons_of_length_pos hlength
    refine ⟨x, p, by simp [appendInt, hy, ← hp, digits], fun d hd => hdigits d ?_⟩
    exact hp ▸ List.mem_cons_of_mem x hd

/-- Different years decide the order of two texts. -/
theorem year_lt (hne : y ≠ z) :
    appendInt width y ++ '-' :: r < appendInt width z ++ '-' :: s ↔
      appendInt width y < appendInt width z := by
  have htext : appendInt width y ≠ appendInt width z := fun h => hne (appendInt_injective h)
  obtain ⟨x, p, hp, hdigits⟩ := exists_appendInt_eq_cons width y
  obtain ⟨x', q, hq, hdigits'⟩ := exists_appendInt_eq_cons width z
  rw [hp, hq] at htext ⊢
  rw [List.cons_append, List.cons_append, List.cons_lt_cons_iff, List.cons_lt_cons_iff]
  refine or_congr_right (and_congr_right fun hx => ?_)
  exact append_separator_lt hdigits hdigits' fun h => htext (by rw [hx, h])

end Fields

section Fractions

variable {a b w k : ℕ} {p q r s c : List Char} {x : Char}

/-- Two lists that differ and do not continue each other have a first difference. -/
theorem exists_first_difference {α : Type} {p q : List α} (h : ¬ p <+: q) (h' : ¬ q <+: p) :
    ∃ (c : List α) (x y : α) (r s : List α), p = c ++ x :: r ∧ q = c ++ y :: s ∧ x ≠ y := by
  classical
  induction p generalizing q with
  | nil => exact absurd ⟨q, rfl⟩ h
  | cons x p ih =>
    cases q with
    | nil => exact absurd ⟨x :: p, rfl⟩ h'
    | cons y q =>
      by_cases hxy : x = y
      · subst hxy
        rw [List.cons_prefix_cons] at h h'
        obtain ⟨c, x', y', r, s, rfl, rfl, hne⟩ := ih (fun hp => h ⟨rfl, hp⟩) fun hq => h' ⟨rfl, hq⟩
        exact ⟨x :: c, x', y', r, s, rfl, rfl, hne⟩
      · exact ⟨[], x, y, p, q, rfl, rfl, hxy⟩

theorem append_lt_append_iff : c ++ p < c ++ q ↔ p < q := by
  induction c with
  | nil => rfl
  | cons x c ih => simp [ih]

theorem first_difference_lt {y : Char} (h : x ≠ y) : c ++ x :: r < c ++ y :: s ↔ x < y := by
  rw [append_lt_append_iff, List.cons_lt_cons_iff]
  exact or_iff_left fun heq => h heq.1

/-- The digits of a fraction are those of the nanoseconds up to zeros. -/
theorem exists_zeros (nanos : ℕ) :
    ∃ k, fixedDigits 9 nanos = fractionDigits nanos ++ List.replicate k '0' := by
  have hsplit : fractionDigits nanos ++ (fixedDigits 9 nanos).rtakeWhile (· = '0') =
      fixedDigits 9 nanos := List.rdropWhile_append_rtakeWhile
  refine ⟨((fixedDigits 9 nanos).rtakeWhile (· = '0')).length, ?_⟩
  rw [← List.eq_replicate_of_mem, hsplit]
  intro c hc
  simpa using List.mem_rtakeWhile_imp hc

theorem not_lt_zeros (h : ∀ x ∈ p, '0' ≤ x) (hlength : p.length = k) :
    ¬ p < List.replicate k '0' := by
  induction p generalizing k with
  | nil =>
    subst hlength
    exact lt_irrefl _
  | cons x p ih =>
    subst hlength
    rw [List.length_cons, List.replicate_succ, List.cons_lt_cons_iff]
    rintro (hlt | ⟨-, hlt⟩)
    · exact absurd hlt (h x List.mem_cons_self).not_gt
    · exact ih (fun y hy => h y (List.mem_cons_of_mem _ hy)) rfl hlt

theorem mem_fractionDigits {nanos : ℕ} (h : x ∈ fractionDigits nanos) : '0' ≤ x ∧ x < 'Z' := by
  have hdigits : ∀ d : Fin 10, '0' ≤ Nat.digitChar d ∧ Nat.digitChar d < 'Z' := by decide
  have hmem : x ∈ fixedDigits 9 nanos := (List.rdropWhile_prefix _ _).subset h
  obtain ⟨d, rfl⟩ := mem_fixedDigits hmem
  exact hdigits d

section

variable (ha : a < 10 ^ 9) (hb : b < 10 ^ 9)
include ha hb

theorem fractionDigits_injective (h : fractionDigits a = fractionDigits b) : a = b := by
  obtain ⟨k, hk⟩ := exists_zeros a
  obtain ⟨l, hl⟩ := exists_zeros b
  have hlength := congrArg List.length hk
  have hlength' := congrArg List.length hl
  simp only [length_fixedDigits, List.length_append, List.length_replicate, h] at hlength hlength'
  have hkl : k = l := by omega
  exact fixedDigits_injective ha hb (by rw [hk, hl, h, hkl])

theorem nanos_lt_iff : a < b ↔ fixedDigits 9 a < fixedDigits 9 b := by
  have h := fixedDigits_append_lt (r := []) (s := []) ha hb
  simp only [List.append_nil, lt_irrefl, and_false, or_false] at h
  exact h.symm

/-- A fraction whose digits go on is the larger one, and its text the smaller. -/
theorem fractionText_of_prefix (hne : a ≠ b) (h : fractionDigits a <+: fractionDigits b) :
    a < b ∧ fractionText b < fractionText a := by
  obtain ⟨k, hk⟩ := exists_zeros a
  obtain ⟨l, hl⟩ := exists_zeros b
  obtain ⟨rest, hrest⟩ := h
  constructor
  · refine lt_of_le_of_ne (le_of_not_gt fun hlt => ?_) hne
    rw [nanos_lt_iff hb ha, hk, hl, ← hrest, List.append_assoc, append_lt_append_iff] at hlt
    refine not_lt_zeros ?_ ?_ hlt
    · intro x hx
      rcases List.mem_append.mp hx with hx | hx
      · exact (mem_fractionDigits (hrest ▸ List.mem_append_right _ hx)).1
      · exact (List.eq_of_mem_replicate hx).ge
    · have hlength := congrArg List.length hk
      have hlength' := congrArg List.length hl
      rw [← hrest] at hlength'
      simp only [length_fixedDigits, List.length_append, List.length_replicate] at *
      omega
  · cases rest with
    | nil =>
      rw [List.append_nil] at hrest
      exact absurd (fractionDigits_injective ha hb hrest) hne
    | cons y rest =>
      have hmem : y ∈ fractionDigits b := by
        rw [← hrest]
        simp
      have hy : y < 'Z' := (mem_fractionDigits hmem).2
      have hdigits : fractionDigits b ≠ [] := by simp [← hrest]
      unfold fractionText
      rw [if_neg hdigits]
      split
      next hempty =>
        exact List.cons_lt_cons_iff.mpr (.inl (by decide))
      next =>
        rw [← hrest]
        simp only [List.cons_append, List.append_assoc, List.cons_lt_cons_iff, lt_irrefl, true_and,
          false_or, append_lt_append_iff]
        exact .inl hy

/-- The texts of two fractions are in the wrong order exactly if one continues the other. -/
theorem fractionText_lt_iff (hne : a ≠ b) :
    fractionText a < fractionText b ↔
      (a < b ↔
        ¬ (fractionDigits a <+: fractionDigits b ∨ fractionDigits b <+: fractionDigits a)) := by
  by_cases hab : fractionDigits a <+: fractionDigits b
  · obtain ⟨hlt, htext⟩ := fractionText_of_prefix ha hb hne hab
    simp [hab, hlt, lt_asymm htext]
  · by_cases hba : fractionDigits b <+: fractionDigits a
    · obtain ⟨hlt, htext⟩ := fractionText_of_prefix hb ha hne.symm hba
      simp [hba, hlt.not_gt, htext]
    · obtain ⟨c, x, y, r, s, hx, hy, hxy⟩ := exists_first_difference hab hba
      obtain ⟨k, hk⟩ := exists_zeros a
      obtain ⟨l, hl⟩ := exists_zeros b
      have hlt : a < b ↔ x < y := by
        rw [nanos_lt_iff ha hb, hk, hl, hx, hy, List.append_assoc, List.append_assoc,
          List.cons_append, List.cons_append, first_difference_lt hxy]
      have htext : fractionText a < fractionText b ↔ x < y := by
        simp only [fractionText, hx, hy, List.append_eq_nil_iff, reduceCtorEq, and_false, if_false,
          List.cons_append, List.append_assoc, List.cons_lt_cons_iff, lt_irrefl, true_and, false_or]
        exact first_difference_lt hxy
      rw [htext, hlt]
      simp [hab, hba]

end

end Fractions

variable {t u n : ℤ} {r s : List Char} {c : Char}

theorem clockText_lt {a b : ℤ} (ha0 : 0 ≤ a) (ha : a < 86400) (hb0 : 0 ≤ b) (hb : b < 86400) :
    clockText a ++ r < clockText b ++ s ↔ a < b ∨ a = b ∧ r < s := by
  simp only [clockText, List.append_assoc, List.cons_append]
  rw [field_cons_lt (by omega) (by omega) (by omega) (by omega),
    field_cons_lt (by omega) (by omega) (by omega) (by omega),
    field_lt (by omega) (by omega) (by omega) (by omega)]
  constructor
  · rintro (h | ⟨h, h' | ⟨h', h'' | ⟨h'', hrs⟩⟩⟩)
    · left
      omega
    · left
      omega
    · left
      omega
    · exact .inr ⟨by omega, hrs⟩
  · rintro (h | ⟨rfl, hrs⟩)
    · omega
    · exact .inr ⟨rfl, .inr ⟨rfl, .inr ⟨rfl, hrs⟩⟩⟩

/-- Within a year the months and days are ordered as the day numbers. -/
theorem monthText_lt {m : ℤ} (hyear : (dateOfDay n).year = (dateOfDay m).year) :
    monthText (dateOfDay n) ++ r < monthText (dateOfDay m) ++ s ↔ n < m ∨ n = m ∧ r < s := by
  obtain ⟨hm0, hm1, hd0, hd1⟩ := dateOfDay_bounds n
  obtain ⟨hm0', hm1', hd0', hd1'⟩ := dateOfDay_bounds m
  simp only [monthText, List.append_assoc, List.cons_append]
  rw [field_cons_lt (by omega) (by omega) (by omega) (by omega),
    field_lt (by omega) (by omega) (by omega) (by omega)]
  rcases lt_trichotomy n m with h | rfl | h
  · have hlt := dateOfDay_lt h
    rw [hyear] at hlt
    refine iff_of_true ?_ (.inl h)
    omega
  · simp
  · have hlt := dateOfDay_lt h
    rw [hyear] at hlt
    omega

theorem nanosOf_lt (t : ℤ) : nanosOf t < 10 ^ 9 := by
  unfold nanosOf
  omega

theorem lt_of_same_second (h : secondOf t = secondOf u) :
    (t < u ↔ nanosOf t < nanosOf u) ∧ (t = u ↔ nanosOf t = nanosOf u) := by
  unfold secondOf at h
  unfold nanosOf
  omega

theorem yearOf_mono (h : t ≤ u) : yearOf t ≤ yearOf u := by
  apply dateOfDay_year_mono
  unfold secondOf
  omega

def afterYear (t : Instant) : List Char :=
  monthText (dateOfDay (secondOf t / 86400)) ++
    'T' :: (clockText (secondOf t % 86400) ++ fractionText (nanosOf t))

theorem rfc3339Nano_lt_iff_list :
    rfc3339Nano t < rfc3339Nano u ↔
      appendInt 4 (yearOf t) ++ '-' :: afterYear t <
        appendInt 4 (yearOf u) ++ '-' :: afterYear u := by
  rw [String.lt_iff_toList_lt, rfc3339Nano, rfc3339Nano, String.toList_ofList,
    String.toList_ofList]
  rfl

theorem afterYear_lt (h : yearOf t = yearOf u) :
    afterYear t < afterYear u ↔ secondOf t < secondOf u ∨
      secondOf t = secondOf u ∧ fractionText (nanosOf t) < fractionText (nanosOf u) := by
  unfold afterYear
  rw [monthText_lt h, List.cons_lt_cons_iff,
    clockText_lt (by omega) (by omega) (by omega) (by omega)]
  simp only [lt_irrefl, true_and, false_or]
  constructor
  · rintro (h | ⟨h, h' | ⟨h', hrs⟩⟩)
    · left
      omega
    · left
      omega
    · exact .inr ⟨by omega, hrs⟩
  · rintro (h | ⟨h, hrs⟩)
    · omega
    · rw [h]
      exact .inr ⟨rfl, .inr ⟨rfl, hrs⟩⟩

/-- The texts of two times are ordered as the times, unless one is misread. -/
theorem rfc3339Nano_lt_iff : rfc3339Nano t < rfc3339Nano u ↔ (t < u ↔ ¬ Misread t u) := by
  rw [rfc3339Nano_lt_iff_list]
  by_cases hyear : yearOf t = yearOf u
  · rw [hyear, append_lt_append_iff, List.cons_lt_cons_iff, afterYear_lt hyear]
    simp only [lt_irrefl, true_and, false_or, Misread, hyear, ne_eq, not_true, false_and]
    by_cases hsecond : secondOf t = secondOf u
    · obtain ⟨hlt, heq⟩ := lt_of_same_second hsecond
      simp only [hsecond, lt_irrefl, true_and, false_or, hlt, heq]
      by_cases hne : nanosOf t = nanosOf u
      · simp [hne]
      · rw [fractionText_lt_iff (nanosOf_lt t) (nanosOf_lt u) hne]
        simp [hne]
    · have hlt : secondOf t < secondOf u ↔ t < u := by
        unfold secondOf at hsecond ⊢
        omega
      simp [hsecond, hlt]
  · have hsecond : secondOf t ≠ secondOf u := by
      intro h
      exact hyear (by rw [yearOf, yearOf, h])
    have hlt : t < u ↔ yearOf t < yearOf u := by
      constructor
      · intro h
        exact lt_of_le_of_ne (yearOf_mono h.le) hyear
      · intro h
        by_contra hge
        exact absurd (yearOf_mono (not_lt.mp hge)) h.not_ge
    rw [year_lt hyear, hlt]
    simp only [Misread, hsecond, false_and, or_false]
    tauto

theorem Misread.symm (h : Misread t u) : Misread u t := by
  rcases h with ⟨hyear, hmisordered⟩ | ⟨hsecond, hne, hprefix⟩
  · refine .inl ⟨hyear.symm, fun h => hmisordered (lt_iff_lt_of_le_iff_le ?_)⟩
    have htext : appendInt 4 (yearOf u) ≠ appendInt 4 (yearOf t) :=
      fun h => hyear (appendInt_injective h).symm
    rwa [htext.le_iff_lt, hyear.symm.le_iff_lt]
  · exact .inr ⟨hsecond.symm, hne.symm, hprefix.symm⟩

theorem rfc3339Nano_injective (h : rfc3339Nano t = rfc3339Nano u) : t = u := by
  have hlt : ∀ {a b : ℤ}, rfc3339Nano a = rfc3339Nano b → ¬ a < b := by
    intro a b hab hlt
    have hnot : ¬ rfc3339Nano a < rfc3339Nano b := by
      rw [hab]
      exact lt_irrefl _
    have hnot' : ¬ rfc3339Nano b < rfc3339Nano a := by
      rw [hab]
      exact lt_irrefl _
    rw [rfc3339Nano_lt_iff] at hnot hnot'
    have hmisread : Misread a b := by
      by_contra hread
      exact hnot ⟨fun _ => hread, fun _ => hlt⟩
    exact hnot' ⟨fun hba => absurd hba hlt.not_gt, fun hread => absurd hmisread.symm hread⟩
  exact le_antisymm (not_lt.mp (hlt h.symm)) (not_lt.mp (hlt h))

theorem le_Z_of_mem_fixedDigits {w k : ℕ} (h : c ∈ fixedDigits w k) : c ≤ 'Z' := by
  have hdigit : ∀ d : Fin 10, Nat.digitChar d ≤ 'Z' := by decide
  obtain ⟨d, rfl⟩ := mem_fixedDigits h
  exact hdigit d

theorem le_Z_of_mem_appendInt {width : ℕ} (h : c ∈ appendInt width n) : c ≤ 'Z' := by
  rcases List.mem_append.mp h with h | h
  · split at h
    · rw [List.mem_singleton.mp h]
      decide
    · cases h
  · exact le_Z_of_mem_fixedDigits h

/-- The text of a time has no character after `Z`. -/
theorem le_Z_of_mem_rfc3339Nano : ∀ c ∈ (rfc3339Nano t).toList, c ≤ 'Z' := by
  have hint : ∀ {width n}, ∀ c ∈ appendInt width n, c ≤ 'Z' := fun _ => le_Z_of_mem_appendInt
  have hfraction : ∀ c ∈ fractionText (nanosOf t), c ≤ 'Z' := by
    intro c hc
    rcases List.mem_append.mp hc with hc | hc
    · split at hc
      · cases hc
      · rcases List.mem_cons.mp hc with rfl | hc
        · decide
        · exact le_Z_of_mem_fixedDigits ((List.rdropWhile_prefix _ _).subset hc)
    · rw [List.mem_singleton.mp hc]
  simp only [rfc3339Nano, monthText, clockText, String.toList_ofList, List.forall_mem_append,
    List.forall_mem_cons]
  exact ⟨hint, by decide, ⟨hint, by decide, hint⟩, by decide,
    ⟨hint, by decide, hint, by decide, hint⟩, hfraction⟩

end Stacklab.Lib
