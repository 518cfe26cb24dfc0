import Stacklab.Lib.GoPath

/-! UTF-8 as Go decodes it: which byte strings are valid, and what replaces invalid bytes. -/
namespace Stacklab.Lib

/-- The number of bytes of a rune, and the range of its second byte, by its first byte. -/
def runeShape (a : UInt8) : Option (ℕ × UInt8 × UInt8) :=
  if a < 0xC2 then none
  else if a ≤ 0xDF then some (2, 0x80, 0xBF)
  else if a = 0xE0 then some (3, 0xA0, 0xBF)
  else if a = 0xED then some (3, 0x80, 0x9F)
  else if a ≤ 0xEF then some (3, 0x80, 0xBF)
  else if a = 0xF0 then some (4, 0x90, 0xBF)
  else if a ≤ 0xF3 then some (4, 0x80, 0xBF)
  else if a = 0xF4 then some (4, 0x80, 0x8F)
  else none

def continues (low high b : UInt8) : Bool := low ≤ b && b ≤ high

/-- The length of the rune at the start, zero if there is none. -/
def runeLength : Bytes → ℕ
  | [] => 0
  | a :: rest =>
    if a < 0x80 then 1
    else
      match runeShape a, rest with
      | some (2, low, high), b :: _ => if continues low high b then 2 else 0
      | some (3, low, high), b :: c :: _ =>
        if continues low high b && continues 0x80 0xBF c then 3 else 0
      | some (4, low, high), b :: c :: d :: _ =>
        if continues low high b && continues 0x80 0xBF c && continues 0x80 0xBF d then 4 else 0
      | _, _ => 0

/-- Inside a rune of which `skip` bytes are left. -/
def validFrom : ℕ → Bytes → Bool
  | _, [] => true
  | skip + 1, _ :: rest => validFrom skip rest
  | 0, b :: rest => runeLength (b :: rest) ≠ 0 && validFrom (runeLength (b :: rest) - 1) rest

def validUTF8 (s : Bytes) : Bool := validFrom 0 s

/-- The replacement character U+FFFD. -/
def replacement : Bytes := [0xEF, 0xBF, 0xBD]

/-- Inside a rune of which `skip` bytes are left, which stay. -/
def replaceFrom : ℕ → Bytes → Bytes
  | _, [] => []
  | skip + 1, b :: rest => b :: replaceFrom skip rest
  | 0, b :: rest =>
    if runeLength (b :: rest) = 0 then replacement ++ replaceFrom 0 rest
    else b :: replaceFrom (runeLength (b :: rest) - 1) rest

/-- Each byte that starts no rune becomes U+FFFD. -/
def toValidUTF8 (s : Bytes) : Bytes := replaceFrom 0 s

/-- The rune at the start, U+FFFD if there is none. -/
def runeAt (s : Bytes) : Char :=
  let low (b : UInt8) : ℕ := b.toNat % 64
  match runeLength s, s with
  | 1, a :: _ => Char.ofNat a.toNat
  | 2, a :: b :: _ => Char.ofNat (a.toNat % 32 * 64 + low b)
  | 3, a :: b :: c :: _ => Char.ofNat (a.toNat % 16 * 4096 + low b * 64 + low c)
  | 4, a :: b :: c :: d :: _ =>
    Char.ofNat (a.toNat % 8 * 262144 + low b * 4096 + low c * 64 + low d)
  | _, _ => Char.ofNat 0xFFFD

/-- Inside a rune of which `skip` bytes are left. -/
def runesFrom : ℕ → Bytes → List Char
  | _, [] => []
  | skip + 1, _ :: rest => runesFrom skip rest
  | 0, b :: rest => runeAt (b :: rest) :: runesFrom (runeLength (b :: rest) - 1) rest

/-- The runes of a byte string, as `range` visits them. -/
def runes (s : Bytes) : List Char := runesFrom 0 s

variable {s t : Bytes} {b c low : UInt8} {skip : ℕ}

theorem length_replaceFrom : s.length ≤ (replaceFrom skip s).length := by
  induction s generalizing skip with
  | nil => exact Nat.zero_le _
  | cons b rest ih =>
    cases skip with
    | succ skip =>
      have hle := @ih skip
      simp only [replaceFrom, List.length_cons]
      omega
    | zero =>
      unfold replaceFrom
      split
      · have hle := @ih 0
        simp only [replacement, List.length_append, List.length_cons, List.length_nil]
        omega
      · have hle := @ih (runeLength (b :: rest) - 1)
        simp only [List.length_cons]
        omega

theorem replaceFrom_eq_self : replaceFrom skip s = s ↔ validFrom skip s = true := by
  induction s generalizing skip with
  | nil => simp [replaceFrom, validFrom]
  | cons b rest ih =>
    cases skip with
    | succ skip => simp only [replaceFrom, validFrom, List.cons.injEq, true_and, ih]
    | zero =>
      unfold replaceFrom validFrom
      split
      next hzero =>
        -- A replaced byte makes the text longer.
        have hne : replacement ++ replaceFrom 0 rest ≠ b :: rest := by
          intro heq
          have hlen := congrArg List.length heq
          have hle := @length_replaceFrom rest 0
          simp only [replacement, List.length_append, List.length_cons, List.length_nil] at hlen
          omega
        simp [hzero, hne]
      next hrune =>
        simp only [List.cons.injEq, true_and, ih]
        simp [hrune]

theorem toValidUTF8_eq_self : toValidUTF8 s = s ↔ validUTF8 s = true := replaceFrom_eq_self

theorem runeLength_ascii (h : b < 0x80) : runeLength (b :: s) = 1 := by
  rw [runeLength.eq_def]
  simp [h]

theorem validUTF8_ascii (h : ∀ b ∈ s, b < 0x80) : validUTF8 s = true := by
  induction s with
  | nil => rfl
  | cons b rest ih =>
    have hb := runeLength_ascii (s := rest) (h b List.mem_cons_self)
    have hrest := ih fun c hc => h c (List.mem_cons_of_mem _ hc)
    unfold validUTF8 at hrest ⊢
    unfold validFrom
    rw [hb, hrest]
    rfl

theorem not_continues_ascii (high : UInt8) (hlow : 0x80 ≤ low) (h : c < 0x80) :
    continues low high c = false := by
  unfold continues
  have hlt : ¬ low ≤ c := by
    rw [UInt8.le_iff_toNat_le] at hlow ⊢
    rw [UInt8.lt_iff_toNat_lt] at h
    omega
  simp [hlt]

theorem runeShape_low {a high : UInt8} {size : ℕ} (h : runeShape a = some (size, low, high)) :
    0x80 ≤ low := by
  unfold runeShape at h
  split at h
  · cases h
  repeat
    split at h
    · cases h
      decide
  cases h

/-- A rune that starts before an ASCII byte ends before it. -/
theorem runeLength_append_ascii (h : c < 0x80) :
    runeLength (b :: s ++ c :: t) = runeLength (b :: s) ∧ runeLength (b :: s) ≤ s.length + 1 := by
  rw [List.cons_append, runeLength.eq_def, runeLength.eq_def (b :: s)]
  dsimp only
  split
  · exact ⟨rfl, by omega⟩
  cases hshape : runeShape b with
  | none => exact ⟨rfl, Nat.zero_le _⟩
  | some shape =>
    obtain ⟨size, low, high⟩ := shape
    have hsecond := not_continues_ascii high (runeShape_low hshape) h
    have hlater := not_continues_ascii 0xBF (UInt8.le_refl 0x80) h
    rcases s with _ | ⟨b₁, _ | ⟨b₂, _ | ⟨b₃, rest⟩⟩⟩ <;>
      rcases size with _ | _ | _ | _ | _ | size <;>
      simp [hsecond, hlater] <;> grind

theorem validFrom_of_append_ascii (h : c < 0x80) (hskip : skip ≤ s.length)
    (hv : validFrom skip (s ++ c :: t) = true) : validFrom skip s = true := by
  induction s generalizing skip with
  | nil => rfl
  | cons b rest ih =>
    cases skip with
    | succ skip => exact ih (Nat.le_of_succ_le_succ hskip) hv
    | zero =>
      obtain ⟨hlen, hle⟩ := runeLength_append_ascii (b := b) (s := rest) (t := t) h
      rw [List.cons_append] at hv hlen
      unfold validFrom at hv ⊢
      rw [hlen, Bool.and_eq_true] at hv
      rw [Bool.and_eq_true]
      exact ⟨hv.1, ih (by omega) hv.2⟩

/-- What stands before an ASCII byte of a valid text is valid. -/
theorem validUTF8_of_append_ascii (h : c < 0x80) (hv : validUTF8 (s ++ c :: t) = true) :
    validUTF8 s = true :=
  validFrom_of_append_ascii h (Nat.zero_le _) hv

end Stacklab.Lib
