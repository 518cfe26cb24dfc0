import Stacklab.Lib.Calendar
import Stacklab.Lib.Utf8

/-! The compact texts that `encoding/json` writes. -/
namespace Stacklab.Lib

variable {b : UInt8}

/-- One hexadecimal digit, as `encoding/hex` writes it. -/
def hexDigit (n : Fin 16) : UInt8 := (bytes "0123456789abcdef").getD n 0

def hexByte (b : UInt8) : Bytes :=
  [hexDigit (Fin.ofNat 16 (b.toNat / 16)), hexDigit (Fin.ofNat 16 b.toNat)]

def hexText (data : Bytes) : Bytes := data.flatMap hexByte

/-- What `hex.DecodeString` takes as a digit. -/
def isHexDigit (b : UInt8) : Bool :=
  (48 ≤ b && b ≤ 57) || (97 ≤ b && b ≤ 102) || (65 ≤ b && b ≤ 70)

/-- One ASCII byte inside a string; `<`, `>` and `&` are escaped too. -/
def escapeByte (b : UInt8) : Bytes :=
  if b = 34 ∨ b = 92 then [92, b]
  else if b = 8 then bytes "\\b"
  else if b = 9 then bytes "\\t"
  else if b = 10 then bytes "\\n"
  else if b = 12 then bytes "\\f"
  else if b = 13 then bytes "\\r"
  else if b < 32 ∨ b = 60 ∨ b = 62 ∨ b = 38 then bytes "\\u00" ++ hexByte b
  else [b]

/-- Inside a rune of which `skip` bytes are left, which are kept or were escaped already. -/
def quoteFrom : Bool → ℕ → Bytes → Bytes
  | _, _, [] => []
  | keep, skip + 1, b :: rest => (if keep then [b] else []) ++ quoteFrom keep skip rest
  | _, 0, b :: rest =>
    if runeLength (b :: rest) = 0 then bytes "\\ufffd" ++ quoteFrom true 0 rest
    else if runeLength (b :: rest) = 1 then escapeByte b ++ quoteFrom true 0 rest
    else if (b :: rest).take 3 = [0xE2, 0x80, 0xA8] then bytes "\\u2028" ++ quoteFrom false 2 rest
    else if (b :: rest).take 3 = [0xE2, 0x80, 0xA9] then bytes "\\u2029" ++ quoteFrom false 2 rest
    else b :: quoteFrom true (runeLength (b :: rest) - 1) rest

namespace Json

def text (s : Bytes) : Bytes := [34] ++ quoteFrom true 0 s ++ [34]

def number (n : ℤ) : Bytes := bytes (toString n)

def array (items : List Bytes) : Bytes := [91] ++ [44].intercalate items ++ [93]

def object (fields : List (Bytes × Bytes)) : Bytes :=
  bytes "\x7b" ++ [44].intercalate (fields.map fun field => text field.1 ++ [58] ++ field.2) ++
    bytes "\x7d"

/-- The digits below one second, without the zeros at their end. -/
def fraction (t : Instant) : String :=
  if t % 1000000000 = 0 then ""
  else
    let digits := (padded 9 (t % 1000000000)).toList
    "." ++ String.ofList (digits.reverse.dropWhile (· = '0')).reverse

/-- A UTC time in RFC 3339, for years of four digits only. -/
def time (t : Instant) : Except String Bytes :=
  let date := dateOfDay (dayNumber t)
  let seconds := t % (24 * 60 * minute) / 1000000000
  if date.year < 0 ∨ date.year > 9999 then
    .error ("json: error calling MarshalJSON for type time.Time: " ++
      "Time.MarshalJSON: year outside of range [0,9999]")
  else
    .ok (text (bytes (dayPeriod t ++ "T" ++ padded 2 (seconds / 3600) ++ ":" ++
      padded 2 (seconds / 60 % 60) ++ ":" ++ padded 2 (seconds % 60) ++ fraction t ++ "Z")))

end Json

theorem hexDigit_isHexDigit (n : Fin 16) : isHexDigit (hexDigit n) = true := by
  revert n
  decide +kernel

theorem isHexDigit_of_mem_hexText {data : Bytes} (h : b ∈ hexText data) : isHexDigit b = true := by
  obtain ⟨c, -, hb⟩ := List.mem_flatMap.mp h
  rcases List.mem_cons.mp hb with rfl | hb
  · exact hexDigit_isHexDigit _
  · obtain rfl := List.mem_singleton.mp hb
    exact hexDigit_isHexDigit _

theorem length_hexText (data : Bytes) : (hexText data).length = 2 * data.length := by
  induction data with
  | nil => rfl
  | cons b rest ih =>
    have hcons : hexText (b :: rest) = hexByte b ++ hexText rest := rfl
    rw [hcons, List.length_append, ih]
    simp only [hexByte, List.length_cons, List.length_nil]
    omega

theorem ascii_of_isHexDigit (h : isHexDigit b = true) : b < 0x80 := by
  simp only [isHexDigit, Bool.or_eq_true, Bool.and_eq_true, decide_eq_true_eq,
    UInt8.le_iff_toNat_le] at h
  rw [UInt8.lt_iff_toNat_lt]
  have hnums : (57 : UInt8).toNat = 57 ∧ (102 : UInt8).toNat = 102 ∧ (70 : UInt8).toNat = 70 ∧
    (0x80 : UInt8).toNat = 128 := ⟨rfl, rfl, rfl, rfl⟩
  omega

end Stacklab.Lib
