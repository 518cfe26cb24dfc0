import Mathlib.Data.List.Basic

/-! Cutting a stream into bounded lines, whatever chunks it arrives in. -/
namespace Stacklab.Lib

variable {α σ : Type}

/-- What becomes of a complete line, and of a line that is too long. -/
structure Framer (α σ : Type) where
  newline : α
  limit : ℕ
  consume : σ → { line : List α // line.length ≤ limit } → σ
  overflow : σ → σ

/-- A line up to and with its end, or the unfinished rest of the data. -/
structure Piece (α : Type) where
  text : List α
  ended : Bool
  deriving DecidableEq

/-- The pieces of the data, one for each round of the loop. -/
def pieces [DecidableEq α] (newline : α) : List α → List (Piece α)
  | [] => []
  | b :: rest =>
    if b = newline then ⟨[b], true⟩ :: pieces newline rest
    else
      match pieces newline rest with
      | [] => [⟨[b], false⟩]
      | p :: ps => { p with text := b :: p.text } :: ps

namespace Framer

/-- The pending line is never longer than a line may be. -/
structure Framing (f : Framer α σ) where
  pending : { line : List α // line.length ≤ f.limit } := ⟨[], Nat.zero_le _⟩
  discarding : Bool := false
  state : σ

variable (f : Framer α σ) {s : f.Framing} {a b : List α}

/-- A piece is added to the pending line, unless the line gets too long. -/
def keep (s : f.Framing) (text : List α) : f.Framing :=
  if s.discarding then s
  else if h : s.pending.1.length + text.length ≤ f.limit then
    { s with pending := ⟨s.pending.1 ++ text, by rwa [List.length_append]⟩ }
  else { discarding := true, state := f.overflow s.state }

/-- The end of a line. -/
def close (s : f.Framing) : f.Framing where
  state := if s.discarding then s.state else f.consume s.state s.pending

def round (s : f.Framing) (p : Piece α) : f.Framing :=
  if p.ended then f.close (f.keep s p.text) else f.keep s p.text

def write [DecidableEq α] (s : f.Framing) (data : List α) : f.Framing :=
  (pieces f.newline data).foldl f.round s

/-- The last line need not have an end. -/
def finish (s : f.Framing) : f.Framing where
  discarding := s.discarding
  state :=
    if s.pending.1 ≠ [] ∧ s.discarding = false then f.consume s.state s.pending else s.state

/-- Text may arrive in two parts. -/
theorem keep_append : f.keep s (a ++ b) = f.keep (f.keep s a) b := by
  unfold keep
  by_cases hdiscarding : s.discarding = true
  · simp [hdiscarding]
  · by_cases hfits : s.pending.1.length + a.length ≤ f.limit
    · simp [hdiscarding, hfits, Nat.add_assoc]
    · have hboth : ¬ s.pending.1.length + (a.length + b.length) ≤ f.limit := by omega
      simp [hdiscarding, hfits, hboth]

variable [DecidableEq α] {chunks : List (List α)}

/-- An element that does not end the line is a piece of its own. -/
theorem write_cons {x : α} (h : x ≠ f.newline) :
    f.write s (x :: a) = f.write (f.keep s [x]) a := by
  unfold write
  rw [pieces, if_neg h]
  cases pieces f.newline a with
  | nil => rfl
  | cons p ps =>
    have hsplit : f.round s { p with text := x :: p.text } = f.round (f.keep s [x]) p := by
      simp only [round, ← keep_append, List.singleton_append]
    rw [List.foldl_cons, List.foldl_cons, hsplit]

theorem write_newline :
    f.write s (f.newline :: a) = f.write (f.close (f.keep s [f.newline])) a := by
  unfold write
  rw [pieces, if_pos rfl]
  rfl

/-- Writing two chunks is writing them as one. -/
theorem write_append : f.write s (a ++ b) = f.write (f.write s a) b := by
  induction a generalizing s with
  | nil => rfl
  | cons x rest ih =>
    rw [List.cons_append]
    by_cases h : x = f.newline
    · subst h
      rw [write_newline, write_newline, ih]
    · rw [f.write_cons h, f.write_cons h, ih]

theorem foldl_write : chunks.foldl f.write s = f.write s chunks.flatten := by
  induction chunks generalizing s with
  | nil => rfl
  | cons chunk rest ih => rw [List.foldl_cons, ih, List.flatten_cons, write_append]

end Framer

end Stacklab.Lib
