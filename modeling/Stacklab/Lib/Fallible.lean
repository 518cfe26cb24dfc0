/-! Computations that may fail, and what follows from their success. -/
namespace Stacklab.Lib

variable {ε α β : Type}

theorem exists_of_bind_ok {x : Except ε α} {f : α → Except ε β} {b : β}
    (h : (x >>= f) = .ok b) : ∃ a, x = .ok a ∧ f a = .ok b := by
  cases x with
  | error e => cases h
  | ok a => exact ⟨a, rfl, h⟩

theorem ok_of_bind {first second : Except ε Unit}
    (h : (do first; second) = .ok ()) : first = .ok () ∧ second = .ok () := by
  obtain ⟨u, hfirst, hsecond⟩ := exists_of_bind_ok h
  exact ⟨hfirst, hsecond⟩

end Stacklab.Lib
