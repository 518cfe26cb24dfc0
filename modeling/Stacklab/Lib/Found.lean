import Mathlib.Data.List.Perm.Subperm
import Mathlib.Order.Bounds.Basic

/-! A search that goes through numbered steps and keeps the first few values that it finds. -/
namespace Stacklab.Lib

variable {α : Type} {f : ℕ → Option α} {n steps : ℕ} {c : α}

/-- The values that are found in the first steps. -/
def found (f : ℕ → Option α) (steps : ℕ) : List α := (List.range steps).filterMap f

theorem found_succ (f : ℕ → Option α) (steps : ℕ) :
    found f (steps + 1) = found f steps ++ (f steps).toList := by
  rw [found, found, List.range_succ, List.filterMap_append]
  cases h : f steps <;> simp [h]

theorem mem_found : c ∈ found f steps ↔ ∃ k < steps, f k = some c := by
  simp [found]

theorem found_eq_nil : found f steps = [] ↔ ∀ k < steps, f k = none := by
  simp [found]

theorem findSome?_eq_head?_found (f : ℕ → Option α) (steps : ℕ) :
    (List.range steps).findSome? f = (found f steps).head? :=
  List.head?_filterMap.symm

/-- A value is kept if fewer than `n` were found before it. -/
theorem take_found_split {k : ℕ} (hk : k < steps) (hc : f k = some c)
    (hn : (found f k).length < n) :
    ∃ rest, (found f steps).take n = found f k ++ c :: rest := by
  obtain ⟨m, rfl⟩ : ∃ m, steps = k + 1 + m := ⟨steps - (k + 1), by omega⟩
  have hprefix : ∃ more, found f (k + 1 + m) = found f k ++ c :: more := by
    clear hk
    induction m with
    | zero => exact ⟨[], by simp [found_succ, hc]⟩
    | succ m ih =>
      obtain ⟨more, hm⟩ := ih
      exact ⟨more ++ (f (k + 1 + m)).toList, by simp [← Nat.add_assoc, found_succ f (k + 1 + m), hm]⟩
  obtain ⟨more, hm⟩ := hprefix
  obtain ⟨d, hd⟩ : ∃ d, n - (found f k).length = d + 1 :=
    ⟨n - (found f k).length - 1, by omega⟩
  refine ⟨more.take d, ?_⟩
  rw [hm, List.take_append, List.take_of_length_le (by omega), hd, List.take_succ_cons]

theorem mem_take_found : c ∈ (found f steps).take n ↔
    ∃ k < steps, f k = some c ∧ (found f k).length < n := by
  constructor
  · intro h
    induction steps with
    | zero => simp [found] at h
    | succ steps ih =>
      by_cases hold : c ∈ (found f steps).take n
      · obtain ⟨k, hk, hc⟩ := ih hold
        exact ⟨k, by omega, hc⟩
      · rw [found_succ, List.take_append, List.mem_append] at h
        have hnew := List.mem_of_mem_take (h.resolve_left hold)
        have hlen : (found f steps).length < n := by
          by_contra hle
          have hzero : n - (found f steps).length = 0 := by omega
          simp [hzero, hold] at h
        exact ⟨steps, by omega, by simpa using hnew, hlen⟩
  · rintro ⟨k, hk, hc, hn⟩
    obtain ⟨rest, hrest⟩ := take_found_split hk hc hn
    simp [hrest]

/-- The first value is found at a step before which there was none. -/
theorem head?_found : (found f steps).head? = some c ↔
    ∃ k < steps, f k = some c ∧ ∀ j < k, f j = none := by
  have htake : (found f steps).head? = some c ↔ c ∈ (found f steps).take 1 := by
    rw [List.take_one, Option.mem_toList]
  rw [htake, mem_take_found]
  simp only [Nat.lt_one_iff, List.length_eq_zero_iff, found_eq_nil]

theorem pairwise_take_found {R : α → α → Prop}
    (h : ∀ k < steps, ∀ c, f k = some c → (found f k).length < n →
      ∀ j < k, ∀ b, f j = some b → R b c) :
    ((found f steps).take n).Pairwise R := by
  induction steps with
  | zero => simp [found]
  | succ steps ih =>
    have hsorted := ih fun k hk => h k (by omega)
    rw [found_succ, List.take_append, List.pairwise_append]
    refine ⟨hsorted, ?_, ?_⟩
    · cases f steps with
      | none => simp
      | some c => exact List.Pairwise.sublist (List.take_sublist _ _) (List.pairwise_singleton R c)
    · intro b hb c hc
      have hlen : (found f steps).length < n := by
        by_contra hle
        have hzero : n - (found f steps).length = 0 := by omega
        simp [hzero] at hc
      have hfound : f steps = some c := by simpa using List.mem_of_mem_take hc
      obtain ⟨j, hj, hb⟩ := mem_found.mp (List.mem_of_mem_take hb)
      exact h steps (by omega) c hfound hlen j hj b hb

variable [LinearOrder α] {P : α → Prop} {bound : α} {l : List α}

/-- The first `n` members of a set beyond a bound, in order; all of them if there are fewer. -/
structure FirstAfter (P : α → Prop) (bound : α) (n : ℕ) (l : List α) : Prop where
  increasing : l.Pairwise (· < ·)
  length : l.length ≤ n
  member : ∀ t ∈ l, P t ∧ bound < t
  complete : ∀ t, P t → bound < t → t ∈ l ∨ l.length = n ∧ ∀ s ∈ l, s < t

theorem FirstAfter.take (h : FirstAfter P bound n l) {m : ℕ} (hm : m ≤ n) :
    FirstAfter P bound m (l.take m) where
  increasing := h.increasing.sublist (List.take_sublist _ _)
  length := List.length_take_le _ _
  member t ht := h.member t (List.mem_of_mem_take ht)
  complete t ht hb := by
    by_cases hmem : t ∈ l.take m
    · exact .inl hmem
    · right
      have hsplit : (l.take m ++ l.drop m).Pairwise (· < ·) := by
        rw [List.take_append_drop]
        exact h.increasing
      rcases h.complete t ht hb with hl | ⟨hlen, hlt⟩
      · rw [← List.take_append_drop m l, List.mem_append] at hl
        have hdrop := hl.resolve_left hmem
        have hpos : m < l.length := by
          by_contra hle
          simp [List.drop_eq_nil_of_le (not_lt.mp hle)] at hdrop
        refine ⟨by simp; omega, ?_⟩
        intro s hs
        exact (List.pairwise_append.mp hsplit).2.2 s hs t hdrop
      · exact ⟨by simp; omega, fun s hs => hlt s (List.mem_of_mem_take hs)⟩

/-- A search finds the first `n` exactly if it finds them in order, skips none and does not stop
too early. -/
theorem firstAfter_take_found_iff (hb : ∀ k c, f k = some c → bound < c) :
    FirstAfter P bound n ((found f steps).take n) ↔
      (∀ k < steps, ∀ c, f k = some c → (found f k).length < n →
        (∀ j < k, ∀ b, f j = some b → b < c) ∧ P c ∧
        ∀ e, P e → bound < e → e < c → ∃ j < k, f j = some e) ∧
      ((found f steps).length < n → ∀ e, P e → bound < e → ∃ k < steps, f k = some e) := by
  constructor
  · intro h
    refine ⟨?_, ?_⟩
    · intro k hk c hc hn
      obtain ⟨rest, hrest⟩ := take_found_split hk hc hn
      have hsorted := h.increasing
      rw [hrest, List.pairwise_append] at hsorted
      have hmem : c ∈ (found f steps).take n := by simp [hrest]
      refine ⟨?_, (h.member c hmem).1, ?_⟩
      · intro j hj b hb
        exact hsorted.2.2 b (mem_found.mpr ⟨j, hj, hb⟩) c List.mem_cons_self
      · intro e he hlow hlt
        rcases h.complete e he hlow with hin | ⟨-, hall⟩
        · rw [hrest, List.mem_append, List.mem_cons] at hin
          rcases hin with hin | rfl | hin
          · exact mem_found.mp hin
          · exact absurd hlt (lt_irrefl e)
          · have hgt := (List.pairwise_cons.mp hsorted.2.1).1 e hin
            exact absurd (hlt.trans hgt) (lt_irrefl e)
        · exact absurd (hlt.trans (hall c hmem)) (lt_irrefl e)
    · intro hshort e he hlow
      have hall : (found f steps).take n = found f steps := List.take_of_length_le (by omega)
      rw [hall] at h
      rcases h.complete e he hlow with hin | ⟨hlen, -⟩
      · exact mem_found.mp hin
      · omega
  · rintro ⟨hstep, hend⟩
    refine ⟨?_, List.length_take_le _ _, ?_, ?_⟩
    · apply pairwise_take_found
      intro k hk c hc hn
      exact (hstep k hk c hc hn).1
    · intro t ht
      obtain ⟨k, hk, hc, hn⟩ := mem_take_found.mp ht
      exact ⟨(hstep k hk t hc hn).2.1, hb k t hc⟩
    · intro t ht hlow
      by_cases hshort : (found f steps).length < n
      · left
        rw [List.take_of_length_le (by omega)]
        exact mem_found.mpr (hend hshort t ht hlow)
      · by_cases hin : t ∈ (found f steps).take n
        · exact .inl hin
        · refine .inr ⟨by simp; omega, ?_⟩
          intro s hs
          obtain ⟨k, hk, hc, hn⟩ := mem_take_found.mp hs
          by_contra hle
          rcases lt_or_eq_of_le (not_lt.mp hle) with hlt | rfl
          · obtain ⟨j, hj, he⟩ := (hstep k hk s hc hn).2.2 t ht hlow hlt
            obtain ⟨rest, hrest⟩ := take_found_split hk hc hn
            exact hin (by simp [hrest, mem_found.mpr ⟨j, hj, he⟩])
          · exact hin hs

end Stacklab.Lib
