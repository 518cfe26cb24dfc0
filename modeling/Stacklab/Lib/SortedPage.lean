import Mathlib.Data.List.Sort

/-! The first entries of one list under two orders. -/
namespace Stacklab.Lib

variable {α κ κ' : Type} [LinearOrder κ] [LinearOrder κ']

/-- The entries of a list, the greatest key first. -/
def descending (key : α → κ) (l : List α) : List α :=
  l.insertionSort fun a b => key b ≤ key a

/-- How many entries have a greater key. -/
def rank (key : α → κ) (l : List α) (a : α) : ℕ := l.countP fun b => key a < key b

section Descending

variable {key : α → κ} {l l' : List α} {a : α} {n : ℕ}

theorem perm_descending : (descending key l).Perm l := List.perm_insertionSort _ _

theorem pairwise_descending (h : (l.map key).Nodup) :
    (descending key l).Pairwise fun a b => key b < key a := by
  have hle : (descending key l).Pairwise fun a b => key b ≤ key a :=
    List.pairwise_insertionSort (fun a b => key b ≤ key a) l
  have hne : (descending key l).Pairwise fun a b => key a ≠ key b :=
    List.pairwise_map.mp ((perm_descending.map key).nodup_iff.mpr h)
  exact (hle.and hne).imp fun hab => lt_of_le_of_ne hab.1 hab.2.symm

theorem rank_head (h : ∀ b ∈ l, key b < key a) : rank key (a :: l) a = 0 := by
  unfold rank
  rw [List.countP_eq_zero]
  intro b hb
  rcases List.mem_cons.mp hb with rfl | hb
  · simp
  · simpa using (h b hb).le

theorem rank_tail {b : α} (h : key b < key a) : rank key (a :: l) b = rank key l b + 1 := by
  unfold rank
  rw [List.countP_cons_of_pos (by simpa using h)]

theorem rank_perm (h : l.Perm l') (a : α) : rank key l a = rank key l' a :=
  h.countP_eq _

section

variable (hl : l.Pairwise fun a b => key b < key a)
include hl

/-- The first entries of a sorted list are those with the lowest ranks. -/
theorem mem_take_iff : a ∈ l.take n ↔ a ∈ l ∧ rank key l a < n := by
  induction l generalizing n with
  | nil => simp
  | cons b l ih =>
    obtain ⟨hfirst, htail⟩ := List.pairwise_cons.mp hl
    cases n with
    | zero => simp
    | succ n =>
      rw [List.take_succ_cons, List.mem_cons, List.mem_cons, ih htail]
      constructor
      · rintro (rfl | ⟨ha, hrank⟩)
        · exact ⟨.inl rfl, by rw [rank_head hfirst]; omega⟩
        · exact ⟨.inr ha, by rw [rank_tail (hfirst a ha)]; omega⟩
      · rintro ⟨rfl | ha, hrank⟩
        · exact .inl rfl
        · rw [rank_tail (hfirst a ha)] at hrank
          exact .inr ⟨ha, by omega⟩

theorem nodup_of_descending : l.Nodup := by
  refine hl.imp ?_
  rintro a b hlt rfl
  exact lt_irrefl _ hlt

/-- A sorted list is determined by its members. -/
theorem eq_of_mem_iff (hl' : l'.Pairwise fun a b => key b < key a) (h : ∀ a, a ∈ l ↔ a ∈ l') :
    l = l' := by
  refine List.Perm.eq_of_pairwise (fun a b _ _ hab hba => absurd hab (lt_asymm hba)) hl hl' ?_
  exact (List.perm_ext_iff_of_nodup (nodup_of_descending hl) (nodup_of_descending hl')).mpr h

/-- The last of the first entries has the least key among them, and a greater one than the rest. -/
theorem mem_take_iff_key {last : α} (hlast : (l.take n).getLast? = some last) :
    a ∈ l.take n ↔ a ∈ l ∧ key last ≤ key a := by
  obtain ⟨front, hfront⟩ := List.getLast?_eq_some_iff.mp hlast
  have hsplit : l = (front ++ [last]) ++ l.drop n := by
    rw [← hfront, List.take_append_drop]
  rw [hfront]
  rw [hsplit, List.pairwise_append, List.pairwise_append] at hl
  obtain ⟨⟨-, -, hfirst⟩, -, hrest⟩ := hl
  constructor
  · intro ha
    refine ⟨hsplit ▸ List.mem_append_left _ ha, ?_⟩
    rcases List.mem_append.mp ha with ha | ha
    · exact (hfirst a ha last (List.mem_singleton_self last)).le
    · rw [List.mem_singleton.mp ha]
  · rintro ⟨ha, hle⟩
    rw [hsplit] at ha
    rcases List.mem_append.mp ha with ha | ha
    · exact ha
    · exact absurd hle (hrest last (by simp) a ha).not_ge

end

end Descending

/-- Two sorted lists of the same entries begin alike exactly if the second order keeps the entries
that are first in the first one before all others. -/
theorem take_eq_take_iff {key : α → κ} {key' : α → κ'} {n : ℕ} {l l' : List α}
    (hl : l.Pairwise fun a b => key b < key a) (hl' : l'.Pairwise fun a b => key' b < key' a)
    (hperm : l'.Perm l) :
    l'.take n = l.take n ↔
      ∀ a ∈ l, ∀ b ∈ l, key b < key a → rank key l a < n → key' b < key' a := by
  induction n generalizing l l' with
  | zero => simp
  | succ n ih =>
    cases l with
    | nil => simp [List.perm_nil.mp hperm]
    | cons a l =>
      cases l' with
      | nil => exact absurd hperm.nil_eq (by simp)
      | cons b l' =>
        obtain ⟨hfirst, htail⟩ := List.pairwise_cons.mp hl
        obtain ⟨hfirst', htail'⟩ := List.pairwise_cons.mp hl'
        by_cases hab : a = b
        · subst hab
          rw [List.take_succ_cons, List.take_succ_cons, List.cons.injEq,
            ih htail htail' (List.Perm.cons_inv hperm)]
          constructor
          · rintro ⟨-, h⟩ c hc d hd hlt hrankc
            rcases List.mem_cons.mp hc with rfl | hc'
            · rcases List.mem_cons.mp hd with rfl | hd'
              · exact absurd hlt (lt_irrefl _)
              · exact hfirst' d ((List.Perm.cons_inv hperm).mem_iff.mpr hd')
            · rcases List.mem_cons.mp hd with rfl | hd'
              · exact absurd hlt (hfirst c hc').not_gt
              · rw [rank_tail (hfirst c hc')] at hrankc
                exact h c hc' d hd' hlt (by omega)
          · intro h
            refine ⟨rfl, fun c hc d hd hlt hrankc => ?_⟩
            refine h c (List.mem_cons_of_mem _ hc) d (List.mem_cons_of_mem _ hd) hlt ?_
            rw [rank_tail (hfirst c hc)]
            omega
        · refine iff_of_false (fun h => hab ?_) fun h => ?_
          · rw [List.take_succ_cons, List.take_succ_cons, List.cons.injEq] at h
            exact h.1.symm
          · -- the first of one list comes later in the other
            have hb : b ∈ l := by
              rcases List.mem_cons.mp (hperm.mem_iff.mp List.mem_cons_self) with heq | hb
              · exact absurd heq.symm hab
              · exact hb
            have ha : a ∈ l' := by
              rcases List.mem_cons.mp (hperm.mem_iff.mpr List.mem_cons_self) with heq | ha
              · exact absurd heq hab
              · exact ha
            have hlt := h a List.mem_cons_self b (List.mem_cons_of_mem _ hb) (hfirst b hb)
              (by rw [rank_head hfirst]; omega)
            exact lt_asymm hlt (hfirst' a ha)

end Stacklab.Lib
