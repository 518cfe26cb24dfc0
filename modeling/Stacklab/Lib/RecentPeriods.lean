import Mathlib.Data.Finset.Card

/-! The newest items of the most recent periods of a list. -/
namespace Stacklab.Lib

variable {α ι κ : Type} [LinearOrder ι] [DecidableEq κ] {newer : α → α → Prop} {period : α → ι}
  {key : α → κ} {count count' : ℤ} {items items' : List α} {a : α}

/-- The periods that have an item. -/
def populated (period : α → ι) (items : List α) : Finset ι := (items.map period).toFinset

/-- How many populated periods are more recent than one. -/
def laterPeriods (period : α → ι) (items : List α) (p : ι) : ℕ :=
  ((populated period items).filter (p < ·)).card

structure NewestOf (newer : α → α → Prop) (period : α → ι) (items : List α) (a : α) : Prop where
  mem : a ∈ items
  newest : ∀ b ∈ items, period b = period a → newer a b

/-- An item that a count of periods keeps: the newest of one of the most recent periods, or the
oldest of all items if there are fewer periods. -/
inductive KeptBy (newer : α → α → Prop) (period : α → ι) (count : ℤ) (items : List α) (a : α) :
    Prop
  | newest (h : NewestOf newer period items a)
      (hrecent : laterPeriods period items (period a) < count)
  | oldest (hmem : a ∈ items) (holdest : ∀ b ∈ items, newer b a)
      (hfew : ((populated period items).card : ℤ) < count)

theorem KeptBy.mem (h : KeptBy newer period count items a) : a ∈ items := by
  cases h with
  | newest h _ => exact h.mem
  | oldest hmem _ _ => exact hmem

theorem KeptBy.mono (h : KeptBy newer period count items a) (hcount : count ≤ count') :
    KeptBy newer period count' items a := by
  cases h with
  | newest h hrecent => exact .newest h (by omega)
  | oldest hmem holdest hfew => exact .oldest hmem holdest (by omega)

theorem populated_subset (h : items' ⊆ items) :
    populated period items' ⊆ populated period items := by
  intro p hp
  rw [populated, List.mem_toFinset] at hp ⊢
  exact List.map_subset period h hp

/-- An item that is kept is also kept among fewer items. -/
theorem KeptBy.of_subset (h : KeptBy newer period count items a) (hsub : items' ⊆ items)
    (hmem : a ∈ items') : KeptBy newer period count items' a := by
  have hpopulated : populated period items' ⊆ populated period items := populated_subset hsub
  cases h with
  | newest h hrecent =>
    refine .newest ⟨hmem, fun b hb => h.newest b (hsub hb)⟩ ?_
    have hle : laterPeriods period items' (period a) ≤ laterPeriods period items (period a) :=
      Finset.card_le_card (Finset.filter_subset_filter _ hpopulated)
    omega
  | oldest _ holdest hfew =>
    have hle := Finset.card_le_card hpopulated
    exact .oldest hmem (fun b hb => holdest b (hsub hb)) (by omega)

theorem keptBy_congr (h : ∀ b, b ∈ items' ↔ b ∈ items) :
    KeptBy newer period count items' a ↔ KeptBy newer period count items a := by
  constructor
  · intro hkept
    exact hkept.of_subset (fun b hb => (h b).mpr hb) ((h a).mp hkept.mem)
  · intro hkept
    exact hkept.of_subset (fun b hb => (h b).mp hb) ((h a).mpr hkept.mem)

/-- Two functions that tell the same items apart have equally many values. -/
theorem card_toFinset_map (h : ∀ a b, key a = key b ↔ period a = period b) (items : List α) :
    (items.map key).toFinset.card = (items.map period).toFinset.card := by
  induction items with
  | nil => rfl
  | cons a items ih =>
    have hmem : key a ∈ (items.map key).toFinset ↔ period a ∈ (items.map period).toFinset := by
      simp only [List.mem_toFinset, List.mem_map, h]
    rw [List.map_cons, List.map_cons, List.toFinset_cons, List.toFinset_cons,
      Finset.card_insert_eq_ite, Finset.card_insert_eq_ite, ih]
    by_cases ha : key a ∈ (items.map key).toFinset
    · rw [if_pos ha, if_pos (hmem.mp ha)]
    · rw [if_neg ha, if_neg (mt hmem.mpr ha)]

variable {front after : List α}

/-- In a list from the newest item to the oldest one, the periods of the items before the newest
item of a period are the more recent ones. -/
theorem laterPeriods_eq (hperiod : ∀ a b, newer a b → period b ≤ period a)
    (hsorted : (front ++ a :: after).Pairwise newer) (hfirst : period a ∉ front.map period) :
    laterPeriods period (front ++ a :: after) (period a) = (front.map period).toFinset.card := by
  rw [laterPeriods]
  congr 1
  rw [List.pairwise_append, List.pairwise_cons] at hsorted
  obtain ⟨-, ⟨hafter, -⟩, hfront⟩ := hsorted
  ext p
  simp only [populated, Finset.mem_filter, List.mem_toFinset, List.mem_map, List.mem_append,
    List.mem_cons]
  constructor
  · rintro ⟨⟨b, hb | rfl | hb, rfl⟩, hlt⟩
    · exact ⟨b, hb, rfl⟩
    · exact absurd hlt (lt_irrefl _)
    · exact absurd hlt (hperiod a b (hafter b hb)).not_gt
  · rintro ⟨b, hb, rfl⟩
    refine ⟨⟨b, .inl hb, rfl⟩, lt_of_le_of_ne (hperiod b a (hfront b hb a (by simp))) ?_⟩
    exact fun he => hfirst (List.mem_map.mpr ⟨b, hb, he.symm⟩)

end Stacklab.Lib
