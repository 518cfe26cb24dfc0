import Mathlib.Data.List.Pairwise
import Mathlib.Order.Lattice

/-! Registers that keep the latest of what they are offered, whatever the order of the offers. -/
namespace Stacklab.Lib

/-- What a register holds has a stamp, and so has what it is offered. An offer as late as the
held value replaces it, unless the register keeps what it holds. -/
structure Register (T S C : Type) where
  stamp : S → T
  offered : C → T
  made : C → S
  keeps : S → C → Bool
  stamp_made : ∀ c, stamp (made c) = offered c

namespace Register

variable {T S C : Type} (r : Register T S C) {init : Option S} {s : S} {c : C} {l l' : List C}

/-- What is held is only kept against an offer of the same stamp. -/
def Agrees (init : Option S) (l : List C) : Prop :=
  ∀ s, init = some s → ∀ c ∈ l, r.keeps s c = true → r.stamp s = r.offered c

theorem Agrees.head {r : Register T S C} (h : r.Agrees init (c :: l)) : r.Agrees init [c] := by
  intro s hs d hd hkeeps
  rw [List.mem_singleton.mp hd] at hkeeps ⊢
  exact h s hs c List.mem_cons_self hkeeps

/-- The offers differ in their stamps, and no value made from one is kept against another. -/
def Apart (a b : C) : Prop :=
  r.offered a ≠ r.offered b ∧ r.keeps (r.made a) b = false ∧ r.keeps (r.made b) a = false

theorem Apart.symm {r : Register T S C} {a b : C} (h : r.Apart a b) : r.Apart b a :=
  ⟨h.1.symm, h.2.2, h.2.1⟩

instance : Std.Symm r.Apart := ⟨fun _ _ h => h.symm⟩

variable [LinearOrder T]

def offer : Option S → C → Option S
  | none, c => some (r.made c)
  | some s, c => if r.offered c < r.stamp s ∨ r.keeps s c = true then some s else some (r.made c)

/-- No offer is later than this one. -/
def Greatest (l : List C) (m : C) : Prop := m ∈ l ∧ ∀ c ∈ l, r.offered c ≤ r.offered m

variable {r} {m : C}

theorem offer_held : r.offer (some s) c =
    if r.offered c < r.stamp s ∨ r.keeps s c = true then some s else some (r.made c) := rfl

theorem offer_kept (h : r.offered c < r.stamp s ∨ r.keeps s c = true) :
    r.offer (some s) c = some s := by
  rw [offer_held, if_pos h]

theorem offer_replaced (hlate : r.stamp s ≤ r.offered c) (hkeeps : r.keeps s c = false) :
    r.offer (some s) c = some (r.made c) := by
  rw [offer_held, if_neg (by simp [hlate, hkeeps])]

theorem offer_cases (h : r.Agrees init [c]) :
    r.offer init c = some (r.made c) ∧ (∀ s, init = some s → r.stamp s ≤ r.offered c) ∨
      ∃ s, init = some s ∧ r.offer init c = some s ∧ r.offered c ≤ r.stamp s := by
  cases init with
  | none => exact .inl ⟨rfl, fun s hs => by cases hs⟩
  | some s =>
    rw [offer_held]
    split
    next hkept =>
      refine .inr ⟨s, rfl, rfl, ?_⟩
      rcases hkept with hlater | hkeeps
      · exact hlater.le
      · exact (h s rfl c List.mem_cons_self hkeeps).ge
    next hreplaced =>
      refine .inl ⟨rfl, fun s' hs => ?_⟩
      cases hs
      exact le_of_not_gt fun hlt => hreplaced (.inl hlt)

theorem Agrees.offer (h : r.Agrees init (c :: l)) (hapart : ∀ d ∈ l, r.Apart c d) :
    r.Agrees (r.offer init c) l := by
  intro s hs d hd hkeeps
  rcases offer_cases h.head with ⟨hmade, -⟩ | ⟨s', hinit, hkept, -⟩
  · rw [hmade] at hs
    cases hs
    rw [(hapart d hd).2.1] at hkeeps
    cases hkeeps
  · rw [hkept] at hs
    cases hs
    exact h s hinit d (List.mem_cons_of_mem _ hd) hkeeps

/-- An earlier offer leaves no trace. -/
theorem offer_before (h : r.Agrees init (c :: l)) (hm : m ∈ l) (hapart : r.Apart c m)
    (hlt : r.offered c < r.offered m) : r.offer (r.offer init c) m = r.offer init m := by
  rcases offer_cases h.head with ⟨hmade, hold⟩ | ⟨s, hinit, hkept, -⟩
  · have hlate : r.offer (some (r.made c)) m = some (r.made m) :=
      offer_replaced (r.stamp_made c ▸ hlt.le) hapart.2.1
    rw [hmade, hlate]
    cases hs : init with
    | none => rfl
    | some s =>
      have hearlier : r.stamp s < r.offered m := (hold s hs).trans_lt hlt
      have hnot : r.keeps s m = false := Bool.eq_false_iff.mpr fun hkeeps =>
        hearlier.ne (h s hs m (List.mem_cons_of_mem _ hm) hkeeps)
      rw [offer_replaced hearlier.le hnot]
  · rw [hkept, hinit]

/-- A later offer leaves nothing for an earlier one. -/
theorem offer_after (h : r.Agrees init (c :: l)) (hlt : r.offered m < r.offered c) :
    r.offer (r.offer init c) m = r.offer init c := by
  rcases offer_cases h.head with ⟨hmade, -⟩ | ⟨s, hinit, hkept, hle⟩
  · rw [hmade]
    exact offer_kept (.inl (r.stamp_made c ▸ hlt))
  · rw [hkept]
    exact offer_kept (.inl (hlt.trans_le hle))

/-- Offering a list is offering its greatest element. -/
theorem foldl_offer (hne : l ≠ []) (hapart : l.Pairwise r.Apart) (h : r.Agrees init l) :
    ∃ m, r.Greatest l m ∧ l.foldl r.offer init = r.offer init m := by
  induction l generalizing init with
  | nil => exact absurd rfl hne
  | cons c rest ih =>
    obtain ⟨hfirst, hrest⟩ := List.pairwise_cons.mp hapart
    rw [List.foldl_cons]
    by_cases hnil : rest = []
    · subst hnil
      exact ⟨c, ⟨List.mem_cons_self, by simp⟩, rfl⟩
    · obtain ⟨m, ⟨hm, hmax⟩, hfold⟩ := ih hnil hrest (h.offer hfirst)
      rw [hfold]
      rcases lt_or_gt_of_ne (hfirst m hm).1 with hlt | hgt
      · refine ⟨m, ⟨List.mem_cons_of_mem _ hm, ?_⟩, offer_before h hm (hfirst m hm) hlt⟩
        exact List.forall_mem_cons.mpr ⟨hlt.le, hmax⟩
      · refine ⟨c, ⟨List.mem_cons_self, ?_⟩, offer_after h hgt⟩
        exact List.forall_mem_cons.mpr ⟨le_refl _, fun d hd => (hmax d hd).trans hgt.le⟩

theorem Greatest.unique {m' : C} (hapart : l.Pairwise r.Apart) (hm : r.Greatest l m)
    (hm' : r.Greatest l m') : m = m' := by
  by_contra hne
  have happ : r.Apart m m' := hapart.forall hm.1 hm'.1 hne
  exact happ.1 (le_antisymm (hm'.2 m hm.1) (hm.2 m' hm'.1))

/-- The order of the offers does not matter. -/
theorem foldl_offer_perm (hperm : l.Perm l') (hapart : l.Pairwise r.Apart)
    (h : r.Agrees init l) : l.foldl r.offer init = l'.foldl r.offer init := by
  by_cases hne : l = []
  · subst hne
    rw [List.nil_perm.mp hperm]
  · have hapart' : l'.Pairwise r.Apart := (hperm.pairwise_iff Apart.symm).mp hapart
    have h' : r.Agrees init l' := fun s hs c hc => h s hs c (hperm.mem_iff.mpr hc)
    obtain ⟨m, hm, hfold⟩ := foldl_offer hne hapart h
    obtain ⟨m', hm', hfold'⟩ :=
      foldl_offer (fun hnil => hne (List.perm_nil.mp (hnil ▸ hperm))) hapart' h'
    have hmove : r.Greatest l m' :=
      ⟨hperm.mem_iff.mpr hm'.1, fun c hc => hm'.2 c (hperm.mem_iff.mp hc)⟩
    rw [hfold, hfold', hm.unique hapart hmove]

theorem offer_eq_some_iff : r.offer (some s) c = some s ↔
    r.offered c < r.stamp s ∨ r.keeps s c = true ∨ s = r.made c := by
  rw [offer_held]
  split
  next hkept => exact ⟨fun _ => hkept.imp_right Or.inl, fun _ => rfl⟩
  next hreplaced =>
    rw [Option.some.injEq]
    constructor
    · exact fun heq => .inr (.inr heq.symm)
    · rintro (hlt | hkeeps | rfl)
      · exact absurd (.inl hlt) hreplaced
      · exact absurd (.inr hkeeps) hreplaced
      · rfl

/-- Offers that change nothing change nothing one after the other. -/
theorem foldl_offer_fixed (h : ∀ c ∈ l, r.offer init c = init) : l.foldl r.offer init = init := by
  induction l with
  | nil => rfl
  | cons c rest ih =>
    rw [List.foldl_cons, h c List.mem_cons_self]
    exact ih fun d hd => h d (List.mem_cons_of_mem _ hd)

end Register

end Stacklab.Lib
