import Stacklab.BackupHelper.Spool

/-! Where the original entries of a target are while it is replaced. -/
namespace Stacklab.BackupHelper

open Lib GoMap

variable {α : Type} {t t' : Target α} {rollback name : String} {S : String → Prop}

/-- The entries of a target as a restore finds them. -/
structure Found (α : Type) where
  entries : GoMap String (Item α)
  original : ∀ {name item}, entries.lookup name = some item → ∃ content, item = .original content

variable {found : Found α}

/-- The entries under the rollback name. -/
def Target.aside (t : Target α) (rollback : String) : GoMap String (Item α) :=
  match t.rollback with
  | some (made, aside) => if made = rollback then aside else ∅
  | none => ∅

/-- Every original entry is as it was, in the target or under the rollback name but not both. -/
def Placed (found : Found α) (rollback : String) (t : Target α) : Prop :=
  ∀ name item, found.entries.lookup name = some item →
    Xor (t.entries.lookup name = some item) ((t.aside rollback).lookup name = some item)

/-- The entries of the target are exactly the original ones. -/
def Exact (found : Found α) (t : Target α) : Prop :=
  (∀ name, t.entries.lookup name = found.entries.lookup name) ∧ t.rollback = none

/-- The names in `S` are in the target, the others under the rollback name. -/
def Split (found : Found α) (rollback : String) (S : String → Prop) (t : Target α) : Prop :=
  ∃ aside, t.rollback = some (rollback, aside) ∧
    (∀ name, S name → t.entries.lookup name = found.entries.lookup name ∧
      aside.lookup name = none) ∧
    ∀ name, ¬ S name → t.entries.lookup name = none ∧
      aside.lookup name = found.entries.lookup name

/-- All originals are under the rollback name and only restored entries in the target. -/
structure Stashed (found : Found α) (rollback : String) (t : Target α) : Prop where
  aside : ∃ aside, t.rollback = some (rollback, aside) ∧
    ∀ name, aside.lookup name = found.entries.lookup name
  restored : ∀ {name item}, t.entries.lookup name = some item → ∃ content, item = .restored content
  free : t.entries.lookup rollback = none

theorem aside_eq {aside : GoMap String (Item α)} (h : t.rollback = some (rollback, aside)) :
    t.aside rollback = aside := by
  simp [Target.aside, h]

theorem placed_exact (h : Exact found t) : Placed found rollback t := by
  intro name item hitem
  refine .inl ⟨(h.1 name).trans hitem, ?_⟩
  simp [Target.aside, h.2]

theorem placed_split (h : Split found rollback S t) : Placed found rollback t := by
  obtain ⟨aside, hr, hin, hout⟩ := h
  intro name item hitem
  rw [aside_eq hr]
  by_cases hS : S name
  · obtain ⟨he, ha⟩ := hin name hS
    exact .inl ⟨he.trans hitem, by simp [ha]⟩
  · obtain ⟨he, ha⟩ := hout name hS
    exact .inr ⟨ha.trans hitem, by simp [he]⟩

theorem placed_stashed (h : Stashed found rollback t) : Placed found rollback t := by
  obtain ⟨⟨aside, hr, ha⟩, hrestored, -⟩ := h
  intro name item hitem
  rw [aside_eq hr]
  refine .inr ⟨(ha name).trans hitem, fun he => ?_⟩
  obtain ⟨content, rfl⟩ := hrestored he
  obtain ⟨_, hc⟩ := found.original hitem
  cases hc

theorem split_made (hentries : t.entries = found.entries)
    (hr : t.rollback = some (rollback, ∅)) : Split found rollback (fun _ => True) t :=
  ⟨∅, hr, fun _ _ => ⟨by rw [hentries], by simp⟩, fun _ h => absurd trivial h⟩

theorem split_moveAside (h : Split found rollback S t)
    (hm : t.moveAside rollback name = some t') :
    Split found rollback (fun n => S n ∧ n ≠ name) t' := by
  obtain ⟨aside, hr, hin, hout⟩ := h
  cases hitem : t.entries.lookup name with
  | none => simp [Target.moveAside, hr, hitem] at hm
  | some item =>
    have hS : S name := by
      by_contra hS
      simp [(hout name hS).1] at hitem
    simp only [Target.moveAside, hr, hitem, if_true, Option.some.injEq] at hm
    subst hm
    have horig := (hin name hS).1.symm.trans hitem
    refine ⟨aside.insert name item, rfl, ?_, ?_⟩
    · rintro n ⟨hn, hne⟩
      rw [lookup_erase, lookup_insert, if_neg hne, if_neg hne]
      exact hin n hn
    · intro n hn
      rw [lookup_erase, lookup_insert]
      by_cases he : n = name
      · subst he
        simp [horig]
      · rw [if_neg he, if_neg he]
        exact hout n fun hs => hn ⟨hs, he⟩

theorem split_moveBack (h : Split found rollback S t)
    (hm : t.moveBack rollback name = some t') :
    Split found rollback (fun n => S n ∨ n = name) t' := by
  obtain ⟨aside, hr, hin, hout⟩ := h
  cases hitem : aside.lookup name with
  | none => simp [Target.moveBack, hr, hitem] at hm
  | some item =>
    have hS : ¬ S name := by
      intro hS
      simp [(hin name hS).2] at hitem
    simp only [Target.moveBack, hr, hitem, if_true, Option.some.injEq] at hm
    subst hm
    have horig := (hout name hS).2.symm.trans hitem
    refine ⟨aside.erase name, rfl, ?_, ?_⟩
    · intro n hn
      rw [lookup_erase, lookup_insert]
      by_cases he : n = name
      · subst he
        simp [horig]
      · rw [if_neg he, if_neg he]
        exact hin n (hn.resolve_right he)
    · intro n hn
      rw [not_or] at hn
      rw [lookup_erase, lookup_insert, if_neg hn.2, if_neg hn.2]
      exact hout n hn.1

/-- Once every original is moved, nothing is left in the target. -/
theorem stashed_of_split (h : Split found rollback S t)
    (hall : ∀ n, S n → found.entries.lookup n = none) : Stashed found rollback t := by
  obtain ⟨aside, hr, hin, hout⟩ := h
  have hnone : ∀ n, t.entries.lookup n = none := by
    intro n
    by_cases hS : S n
    · rw [(hin n hS).1, hall n hS]
    · exact (hout n hS).1
  refine ⟨⟨aside, hr, fun n => ?_⟩, fun h => ?_, hnone rollback⟩
  · by_cases hS : S n
    · rw [(hin n hS).2, hall n hS]
    · exact (hout n hS).2
  · simp [hnone] at h

theorem split_of_stashed (h : Stashed found rollback t)
    (hempty : ∀ n, t.entries.lookup n = none) : Split found rollback (fun _ => False) t := by
  obtain ⟨aside, hr, ha⟩ := h.aside
  exact ⟨aside, hr, fun _ hf => hf.elim, fun n _ => ⟨hempty n, ha n⟩⟩

theorem exact_of_split (h : Split found rollback S t)
    (hall : ∀ n, ¬ S n → found.entries.lookup n = none) :
    ∀ n, t.entries.lookup n = found.entries.lookup n := by
  obtain ⟨aside, -, hin, hout⟩ := h
  intro n
  by_cases hS : S n
  · exact (hin n hS).1
  · rw [(hout n hS).1, hall n hS]

theorem filter_ne {aside : GoMap String (Item α)} (hne : name ≠ rollback) :
    Option.filter (fun made : String × GoMap String (Item α) => decide (made.1 ≠ name))
      (some (rollback, aside)) = some (rollback, aside) := by
  simp [Option.filter, hne.symm]

theorem stashed_write (h : Stashed found rollback t) (hne : name ≠ rollback) (content : Option α) :
    Stashed found rollback (t.write name content) := by
  obtain ⟨⟨aside, hr, ha⟩, hrestored, hfree⟩ := h
  refine ⟨⟨aside, ?_, ha⟩, ?_, ?_⟩
  · change t.rollback.filter _ = _
    rw [hr]
    exact filter_ne hne
  · intro n item hitem
    cases content with
    | none =>
      simp only [Target.write, lookup_erase] at hitem
      split at hitem
      · cases hitem
      · exact hrestored hitem
    | some content =>
      simp only [Target.write, lookup_insert] at hitem
      split at hitem
      · exact ⟨content, (Option.some.inj hitem).symm⟩
      · exact hrestored hitem
  · cases content with
    | none => simp [Target.write, lookup_erase, hfree]
    | some content => simp [Target.write, hne.symm, hfree]

theorem stashed_writeAll {written : List (String × Option α)} (h : Stashed found rollback t)
    (hne : ∀ change ∈ written, change.1 ≠ rollback) :
    Stashed found rollback (t.writeAll written) := by
  induction written generalizing t with
  | nil => exact h
  | cons change rest ih =>
    obtain ⟨hc, hrest⟩ := List.forall_mem_cons.mp hne
    exact ih (stashed_write h hc change.2) hrest

/-- A removal that fails leaves the entry, nothing, or some other content in its place. -/
theorem stashed_removeSome (h : Stashed found rollback t) (hne : name ≠ rollback) (o : Out α) :
    Stashed found rollback (t.removeSome name o) := by
  have hkeep : (t.removeSome name o).rollback = t.rollback := by
    obtain ⟨aside, hr, -⟩ := h.aside
    simp [Target.removeSome, hr, hne.symm]
  by_cases hthere : (t.entries.lookup name).isSome
  · have hw := stashed_write h hne o.remains
    have hentries : (t.removeSome name o).entries = (t.write name o.remains).entries := by
      cases hrem : o.remains <;> simp [Target.removeSome, Target.write, hthere, hrem]
    refine ⟨by rw [hkeep]; exact h.aside, ?_, ?_⟩
    · rw [hentries]
      exact hw.restored
    · rw [hentries]
      exact hw.free
  · have hentries : (t.removeSome name o).entries = t.entries := by
      simp [Target.removeSome, hthere]
    refine ⟨by rw [hkeep]; exact h.aside, ?_, ?_⟩
    · rw [hentries]
      exact h.restored
    · rw [hentries]
      exact h.free

end Stacklab.BackupHelper
