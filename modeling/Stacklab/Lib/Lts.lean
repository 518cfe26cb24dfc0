
/-! Labelled transition systems: finite traces, reachability and invariants. -/
namespace Stacklab.Lib

structure Lts (State Label : Type) where
  Tr : State → Label → State → Prop

namespace Lts

variable {State Label : Type} {lts : Lts State Label} {s t u : State} {l : Label}
  {ls ms : List Label} {P Init : State → Prop}

/-- A finite trace: one transition for each label, taken from the left. -/
inductive MTr (lts : Lts State Label) : State → List Label → State → Prop
  | refl {s : State} : MTr lts s [] s
  | stepL {s u t : State} {l : Label} {ls : List Label} :
      lts.Tr s l u → MTr lts u ls t → MTr lts s (l :: ls) t

def Reachable (lts : Lts State Label) (Init : State → Prop) (s : State) : Prop :=
  ∃ s₀, Init s₀ ∧ ∃ ls, lts.MTr s₀ ls s

/-- A state predicate that no transition breaks. -/
def TrInv (lts : Lts State Label) (P : State → Prop) : Prop :=
  ∀ s l t, lts.Tr s l t → P s → P t

theorem MTr.append (h : lts.MTr s ls u) (h' : lts.MTr u ms t) : lts.MTr s (ls ++ ms) t := by
  induction h with
  | refl => exact h'
  | stepL hs _ ih => exact .stepL hs (ih h')

theorem MTr.snoc (h : lts.MTr s ls u) (hl : lts.Tr u l t) : lts.MTr s (ls ++ [l]) t :=
  h.append (.stepL hl .refl)

theorem MTr.mono {lts' : Lts State Label} (hi : ∀ s l t, lts.Tr s l t → lts'.Tr s l t)
    (h : lts.MTr s ls t) : lts'.MTr s ls t := by
  induction h with
  | refl => exact .refl
  | stepL hl _ ih => exact .stepL (hi _ _ _ hl) ih

theorem mTrInv_of_trInv (hi : lts.TrInv P) (h : lts.MTr s ls t) (hs : P s) : P t := by
  induction h with
  | refl => exact hs
  | stepL hl _ ih => exact ih (hi _ _ _ hl hs)

theorem reachable_of_trInv (h0 : ∀ s, Init s → P s) (hi : lts.TrInv P) (h : lts.Reachable Init s) :
    P s := by
  obtain ⟨s₀, hinit, _, ht⟩ := h
  exact mTrInv_of_trInv hi ht (h0 s₀ hinit)

/-- A deterministic system: each enabled label has one successor. -/
def ofNext (enabled : State → Label → Bool) (next : State → Label → State) :
    Lts State Label where
  Tr s l t := enabled s l = true ∧ t = next s l

/-- Every label of a list is enabled when its turn comes. -/
def allEnabled (enabled : State → Label → Bool) (next : State → Label → State) :
    State → List Label → Bool
  | _, [] => true
  | s, l :: ls => enabled s l && allEnabled enabled next (next s l) ls

theorem mTr_ofNext {enabled : State → Label → Bool} {next : State → Label → State}
    (h : allEnabled enabled next s ls = true) :
    (ofNext enabled next).MTr s ls (ls.foldl next s) := by
  induction ls generalizing s with
  | nil => exact .refl
  | cons l ls ih =>
    obtain ⟨hl, hls⟩ := Bool.and_eq_true_iff.mp h
    exact .stepL ⟨hl, rfl⟩ (ih hls)

/-- A trace that is found by running a partial step function. -/
theorem mTr_of_foldlM {step : State → Label → Option State}
    (hstep : ∀ s l t, step s l = some t → lts.Tr s l t) (h : ls.foldlM step s = some t) :
    lts.MTr s ls t := by
  induction ls generalizing s with
  | nil =>
    cases h
    exact .refl
  | cons l ls ih =>
    rw [List.foldlM_cons] at h
    obtain ⟨u, hu, ht⟩ := Option.bind_eq_some_iff.mp h
    exact .stepL (hstep s l u hu) (ih ht)

end Lts

end Stacklab.Lib
