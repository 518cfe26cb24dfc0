import Mathlib.Data.Int.Basic
import Mathlib.Data.List.Nodup

/-! Activities that run once per occurrence of a schedule, guarded by a mark of the last
occurrence that was started. -/
namespace Stacklab.Lib

/-- A schedule and the mark that is stored with it. -/
structure Slot (σ : Type) where
  schedule : σ
  mark : Option ℤ
  deriving DecidableEq

/-- One activity over time: its slot, when its schedule was saved, an occurrence that was started
but not yet marked, and all that were started. -/
structure Track (σ : Type) where
  slot : Option (Slot σ)
  savedAt : ℤ
  flight : Option ℤ
  started : List ℤ

namespace Track

variable {σ : Type} {due : σ → ℤ → Option ℤ} {clock now o : ℤ} {t t' : Track σ} {s : Slot σ}

/-- The last occurrence that counts as started. -/
def reached (t : Track σ) : Option ℤ := t.flight.or (t.slot.bind Slot.mark)

/-- The track once the occurrence in flight, if any, is marked. -/
def land (t : Track σ) : Track σ :=
  { t with slot := t.slot.map fun s => { s with mark := t.flight.or s.mark }, flight := none }

/-- The track once an occurrence, if any, is started. -/
def launch (t : Track σ) (f : Option ℤ) : Track σ :=
  { t with flight := f.or t.flight, started := f.toList ++ t.started }

theorem land_of_idle (h : t.flight = none) : t.land = t := by
  obtain ⟨slot, savedAt, flight, started⟩ := t
  cases h
  cases slot <;> rfl

/-- Later looks at the schedule find no occurrence between the one due now and now. -/
def Settles (due : σ → ℤ → Option ℤ) (schedule : σ) (now : ℤ) : Prop :=
  ∀ later, now ≤ later → ∀ o, due schedule later = some o → o ≤ now →
    ∃ m, due schedule now = some m ∧ o ≤ m

structure Sound (due : σ → ℤ → Option ℤ) (clock : ℤ) (t : Track σ) : Prop where
  saved : t.savedAt ≤ clock
  once : t.started.Nodup
  past : ∀ o ∈ t.started, o ≤ clock
  reached_past : ∀ m, t.reached = some m → m ≤ clock
  settled : ∀ s, t.slot = some s → ∀ now, clock ≤ now → ∀ o, due s.schedule now = some o →
    o ≤ t.savedAt → ∃ m, t.reached = some m ∧ o ≤ m
  covered : ∀ s, t.slot = some s → ∀ o ∈ t.started,
    o ≤ t.savedAt ∨ ∃ m, t.reached = some m ∧ o ≤ m
  ahead : ∀ o, t.flight = some o → ∃ s, t.slot = some s ∧ ∀ m, s.mark = some m → m < o

/-- An occurrence that may be started: after the save, and beyond all that count as started. -/
structure Ready (t : Track σ) (o : ℤ) : Prop where
  fresh : t.savedAt < o
  beyond : ∀ m, t.reached = some m → m < o

/-- What one step does to an activity. -/
inductive Step (due : σ → ℤ → Option ℤ) (now : ℤ) (t : Track σ) : Track σ → Prop
  | keep : Step due now t t
  | start {s : Slot σ} {o : ℤ} (hs : t.slot = some s) (hf : t.flight = none) (hr : t.Ready o)
      (ho : o ≤ now) : Step due now t { t with flight := some o, started := o :: t.started }
  | mark {s : Slot σ} {o : ℤ} (hs : t.slot = some s) (hf : t.flight = some o) :
      Step due now t { t with slot := some { s with mark := some o }, flight := none }
  | drop : Step due now t ⟨none, t.savedAt, none, t.started⟩
  | save {schedule : σ} (hnew : ∀ s, t.slot = some s → s.schedule ≠ schedule)
      (hsettles : Settles due schedule now) (hpast : ∀ m, due schedule now = some m → m ≤ now) :
      Step due now t ⟨some ⟨schedule, due schedule now⟩, now, none, t.started⟩

theorem Ready.not_started (hr : t.Ready o) (h : t.Sound due clock) (hs : t.slot = some s) :
    o ∉ t.started := by
  intro ho
  rcases h.covered s hs o ho with hle | ⟨m, hm, hle⟩
  · have hlt := hr.fresh
    omega
  · have hlt := hr.beyond m hm
    omega

theorem Sound.advance (h : t.Sound due clock) (hle : clock ≤ now) : t.Sound due now where
  saved := by
    have hsaved := h.saved
    omega
  once := h.once
  past o ho := by
    have hpast := h.past o ho
    omega
  reached_past m hm := by
    have hpast := h.reached_past m hm
    omega
  settled s hs later hlater := h.settled s hs later (by omega)
  covered := h.covered
  ahead := h.ahead

theorem Sound.empty {savedAt : ℤ} (h : savedAt ≤ clock) :
    Sound due clock ⟨none, savedAt, none, []⟩ where
  saved := h
  once := .nil
  past := by simp
  reached_past := by simp [reached]
  settled := by simp
  covered := by simp
  ahead := by simp

section

variable (h : t.Sound due clock)
include h

/-- What a look at the schedule offers, beyond the mark, may be started. -/
theorem Sound.ready (hs : t.slot = some s) (hle : clock ≤ now) (hdue : due s.schedule now = some o)
    (hb : ∀ m, t.reached = some m → m < o) : t.Ready o := by
  refine ⟨?_, hb⟩
  by_contra hlt
  obtain ⟨m, hm, hom⟩ := h.settled s hs now hle o hdue (by omega)
  have hmo := hb m hm
  omega

/-- A new schedule starts with the occurrence that is due when it is saved. -/
theorem Sound.save {schedule : σ} (hsettles : Settles due schedule clock)
    (hpast : ∀ m, due schedule clock = some m → m ≤ clock) :
    Sound due clock ⟨some ⟨schedule, due schedule clock⟩, clock, none, t.started⟩ where
  saved := Int.le_refl clock
  once := h.once
  past := h.past
  reached_past := hpast
  settled := by
    rintro s ⟨⟩ later hlater o ho hon
    exact hsettles later hlater o ho hon
  covered _ _ o ho := Or.inl (h.past o ho)
  ahead := by simp

theorem Sound.drop : Sound due clock ⟨none, t.savedAt, none, t.started⟩ where
  saved := h.saved
  once := h.once
  past := h.past
  reached_past := by simp [reached]
  settled := by simp
  covered := by simp
  ahead := by simp

theorem Sound.start (hs : t.slot = some s) (hf : t.flight = none) (hr : t.Ready o)
    (ho : o ≤ clock) :
    Sound due clock { t with flight := some o, started := o :: t.started } := by
  have hreached : t.reached = s.mark := by simp [reached, hf, hs]
  have hnew : ({ t with flight := some o, started := o :: t.started } : Track σ).reached = some o :=
    by simp [reached]
  refine ⟨h.saved, List.nodup_cons.mpr ⟨hr.not_started h hs, h.once⟩, ?_, ?_, ?_, ?_, ?_⟩
  · intro o' ho'
    rcases List.mem_cons.mp ho' with rfl | ho'
    · exact ho
    · exact h.past o' ho'
  · intro m hm
    rw [hnew] at hm
    cases hm
    exact ho
  · intro s' hs' now hnow o' hdue hle
    obtain ⟨m, hm, hom⟩ := h.settled s' hs' now hnow o' hdue hle
    have hmo := hr.beyond m hm
    exact ⟨o, hnew, by omega⟩
  · intro s' hs' o' ho'
    rcases List.mem_cons.mp ho' with rfl | ho'
    · exact .inr ⟨o', hnew, Int.le_refl o'⟩
    · rcases h.covered s' hs' o' ho' with hle | ⟨m, hm, hom⟩
      · exact .inl hle
      · have hmo := hr.beyond m hm
        exact .inr ⟨o, hnew, by omega⟩
  · rintro o' ⟨⟩
    exact ⟨s, hs, fun m hm => hr.beyond m (hreached.trans hm)⟩

theorem Sound.mark (hs : t.slot = some s) (hf : t.flight = some o) :
    Sound due clock { t with slot := some { s with mark := some o }, flight := none } := by
  have hnew : ({ t with slot := some { s with mark := some o }, flight := none } :
      Track σ).reached = t.reached := by simp [reached, hf]
  refine ⟨h.saved, h.once, h.past, ?_, ?_, ?_, by simp⟩
  · intro m hm
    exact h.reached_past m (hnew ▸ hm)
  · rintro s' ⟨⟩ now hnow o' hdue hle
    rw [hnew]
    exact h.settled s hs now hnow o' hdue hle
  · rintro s' ⟨⟩ o' ho'
    rw [hnew]
    exact h.covered s hs o' ho'

theorem Sound.step (hle : clock ≤ now) (hstep : Step due now t t') : t'.Sound due now := by
  have hold := h.advance hle
  cases hstep with
  | keep => exact hold
  | start hs hf hr ho => exact hold.start hs hf hr ho
  | mark hs hf => exact hold.mark hs hf
  | drop => exact hold.drop
  | save _ hsettles hpast => exact hold.save hsettles hpast

/-- While its schedule is unchanged, the mark of a slot does not go back. -/
theorem Sound.keepsMark (hstep : Step due now t t') {s' : Slot σ} {m : ℤ} (hs : t.slot = some s)
    (hs' : t'.slot = some s') (hsame : s.schedule = s'.schedule) (hm : s.mark = some m) :
    ∃ m', s'.mark = some m' ∧ m ≤ m' := by
  cases hstep with
  | drop => cases hs'
  | save hnew => cases hs'; exact absurd hsame (hnew s hs)
  | mark hmarked hf =>
    obtain ⟨s'', hs'', hlt⟩ := h.ahead _ hf
    cases hs.symm.trans hs''
    cases hs.symm.trans hmarked
    cases hs'
    exact ⟨_, rfl, Int.le_of_lt (hlt m hm)⟩
  | _ =>
    cases hs.symm.trans hs'
    exact ⟨m, hm, Int.le_refl m⟩

/-- The occurrence that was started, if any, is marked. -/
theorem Sound.land : Step due now t t.land := by
  cases hf : t.flight with
  | none =>
    rw [land_of_idle hf]
    exact .keep
  | some o =>
    obtain ⟨s, hs, -⟩ := h.ahead o hf
    simp only [Track.land, hs, hf, Option.map_some, Option.some_or]
    exact .mark hs hf

end

theorem Step.launch {f : Option ℤ}
    (h : ∀ o, f = some o → o ≤ now ∧ t.flight = none ∧ ∃ s, t.slot = some s ∧ t.Ready o) :
    Step due now t (t.launch f) := by
  cases f with
  | none => exact .keep
  | some o =>
    obtain ⟨ho, hf, s, hs, hr⟩ := h o rfl
    exact .start hs hf hr ho

end Track

/-- What a tick has of a slot: what it read, or the occurrence that it found due. -/
inductive Claim (σ : Type)
  | read (s : Slot σ)
  | found (o : ℤ)

variable {κ σ : Type} {due : σ → ℤ → Option ℤ} {clock reading now o : ℤ} {t : Track σ}
  {track track' : κ → Track σ} {k : κ} {s : Slot σ} {claims claims' l₁ l₂ : List (κ × Claim σ)}

/-- The claim is still right, if the slot is still there. -/
def Claim.Holds (clock : ℤ) (t : Track σ) : Claim σ → Prop
  | .read s => ∀ s', t.slot = some s' → s' = s
  | .found o => o ≤ clock ∧ ∀ s, t.slot = some s → t.Ready o

structure Claimed (clock : ℤ) (track : κ → Track σ) (claims : List (κ × Claim σ)) : Prop where
  distinct : (claims.map Prod.fst).Nodup
  idle : ∀ e ∈ claims, (track e.1).flight = none
  holds : ∀ e ∈ claims, e.2.Holds clock (track e.1)

theorem Claim.Holds.advance {c : Claim σ} (h : c.Holds clock t) (hle : clock ≤ now) :
    c.Holds now t := by
  cases c with
  | read s => exact h
  | found o => exact ⟨Int.le_trans h.1 hle, h.2⟩

/-- Slots that are claimed may go, but not change. -/
theorem Claimed.frame (h : Claimed clock track claims) (hle : clock ≤ now)
    (ht : ∀ e ∈ claims, track' e.1 = track e.1 ∨
      (track' e.1).slot = none ∧ (track' e.1).flight = none) : Claimed now track' claims := by
  refine ⟨h.distinct, fun e he => ?_, fun e he => ?_⟩
  · rcases ht e he with heq | hnone
    · rw [heq, h.idle e he]
    · exact hnone.2
  · rcases ht e he with heq | ⟨hnone, -⟩
    · rw [heq]
      exact (h.holds e he).advance hle
    · obtain ⟨k, c⟩ := e
      cases c with
      | read s => simp [Claim.Holds, hnone]
      | found o => exact ⟨Int.le_trans (h.holds _ he).1 hle, by simp [hnone]⟩

/-- What is marked was not claimed. -/
theorem Claimed.land (h : Claimed clock track claims) (hle : clock ≤ now)
    (ht : ∀ k, track' k = track k ∨ track' k = (track k).land) : Claimed now track' claims := by
  refine h.frame hle fun e he => .inl ?_
  rcases ht e.1 with heq | heq
  · exact heq
  · exact heq.trans (Track.land_of_idle (h.idle e he))

/-- What is started is not claimed any more. -/
theorem Claimed.launch (h : Claimed clock track claims) (hle : clock ≤ now) {f : κ → Option ℤ}
    (ht : ∀ k, track' k = (track k).launch (f k)) (hf : ∀ e ∈ claims, f e.1 = none) :
    Claimed now track' claims := by
  refine h.frame hle fun e he => .inl ?_
  rw [ht, hf e he]
  rfl

/-- A tick gives up some of its claims. -/
theorem Claimed.forget (h : Claimed clock track claims) (hle : clock ≤ now)
    (hsub : claims'.Sublist claims) : Claimed now track claims' :=
  ⟨h.distinct.sublist (hsub.map _), fun e he => h.idle e (hsub.subset he),
    fun e he => (h.holds e (hsub.subset he)).advance hle⟩

/-- An occurrence beyond the mark that was read is found due. -/
theorem Claimed.find (h : Claimed clock track (l₁ ++ (k, .read s) :: l₂))
    (hsound : (track k).Sound due clock) (hle : clock ≤ reading) (hnow : reading ≤ now)
    (hdue : due s.schedule reading = some o) (ho : o ≤ reading)
    (hb : ∀ m, s.mark = some m → m ≤ clock → m < o) :
    Claimed now track (l₁ ++ (k, .found o) :: l₂) := by
  have hmem : (k, Claim.read s) ∈ l₁ ++ (k, .read s) :: l₂ := by simp
  have hold : ∀ e ∈ l₁ ++ (k, Claim.found o) :: l₂,
      e = (k, .found o) ∨ e ∈ l₁ ++ (k, .read s) :: l₂ := by
    simp only [List.mem_append, List.mem_cons]
    tauto
  refine ⟨by simpa using h.distinct, fun e he => ?_, fun e he => ?_⟩
  · rcases hold e he with rfl | he
    · exact h.idle (k, .read s) hmem
    · exact h.idle e he
  · rcases hold e he with rfl | he
    · refine ⟨by omega, fun s' hs' => ?_⟩
      cases h.holds _ hmem s' hs'
      have hreached : (track k).reached = s.mark := by
        simp [Track.reached, h.idle (k, .read s) hmem, hs']
      exact hsound.ready hs' hle hdue fun m hm =>
        hb m (hreached ▸ hm) (hsound.reached_past m hm)
    · exact (h.holds e he).advance (by omega)

end Stacklab.Lib
