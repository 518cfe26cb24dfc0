
/-! Programs that issue commands to a machine, may be cut off between any two of them, and
their weakest preconditions under an invariant that holds at every cut. -/
namespace Stacklab.Lib

/-- A program either returns or issues a command and continues with its answer. -/
inductive Prog (C : Type) (Ans : C → Type) (α : Type)
  | ret (a : α)
  | call (c : C) (k : Ans c → Prog C Ans α)

/-- How a world answers a command; the outcome says how the environment behaved. -/
structure Machine (C : Type) (Ans : C → Type) (Out W : Type) where
  exec : (c : C) → Out → W → Ans c × W

namespace Prog

variable {C ε : Type} {Ans : C → Type} {Out W α β : Type} {m : Machine C Ans Out W}
  {Allowed : C → Out → W → Prop} {I J : W → Prop} {p : Prog C Ans α} {f : α → Prog C Ans β}
  {Q R : α → W → Prop} {w : W} {outs : List Out} {a : α} {c : C}

def bind : Prog C Ans α → (α → Prog C Ans β) → Prog C Ans β
  | .ret a, f => f a
  | .call c k, f => .call c fun r => (k r).bind f

instance : Monad (Prog C Ans) where
  pure := .ret
  bind := .bind

def issue (c : C) : Prog C Ans (Ans c) := .call c .ret

def result : Prog C Ans α → Option α
  | .ret a => some a
  | .call _ _ => none

theorem eq_ret_of_result (h : p.result = some a) : p = .ret a := by
  cases p with
  | ret b => exact congrArg _ (Option.some.inj h)
  | call c k => cases h

/-- The same program over a larger command set. -/
def embed {D : Type} {AnsD : D → Type} (inj : C → D) (back : ∀ c, AnsD (inj c) → Ans c) :
    Prog C Ans α → Prog D AnsD α
  | .ret a => .ret a
  | .call c k => .call (inj c) fun r => (k (back c r)).embed inj back

def step (m : Machine C Ans Out W) : Prog C Ans α → Out → W → Prog C Ans α × W
  | .ret a, _, w => (.ret a, w)
  | .call c k, o, w => (k (m.exec c o w).1, (m.exec c o w).2)

/-- The rest of the program and the world after as many commands as there are outcomes. -/
def run (m : Machine C Ans Out W) : Prog C Ans α → List Out → W → Prog C Ans α × W
  | p, [], w => (p, w)
  | p, o :: outs, w => run m (p.step m o w).1 outs (p.step m o w).2

/-- Every command that the run issues meets a condition on its outcome and the world. -/
def Meets (m : Machine C Ans Out W) (Allowed : C → Out → W → Prop) :
    Prog C Ans α → List Out → W → Prop
  | .ret _, _, _ => True
  | .call _ _, [], _ => True
  | .call c k, o :: outs, w =>
    Allowed c o w ∧ Meets m Allowed (k (m.exec c o w).1) outs (m.exec c o w).2

instance decidableMeets [∀ c o w, Decidable (Allowed c o w)] : (p : Prog C Ans α) →
    (outs : List Out) → (w : W) → Decidable (Meets m Allowed p outs w)
  | .ret _, _, _ => inferInstanceAs (Decidable True)
  | .call _ _, [], _ => inferInstanceAs (Decidable True)
  | .call c k, o :: outs, w =>
    have := decidableMeets (k (m.exec c o w).1) outs (m.exec c o w).2
    inferInstanceAs (Decidable (_ ∧ _))

/-- The invariant holds now and after every allowed command, and the result meets `Q`. -/
def Wp (m : Machine C Ans Out W) (Allowed : C → Out → W → Prop) (I : W → Prop) :
    Prog C Ans α → (α → W → Prop) → W → Prop
  | .ret a, Q, w => I w ∧ Q a w
  | .call c k, Q, w =>
    I w ∧ ∀ o, Allowed c o w → Wp m Allowed I (k (m.exec c o w).1) Q (m.exec c o w).2

section

variable (h : Wp m Allowed I p Q w)
include h

theorem Wp.inv : I w := by
  cases p with
  | ret a => exact h.1
  | call c k => exact h.1

theorem Wp.mono (hI : ∀ w, I w → J w) (hQ : ∀ a w, I w → Q a w → R a w) : Wp m Allowed J p R w := by
  induction p generalizing w with
  | ret a => exact ⟨hI w h.1, hQ a w h.1 h.2⟩
  | call c k ih => exact ⟨hI w h.1, fun o ho => ih _ (h.2 o ho)⟩

theorem Wp.post (hQ : ∀ a w, I w → Q a w → R a w) : Wp m Allowed I p R w :=
  h.mono (fun _ hw => hw) hQ

theorem Wp.and (h' : Wp m Allowed J p R w) : Wp m Allowed I p (fun a w' => Q a w' ∧ R a w') w := by
  induction p generalizing w with
  | ret a => exact ⟨h.1, h.2, h'.2⟩
  | call c k ih => exact ⟨h.1, fun o ho => ih _ (h.2 o ho) (h'.2 o ho)⟩

end

theorem wp_bind {S : β → W → Prop} (h : Wp m Allowed I p (fun a => Wp m Allowed I (f a) S) w) :
    Wp m Allowed I (p >>= f) S w := by
  induction p generalizing w with
  | ret a => exact h.2
  | call c k ih => exact ⟨h.1, fun o ho => ih _ (h.2 o ho)⟩

theorem wp_pure (hI : I w) (hQ : Q a w) : Wp m Allowed I (pure a : Prog C Ans α) Q w :=
  ⟨hI, hQ⟩

theorem wp_issue {Q : Ans c → W → Prop} (hI : I w)
    (h : ∀ o, Allowed c o w → I (m.exec c o w).2 ∧ Q (m.exec c o w).1 (m.exec c o w).2) :
    Wp m Allowed I (issue c : Prog C Ans (Ans c)) Q w :=
  ⟨hI, h⟩

/-- Issue a command, describe its answer and the new world by `R`, and go on from there. -/
theorem wp_issue_bind {k : Ans c → Prog C Ans α} (R : Ans c → W → Prop) (hI : I w)
    (hc : ∀ o, Allowed c o w → R (m.exec c o w).1 (m.exec c o w).2)
    (hk : ∀ r w', R r w' → Wp m Allowed I (k r) Q w') : Wp m Allowed I (issue c >>= k) Q w :=
  ⟨hI, fun o ho => hk _ _ (hc o ho)⟩

/-- Issue a command that leaves the world alone, whatever it answers. -/
theorem wp_look_bind {k : Ans c → Prog C Ans α} (hI : I w) (hc : ∀ o, (m.exec c o w).2 = w)
    (hk : ∀ r, Wp m Allowed I (k r) Q w) : Wp m Allowed I (issue c >>= k) Q w := by
  refine wp_issue_bind (fun _ w' => w' = w) hI (fun o _ => hc o) ?_
  rintro r _ rfl
  exact hk r

/-- Run a step for each element and stop at the first error. -/
def forEach {ε : Type} (step : β → Prog C Ans (Option ε)) : List β → Prog C Ans (Option ε)
  | [] => pure none
  | x :: rest => do
    match ← step x with
    | some err => pure (some err)
    | none => forEach step rest

/-- The rule for the loop: its invariant speaks about the elements that are still to come. -/
theorem wp_forEach {step : β → Prog C Ans (Option ε)} {xs : List β} (J : List β → W → Prop)
    (hJ : J xs w) (hI : ∀ w, J [] w → I w) (hstep : ∀ x rest w, J (x :: rest) w →
      Wp m Allowed I (step x) (fun r w' => r = none → J rest w') w) :
    Wp m Allowed I (forEach step xs) (fun r w' => r = none → J [] w') w := by
  induction xs generalizing w with
  | nil => exact wp_pure (hI w hJ) fun _ => hJ
  | cons x rest ih =>
    refine wp_bind ((hstep x rest w hJ).post ?_)
    rintro (_ | err) w' hI' hnext
    · exact ih (hnext rfl)
    · exact wp_pure hI' (by simp)

/-- What every allowed command keeps holds all along a program. -/
theorem wp_preserved (p : Prog C Ans α)
    (h : ∀ c o w, Allowed c o w → I w → I (m.exec c o w).2) (hI : I w) :
    Wp m Allowed I p (fun _ _ => True) w := by
  induction p generalizing w with
  | ret a => exact ⟨hI, trivial⟩
  | call c k ih => exact ⟨hI, fun o ho => ih _ (h c o w ho hI)⟩

theorem run_ret : run m (.ret a : Prog C Ans α) outs w = (.ret a, w) := by
  induction outs with
  | nil => rfl
  | cons o outs ih => exact ih

/-- A run cut off anywhere leaves the invariant, and one that returns meets `Q`. -/
theorem Wp.run (h : Wp m Allowed I p Q w) (hm : Meets m Allowed p outs w) :
    I (p.run m outs w).2 ∧ ∀ a, (p.run m outs w).1 = .ret a → Q a (p.run m outs w).2 := by
  induction outs generalizing p w with
  | nil =>
    refine ⟨h.inv, ?_⟩
    rintro a rfl
    exact h.2
  | cons o outs ih =>
    cases p with
    | ret a =>
      rw [run_ret]
      refine ⟨h.1, ?_⟩
      rintro b hb
      cases hb
      exact h.2
    | call c k => exact ih (h.2 o hm.1) hm.2

/-- With one outcome that is always allowed the program returns and meets `Q`. -/
theorem Wp.returns (h : Wp m Allowed I p Q w) (o : Out) (ho : ∀ c w, Allowed c o w) :
    ∃ n a w', p.run m (List.replicate n o) w = (.ret a, w') ∧ Q a w' := by
  induction p generalizing w with
  | ret a => exact ⟨0, a, w, rfl, h.2⟩
  | call c k ih =>
    obtain ⟨n, hn⟩ := ih _ (h.2 o (ho c w))
    exact ⟨n + 1, hn⟩

/-- The result meets `Q` whatever the environment does. -/
abbrev Ensures (m : Machine C Ans Out W) (p : Prog C Ans α) (Q : α → W → Prop) (w : W) : Prop :=
  Wp m (fun _ _ _ => True) (fun _ => True) p Q w

theorem ensures_true (p : Prog C Ans α) (w : W) : Ensures m p (fun _ _ => True) w := by
  induction p generalizing w with
  | ret a => exact ⟨trivial, trivial⟩
  | call c k ih => exact ⟨trivial, fun o _ => ih _ _⟩

theorem meets_true : Meets m (fun _ _ _ => True) p outs w := by
  induction outs generalizing p w with
  | nil => cases p <;> exact trivial
  | cons o outs ih =>
    cases p with
    | ret a => exact trivial
    | call c k => exact ⟨trivial, ih⟩

theorem Ensures.returned {w' : W} (h : Ensures m p Q w) (hr : p.run m outs w = (.ret a, w')) :
    Q a w' := by
  have hm : Meets m (fun _ _ _ => True) p outs w := meets_true
  have hq := (Wp.run h hm).2 a
  rw [hr] at hq
  exact hq rfl

/-- Every command that the program can issue lies in a set. -/
def Issues (S : C → Prop) : Prog C Ans α → Prop
  | .ret _ => True
  | .call c k => S c ∧ ∀ r, (k r).Issues S

variable {S : C → Prop}

theorem issues_pure (a : α) : (pure a : Prog C Ans α).Issues S := trivial

theorem issues_issue (h : S c) : (issue c : Prog C Ans (Ans c)).Issues S :=
  ⟨h, fun _ => trivial⟩

theorem Issues.bind (h : p.Issues S) (hf : ∀ a, (f a).Issues S) : (p >>= f).Issues S := by
  induction p with
  | ret a => exact hf a
  | call c k ih => exact ⟨h.1, fun r => ih r (h.2 r)⟩

theorem Issues.bind_option {p : Prog C Ans (Option ε)} {f : Option ε → Prog C Ans β}
    (h : p.Issues S) (hsome : ∀ err, (f (some err)).Issues S) (hnone : (f none).Issues S) :
    (p >>= f).Issues S := by
  refine h.bind fun r => ?_
  cases r with
  | none => exact hnone
  | some err => exact hsome err

theorem Issues.bind_except {p : Prog C Ans (Except ε α)} {f : Except ε α → Prog C Ans β}
    (h : p.Issues S) (herr : ∀ err, (f (.error err)).Issues S)
    (hok : ∀ a, (f (.ok a)).Issues S) : (p >>= f).Issues S := by
  refine h.bind fun r => ?_
  cases r with
  | error err => exact herr err
  | ok a => exact hok a

theorem issues_forEach {step : β → Prog C Ans (Option ε)} (h : ∀ x, (step x).Issues S)
    (xs : List β) : (forEach step xs).Issues S := by
  induction xs with
  | nil => exact issues_pure none
  | cons x rest ih => exact (h x).bind_option (fun _ => issues_pure _) ih

/-- A step of such a program keeps what every command in the set keeps. -/
theorem Issues.step (h : p.Issues S) (hc : ∀ c o w, S c → I w → I (m.exec c o w).2) {o : Out}
    (hw : I w) : (p.step m o w).1.Issues S ∧ I (p.step m o w).2 := by
  cases p with
  | ret a => exact ⟨trivial, hw⟩
  | call c k => exact ⟨h.2 _, hc c o w h.1 hw⟩

/-- What every command in the set keeps holds all along such a program. -/
theorem Issues.wp (h : p.Issues S) (hc : ∀ c o w, S c → I w → I (m.exec c o w).2) (hI : I w) :
    Wp m Allowed I p (fun _ _ => True) w := by
  induction p generalizing w with
  | ret a => exact ⟨hI, trivial⟩
  | call c k ih => exact ⟨hI, fun o _ => ih _ (h.2 _) (hc c o w h.1 hI)⟩

end Prog

end Stacklab.Lib
