import Mathlib.Logic.Function.Basic
import Stacklab.Lib.Prog

/-! Programs that run interleaved over one world: what each relies on and guarantees. -/
namespace Stacklab.Lib

namespace Prog

variable {C : Type} {Ans : C → Type} {Out W α β : Type}
  {m : Machine C Ans Out W} {Allowed : C → Out → W → Prop} {I : W → Prop} {R G : W → W → Prop}
  {p : Prog C Ans α} {f : α → Prog C Ans β} {Q S : α → W → Prop} {w w' : W}

/-- Whatever others do within `R` before each command, the commands stay within `G` and keep
the invariant, and the result meets `Q`. -/
def Safe (m : Machine C Ans Out W) (Allowed : C → Out → W → Prop) (I : W → Prop)
    (R G : W → W → Prop) : Prog C Ans α → (α → W → Prop) → W → Prop
  | .ret a, Q, w => ∀ w', R w w' → I w' → Q a w'
  | .call c k, Q, w => ∀ w', R w w' → I w' → ∀ o, Allowed c o w' →
    G w' (m.exec c o w').2 ∧ I (m.exec c o w').2 ∧
      Safe m Allowed I R G (k (m.exec c o w').1) Q (m.exec c o w').2

theorem Safe.stable (h : Safe m Allowed I R G p Q w)
    (htrans : ∀ u v x, R u v → R v x → R u x) (hR : R w w') : Safe m Allowed I R G p Q w' := by
  cases p with
  | ret a => exact fun u hu => h u (htrans _ _ _ hR hu)
  | call c k => exact fun u hu => h u (htrans _ _ _ hR hu)

theorem Safe.post (h : Safe m Allowed I R G p Q w) (hQ : ∀ a w, I w → Q a w → S a w) :
    Safe m Allowed I R G p S w := by
  induction p generalizing w with
  | ret a => exact fun u hu hI => hQ a u hI (h u hu hI)
  | call c k ih =>
    intro u hu hI o ho
    obtain ⟨hG, hI', hk⟩ := h u hu hI o ho
    exact ⟨hG, hI', ih _ hk⟩

theorem safe_pure {a : α} (h : ∀ w', R w w' → I w' → Q a w') :
    Safe m Allowed I R G (pure a : Prog C Ans α) Q w :=
  h

/-- It is enough to be safe after what others do first. -/
theorem safe_of_rely (hrefl : ∀ u, R u u)
    (h : ∀ u, R w u → I u → Safe m Allowed I R G p Q u) : Safe m Allowed I R G p Q w := by
  cases p with
  | ret a => exact fun u hu hI => h u hu hI u (hrefl u) hI
  | call c k => exact fun u hu hI => h u hu hI u (hrefl u) hI

theorem safe_bind {S : β → W → Prop} (hrefl : ∀ u, R u u)
    (h : Safe m Allowed I R G p (fun a => Safe m Allowed I R G (f a) S) w) :
    Safe m Allowed I R G (p >>= f) S w := by
  induction p generalizing w with
  | ret a => exact safe_of_rely hrefl h
  | call c k ih =>
    intro u hu hI o ho
    obtain ⟨hG, hI', hk⟩ := h u hu hI o ho
    exact ⟨hG, hI', ih _ hk⟩

/-- A program over a smaller command set that acts in the same way. -/
theorem safe_embed {D : Type} {AnsD : D → Type} {inj : C → D} {back : ∀ c, AnsD (inj c) → Ans c}
    {m' : Machine D AnsD Out W} {Allowed' : D → Out → W → Prop}
    (hexec : ∀ c o u, m.exec c o u = (back c (m'.exec (inj c) o u).1, (m'.exec (inj c) o u).2))
    (hallowed : ∀ c o u, Allowed' (inj c) o u → Allowed c o u)
    (h : Safe m Allowed I R G p Q w) : Safe m' Allowed' I R G (p.embed inj back) Q w := by
  induction p generalizing w with
  | ret a => exact h
  | call c k ih =>
    intro u hu hI o ho
    obtain ⟨hG, hI', hk⟩ := h u hu hI o (hallowed c o u ho)
    rw [hexec] at hG hI' hk
    exact ⟨hG, hI', ih _ hk⟩

/-- Issue a command under a condition that the others keep. -/
theorem safe_issue_bind {c : C} {k : Ans c → Prog C Ans α} {P : W → Prop} (hP : P w)
    (hstable : ∀ u v, P u → R u v → P v)
    (hstep : ∀ u o, P u → I u → Allowed c o u → G u (m.exec c o u).2 ∧ I (m.exec c o u).2 ∧
      Safe m Allowed I R G (k (m.exec c o u).1) Q (m.exec c o u).2) :
    Safe m Allowed I R G (issue c >>= k) Q w :=
  fun u hu hI o ho => hstep u o (hstable w u hP hu) hI ho

/-- Issue a command that needs nothing but the invariant. -/
theorem safe_issue_any {c : C} {k : Ans c → Prog C Ans α}
    (hstep : ∀ u o, I u → Allowed c o u → G u (m.exec c o u).2 ∧ I (m.exec c o u).2 ∧
      Safe m Allowed I R G (k (m.exec c o u).1) Q (m.exec c o u).2) :
    Safe m Allowed I R G (issue c >>= k) Q w :=
  fun u _ hI o ho => hstep u o hI ho

/-- A program is safe if each of its commands, wherever it is issued, keeps what is required. -/
theorem Issues.safe {C' : C → Prop} (h : p.Issues C')
    (hc : ∀ c o u, C' c → I u → G u (m.exec c o u).2 ∧ I (m.exec c o u).2) :
    Safe m Allowed I R G p (fun _ _ => True) w := by
  induction p generalizing w with
  | ret a => exact fun _ _ _ => trivial
  | call c k ih =>
    intro u _ hI o _
    obtain ⟨hG, hI'⟩ := hc c o u h.1 hI
    exact ⟨hG, hI', ih _ (h.2 _)⟩

end Prog

/-- Threads, each with the rest of its program, over one world. -/
structure Pool (τ C : Type) (Ans : C → Type) (W : Type) where
  threads : τ → Option (Prog C Ans Unit)
  world : W

namespace Pool

variable {τ C : Type} {Ans : C → Type} {Out W : Type}
  {m : Machine C Ans Out W} {Allowed : C → Out → W → Prop} {I : W → Prop}
  {R G : τ → W → W → Prop} {s : Pool τ C Ans W} {t : τ} {p : Prog C Ans Unit}

/-- What a thread guarantees lies within what each other thread relies on. -/
structure Compatible (R G : τ → W → W → Prop) : Prop where
  refl : ∀ t w, R t w w
  trans : ∀ t u v w, R t u v → R t v w → R t u w
  other : ∀ t t' u v, t ≠ t' → G t u v → R t' u v

variable (m Allowed I R G) {w : W} {o : Out} in
def Safe (s : Pool τ C Ans W) : Prop :=
  I s.world ∧ ∀ t p, s.threads t = some p →
    Prog.Safe m Allowed I (R t) (G t) p (fun _ _ => True) s.world

/-- A change of the world that every thread tolerates. -/
theorem Safe.env (h : s.Safe m Allowed I R G) (hc : Compatible R G) (hI : I w)
    (hR : ∀ t, R t s.world w) : Safe m Allowed I R G ⟨s.threads, w⟩ :=
  ⟨hI, fun t p hp => (h.2 t p hp).stable (hc.trans t) (hR t)⟩

variable [DecidableEq τ]

/-- The pool in which a thread has another program. -/
def set (s : Pool τ C Ans W) (t : τ) (p : Prog C Ans Unit) (w : W) : Pool τ C Ans W :=
  ⟨Function.update s.threads t (some p), w⟩

/-- A thread issues its next command. -/
def step (m : Machine C Ans Out W) (s : Pool τ C Ans W) (t : τ) (o : Out) : Pool τ C Ans W :=
  match s.threads t with
  | some (.call c k) => s.set t (k (m.exec c o s.world).1) (m.exec c o s.world).2
  | some (.ret _) | none => s

/-- The outcome is one that the thread's next command may have. -/
def Permits (Allowed : C → Out → W → Prop) (s : Pool τ C Ans W) (t : τ) (o : Out) : Prop :=
  ∀ c k, s.threads t = some (.call c k) → Allowed c o s.world

theorem safe_set (hI : I w) (hp : Prog.Safe m Allowed I (R t) (G t) p (fun _ _ => True) w)
    (hother : ∀ t' q, t' ≠ t → s.threads t' = some q →
      Prog.Safe m Allowed I (R t') (G t') q (fun _ _ => True) w) :
    Safe m Allowed I R G (s.set t p w) := by
  refine ⟨hI, fun t' q hq => ?_⟩
  change Function.update s.threads t (some p) t' = some q at hq
  by_cases ht : t' = t
  · subst ht
    rw [Function.update_self, Option.some.injEq] at hq
    exact hq ▸ hp
  · rw [Function.update_of_ne ht] at hq
    exact hother t' q ht hq

/-- A thread may be given any program that is safe from here. -/
theorem Safe.set (h : s.Safe m Allowed I R G)
    (hp : Prog.Safe m Allowed I (R t) (G t) p (fun _ _ => True) s.world) :
    Safe m Allowed I R G (s.set t p s.world) :=
  safe_set h.1 hp fun t' q _ hq => h.2 t' q hq

theorem Safe.step (h : s.Safe m Allowed I R G) (hc : Compatible R G) (ho : s.Permits Allowed t o) :
    (s.step m t o).Safe m Allowed I R G := by
  unfold Pool.step
  split
  next c k ht =>
    obtain ⟨hG, hI, hk⟩ := h.2 t _ ht s.world (hc.refl t _) h.1 o (ho c k ht)
    refine safe_set hI hk fun t' q he hq => ?_
    exact (h.2 t' q hq).stable (hc.trans t') (hc.other t t' _ _ (Ne.symm he) hG)
  all_goals exact h

/-- What a thread does to the world, it guarantees. -/
theorem Safe.guarantee (h : s.Safe m Allowed I R G) (hc : Compatible R G)
    (ho : s.Permits Allowed t o) :
    (s.step m t o).world = s.world ∨ G t s.world (s.step m t o).world := by
  unfold Pool.step
  split
  next c k ht => exact .inr (h.2 t _ ht s.world (hc.refl t _) h.1 o (ho c k ht)).1
  all_goals exact .inl rfl

end Pool

end Stacklab.Lib
