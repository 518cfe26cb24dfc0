import Stacklab.Auth.LoginLockout

/-! The lockout under every interleaving of logins. -/
namespace Stacklab.Auth.Lockout

open Lib Store Prog GoMap

variable {cfg : LoginConfig} {verify : String → String → Bool} {w w' u : LoginWorld}
  {attempts : LoginAttempts} {call other : ℕ} {client key c : String} {now clock : Time}
  {o : LoginOut} {α : Type} {failed : Bool}

/-- The failures that are recorded for a client. -/
def LoginWorld.countOf (w : LoginWorld) (client : String) : ℕ :=
  (w.loginAttempts.lookup client).elim 0 LoginAttemptState.failedCount

/-- The client is not locked out now. -/
def LoginWorld.Open (w : LoginWorld) (client : String) : Prop :=
  ∀ t, w.lockedUntil client = some t → t ≤ w.clock

structure LockoutInv (cfg : LoginConfig) (w : LoginWorld) : Prop where
  counted : ∀ c a, w.loginAttempts.lookup c = some a → a.lockedUntil = none →
    a.failedCount < cfg.maxFailures
  tallied : ∀ c, w.failures c ≤ w.countOf c + (w.unrecorded c).toNat
  reserved : ∀ c, w.unrecorded c = true → w.loginInFlight.lookup c ≠ none
  checked : ∀ p ∈ w.checking, w.Open p.2
  begun : ∀ v ∈ w.begun, ∀ t, v.lockedUntil = some t → t ≤ v.startedAt

/-- What other calls and the clock leave to a call. -/
structure LoginRely (call : ℕ) (w w' : LoginWorld) : Prop where
  clock : w.clock ≤ w'.clock
  checking : ∀ c, (call, c) ∈ w.checking → (call, c) ∈ w'.checking
  reserved : ∀ c, w.loginInFlight.lookup c = some call →
    w'.loginInFlight.lookup c = some call ∧ w'.unrecorded c = w.unrecorded c ∧
      (w'.loginAttempts.lookup c = w.loginAttempts.lookup c ∨ w'.loginAttempts.lookup c = none)

def LoginGuarantee (call : ℕ) (w w' : LoginWorld) : Prop := ∀ other, other ≠ call →
  LoginRely other w w'

def LoginAllowed (cfg : LoginConfig) (c : LoginCmd) (_ : LoginOut) (w : LoginWorld) : Prop :=
  c.fits cfg w = true ∧ c.alone w = true

abbrev LoginSafe (cfg : LoginConfig) (verify : String → String → Bool) (call : ℕ)
    (p : LoginProg α) (w : LoginWorld) : Prop :=
  p.Safe (loginMachine cfg verify) (LoginAllowed cfg) (LockoutInv cfg) (LoginRely call)
    (LoginGuarantee call) (fun _ _ => True) w

theorem LoginRely.refl (call : ℕ) (w : LoginWorld) : LoginRely call w w :=
  ⟨le_refl _, fun _ h => h, fun _ h => ⟨h, rfl, .inl rfl⟩⟩

theorem LoginRely.trans (h : LoginRely call w w') (h' : LoginRely call w' u) :
    LoginRely call w u := by
  refine ⟨le_trans h.clock h'.clock, fun c hc => h'.checking c (h.checking c hc), fun c hc => ?_⟩
  obtain ⟨hheld, hmark, hattempt⟩ := h.reserved c hc
  obtain ⟨hheld', hmark', hattempt'⟩ := h'.reserved c hheld
  refine ⟨hheld', hmark'.trans hmark, ?_⟩
  rcases hattempt' with hsame | hnone
  · rw [hsame]
    exact hattempt
  · exact .inr hnone

theorem loginRely_compatible : Pool.Compatible LoginRely LoginGuarantee where
  refl := LoginRely.refl
  trans _ _ _ _ := LoginRely.trans
  other _ other _ _ hne hG := hG other (Ne.symm hne)

/-- A client whose attempts are unchanged or gone stays open as time passes. -/
theorem Open.later (h : w.Open client) (hclock : w.clock ≤ w'.clock)
    (hattempt : w'.loginAttempts.lookup client = w.loginAttempts.lookup client ∨
      w'.loginAttempts.lookup client = none) : w'.Open client := by
  intro t ht
  unfold LoginWorld.lockedUntil at ht
  rcases hattempt with hsame | hnone
  · rw [hsame] at ht
    exact le_trans (h t ht) hclock
  · rw [hnone] at ht
    cases ht

/-- Nothing but the clock moves. -/
theorem tick_inv (h : LockoutInv cfg w) (hclock : w.clock ≤ clock) :
    LockoutInv cfg { w with clock } :=
  { h with checked := fun p hp => Open.later (h.checked p hp) hclock (.inl rfl) }

theorem tick_rely (hclock : w.clock ≤ clock) (call : ℕ) : LoginRely call w { w with clock } :=
  ⟨hclock, fun _ h => h, fun _ h => ⟨h, rfl, .inl rfl⟩⟩

/-- The call has the client's reservation, and `failed` says whether a failure is unrecorded. -/
def Holds (call : ℕ) (client : String) (failed : Bool) (w : LoginWorld) : Prop :=
  w.loginInFlight.lookup client = some call ∧ w.unrecorded client = failed

theorem Holds.stable (h : Holds call client failed w) (hR : LoginRely call w w') :
    Holds call client failed w' := by
  obtain ⟨hheld, hmark, -⟩ := hR.reserved client h.1
  exact ⟨hheld, hmark.trans h.2⟩

theorem Holds.open_stable (h : Holds call client failed w) (ho : w.Open client)
    (hR : LoginRely call w w') : w'.Open client :=
  Open.later ho hR.clock (hR.reserved client h.1).2.2

theorem countOf_none (h : w.loginAttempts.lookup client = none) : w.countOf client = 0 := by
  unfold LoginWorld.countOf
  rw [h]
  rfl

theorem lookup_forget (c : String) :
    (w.forget client).loginAttempts.lookup c =
      if c = client then none else w.loginAttempts.lookup c :=
  lookup_erase w.loginAttempts c client

theorem forget_cases (c : String) :
    (w.forget client).loginAttempts.lookup c = w.loginAttempts.lookup c ∨
      (w.forget client).loginAttempts.lookup c = none := by
  rw [lookup_forget]
  split
  · exact .inr rfl
  · exact .inl rfl

theorem forget_rely (call : ℕ) : LoginRely call w (w.forget client) :=
  ⟨le_refl _, fun _ h => h, fun c hc => ⟨hc, rfl, forget_cases c⟩⟩

theorem forget_inv (h : LockoutInv cfg w) : LockoutInv cfg (w.forget client) := by
  refine ⟨fun c a ha => ?_, fun c => ?_, h.reserved, fun p hp => ?_, h.begun⟩
  · rcases forget_cases c with hsame | hnone
    · exact h.counted c a (hsame ▸ ha)
    · rw [hnone] at ha
      cases ha
  · by_cases hc : c = client
    · subst hc
      change Function.update w.failures c 0 c ≤ _
      rw [Function.update_self]
      omega
    · have hcount : (w.forget client).countOf c = w.countOf c := by
        unfold LoginWorld.countOf
        rw [lookup_forget, if_neg hc]
      change Function.update w.failures client 0 c ≤ _
      rw [Function.update_of_ne hc, hcount]
      exact h.tallied c
  · exact Open.later (h.checked p hp) (le_refl _) (forget_cases p.2)

/-- A call enters its lock check for a client that is open. -/
theorem enterCheck_inv (h : LockoutInv cfg w) (ho : w.Open client) :
    LockoutInv cfg { w with checking := (call, client) :: w.checking } := by
  refine { h with checked := fun p hp => ?_ }
  rcases List.mem_cons.mp hp with rfl | hp
  · exact ho
  · exact h.checked p hp

theorem enterCheck_rely (other : ℕ) :
    LoginRely other w { w with checking := (call, client) :: w.checking } :=
  ⟨le_refl _, fun _ h => List.mem_cons_of_mem _ h, fun _ h => ⟨h, rfl, .inl rfl⟩⟩

theorem leaveCheck_inv (h : LockoutInv cfg w) : LockoutInv cfg (w.leaveCheck call) :=
  { h with checked := fun p hp => h.checked p (List.mem_of_mem_filter hp) }

theorem leaveCheck_guarantee : LoginGuarantee call w (w.leaveCheck call) := by
  intro other hne
  refine ⟨le_refl _, fun c hc => ?_, fun _ h => ⟨h, rfl, .inl rfl⟩⟩
  exact List.mem_filter.mpr ⟨hc, decide_eq_true hne⟩

/-- What the lock check does and what it tells. -/
theorem loginLocked_spec (h : LockoutInv cfg w) (call : ℕ) (client : String) (now : Time) :
    LoginGuarantee call w (w.loginLocked cfg call client now).2 ∧
    LockoutInv cfg (w.loginLocked cfg call client now).2 ∧
    ((w.loginLocked cfg call client now).1 = false →
      (call, client) ∈ (w.loginLocked cfg call client now).2.checking) := by
  unfold LoginWorld.loginLocked
  split
  next hnone =>
    refine ⟨fun other _ => enterCheck_rely other, enterCheck_inv h fun t ht => ?_,
      fun _ => List.mem_cons_self⟩
    simp [LoginWorld.lockedUntil, hnone] at ht
  next attempt hattempt =>
    split
    · refine ⟨fun other _ => (forget_rely other).trans (enterCheck_rely other),
        enterCheck_inv (forget_inv h) fun t ht => ?_, fun _ => List.mem_cons_self⟩
      simp [LoginWorld.lockedUntil, lookup_forget] at ht
    next hlive =>
      split
      · exact ⟨fun other _ => .refl other w, h, fun hf => by cases hf⟩
      next hfree =>
        refine ⟨fun other _ => enterCheck_rely other, enterCheck_inv h fun t ht => ?_,
          fun _ => List.mem_cons_self⟩
        -- a lockout that has not expired is still in force
        have hlock : attempt.lockedUntil = some t := by
          simpa [LoginWorld.lockedUntil, hattempt] using ht
        simp only [loginAttemptExpired, hlock, decide_eq_true_eq, not_le] at hlive
        simp only [hlock, Option.any_some, decide_eq_true_eq, not_lt] at hfree
        exact absurd (lt_of_lt_of_le hlive hfree) (lt_irrefl _)

theorem reserve_spec (h : LockoutInv cfg w) (hc : (call, client) ∈ w.checking) :
    LoginGuarantee call w (w.reserve call client).2 ∧
    LockoutInv cfg (w.reserve call client).2 ∧
    ((w.reserve call client).1 = true → Holds call client false (w.reserve call client).2 ∧
      (w.reserve call client).2.Open client) := by
  unfold LoginWorld.reserve
  split
  · exact ⟨leaveCheck_guarantee, leaveCheck_inv h, fun hf => by cases hf⟩
  next hfree =>
    have hmark : w.unrecorded client = false := by
      by_contra hmark
      exact h.reserved client (Bool.eq_true_of_not_eq_false hmark) hfree
    have hleft : LockoutInv cfg (w.leaveCheck call) := leaveCheck_inv h
    refine ⟨fun other hne => ?_, ⟨hleft.counted, hleft.tallied, fun c hm => ?_, hleft.checked,
      hleft.begun⟩, fun _ => ⟨⟨?_, hmark⟩, h.checked _ hc⟩⟩
    · refine ⟨le_refl _, (leaveCheck_guarantee other hne).checking, fun c hr => ⟨?_, rfl, .inl rfl⟩⟩
      rw [lookup_insert, if_neg]
      · exact hr
      · rintro rfl
        rw [hfree] at hr
        cases hr
    · change (w.loginInFlight.insert client call).lookup c ≠ none
      rw [lookup_insert]
      split
      · exact Option.some_ne_none _
      · exact h.reserved c hm
    · change (w.loginInFlight.insert client call).lookup client = some call
      rw [lookup_insert, if_pos rfl]

/-- A reservation belongs to one call. -/
theorem Holds.ne (h : Holds call client failed w) (hne : other ≠ call)
    (hc : w.loginInFlight.lookup c = some other) : c ≠ client := by
  rintro rfl
  rw [h.1] at hc
  exact hne (Option.some.inj hc).symm

theorem failVerification_spec (h : LockoutInv cfg w) (hh : Holds call client false w) :
    LoginGuarantee call w (w.failVerification client) ∧
    LockoutInv cfg (w.failVerification client) ∧
    Holds call client true (w.failVerification client) := by
  refine ⟨fun other hne => ⟨le_refl _, fun _ hc => hc, fun c hc => ⟨hc, ?_, .inl rfl⟩⟩,
    ⟨h.counted, fun c => ?_, fun c hm => ?_, h.checked, h.begun⟩, hh.1, ?_⟩
  · change Function.update w.unrecorded client true c = _
    rw [Function.update_of_ne (hh.ne hne hc)]
  · have hold := h.tallied c
    change Function.update w.failures client (w.failures client + 1) c ≤
      w.countOf c + (Function.update w.unrecorded client true c).toNat
    by_cases hc : c = client
    · subst hc
      rw [hh.2] at hold
      rw [Function.update_self, Function.update_self]
      simp only [Bool.toNat_false, Bool.toNat_true] at hold ⊢
      omega
    · rw [Function.update_of_ne hc, Function.update_of_ne hc]
      exact hold
  · by_cases hc : c = client
    · subst hc
      rw [show (w.failVerification c).loginInFlight.lookup c = some call from hh.1]
      exact Option.some_ne_none _
    · change Function.update w.unrecorded client true c = true at hm
      rw [Function.update_of_ne hc] at hm
      exact h.reserved c hm
  · exact Function.update_self _ _ _

theorem lookup_prune {a : LoginAttemptState} {window : ℤ}
    (h : (pruneLoginAttempts attempts now window).lookup key = some a) :
    attempts.lookup key = some a :=
  lookup_of_lookup_eraseWhere h

/-- Pruning drops the expired clients and keeps the others. -/
theorem prune_cases (attempts : LoginAttempts) (now : Time) (window : ℤ) (c : String) :
    (expiredClients attempts now window c = false ∧
      (pruneLoginAttempts attempts now window).lookup c = attempts.lookup c) ∨
    (expiredClients attempts now window c = true ∧
      (pruneLoginAttempts attempts now window).lookup c = none) := by
  cases hexp : expiredClients attempts now window c with
  | false => exact .inl ⟨rfl, lookup_eraseWhere_of_not hexp⟩
  | true => exact .inr ⟨rfl, lookup_eraseWhere_of hexp⟩

/-- What recording a failure leaves, when nothing is evicted. -/
theorem lookup_recordFailure (hfits : evicts cfg attempts key now = false) (c : String) :
    (recordFailure cfg attempts key now).lookup c =
      if c = key then some (failedAttempt cfg attempts key now)
      else (pruneLoginAttempts attempts now cfg.failureWindow).lookup c := by
  unfold recordFailure
  rw [hfits]
  exact lookup_insert _ _ _ _

theorem countFailure_counted (a : LoginAttemptState)
    (h : (countFailure cfg now a).lockedUntil = none) :
    (countFailure cfg now a).failedCount < cfg.maxFailures := by
  unfold countFailure at h ⊢
  dsimp only at h ⊢
  split at h
  · cases h
  · omega

/-- A failure counts on in its window, or is the first of a new one. -/
theorem failedAttempt_cases (cfg : LoginConfig) (attempts : LoginAttempts) (key : String)
    (now : Time) :
    ∃ a, failedAttempt cfg attempts key now = countFailure cfg now a ∧
      ((startsWindow cfg attempts key now = true ∧ a.failedCount = 0) ∨
        (startsWindow cfg attempts key now = false ∧ attempts.lookup key = some a)) := by
  unfold failedAttempt
  split
  next hnone =>
    refine ⟨_, rfl, .inl ⟨?_, rfl⟩⟩
    simp [startsWindow, hnone]
  next a ha =>
    split
    next hstart => exact ⟨_, rfl, .inl ⟨hstart, rfl⟩⟩
    next hstart => exact ⟨a, rfl, .inr ⟨Bool.eq_false_of_not_eq_true hstart, lookup_prune ha⟩⟩

/-- A recorded failure changes no other client's attempts, but may drop expired ones. -/
theorem recordLoginFailure_other (hfits : evicts cfg w.loginAttempts client now = false)
    (hc : c ≠ client) :
    (w.recordLoginFailure cfg client now).loginAttempts.lookup c = w.loginAttempts.lookup c ∨
      (w.recordLoginFailure cfg client now).loginAttempts.lookup c = none := by
  change (recordFailure cfg w.loginAttempts client now).lookup c = _ ∨
    (recordFailure cfg w.loginAttempts client now).lookup c = none
  rw [lookup_recordFailure hfits, if_neg hc]
  rcases prune_cases w.loginAttempts now cfg.failureWindow c with ⟨-, hp⟩ | ⟨-, hp⟩
  · exact .inl hp
  · exact .inr hp

theorem lookup_recordLoginFailure (hfits : evicts cfg w.loginAttempts client now = false) :
    (w.recordLoginFailure cfg client now).loginAttempts.lookup client =
      some (failedAttempt cfg w.loginAttempts client now) := by
  change (recordFailure cfg w.loginAttempts client now).lookup client = _
  rw [lookup_recordFailure hfits, if_pos rfl]

theorem recordLoginFailure_tallied (h : LockoutInv cfg w) (hmark : w.unrecorded client = true)
    (hfits : evicts cfg w.loginAttempts client now = false) (c : String) :
    (w.recordLoginFailure cfg client now).failures c ≤
      (w.recordLoginFailure cfg client now).countOf c +
        ((w.recordLoginFailure cfg client now).unrecorded c).toNat := by
  have hold := h.tallied c
  by_cases hc : c = client
  · subst hc
    have hcount : (w.recordLoginFailure cfg c now).countOf c =
        (failedAttempt cfg w.loginAttempts c now).failedCount := by
      unfold LoginWorld.countOf
      rw [lookup_recordLoginFailure hfits]
      rfl
    obtain ⟨a, ha, hstart⟩ := failedAttempt_cases cfg w.loginAttempts c now
    rw [hcount, ha]
    change (if c = c then _ else _) ≤ a.failedCount + 1 + _
    rcases hstart with ⟨hstart, hzero⟩ | ⟨hstart, hsome⟩
    · simp only [hstart, if_true]
      omega
    · have hwas : w.countOf c = a.failedCount := by
        unfold LoginWorld.countOf
        rw [hsome]
        rfl
      rw [hwas, hmark, Bool.toNat_true] at hold
      simp only [hstart, if_true, Bool.false_eq_true, if_false]
      omega
  · have hmark' : (w.recordLoginFailure cfg client now).unrecorded c = w.unrecorded c :=
      Function.update_of_ne hc _ _
    rw [hmark']
    change (if c = client then _ else if expiredClients w.loginAttempts now cfg.failureWindow c
      then 0 else w.failures c) ≤ _
    rw [if_neg hc]
    rcases prune_cases w.loginAttempts now cfg.failureWindow c with ⟨hexp, hp⟩ | ⟨hexp, -⟩
    · have hcount : (w.recordLoginFailure cfg client now).countOf c = w.countOf c := by
        unfold LoginWorld.countOf
        change (Option.elim ((recordFailure cfg w.loginAttempts client now).lookup c) 0 _) = _
        rw [lookup_recordFailure hfits, if_neg hc, hp]
      rw [hexp, hcount]
      exact hold
    · rw [hexp]
      exact Nat.zero_le _

theorem recordLoginFailure_inv (h : LockoutInv cfg w) (hmark : w.unrecorded client = true)
    (hfits : evicts cfg w.loginAttempts client now = false)
    (halone : ∀ p ∈ w.checking, p.2 ≠ client) :
    LockoutInv cfg (w.recordLoginFailure cfg client now) := by
  refine ⟨fun c a ha hnone => ?_, recordLoginFailure_tallied h hmark hfits, fun c hm => ?_,
    fun p hp => ?_, h.begun⟩
  · by_cases hc : c = client
    · subst hc
      rw [lookup_recordLoginFailure hfits] at ha
      cases ha
      obtain ⟨b, hb, -⟩ := failedAttempt_cases cfg w.loginAttempts c now
      rw [hb] at hnone ⊢
      exact countFailure_counted b hnone
    · rcases recordLoginFailure_other hfits hc with hsame | hgone
      · exact h.counted c a (hsame ▸ ha) hnone
      · rw [hgone] at ha
        cases ha
  · change Function.update w.unrecorded client false c = true at hm
    by_cases hc : c = client
    · subst hc
      rw [Function.update_self] at hm
      cases hm
    · rw [Function.update_of_ne hc] at hm
      exact h.reserved c hm
  · exact Open.later (h.checked p hp) (le_refl _) (recordLoginFailure_other hfits (halone p hp))

theorem recordLoginFailure_spec (h : LockoutInv cfg w) (hh : Holds call client true w)
    (hfits : evicts cfg w.loginAttempts client now = false)
    (halone : ∀ p ∈ w.checking, p.2 ≠ client) :
    LoginGuarantee call w (w.recordLoginFailure cfg client now) ∧
    LockoutInv cfg (w.recordLoginFailure cfg client now) ∧
    Holds call client false (w.recordLoginFailure cfg client now) := by
  refine ⟨fun other hne => ⟨le_refl _, fun _ hc => hc, fun c hc => ?_⟩,
    recordLoginFailure_inv h hh.2 hfits halone, hh.1, Function.update_self _ _ _⟩
  have hne' := hh.ne hne hc
  exact ⟨hc, Function.update_of_ne hne' _ _, recordLoginFailure_other hfits hne'⟩

theorem beginVerification_inv (h : LockoutInv cfg w) (ho : w.Open client) :
    LockoutInv cfg (w.beginVerification client) := by
  refine { h with begun := fun v hv t ht => ?_ }
  rcases List.mem_cons.mp hv with rfl | hv
  · exact ho t ht
  · exact h.begun v hv t ht

/-- A command that leaves the observed state alone. -/
theorem aside_rely (other : ℕ) (slots : ℕ) (begun : List Verification) :
    LoginRely other w { w with loginVerificationSlots := slots, begun := begun } :=
  ⟨le_refl _, fun _ h => h, fun _ h => ⟨h, rfl, .inl rfl⟩⟩

theorem unreserve_spec (h : LockoutInv cfg w) (hh : Holds call client false w) :
    LoginGuarantee call w { w with loginInFlight := w.loginInFlight.erase client } ∧
    LockoutInv cfg { w with loginInFlight := w.loginInFlight.erase client } := by
  refine ⟨fun other hne => ⟨le_refl _, fun _ hc => hc, fun c hc => ⟨?_, rfl, .inl rfl⟩⟩,
    { h with reserved := fun c hm => ?_ }⟩
  · change (w.loginInFlight.erase client).lookup c = some other
    rw [lookup_erase, if_neg (hh.ne hne hc)]
    exact hc
  · change (w.loginInFlight.erase client).lookup c ≠ none
    rw [lookup_erase, if_neg]
    · exact h.reserved c hm
    · rintro rfl
      cases hh.2.symm.trans hm

section Programs

variable {password ipAddress : String} {result : Except LoginError Unit}

theorem safe_ret (a : α) : LoginSafe cfg verify call (pure a : LoginProg α) w :=
  fun _ _ _ => trivial

theorem releaseSlot_safe (a : α) :
    LoginSafe cfg verify call (LoginCmd.issue .releaseSlot >>= fun _ => pure a) w := by
  refine safe_issue_any ?_
  intro u o hI _
  exact ⟨fun other _ => aside_rely other _ u.begun, { hI with }, safe_ret a⟩

theorem releaseVerification_safe (h : Holds call (loginAttemptKey ipAddress) false w) :
    LoginSafe cfg verify call (releaseVerification ipAddress result) w := by
  refine safe_issue_bind h (fun _ _ => Holds.stable) ?_
  intro u o hu hI _
  obtain ⟨hG, hI'⟩ := unreserve_spec hI hu
  exact ⟨hG, hI', releaseSlot_safe result⟩

theorem recordLoginFailure_safe (h : Holds call (loginAttemptKey ipAddress) true w) :
    LoginSafe cfg verify call
      (LoginCmd.issue (.recordLoginFailure ipAddress now) >>= fun _ =>
        releaseVerification ipAddress result) w := by
  refine safe_issue_bind h (fun _ _ => Holds.stable) ?_
  intro u o hu hI hallowed
  have hfits : evicts cfg u.loginAttempts (loginAttemptKey ipAddress) now = false :=
    (Bool.not_eq_true' _).mp hallowed.1
  have halone : ∀ p ∈ u.checking, p.2 ≠ loginAttemptKey ipAddress := by
    intro p hp
    exact of_decide_eq_true (List.all_eq_true.mp hallowed.2 p hp)
  obtain ⟨hG, hI', hheld⟩ := recordLoginFailure_spec hI hu hfits halone
  exact ⟨hG, hI', releaseVerification_safe hheld⟩

theorem createSession_safe (h : Holds call (loginAttemptKey ipAddress) false w) :
    LoginSafe cfg verify call
      (LoginCmd.issue .createSession >>= fun created =>
        match created with
        | .error err => releaseVerification ipAddress (.error (.failed err))
        | .ok () => releaseVerification ipAddress (.ok ())) w := by
  refine safe_issue_bind h (fun _ _ => Holds.stable) ?_
  intro u o hu hI _
  refine ⟨fun other _ => .refl other u, hI, ?_⟩
  split <;> exact releaseVerification_safe hu

theorem clearLoginFailures_safe (h : Holds call (loginAttemptKey ipAddress) false w)
    {k : LoginProg α}
    (hk : ∀ u, Holds call (loginAttemptKey ipAddress) false u → LoginSafe cfg verify call k u) :
    LoginSafe cfg verify call
      (LoginCmd.issue (.clearLoginFailures ipAddress) >>= fun _ => k) w := by
  refine safe_issue_bind h (fun _ _ => Holds.stable) ?_
  intro u o hu hI _
  exact ⟨fun other _ => forget_rely other, forget_inv hI, hk _ hu⟩

/-- From the reservation on, a call for an open client. -/
def Reserved (call : ℕ) (client : String) (w : LoginWorld) : Prop :=
  Holds call client false w ∧ w.Open client

theorem Reserved.stable (h : Reserved call client w) (hR : LoginRely call w w') :
    Reserved call client w' :=
  ⟨h.1.stable hR, h.1.open_stable h.2 hR⟩

theorem verifyPassword_safe {hash : String} {k : Bool → LoginProg α}
    (h : Holds call (loginAttemptKey ipAddress) false w)
    (hok : ∀ u, Holds call (loginAttemptKey ipAddress) false u →
      LoginSafe cfg verify call (k true) u)
    (hfail : ∀ u, Holds call (loginAttemptKey ipAddress) true u →
      LoginSafe cfg verify call (k false) u) :
    LoginSafe cfg verify call
      (LoginCmd.issue (.verifyPassword ipAddress hash password) >>= k) w := by
  refine safe_issue_bind h (fun _ _ => Holds.stable) ?_
  intro u o hu hI _
  have hexec : (loginMachine cfg verify).exec (.verifyPassword ipAddress hash password) o u =
      if verify hash password then (true, u)
      else (false, u.failVerification (loginAttemptKey ipAddress)) := rfl
  rw [hexec]
  split
  · exact ⟨fun other _ => .refl other u, hI, hok u hu⟩
  · obtain ⟨hG, hI', hheld⟩ := failVerification_spec hI hu
    exact ⟨hG, hI', hfail _ hheld⟩

theorem loginReserved_safe (h : Reserved call (loginAttemptKey ipAddress) w) :
    LoginSafe cfg verify call (loginReserved password ipAddress now) w := by
  refine safe_issue_bind h (fun _ _ => Reserved.stable) ?_
  intro u o hu hI _
  refine ⟨fun other _ => .refl other u, hI, ?_⟩
  split
  · exact releaseVerification_safe hu.1
  · split
    · exact releaseVerification_safe hu.1
    · split
      · exact releaseVerification_safe hu.1
      · refine safe_issue_bind hu (fun _ _ => Reserved.stable) ?_
        intro v o hv hI _
        refine ⟨fun other _ => aside_rely other v.loginVerificationSlots _,
          beginVerification_inv hI hv.2, ?_⟩
        refine verifyPassword_safe hv.1 (fun x hx => ?_) fun x hx => ?_
        · exact clearLoginFailures_safe hx fun _ hy => createSession_safe hy
        · exact recordLoginFailure_safe hx

theorem acquireSlot_cases (cfg : LoginConfig) (verify : String → String → Bool) (call : ℕ)
    (o : LoginOut) (w : LoginWorld) :
    (∃ err, (loginMachine cfg verify).exec (.acquireSlot call) o w =
      (.error err, w.leaveCheck call)) ∨
    (loginMachine cfg verify).exec (.acquireSlot call) o w =
      (.ok (), { w with loginVerificationSlots := w.loginVerificationSlots + 1 }) := by
  change (∃ err, loginExec cfg verify (.acquireSlot call) o w = _) ∨
    loginExec cfg verify (.acquireSlot call) o w = _
  simp only [loginExec]
  cases o.failure with
  | some err => exact .inl ⟨_, rfl⟩
  | none =>
    dsimp only
    split
    · exact .inr rfl
    · exact .inl ⟨_, rfl⟩

/-- The reservation is all that the rest of `Login` asks for. -/
theorem acquireLoginVerification_safe {Q : Except LoginError Unit → LoginWorld → Prop}
    (h : (call, loginAttemptKey ipAddress) ∈ w.checking) (herr : ∀ err u, Q (.error err) u)
    (hok : ∀ u, Reserved call (loginAttemptKey ipAddress) u → Q (.ok ()) u) :
    (acquireLoginVerification call ipAddress).Safe (loginMachine cfg verify) (LoginAllowed cfg)
      (LockoutInv cfg) (LoginRely call) (LoginGuarantee call) Q w := by
  refine safe_issue_bind h (fun _ _ hu hR => hR.checking _ hu) ?_
  intro u o hu hI _
  have hslot := acquireSlot_cases cfg verify call o u
  generalize (loginMachine cfg verify).exec (.acquireSlot call) o u = r at hslot ⊢
  rcases hslot with ⟨err, rfl⟩ | rfl
  · exact ⟨leaveCheck_guarantee, leaveCheck_inv hI, fun _ _ _ => herr err _⟩
  · refine ⟨fun other _ => aside_rely other _ u.begun, { hI with }, ?_⟩
    refine safe_issue_bind hu (fun _ _ hv hR => hR.checking _ hv) ?_
    intro v o hv hI _
    obtain ⟨hG, hI', hheld⟩ := reserve_spec hI hv
    refine ⟨hG, hI', ?_⟩
    split
    next hreserved =>
      intro x hR _
      exact hok x (Reserved.stable (hheld hreserved) hR)
    next =>
      refine safe_issue_any ?_
      intro x o hI _
      exact ⟨fun other _ => aside_rely other _ x.begun, { hI with }, fun _ _ _ => herr _ _⟩

theorem login_safe : LoginSafe cfg verify call (login call password ipAddress) w := by
  refine safe_issue_any ?_
  intro u o hI _
  refine ⟨fun other _ => .refl other u, hI, ?_⟩
  refine safe_issue_any ?_
  intro v o hI _
  obtain ⟨hG, hI', hchecking⟩ :=
    loginLocked_spec hI call (loginAttemptKey ipAddress) u.clock
  refine ⟨hG, hI', ?_⟩
  split
  · exact safe_ret _
  next hfree =>
    refine safe_bind (LoginRely.refl call) ?_
    refine acquireLoginVerification_safe (hchecking (Bool.eq_false_of_not_eq_true hfree))
      (fun _ _ => safe_ret _) fun x hx => ?_
    exact loginReserved_safe hx

end Programs

variable {s t : LoginPool} {l : LoginLabel}

abbrev LoginsSafe (cfg : LoginConfig) (verify : String → String → Bool) (s : LoginPool) : Prop :=
  s.Safe (loginMachine cfg verify) (LoginAllowed cfg) (LockoutInv cfg) LoginRely LoginGuarantee

theorem loginsSafe_new (h : NewService s) : LoginsSafe cfg verify s := by
  obtain ⟨hchecking, hfailures, hmarks, hbegun⟩ := h.observed
  refine ⟨⟨fun c a ha => ?_, fun c => ?_, fun c hm => ?_, fun p hp => ?_, fun v hv => ?_⟩,
    fun call p hp => ?_⟩
  · rw [h.loginAttempts] at ha
    cases ha
  · rw [hfailures c]
    exact Nat.zero_le _
  · rw [hmarks c] at hm
    cases hm
  · rw [hchecking] at hp
    cases hp
  · rw [hbegun] at hv
    cases hv
  · rw [h.threads call] at hp
    cases hp

theorem loginsSafe_step (h : (carefulLoginLts cfg verify).Tr s l t)
    (hs : LoginsSafe cfg verify s) : LoginsSafe cfg verify t := by
  obtain ⟨henabled, rfl⟩ := h
  obtain ⟨hbase, halone⟩ := Bool.and_eq_true_iff.mp henabled
  cases l with
  | invoke call password ipAddress =>
    refine Pool.Safe.set hs ?_
    exact safe_bind (LoginRely.refl call) (login_safe.post fun _ _ _ _ => safe_ret ())
  | tick clock =>
    have hclock : s.world.clock ≤ clock := of_decide_eq_true hbase
    exact hs.env loginRely_compatible (tick_inv hs.1 hclock) (tick_rely hclock)
  | step call o =>
    refine hs.step loginRely_compatible ?_
    intro c k hthread
    simp only [loginEnabled, aloneAt, hthread] at hbase halone
    exact ⟨hbase, halone⟩

theorem lockoutHolds_of_inv (h : LockoutInv cfg w) : LockoutHolds cfg w := by
  refine ⟨h.begun, fun client hnone => ?_⟩
  have htally := h.tallied client
  have hmark : (w.unrecorded client).toNat ≤ 1 := Bool.toNat_le _
  have hpos := cfg.maxFailures_pos
  cases hattempt : w.loginAttempts.lookup client with
  | none =>
    rw [countOf_none hattempt] at htally
    omega
  | some a =>
    have hcount : w.countOf client = a.failedCount := by
      unfold LoginWorld.countOf
      rw [hattempt]
      rfl
    have hlock : a.lockedUntil = none := by
      simpa [LoginWorld.lockedUntil, hattempt] using hnone
    have hless := h.counted client a hattempt hlock
    omega

/-- In every run in which a failure is recorded only while no other call of the client is between
its lock check and its reservation, the lockout cannot be outrun. -/
theorem careful_logins_keep_lockout
    (h : (carefulLoginLts cfg verify).Reachable NewService s) : LockoutHolds cfg s.world := by
  have hsafe : LoginsSafe cfg verify s :=
    Lts.reachable_of_trInv (fun _ => loginsSafe_new) (fun _ _ _ => loginsSafe_step) h
  exact lockoutHolds_of_inv hsafe.1

/-- One failure locks a client out, for ten nanoseconds. -/
def strictConfig : LoginConfig := ⟨1, 10, 10, 8⟩

def neverVerifies : String → String → Bool := fun _ _ => false

def quietService : LoginPool where
  threads _ := none
  world :=
    { clock := 100
      loginAttempts := ∅
      loginInFlight := ∅
      loginVerificationSlots := 0
      checking := []
      failures := fun _ => 0
      unrecorded := fun _ => false
      begun := [] }

theorem quietService_new : NewService quietService :=
  ⟨fun _ => rfl, rfl, rfl, rfl, fun _ => rfl, fun _ => rfl, rfl⟩

/-- The second call passes its lock check, the first one fails and is locked out, and the second
one then takes the reservation and verifies its password. -/
def overtakingLogins : List LoginLabel :=
  [.invoke 0 "guess" "192.0.2.1", .invoke 1 "again" "192.0.2.1"] ++
    List.replicate 2 (.step 1 {}) ++ List.replicate 10 (.step 0 {}) ++
    List.replicate 4 (.step 1 {})

/-- The second call comes after the first one is locked out. -/
def patientLogins : List LoginLabel :=
  .invoke 0 "guess" "192.0.2.1" :: List.replicate 10 (.step 0 {}) ++
    .invoke 1 "again" "192.0.2.1" :: List.replicate 2 (.step 1 {})

theorem overtaking_login_under_lockout :
    ∃ s, (loginLts strictConfig neverVerifies).Reachable NewService s ∧
      s.world.lockedUntil "192.0.2.1" = some 110 ∧ s.world.clock = 100 ∧
      s.world.begun = [⟨"192.0.2.1", some 110, 100⟩, ⟨"192.0.2.1", none, 100⟩] ∧
      ¬ LockoutHolds strictConfig s.world := by
  have hrun : (loginLts strictConfig neverVerifies).MTr quietService overtakingLogins
      (overtakingLogins.foldl (loginNext strictConfig neverVerifies) quietService) :=
    Lts.mTr_ofNext (by decide +kernel)
  have hbegun : (overtakingLogins.foldl (loginNext strictConfig neverVerifies)
      quietService).world.begun =
      [⟨"192.0.2.1", some 110, 100⟩, ⟨"192.0.2.1", none, 100⟩] := by decide +kernel
  refine ⟨_, ⟨quietService, quietService_new, _, hrun⟩, by decide +kernel, by decide +kernel,
    hbegun, fun h => ?_⟩
  have hall := h.begun
  rw [hbegun] at hall
  exact absurd (hall _ List.mem_cons_self 110 rfl) (by decide)

theorem patient_logins_keep_lockout :
    ∃ s : LoginPool, s.world.lockedUntil "192.0.2.1" = some 110 ∧
      s.world.begun = [⟨"192.0.2.1", none, 100⟩] ∧ LockoutHolds strictConfig s.world := by
  have hrun : (carefulLoginLts strictConfig neverVerifies).MTr quietService patientLogins
      (patientLogins.foldl (loginNext strictConfig neverVerifies) quietService) :=
    Lts.mTr_ofNext (by decide +kernel)
  refine ⟨_, ?_, ?_, careful_logins_keep_lockout ⟨quietService, quietService_new, _, hrun⟩⟩
  · decide +kernel
  · decide +kernel

end Stacklab.Auth.Lockout
