import Stacklab.Lib.GoTime
import Stacklab.Lib.Lts

/-! The cached public address: reads, background refreshes, and forgetting it. -/
namespace Stacklab.HostInfo

open Lib

def publicIPCacheTTL : ℤ := 10 * minute

def publicIPFailureRetryInterval : ℤ := minute

/-- What `publicIPMu` guards; the zero time is `none`. -/
structure PublicIPCache where
  publicIP : String := ""
  checkedAt : Option Instant := none
  refreshInFlight : Bool := false

/-- The address that the read returns, whether it starts a refresh, and the cache. -/
def cachedPublicIP (lookupEnabled : Bool) (now : Instant) (allowRefresh : Bool)
    (c : PublicIPCache) : String × Bool × PublicIPCache :=
  let within (span : ℤ) : Bool := c.checkedAt.any fun checkedAt => now - checkedAt < span
  if !lookupEnabled then ("", false, c)
  else if c.publicIP ≠ "" && (!allowRefresh || within publicIPCacheTTL) then (c.publicIP, false, c)
  else if !allowRefresh then ("", false, c)
  else if c.publicIP = "" && within publicIPFailureRetryInterval then ("", false, c)
  else (c.publicIP, !c.refreshInFlight, { c with refreshInFlight := true })

/-- A refresh in flight is `none` until its lookup starts, and then has the number of clears
before that; `lookedUp` is that number for the stored address. A read returns an address, and
whether no clear came after the start of its lookup. -/
structure CacheWorld where
  cache : PublicIPCache := {}
  inFlight : List (Option ℕ) := []
  clears : ℕ := 0
  lookedUp : ℕ := 0
  returned : List (String × Bool) := []

inductive CacheStep
  | read (lookupEnabled : Bool) (now : Instant) (allowRefresh : Bool)
  | lookup (i : ℕ)
  | store (i : ℕ) (answer : Option String) (now : Instant)
  | clearPublicIP

/-- The end of `refreshPublicIP` stores the answer of the lookup if it is a valid address. -/
def CacheWorld.next (w : CacheWorld) : CacheStep → Option CacheWorld
  | .read lookupEnabled now allowRefresh =>
    match cachedPublicIP lookupEnabled now allowRefresh w.cache with
    | (address, starts, cache) => some { w with
        cache
        inFlight := w.inFlight ++ if starts then [none] else []
        returned := (address, w.lookedUp = w.clears) :: w.returned }
  | .lookup i =>
    match w.inFlight[i]? with
    | some none => some { w with inFlight := w.inFlight.set i (some w.clears) }
    | _ => none
  | .store i answer now =>
    match w.inFlight[i]? with
    | some (some lookedUp) => some { w with
        cache := ⟨answer.getD w.cache.publicIP, some now, false⟩
        inFlight := w.inFlight.eraseIdx i
        lookedUp := if answer.isSome then lookedUp else w.lookedUp }
    | _ => none
  | .clearPublicIP => some { w with cache := {}, clears := w.clears + 1 }

def cacheLts : Lts CacheWorld CacheStep where
  Tr w step w' := w.next step = some w'

/-- The address is cleared while no refresh is in flight. -/
def CacheStep.careful (w : CacheWorld) : CacheStep → Bool
  | .clearPublicIP => w.inFlight.isEmpty
  | _ => true

def carefulCacheLts : Lts CacheWorld CacheStep where
  Tr w step w' := step.careful w = true ∧ w.next step = some w'

/-- No address outlives a clear, and at most one refresh is in flight. -/
structure Forgets (w : CacheWorld) : Prop where
  stored : w.cache.publicIP = "" ∨ w.lookedUp = w.clears
  returned : ∀ r ∈ w.returned, r.1 = "" ∨ r.2 = true
  single : w.inFlight.length ≤ 1

structure CacheInv (w : CacheWorld) : Prop extends Forgets w where
  flagged : w.inFlight.length ≤ w.cache.refreshInFlight.toNat
  current : ∀ lookedUp, some lookedUp ∈ w.inFlight → lookedUp = w.clears

variable {w w' : CacheWorld} {step : CacheStep}

/-- A read returns nothing or what is stored, and starts a refresh only if none is flagged. -/
theorem cachedPublicIP_cases {lookupEnabled allowRefresh starts : Bool} {now : Instant}
    {c cache : PublicIPCache} {address : String}
    (h : cachedPublicIP lookupEnabled now allowRefresh c = (address, starts, cache)) :
    (address = "" ∨ address = c.publicIP) ∧ (starts = false ∧ cache = c ∨
      starts = !c.refreshInFlight ∧ cache = { c with refreshInFlight := true }) := by
  unfold cachedPublicIP at h
  dsimp only at h
  repeat' split at h
  all_goals
    cases h
    simp

theorem cacheInv_next (h : CacheInv w) (hcareful : step.careful w = true)
    (hstep : w.next step = some w') : CacheInv w' := by
  cases step with
  | read lookupEnabled now allowRefresh =>
    rcases hread : cachedPublicIP lookupEnabled now allowRefresh w.cache with
      ⟨address, starts, cache⟩
    obtain ⟨haddress, hcache⟩ := cachedPublicIP_cases hread
    simp only [CacheWorld.next, hread] at hstep
    cases hstep
    have hreturned : ∀ r ∈ (address, decide (w.lookedUp = w.clears)) :: w.returned,
        r.1 = "" ∨ r.2 = true := by
      refine List.forall_mem_cons.mpr ⟨?_, h.returned⟩
      rcases haddress with hnone | rfl
      · exact .inl hnone
      · exact h.stored.imp_right decide_eq_true
    rcases hcache with ⟨rfl, rfl⟩ | ⟨rfl, rfl⟩
    · simpa using { h with returned := hreturned }
    · cases hflag : w.cache.refreshInFlight with
      | true => simpa using { h with returned := hreturned, flagged := h.single }
      | false =>
        have hnil : w.inFlight = [] := by simpa [hflag] using h.flagged
        exact ⟨⟨h.stored, hreturned, by simp [hnil]⟩, by simp [hnil], by simp [hnil]⟩
  | lookup i =>
    simp only [CacheWorld.next] at hstep
    split at hstep
    · cases hstep
      refine ⟨⟨h.stored, h.returned, by simpa using h.single⟩, by simpa using h.flagged, ?_⟩
      intro lookedUp hmem
      rcases List.mem_or_eq_of_mem_set hmem with hold | hnew
      · exact h.current lookedUp hold
      · exact Option.some.inj hnew
    · cases hstep
  | store i answer now =>
    simp only [CacheWorld.next] at hstep
    split at hstep
    next lookedUp hi =>
      cases hstep
      have hcurrent := h.current lookedUp (List.mem_of_getElem? hi)
      have hlength : (w.inFlight.eraseIdx i).length ≤ 0 := by
        have hone := h.single
        rw [List.length_eraseIdx_of_lt (List.getElem?_eq_some_iff.mp hi).1]
        omega
      refine ⟨⟨?_, h.returned, Nat.le_succ_of_le hlength⟩, hlength,
        fun later hmem => h.current later (List.mem_of_mem_eraseIdx hmem)⟩
      cases answer with
      | none => exact h.stored
      | some address => exact .inr hcurrent
    · cases hstep
  | clearPublicIP =>
    cases hstep
    have hnil : w.inFlight = [] := List.isEmpty_iff.mp hcareful
    exact ⟨⟨.inl rfl, h.returned, h.single⟩, by simp [hnil], by simp [hnil]⟩

/-- In every run that clears the address only while no refresh is in flight, nothing outlives a
clear and refreshes do not overlap. -/
theorem careful_clears_forget (h : carefulCacheLts.Reachable (· = {}) w) : Forgets w := by
  have hinv : CacheInv w := by
    refine Lts.reachable_of_trInv ?_ ?_ h
    · rintro _ rfl
      exact ⟨⟨.inl rfl, by simp, by simp⟩, by simp, by simp⟩
    · rintro w step w' ⟨hcareful, hstep⟩ hw
      exact cacheInv_next hw hcareful hstep
  exact hinv.toForgets

def readNow : CacheStep := .read true 0 true

/-- The lookup in flight brings its address back, and a second refresh joins it. -/
theorem cleared_address_returns :
    (∃ w, cacheLts.Reachable (· = {}) w ∧ w.returned = [("192.0.2.1", false), ("", true)] ∧
      ¬ Forgets w) ∧
    ∃ w, cacheLts.Reachable (· = {}) w ∧ w.inFlight = [some 0, none] ∧ ¬ Forgets w := by
  refine ⟨⟨_, ⟨{}, rfl, [readNow, .lookup 0, .clearPublicIP, .store 0 (some "192.0.2.1") 1,
    readNow], Lts.mTr_of_foldlM (fun _ _ _ h => h) rfl⟩, rfl, fun h => ?_⟩,
    _, ⟨{}, rfl, [readNow, .lookup 0, .clearPublicIP, readNow],
    Lts.mTr_of_foldlM (fun _ _ _ h => h) rfl⟩, rfl, fun h => ?_⟩
  · exact absurd h.stored (by decide)
  · exact absurd h.single (by decide)

theorem idle_clear_forgets :
    ∃ w, carefulCacheLts.Reachable (· = {}) w ∧ w.clears = 1 ∧ Forgets w := by
  have hrun : carefulCacheLts.Reachable (· = {}) _ :=
    ⟨{}, rfl, [readNow, .lookup 0, .store 0 (some "192.0.2.1") 1, .clearPublicIP],
      .stepL ⟨rfl, rfl⟩ (.stepL ⟨rfl, rfl⟩ (.stepL ⟨rfl, rfl⟩ (.stepL ⟨rfl, rfl⟩ .refl)))⟩
  exact ⟨_, hrun, rfl, careful_clears_forget hrun⟩

end Stacklab.HostInfo
