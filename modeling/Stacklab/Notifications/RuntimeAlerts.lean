import Stacklab.Lib.GoText
import Stacklab.Lib.GoTime
import Stacklab.Lib.Lts

/-! The alerts of the notification service, and the polls of the runtime health. -/
namespace Stacklab.Notifications

open Lib

structure EventToggles where
  stacklabServiceError : Bool := false
  runtimeHealthDegraded : Bool := false
  runtimeLogErrorBurst : Bool := false

structure WebhookSettings where
  enabled : Bool := false
  url : String := ""

structure TelegramSettings where
  enabled : Bool := false
  botToken : String := ""
  chatID : String := ""

structure Settings where
  events : EventToggles := {}
  webhook : WebhookSettings := {}
  telegram : TelegramSettings := {}

def WebhookSettings.usable (s : WebhookSettings) : Bool := s.enabled && s.url ≠ ""

def TelegramSettings.usable (s : TelegramSettings) : Bool :=
  s.enabled && s.botToken ≠ "" && s.chatID ≠ ""

def hasConfiguredNotificationChannel (settings : Settings) : Bool :=
  settings.webhook.usable || settings.telegram.usable

/-- How the store and the channels answer during one poll. -/
structure Replies where
  loadErr : Option String := none
  settings : Except String Settings := .ok {}
  webhookErr : Option String := none
  telegramErr : Option String := none
  saveErr : Option String := none

/-- Every channel in use is tried; the errors are joined. -/
def dispatchPayload (settings : Settings) (r : Replies) : Option String :=
  let errs := (if settings.webhook.usable then r.webhookErr.toList else []) ++
    (if settings.telegram.usable then r.telegramErr.toList else [])
  if errs = [] then none else some ("\n".intercalate errs)

/-- Some channel has taken the payload. -/
def delivered (settings : Settings) (r : Replies) : Bool :=
  settings.webhook.usable && r.webhookErr.isNone ||
    settings.telegram.usable && r.telegramErr.isNone

/-- The time of the last notification is `none` while it is the zero time. -/
def coolingDown (alertCooldown : ℤ) (lastNotifiedAt : Option Instant) (now : Instant) : Bool :=
  lastNotifiedAt.any fun last => now - last < alertCooldown

/-- What becomes of an alert; one that is refused may still have been taken by a channel. -/
inductive Alert where
  | unreadable (err : String)
  | suppressed
  | refused (taken : Bool) (err : String)
  | dispatched
  deriving DecidableEq

/-- The end of each poll that has found something to tell. -/
def alert (alertCooldown : ℤ) (enabled : EventToggles → Bool) (known : Bool)
    (lastNotifiedAt : Option Instant) (now : Instant) (r : Replies) : Alert :=
  match r.settings with
  | .error err => .unreadable err
  | .ok settings =>
    if !enabled settings.events || !hasConfiguredNotificationChannel settings ||
        (known && coolingDown alertCooldown lastNotifiedAt now) then .suppressed
    else match dispatchPayload settings r with
      | some err => .refused (delivered settings r) err
      | none => .dispatched

theorem not_coolingDown_of_dispatched {enabled : EventToggles → Bool} {known : Bool}
    {last : Option Instant} {now : Instant} {r : Replies}
    (h : alert alertCooldown enabled known last now r = .dispatched) (hknown : known = true) :
    coolingDown alertCooldown last now = false := by
  unfold alert at h
  split at h
  · cases h
  · split at h
    · cases h
    next hopen =>
      simp only [Bool.or_eq_true, Bool.and_eq_true, not_or, not_and, Bool.not_eq_true] at hopen
      exact hopen.2 hknown

structure Container where
  id : String
  name : String
  status : String

structure StackDetail where
  id : String
  runtimeState : String
  displayState : String
  unhealthyContainerCount : ℕ
  containers : List Container

/-- The answers of `List`, and of `Get` for each of its items. -/
abbrev Inspection : Type := Except String (List (Except String StackDetail))

/-! Health. -/

structure RuntimeHealthFailure where
  stackID : String
  runtimeState : String
  displayState : String
  unhealthyContainerCount : ℕ
  restartingContainerCount : ℕ
  runningContainerCount : ℕ
  totalContainerCount : ℕ
  reasons : List String

def healthFailure (detail : StackDetail) : Option RuntimeHealthFailure :=
  let restartingCount := detail.containers.countP fun c => c.status = "restarting"
  let runningCount := detail.containers.countP fun c => c.status = "running"
  let reasons := (if detail.unhealthyContainerCount > 0 then ["unhealthy_containers"] else []) ++
    (if restartingCount > 0 then ["restart_loop"] else [])
  if reasons = [] then none
  else some ⟨detail.id, detail.runtimeState, detail.displayState, detail.unhealthyContainerCount,
    restartingCount, runningCount, detail.containers.length, reasons⟩

/-- A stack that cannot be read is skipped. -/
def inspectRuntimeHealth (list : Inspection) : Except String (List RuntimeHealthFailure) :=
  list.map fun details => ((details.filterMap Except.toOption).filterMap healthFailure).mergeSort
    fun a b => decide (a.stackID ≤ b.stackID)

def sortStrings (texts : List String) : List String := texts.mergeSort fun a b => decide (a ≤ b)

def runtimeHealthFingerprint (failures : List RuntimeHealthFailure) : String :=
  ";".intercalate (sortStrings (failures.map fun failure =>
    failure.stackID ++ "|" ++ ",".intercalate (sortStrings failure.reasons) ++ "|" ++
      toString failure.unhealthyContainerCount ++ "|" ++
      toString failure.restartingContainerCount))

structure HealthState where
  fingerprint : String := ""
  lastNotifiedAt : Option Instant := none
  deriving DecidableEq

structure HealthNotification where
  sentAt : Instant
  affectedStacks : List RuntimeHealthFailure

def HealthNotification.fingerprint (n : HealthNotification) : String :=
  runtimeHealthFingerprint n.affectedStacks

/-- `sent` only observes: what some channel has taken, the newest first. -/
structure HealthWorld where
  clock : Instant
  state : HealthState
  sent : List HealthNotification

structure HealthPoll where
  inspected : Inspection
  now : Instant
  replies : Replies := {}

def HealthWorld.saveRuntimeHealthState (w : HealthWorld) (r : Replies) (state : HealthState) :
    Option String × HealthWorld :=
  match r.saveErr with
  | some err => (some err, w)
  | none => (none, { w with state })

/-- What the poll does about degraded health that it knew of. -/
def HealthPoll.alert (alertCooldown : ℤ) (p : HealthPoll) (state : HealthState)
    (fingerprint : String) : Alert :=
  Notifications.alert alertCooldown (·.runtimeHealthDegraded)
    (decide (state.fingerprint = fingerprint)) state.lastNotifiedAt p.now p.replies

def pollRuntimeHealthAlerts (alertCooldown : ℤ) (p : HealthPoll) (w : HealthWorld) :
    Option String × HealthWorld :=
  match inspectRuntimeHealth p.inspected, p.replies.loadErr with
  | .error err, _ => (some err, w)
  | .ok _, some err => (some err, w)
  | .ok current, none =>
    let fingerprint := runtimeHealthFingerprint current
    let notified := { w with sent := ⟨p.now, current⟩ :: w.sent }
    if fingerprint = "" then
      if w.state = {} then (none, w) else w.saveRuntimeHealthState p.replies {}
    else if w.state = {} then w.saveRuntimeHealthState p.replies { fingerprint }
    else match p.alert alertCooldown w.state fingerprint with
      | .unreadable err => (some err, w)
      | .suppressed =>
        w.saveRuntimeHealthState p.replies ⟨fingerprint, w.state.lastNotifiedAt⟩
      | .refused taken err => (some err, if taken then notified else w)
      | .dispatched => notified.saveRuntimeHealthState p.replies ⟨fingerprint, some p.now⟩

section Health

variable (alertCooldown : ℤ)

def healthEnabled (w : HealthWorld) (p : HealthPoll) : Bool := w.clock ≤ p.now

def healthNext (w : HealthWorld) (p : HealthPoll) : HealthWorld :=
  { (pollRuntimeHealthAlerts alertCooldown p w).2 with clock := p.now }

def healthLts : Lts HealthWorld HealthPoll := Lts.ofNext healthEnabled (healthNext alertCooldown)

/-- Two notifications with one fingerprint are at least the cooldown apart. -/
def CooldownKept (sent : List HealthNotification) : Prop :=
  sent.Pairwise fun later earlier =>
    later.fingerprint = earlier.fingerprint → earlier.sentAt + alertCooldown ≤ later.sentAt

/-- While the last notification cools down, the poll finds the health that it told; no channel
takes what another refuses; and what is sent is remembered. -/
def HealthPoll.careful (w : HealthWorld) (p : HealthPoll) : Bool :=
  match inspectRuntimeHealth p.inspected with
  | .error _ => true
  | .ok current =>
    let fingerprint := runtimeHealthFingerprint current
    (!coolingDown alertCooldown w.state.lastNotifiedAt p.now ||
      fingerprint = w.state.fingerprint) &&
    match p.alert alertCooldown w.state fingerprint with
    | .refused taken _ => !taken
    | .dispatched => p.replies.saveErr.isNone
    | _ => true

def carefulHealthLts : Lts HealthWorld HealthPoll :=
  Lts.ofNext (fun w p => healthEnabled w p && p.careful alertCooldown w)
    (healthNext alertCooldown)

/-- Nothing is notified yet; the stored state may be any. -/
def NothingSent (w : HealthWorld) : Prop := w.sent = []

structure HealthInv (w : HealthWorld) : Prop where
  named : ∀ n ∈ w.sent, n.fingerprint ≠ ""
  recent : ∀ n ∈ w.sent, n.sentAt + alertCooldown ≤ w.clock ∨
    w.state = ⟨n.fingerprint, some n.sentAt⟩
  apart : CooldownKept alertCooldown w.sent

variable {alertCooldown} {w w' : HealthWorld} {p : HealthPoll} {state : HealthState}

/-- What a poll can do to the state and to the notifications. -/
inductive HealthStep (alertCooldown : ℤ) (p : HealthPoll) (w : HealthWorld) : HealthWorld → Prop
  | same : HealthStep alertCooldown p w w
  | recovered (hok : inspectRuntimeHealth p.inspected = .ok current)
      (hempty : runtimeHealthFingerprint current = "") :
      HealthStep alertCooldown p w { w with state := {} }
  | renamed (hok : inspectRuntimeHealth p.inspected = .ok current) :
      HealthStep alertCooldown p w
        { w with state := ⟨runtimeHealthFingerprint current, w.state.lastNotifiedAt⟩ }
  | sent (hok : inspectRuntimeHealth p.inspected = .ok current)
      (hname : runtimeHealthFingerprint current ≠ "")
      (hfree : w.state.fingerprint = runtimeHealthFingerprint current →
        coolingDown alertCooldown w.state.lastNotifiedAt p.now = false) :
      HealthStep alertCooldown p w
        ⟨w.clock, ⟨runtimeHealthFingerprint current, some p.now⟩, ⟨p.now, current⟩ :: w.sent⟩

theorem healthStep_save (h : HealthStep alertCooldown p w { w with state }) :
    HealthStep alertCooldown p w (w.saveRuntimeHealthState p.replies state).2 := by
  unfold HealthWorld.saveRuntimeHealthState
  split
  · exact .same
  · exact h

theorem healthStep_poll (hcareful : p.careful alertCooldown w = true) :
    HealthStep alertCooldown p w (pollRuntimeHealthAlerts alertCooldown p w).2 := by
  unfold pollRuntimeHealthAlerts
  split
  · exact .same
  · exact .same
  next current hok _ =>
    rw [HealthPoll.careful, hok] at hcareful
    have htold := (Bool.and_eq_true_iff.mp hcareful).2
    dsimp only
    split
    next hempty =>
      split
      · exact .same
      · exact healthStep_save (.recovered hok hempty)
    next hname =>
      split
      next hnew =>
        have hlast : w.state.lastNotifiedAt = none := by rw [hnew]
        exact healthStep_save (hlast ▸ HealthStep.renamed hok)
      next =>
        split
        · exact .same
        · exact healthStep_save (.renamed hok)
        next taken err halert =>
          rw [halert] at htold
          rw [show taken = false by simpa using htold]
          exact .same
        next halert =>
          rw [halert] at htold
          have hsaved : p.replies.saveErr = none := by simpa using htold
          simp only [HealthWorld.saveRuntimeHealthState, hsaved]
          refine .sent hok hname fun hsame => ?_
          exact not_coolingDown_of_dispatched halert (decide_eq_true hsame)

theorem healthInv_step (h : HealthInv alertCooldown w) (hclock : w.clock ≤ p.now)
    (hcareful : p.careful alertCooldown w = true)
    (hstep : HealthStep alertCooldown p w w') :
    HealthInv alertCooldown { w' with clock := p.now } := by
  -- what still cools down is in the state, and the poll finds its fingerprint
  have hrecent : ∀ n ∈ w.sent, n.sentAt + alertCooldown ≤ p.now ∨
      w.state = ⟨n.fingerprint, some n.sentAt⟩ ∧
        coolingDown alertCooldown w.state.lastNotifiedAt p.now = true ∧
        ∀ current, inspectRuntimeHealth p.inspected = .ok current →
          runtimeHealthFingerprint current = n.fingerprint := by
    intro n hn
    rcases h.recent n hn with hold | hstate
    · exact .inl (le_trans hold hclock)
    · by_cases hover : n.sentAt + alertCooldown ≤ p.now
      · exact .inl hover
      · have hcool : coolingDown alertCooldown w.state.lastNotifiedAt p.now = true := by
          rw [hstate]
          exact decide_eq_true (Int.sub_left_lt_of_lt_add (Int.not_le.mp hover))
        refine .inr ⟨hstate, hcool, fun current hok => ?_⟩
        rw [HealthPoll.careful, hok] at hcareful
        have hsame : runtimeHealthFingerprint current = w.state.fingerprint := by
          simpa [hcool] using (Bool.and_eq_true_iff.mp hcareful).1
        rw [hsame, hstate]
  cases hstep with
  | same => exact ⟨h.named, fun n hn => (hrecent n hn).imp_right And.left, h.apart⟩
  | recovered hok hempty =>
    refine ⟨h.named, fun n hn => (hrecent n hn).imp_right fun hn' => ?_, h.apart⟩
    exact absurd ((hn'.2.2 _ hok).symm.trans hempty) (h.named n hn)
  | renamed hok =>
    refine ⟨h.named, fun n hn => (hrecent n hn).imp_right fun hn' => ?_, h.apart⟩
    change (⟨_, _⟩ : HealthState) = _
    rw [hn'.2.2 _ hok, hn'.1]
  | sent hok hname hfree =>
    have hover : ∀ n ∈ w.sent, n.sentAt + alertCooldown ≤ p.now := by
      intro n hn
      refine (hrecent n hn).elim id fun hn' => ?_
      have hopen := hfree (by rw [hn'.1, hn'.2.2 _ hok])
      rw [hn'.2.1] at hopen
      cases hopen
    refine ⟨List.forall_mem_cons.mpr ⟨hname, h.named⟩, List.forall_mem_cons.mpr ⟨.inr rfl,
      fun n hn => .inl (hover n hn)⟩, List.pairwise_cons.mpr ⟨fun n hn _ => hover n hn, h.apart⟩⟩

/-- In every run whose polls find no other health while a notification cools down, and remember
what they sent, notifications with one fingerprint are at least the cooldown apart. -/
theorem careful_polls_keep_cooldown
    (h : (carefulHealthLts alertCooldown).Reachable NothingSent w) :
    CooldownKept alertCooldown w.sent := by
  have hinv : HealthInv alertCooldown w := by
    refine Lts.reachable_of_trInv (fun w₀ hw₀ => ?_) ?_ h
    · refine ⟨?_, ?_, ?_⟩ <;> rw [show w₀.sent = [] from hw₀]
      · exact fun n hn => absurd hn List.not_mem_nil
      · exact fun n hn => absurd hn List.not_mem_nil
      · exact List.Pairwise.nil
    · rintro w p _ ⟨henabled, rfl⟩ hw
      obtain ⟨hclock, hcareful⟩ := Bool.and_eq_true_iff.mp henabled
      exact healthInv_step hw (of_decide_eq_true hclock) hcareful (healthStep_poll hcareful)
  exact hinv.apart

end Health

def quarterHour : ℤ := 15 * minute

def operatorSettings : Settings where
  events := ⟨true, true, true⟩
  webhook := ⟨true, "hook"⟩

/-- One stack at a time, with a number of unhealthy containers. -/
def webPoll (unhealthy : ℕ) (now : Instant) : HealthPoll where
  inspected := .ok [.ok ⟨"web", "running", "running", unhealthy, []⟩]
  now := now
  replies := { settings := .ok operatorSettings }

def unwatched : HealthWorld := ⟨0, {}, []⟩

/-- Degraded twice, recovered, and degraded twice again, every half minute. -/
def flapping : List HealthPoll :=
  [webPoll 1 (30 * second), webPoll 1 (60 * second), webPoll 0 (90 * second),
    webPoll 1 (120 * second), webPoll 1 (150 * second)]

theorem flapping_repeats_alert :
    ∃ w, (healthLts quarterHour).Reachable NothingSent w ∧
      w.sent.map (fun n => (n.fingerprint, n.sentAt)) =
        [("web|unhealthy_containers|1|0", 150 * second),
          ("web|unhealthy_containers|1|0", 60 * second)] ∧
      ¬ CooldownKept quarterHour w.sent := by
  have hsent : (flapping.foldl (healthNext quarterHour) unwatched).sent.map
      (fun n => (n.fingerprint, n.sentAt)) =
        [("web|unhealthy_containers|1|0", 150 * second),
          ("web|unhealthy_containers|1|0", 60 * second)] := by decide +kernel
  refine ⟨_, ⟨unwatched, rfl, flapping, Lts.mTr_ofNext (by decide +kernel)⟩, hsent, fun h => ?_⟩
  have hpairs := (List.pairwise_map (f := fun n : HealthNotification => (n.fingerprint, n.sentAt))
    (R := fun a b => a.1 = b.1 → b.2 + quarterHour ≤ a.2)).mpr h
  rw [hsent] at hpairs
  exact absurd ((List.pairwise_cons.mp hpairs).1 _ List.mem_cons_self rfl) (by decide)

/-- The same health for sixteen minutes. -/
def lasting : List HealthPoll :=
  [webPoll 1 (30 * second), webPoll 1 (60 * second), webPoll 1 (90 * second),
    webPoll 1 (960 * second)]

theorem lasting_health_keeps_cooldown :
    (lasting.foldl (healthNext quarterHour) unwatched).sent.map HealthNotification.sentAt =
        [960 * second, 60 * second] ∧
      CooldownKept quarterHour (lasting.foldl (healthNext quarterHour) unwatched).sent :=
  ⟨by decide +kernel, careful_polls_keep_cooldown
    ⟨unwatched, rfl, lasting, Lts.mTr_ofNext (by decide +kernel)⟩⟩

end Stacklab.Notifications
