import Stacklab.Lib.Fallible
import Stacklab.Scheduler.Passes

/-! Saving settings starts nothing that is past, and no occurrence is started twice, as long as
passes and saves of settings do not overlap. -/
namespace Stacklab.Scheduler

open Lib ScheduleWorld Location

variable {env : Env} {w w' : ScheduleWorld} {now : Instant} {looked : ScheduleKey → Instant}

section Data

variable {key : ScheduleKey} {location : Location}

namespace ScheduleWorld

/-- The schedule that a pass reads from the database. -/
def config (w : ScheduleWorld) (key : ScheduleKey) : ScheduleConfig :=
  (loadSettings w.settings).config key

/-- The occurrence that the runtime row holds. -/
def mark (w : ScheduleWorld) (key : ScheduleKey) : Option Instant :=
  ((loadRuntimeState w.runtime).get key).lastScheduledFor

end ScheduleWorld

theorem loadRuntimeState_some (state : RuntimeState) : loadRuntimeState (some state) = state := rfl

theorem RuntimeState.get_mutate (state : RuntimeState)
    (f : ScheduleRuntimeState → ScheduleRuntimeState) (key other : ScheduleKey) :
    (state.mutate f key).get other = if other = key then f (state.get other) else state.get other := by
  cases key <;> cases other <;> rfl

/-- A valid schedule is read back with the same occurrences. -/
theorem mostRecent_reread {default config : ScheduleConfig}
    (hv : validateBaseSchedule config = .ok ()) (location : Location) (now : Instant) :
    (default.reread config).mostRecent location now = config.mostRecent location now := by
  unfold ScheduleConfig.reread
  by_cases hempty : config.weekdays = []
  · -- a schedule without weekdays is daily, and daily schedules do not look at them
    have hdaily : config.frequency = .daily := by
      unfold validateBaseSchedule at hv
      cases htime : parseTimeOfDay config.time with
      | error err => simp [htime, bind, Except.bind] at hv
      | ok time =>
        cases hf : config.frequency with
        | daily => rfl
        | weekly => simp [htime, hf, hempty, bind, Except.bind, throw, throwThe, MonadExceptOf.throw] at hv
        | other name => simp [htime, hf, bind, Except.bind, throw, throwThe, MonadExceptOf.throw] at hv
    unfold ScheduleConfig.mostRecent mostRecentScheduledAt
    simp only [hdaily]
  · simp [hempty]

/-- Settings whose two schedules were found valid. -/
def Settings.Valid (settings : Settings) : Prop :=
  ∀ key, validateBaseSchedule (settings.config key) = .ok ()

theorem valid_of_validateSettings {settings : Settings}
    (h : validateSettings env settings = .ok ()) : settings.Valid := by
  obtain ⟨hupdate, h⟩ := ok_of_bind h
  obtain ⟨-, hprune⟩ := ok_of_bind h
  obtain ⟨hbase, -⟩ := ok_of_bind hupdate
  obtain ⟨hbase', -⟩ := ok_of_bind hprune
  intro key
  cases key with
  | update => exact hbase
  | prune => exact hbase'

/-- No look finds a time that is still to come, and a time that is offered at a later look and had
passed at an earlier one was already the most recent then. -/
structure Steady (location : Location) (config : ScheduleConfig) : Prop where
  past : ∀ now o, config.mostRecent location now = some o → o ≤ now
  kept : ∀ now later o, now ≤ later → config.mostRecent location later = some o →
    later - o ≤ catchUpWindow → o ≤ now → config.mostRecent location now = some o

theorem Steady.congr {config config' : ScheduleConfig} (h : Steady location config)
    (heq : ∀ now, config'.mostRecent location now = config.mostRecent location now) :
    Steady location config' where
  past now o hmost := h.past now o (heq now ▸ hmost)
  kept now later o hnow hmost hwindow hle := by
    rw [heq] at hmost ⊢
    exact h.kept now later o hnow hmost hwindow hle

theorem config_loadSettings (settings : Settings) (key : ScheduleKey) :
    (loadSettings (some settings)).config key =
      (defaultSettings.config key).reread (settings.config key) := by
  cases key <;> rfl

theorem dueSchedule_eq_some {config : ScheduleConfig} {last : Option Instant} {dueAt : Instant}
    (h : dueSchedule config last location now = some dueAt) :
    config.enabled = true ∧ config.mostRecent location now = some dueAt ∧ last ≠ some dueAt ∧
      now - dueAt ≤ catchUpWindow := by
  unfold dueSchedule at h
  split at h
  · cases h
  next henabled =>
    split at h
    · cases h
    next recent hrecent =>
      split at h
      · cases h
      next hlast =>
        split at h
        · cases h
        next hwindow =>
          cases h
          exact ⟨by simpa using henabled, hrecent, hlast, Int.not_lt.mp hwindow⟩

/-- The seed of an enabled schedule is its most recent occurrence. -/
theorem seeded_mark {config : ScheduleConfig} (location : Location) (now : Instant)
    (h : config.enabled = true) :
    (seededScheduleRuntimeState config location now).lastScheduledFor =
      config.mostRecent location now := by
  unfold seededScheduleRuntimeState
  rw [h]
  cases config.mostRecent location now <;> rfl

theorem get_seeded (settings : Settings) (location : Location) (now : Instant)
    (key : ScheduleKey) :
    (⟨seededScheduleRuntimeState settings.update.toScheduleConfig location now,
      seededScheduleRuntimeState settings.prune.toScheduleConfig location now⟩ :
      RuntimeState).get key = seededScheduleRuntimeState (settings.config key) location now := by
  cases key <;> simp only [RuntimeState.get, Settings.config]

end Data

section Invariant

/-- What a call of `UpdateSettings` leaves behind between its two writes. -/
def ScheduleWorld.PendingSound (w : ScheduleWorld) (looked : ScheduleKey → Instant) : Edit → Prop
  | .saved settings version =>
    w.settings = some settings ∧ settings.Valid ∧ version = w.version ∧
      ∀ e ∈ w.log, e.version < w.version
  | .stamped settings version stamp =>
    w.settings = some settings ∧ settings.Valid ∧ version = w.version ∧
      (∀ key, looked key ≤ stamp) ∧ stamp ≤ w.clock ∧ w.stamps version = some stamp
  | _ => True

/-- The marks are what the last looks found. -/
structure ScheduleWorld.Settled (env : Env) (w : ScheduleWorld)
    (looked : ScheduleKey → Instant) : Prop where
  marks : ∀ key, (w.config key).enabled = true →
    w.mark key = (w.config key).mostRecent env.location (looked key)
  stamp : ∀ stamp, w.stamps w.version = some stamp → ∀ key, stamp ≤ looked key

/-- What a pass has read for the schedules that it has still to look at. -/
structure ScheduleWorld.PassRead (w : ScheduleWorld) (looked : ScheduleKey → Instant)
    (version : ℕ) (settings : Settings) (runtime : RuntimeState) (now : Instant)
    (todo : List ScheduleKey) : Prop where
  version : version = w.version
  settings : settings = loadSettings w.settings
  distinct : todo.Nodup
  marks : ∀ key ∈ todo, (runtime.get key).lastScheduledFor = w.mark key
  looked : ∀ key ∈ todo, looked key ≤ now
  reached : now ≤ w.clock

def ScheduleWorld.PassSound (env : Env) (w : ScheduleWorld) (looked : ScheduleKey → Instant) :
    Pass → Prop
  | .idle => True
  | .loaded version settings => version = w.version ∧ settings = loadSettings w.settings
  | .ready version settings runtime =>
    version = w.version ∧ settings = loadSettings w.settings ∧
      ∀ key, (runtime.get key).lastScheduledFor = w.mark key
  | .evaluating version settings runtime now todo =>
    w.PassRead looked version settings runtime now todo
  | .claimed version settings runtime now key dueAt rest =>
    w.PassRead looked version settings runtime now (key :: rest) ∧
      dueSchedule (w.config key) (w.mark key) env.location now = some dueAt

structure ScheduleWorld.Sound (env : Env) (w : ScheduleWorld)
    (looked : ScheduleKey → Instant) : Prop where
  reached : ∀ key, looked key ≤ w.clock
  logged : ∀ e ∈ w.log, e.occurrence ≤ looked e.key
  once : (w.log.map fun e => (e.key, e.occurrence)).Nodup
  fresh : ∀ e ∈ w.log, ∀ stamp, w.stamps e.version = some stamp → stamp < e.occurrence
  versions : ∀ e ∈ w.log, e.version ≤ w.version
  steady : ∀ key, (w.config key).enabled = true → Steady env.location (w.config key)
  valid : ∀ settings, .validated settings ∈ w.edits → settings.Valid
  pending : ∀ (i : ℕ) (edit : Edit), w.edits[i]? = some edit → edit.isPending = true →
    w.PendingSound looked edit ∧ w.pass.isIdle = true ∧
      ∀ (j : ℕ) (other : Edit), w.edits[j]? = some other → other.isPending = true → j = i
  settled : (∀ edit ∈ w.edits, edit.isPending = false) → w.Settled env looked
  pass : w.PassSound env looked w.pass

theorem ScheduleWorld.Sound.no_pending (h : w.Sound env looked) (hp : w.pass.isIdle = false) :
    ∀ edit ∈ w.edits, edit.isPending = false := by
  intro edit hmem
  obtain ⟨i, hi⟩ := List.mem_iff_getElem?.mp hmem
  cases hpending : edit.isPending with
  | false => rfl
  | true =>
    have hidle := (h.pending i edit hi hpending).2.1
    rw [hp] at hidle
    cases hidle

section Frame

-- Time passes, and the row of the runtime changes beside its marks.
variable {clock : Instant} {runtime : Option RuntimeState} {running : ScheduleKey → Bool}
  {workers : List ScheduleKey} {edits : List Edit} {next : Pass} (hle : w.clock ≤ clock)
  (hmark : ∀ key, ((loadRuntimeState runtime).get key).lastScheduledFor = w.mark key)
include hle

theorem ScheduleWorld.PendingSound.frame {edit : Edit} (h : w.PendingSound looked edit) :
    PendingSound { w with clock, runtime, running, workers, edits, pass := next } looked edit := by
  cases edit with
  | stamped settings version stamp =>
    obtain ⟨hs, hv, hcurrent, hlooked, hstamp, hstamps⟩ := h
    exact ⟨hs, hv, hcurrent, hlooked, Int.le_trans hstamp hle, hstamps⟩
  | _ => exact h

include hmark

theorem ScheduleWorld.PassRead.frame {version : ℕ} {settings : Settings} {read : RuntimeState}
    {at_ : Instant} {todo : List ScheduleKey}
    (h : w.PassRead looked version settings read at_ todo) :
    PassRead { w with clock, runtime, running, workers, edits, pass := next } looked version
      settings read at_ todo :=
  { h with
    marks := fun key hkey => (h.marks key hkey).trans (hmark key).symm
    reached := Int.le_trans h.reached hle }

theorem ScheduleWorld.PassSound.frame {pass : Pass} (h : w.PassSound env looked pass) :
    PassSound env { w with clock, runtime, running, workers, edits, pass := next } looked pass := by
  cases pass with
  | idle => trivial
  | loaded version settings => exact h
  | ready version settings read =>
    exact ⟨h.1, h.2.1, fun key => (h.2.2 key).trans (hmark key).symm⟩
  | evaluating version settings read at_ todo => exact PassRead.frame hle hmark h
  | claimed version settings read at_ key dueAt rest =>
    refine ⟨h.1.frame hle hmark, ?_⟩
    rw [mark, hmark]
    exact h.2

theorem ScheduleWorld.Sound.frame (h : w.Sound env looked) :
    ({ w with clock, runtime, running, workers } : ScheduleWorld).Sound env looked :=
  { h with
    reached := fun key => Int.le_trans (h.reached key) hle
    pending := fun i edit hi hpending =>
      (h.pending i edit hi hpending).imp_left (PendingSound.frame hle)
    settled := fun hnone =>
      { marks := fun key henabled => (hmark key).trans ((h.settled hnone).marks key henabled)
        stamp := (h.settled hnone).stamp }
    pass := PassSound.frame hle hmark h.pass }

end Frame

end Invariant

section Steps

variable {at_ : Instant} {step : PassStep} {index version : ℕ} {new old : Edit}
  {edits : List Edit} {pass : Pass}
  {settings : Settings} {runtime : RuntimeState} {key : ScheduleKey} {rest : List ScheduleKey}

/-- Saves and passes keep apart, and the schedules that are saved are steady. -/
def PassStep.Careful (env : Env) (w : ScheduleWorld) : PassStep → Prop
  | .saveSettings index =>
    w.pass.isIdle = true ∧ (∀ edit ∈ w.edits, edit.isPending = false) ∧
      ∀ settings, w.edits[index]? = some (.validated settings) →
        ∀ key, (settings.config key).enabled = true → Steady env.location (settings.config key)
  | .loadSettings => ∀ edit ∈ w.edits, edit.isPending = false
  | _ => True

/-- A call that has validated its settings is not changed by a step of another. -/
theorem ScheduleWorld.Sound.valid_set (h : w.Sound env looked)
    (hnew : ∀ settings, .validated settings ≠ new) (settings : Settings)
    (hmem : .validated settings ∈ w.edits.set index new) : settings.Valid := by
  rcases List.mem_or_eq_of_mem_set hmem with hold | heq
  · exact h.valid settings hold
  · exact absurd heq (hnew settings)

theorem not_pending_set (hold : edits[index]? = some old) (hnew : new.isPending = true) :
    ¬∀ edit ∈ edits.set index new, edit.isPending = false := by
  intro hall
  have hlt : index < edits.length := (List.getElem?_eq_some_iff.mp hold).1
  rw [hall new (List.mem_set hlt new)] at hnew
  cases hnew

theorem passSound_of_idle (h : pass.isIdle = true) : w.PassSound env looked pass := by
  cases pass with
  | idle => trivial
  | _ => cases h

/-- The state of one call after a step of it, and of the others. -/
theorem getElem?_set_edit {i : ℕ} {edit : Edit} (hold : edits[index]? = some old)
    (h : (edits.set index new)[i]? = some edit) :
    i = index ∧ edit = new ∨ i ≠ index ∧ edits[i]? = some edit := by
  by_cases hi : i = index
  · subst hi
    rw [List.getElem?_set_self' , hold] at h
    left
    exact ⟨rfl, (Option.some.inj h).symm⟩
  · rw [List.getElem?_set_ne (Ne.symm hi)] at h
    exact .inr ⟨hi, h⟩

section

-- The step is taken at the time the clock shows.
variable (h : w.Sound env looked)
include h

theorem submit_sound {request : Settings}
    (hstep : w.editStep env w.clock (.submit request) = some w') :
    Sound env { w' with clock := w.clock } looked := by
  simp only [editStep] at hstep
  split at hstep
  next hvalid =>
    cases hstep
    -- the call that is added is not between its writes
    have hold : ∀ (i : ℕ) (edit : Edit), (w.edits ++ [.validated
        ⟨normalizeUpdateConfig request.update, request.prune⟩])[i]? = some edit →
        edit.isPending = true → w.edits[i]? = some edit := by
      intro i edit hi hpending
      rw [List.getElem?_append] at hi
      split at hi
      · exact hi
      · have hmem := List.mem_singleton.mp (List.mem_of_getElem? hi)
        rw [hmem] at hpending
        cases hpending
    refine
      { h with
        valid := fun settings hmem => ?_
        pending := fun i edit hi hpending => ?_
        settled := fun hnone => ?_
        pass := h.pass.frame (Int.le_refl w.clock) fun _ => rfl }
    · rcases List.mem_append.mp hmem with hold | hnew
      · exact h.valid settings hold
      · cases List.mem_singleton.mp hnew
        exact valid_of_validateSettings hvalid
    · obtain ⟨hsound, hidle, hunique⟩ := h.pending i edit (hold i edit hi hpending) hpending
      exact ⟨hsound.frame (Int.le_refl w.clock), hidle,
        fun j other hj hother => hunique j other (hold j other hj hother) hother⟩
    · have hsettled := h.settled fun edit hmem => hnone edit (List.mem_append_left _ hmem)
      exact ⟨hsettled.marks, hsettled.stamp⟩
  · cases hstep

theorem saveSettings_sound (hcareful : (PassStep.saveSettings index).Careful env w)
    (hstep : w.editStep env w.clock (.saveSettings index) = some w') :
    Sound env { w' with clock := w.clock } looked := by
  simp only [editStep] at hstep
  split at hstep
  next settings hedit =>
    cases hstep
    obtain ⟨hidle, hnone, hsteady⟩ := hcareful
    have hvalid := h.valid settings (List.mem_of_getElem? hedit)
    refine
      { h with
        versions := fun e he => Nat.le_succ_of_le (h.versions e he)
        steady := fun key henabled => ?_
        valid := h.valid_set fun _ heq => by cases heq
        pending := fun i edit hi hpending => ?_
        settled := fun hall => absurd hall (not_pending_set hedit rfl)
        pass := passSound_of_idle hidle }
    · have hconfig := config_loadSettings settings key
      change ((loadSettings (some settings)).config key).enabled = true at henabled
      change Steady env.location ((loadSettings (some settings)).config key)
      rw [hconfig] at henabled ⊢
      exact (hsteady settings hedit key henabled).congr fun now =>
        mostRecent_reread (hvalid key) env.location now
    · rcases getElem?_set_edit hedit hi with ⟨rfl, rfl⟩ | ⟨-, hold⟩
      · refine ⟨⟨rfl, hvalid, rfl, fun e he => Nat.lt_succ_of_le (h.versions e he)⟩, hidle, ?_⟩
        intro j other hj hother
        rcases getElem?_set_edit hedit hj with ⟨rfl, -⟩ | ⟨-, hold⟩
        · rfl
        · rw [hnone other (List.mem_of_getElem? hold)] at hother
          cases hother
      · rw [hnone edit (List.mem_of_getElem? hold)] at hpending
        cases hpending
  · cases hstep

theorem readClock_sound (hstep : w.editStep env w.clock (.readClock index) = some w') :
    Sound env { w' with clock := w.clock } looked := by
  simp only [editStep] at hstep
  split at hstep
  next settings version hedit =>
    cases hstep
    obtain ⟨⟨hsettings, hvalid, hversion, hversions⟩, hidle, hunique⟩ := h.pending index _ hedit rfl
    refine
      { h with
        fresh := fun e he stamp hstamp => ?_
        valid := h.valid_set fun _ heq => by cases heq
        pending := fun i edit hi hpending => ?_
        settled := fun hall => absurd hall (not_pending_set hedit rfl)
        pass := passSound_of_idle hidle }
    · have hne : e.version ≠ version := by
        have hlt := hversions e he
        omega
      dsimp only at hstamp
      rw [Function.update_of_ne hne] at hstamp
      exact h.fresh e he stamp hstamp
    · rcases getElem?_set_edit hedit hi with ⟨rfl, rfl⟩ | ⟨hne, hold⟩
      · refine ⟨⟨hsettings, hvalid, hversion, h.reached, Int.le_refl w.clock,
          Function.update_self ..⟩, hidle, ?_⟩
        intro j other hj hother
        rcases getElem?_set_edit hedit hj with ⟨rfl, -⟩ | ⟨-, hold⟩
        · rfl
        · exact hunique j other hold hother
      · exact absurd (hunique i edit hold hpending) hne
  · cases hstep

theorem resetRuntimeState_sound (hstep : w.editStep env w.clock (.resetRuntimeState index) = some w') :
    ∃ looked', Sound env { w' with clock := w.clock } looked' := by
  simp only [editStep] at hstep
  split at hstep
  next settings version stamp hedit =>
    cases hstep
    obtain ⟨⟨hsettings, hvalid, hversion, hlooked, hstamp, hstamps⟩, hidle, hunique⟩ :=
      h.pending index _ hedit rfl
    refine ⟨fun _ => stamp,
      { h with
        reached := fun _ => hstamp
        logged := fun e he => Int.le_trans (h.logged e he) (hlooked e.key)
        valid := h.valid_set fun _ heq => by cases heq
        pending := fun i edit hi hpending => ?_
        settled := fun _ => ⟨?_, ?_⟩
        pass := passSound_of_idle hidle }⟩
    · rcases getElem?_set_edit hedit hi with ⟨rfl, rfl⟩ | ⟨hne, hold⟩
      · cases hpending
      · exact absurd (hunique i edit hold hpending) hne
    · intro key henabled
      change ((loadSettings w.settings).config key).enabled = true at henabled
      rw [hsettings, config_loadSettings] at henabled
      have hseeded : (settings.config key).enabled = true := henabled
      have hrecent : (w.config key).mostRecent env.location stamp =
          (settings.config key).mostRecent env.location stamp := by
        rw [config, hsettings, config_loadSettings, mostRecent_reread (hvalid key)]
      have hmark := seeded_mark env.location stamp hseeded
      rw [← get_seeded] at hmark
      exact hmark.trans hrecent.symm
    · intro stamp' hstamp' key
      rw [← hversion, hstamps] at hstamp'
      cases hstamp'
      exact Int.le_refl stamp
  · cases hstep

/-- A step of a pass that writes nothing. -/
theorem ScheduleWorld.Sound.movePass {running : ScheduleKey → Bool}
    (hnone : ∀ edit ∈ w.edits, edit.isPending = false)
    (hpass : w.PassSound env looked pass) :
    Sound env { w with running := running, pass := pass } looked :=
  { h with
    pending := fun i edit hi hpending => by
      rw [hnone edit (List.mem_of_getElem? hi)] at hpending
      cases hpending
    settled := fun _ => ⟨(h.settled hnone).marks, (h.settled hnone).stamp⟩
    pass := hpass.frame (Int.le_refl w.clock) fun _ => rfl }

end

theorem PassRead.tail (h : w.PassRead looked version settings runtime at_ (key :: rest)) :
    w.PassRead looked version settings runtime at_ rest where
  version := h.version
  settings := h.settings
  distinct := (List.nodup_cons.mp h.distinct).2
  marks k hk := h.marks k (List.mem_cons_of_mem _ hk)
  looked k hk := h.looked k (List.mem_cons_of_mem _ hk)
  reached := h.reached

theorem evaluate_sound (h : w.Sound env looked)
    (hstep : w.passStep env w.clock .evaluate = some w') :
    Sound env { w' with clock := w.clock } looked := by
  simp only [passStep] at hstep
  have hpass := h.pass
  split at hstep
  next hp =>
    cases hstep
    exact h.movePass (h.no_pending (by rw [hp]; rfl)) trivial
  next version settings runtime at_ key rest hp =>
    have hnone := h.no_pending (by rw [hp]; rfl)
    rw [hp] at hpass
    have hread : w.PassRead looked version settings runtime at_ (key :: rest) := hpass
    have hskip : ({ w with
        pass := .evaluating version settings runtime at_ rest } : ScheduleWorld).Sound env looked :=
      h.movePass hnone (PassRead.tail hread)
    split at hstep
    · cases hstep
      exact hskip
    next dueAt hdue =>
      split at hstep
      · cases hstep
        exact hskip
      · cases hstep
        refine h.movePass hnone ⟨hread, ?_⟩
        have hconfig : w.config key = settings.config key := by
          rw [config, hread.settings]
        rw [hconfig, ← hread.marks key List.mem_cons_self]
        exact hdue
  · cases hstep

/-- What a pass is about to start is after all that was looked at before. -/
theorem looked_lt_due {dueAt : Instant} (h : w.Sound env looked)
    (hp : w.pass = .claimed version settings runtime at_ key dueAt rest) :
    looked key < dueAt ∧ dueAt ≤ at_ ∧
      (w.config key).mostRecent env.location at_ = some dueAt := by
  have hpass := h.pass
  rw [hp] at hpass
  obtain ⟨hread, hdue⟩ := hpass
  obtain ⟨henabled, hrecent, hlast, hwindow⟩ := dueSchedule_eq_some hdue
  have hsteady := h.steady key henabled
  refine ⟨?_, hsteady.past at_ dueAt hrecent, hrecent⟩
  by_contra hnot
  have hsettled := h.settled (h.no_pending (by rw [hp]; rfl))
  have hmark := hsettled.marks key henabled
  have hkept := hsteady.kept (looked key) at_ dueAt (hread.looked key List.mem_cons_self) hrecent
    hwindow (Int.not_lt.mp hnot)
  exact hlast (hmark.trans hkept)

section

variable (h : w.Sound env looked)
include h

theorem updateRuntime_sound (hstep : w.passStep env w.clock .updateRuntime = some w') :
    ∃ looked', Sound env { w' with clock := w.clock } looked' := by
  simp only [passStep] at hstep
  split at hstep
  next version settings runtime at_ key dueAt rest hp =>
    cases hstep
    obtain ⟨hlt, hpast, hrecent⟩ := looked_lt_due h hp
    have hnone := h.no_pending (by rw [hp]; rfl)
    have hsettled := h.settled hnone
    have hpass := h.pass
    rw [hp] at hpass
    obtain ⟨hread, -⟩ := hpass
    have hversion := hread.version
    have hahead : looked key ≤ at_ := hread.looked key List.mem_cons_self
    have hlooked : ∀ other, looked other ≤ Function.update looked key at_ other :=
      (Function.forall_update_iff looked fun other reading => looked other ≤ reading).mpr
        ⟨hahead, fun other _ => Int.le_refl (looked other)⟩
    have hmark : ∀ other, ((loadRuntimeState (some ((loadRuntimeState w.runtime).mutate
        (fun _ => ⟨some at_, some dueAt, "running", "", ""⟩) key))).get other).lastScheduledFor =
        if other = key then some dueAt else w.mark other := by
      intro other
      rw [loadRuntimeState_some, RuntimeState.get_mutate]
      split <;> rfl
    refine ⟨Function.update looked key at_, ?_, ?_, ?_, ?_, ?_, h.steady, h.valid, ?_, ?_, ?_⟩
    · exact (Function.forall_update_iff looked fun _ reading => reading ≤ w.clock).mpr
        ⟨hread.reached, fun other _ => h.reached other⟩
    · intro e he
      rcases List.mem_cons.mp he with rfl | he
      · rw [Function.update_self]
        exact hpast
      · exact Int.le_trans (h.logged e he) (hlooked e.key)
    · refine List.nodup_cons.mpr ⟨?_, h.once⟩
      intro hmem
      obtain ⟨e, he, heq⟩ := List.mem_map.mp hmem
      obtain ⟨hkey, hoccurrence⟩ := Prod.mk.inj heq
      have hold := h.logged e he
      rw [hkey, hoccurrence] at hold
      exact absurd hold (Int.not_le.mpr hlt)
    · intro e he stamp hstamp
      rcases List.mem_cons.mp he with rfl | he
      · rw [hversion] at hstamp
        exact Int.lt_of_le_of_lt (hsettled.stamp stamp hstamp key) hlt
      · exact h.fresh e he stamp hstamp
    · intro e he
      rcases List.mem_cons.mp he with rfl | he
      · exact Nat.le_of_eq hversion
      · exact h.versions e he
    · intro i edit hi hpending
      rw [hnone edit (List.mem_of_getElem? hi)] at hpending
      cases hpending
    · intro _
      refine ⟨?_, fun stamp hstamp other =>
        Int.le_trans (hsettled.stamp stamp hstamp other) (hlooked other)⟩
      intro other henabled
      change _ = (w.config other).mostRecent env.location _
      rw [mark, hmark]
      by_cases hk : other = key
      · subst hk
        rw [if_pos rfl, Function.update_self, hrecent]
      · rw [if_neg hk, Function.update_of_ne hk]
        exact hsettled.marks other henabled
    · have htail := PassRead.tail hread
      have hne : ∀ other ∈ rest, other ≠ key := by
        rintro other hmem rfl
        exact (List.nodup_cons.mp hread.distinct).1 hmem
      refine ⟨htail.version, htail.settings, htail.distinct, ?_, ?_, htail.reached⟩
      · intro other hother
        rw [mark, hmark, if_neg (hne other hother)]
        exact htail.marks other hother
      · intro other hother
        rw [Function.update_of_ne (hne other hother)]
        exact htail.looked other hother
  · cases hstep

theorem passStep_sound (hcareful : step.Careful env w) (hstep : w.passStep env w.clock step = some w') :
    ∃ looked', Sound env { w' with clock := w.clock } looked' := by
  have hpass := h.pass
  cases step with
  | loadSettings =>
    simp only [passStep] at hstep
    split at hstep
    · cases hstep
      exact ⟨looked, h.movePass hcareful ⟨rfl, rfl⟩⟩
    · cases hstep
  | loadRuntimeState =>
    simp only [passStep] at hstep
    split at hstep
    next version settings hp =>
      cases hstep
      rw [hp] at hpass
      exact ⟨looked, h.movePass (h.no_pending (by rw [hp]; rfl))
        ⟨hpass.1, hpass.2, fun _ => rfl⟩⟩
    · cases hstep
  | readNow =>
    simp only [passStep] at hstep
    split at hstep
    next version settings runtime hp =>
      cases hstep
      rw [hp] at hpass
      obtain ⟨hversion, hsettings, hmarks⟩ := hpass
      exact ⟨looked, h.movePass (h.no_pending (by rw [hp]; rfl)) ⟨hversion, hsettings, by decide,
        fun key _ => hmarks key, fun key _ => h.reached key, Int.le_refl w.clock⟩⟩
    · cases hstep
  | evaluate => exact ⟨looked, evaluate_sound h hstep⟩
  | updateRuntime => exact updateRuntime_sound h hstep
  | _ => cases hstep

theorem workerStep_sound (hstep : w.workerStep step = some w') :
    Sound env { w' with clock := w.clock } looked := by
  cases step with
  | finalizeScheduledRun key result message jobID =>
    simp only [workerStep] at hstep
    split at hstep
    · cases hstep
      have hmark : ∀ other, ((loadRuntimeState (some ((loadRuntimeState w.runtime).mutate
          (fun state => { state with
            lastResult := result, lastMessage := message, lastJobID := jobID }) key))).get
            other).lastScheduledFor = w.mark other := by
        intro other
        rw [loadRuntimeState_some, RuntimeState.get_mutate]
        split <;> rfl
      exact h.frame (w := w) (Int.le_refl w.clock) hmark
    · cases hstep
  | finish key =>
    simp only [workerStep] at hstep
    split at hstep
    · cases hstep
      exact h.frame (w := w) (Int.le_refl w.clock) fun _ => rfl
    · cases hstep
  | _ => cases hstep

theorem editStep_sound (hcareful : step.Careful env w) (hstep : w.editStep env w.clock step = some w') :
    ∃ looked', Sound env { w' with clock := w.clock } looked' := by
  cases step with
  | submit request => exact ⟨looked, submit_sound h hstep⟩
  | saveSettings index => exact ⟨looked, saveSettings_sound h hcareful hstep⟩
  | readClock index => exact ⟨looked, readClock_sound h hstep⟩
  | resetRuntimeState index => exact resetRuntimeState_sound h hstep
  | _ => cases hstep

end

/-- No step reads the time the clock showed before it. -/
theorem next_clock (w : ScheduleWorld) (env : Env) (now : Instant) (step : PassStep) :
    ({ w with clock := now } : ScheduleWorld).next env now step = w.next env now step := by
  cases step <;> simp only [next, editStep, passStep, workerStep] <;> repeat' (split <;> try rfl)

theorem ScheduleWorld.Sound.next (h : w.Sound env looked) (hle : w.clock ≤ now)
    (hcareful : step.Careful env w) (hstep : w.next env now step = some w') :
    ∃ looked', w'.Sound env looked' := by
  have hnow : ({ w with clock := now } : ScheduleWorld).Sound env looked :=
    h.frame hle fun _ => rfl
  rw [← next_clock] at hstep
  obtain ⟨stepped, hstepped, rfl⟩ := Option.map_eq_some_iff.mp hstep
  rcases Option.or_eq_some_iff.mp hstepped with hedit | ⟨-, hrest⟩
  · exact editStep_sound hnow hcareful hedit
  · rcases Option.or_eq_some_iff.mp hrest with hpass | ⟨-, hworker⟩
    · exact passStep_sound hnow hcareful hpass
    · exact ⟨looked, workerStep_sound hnow hworker⟩

theorem ScheduleWorld.initial_sound (env : Env) (clock : Instant) :
    (initial clock).Sound env fun _ => clock where
  reached _ := Int.le_refl clock
  logged e he := by cases he
  once := .nil
  fresh e he := by cases he
  versions e he := by cases he
  steady key henabled := by cases key <;> cases henabled
  valid settings hmem := by cases hmem
  pending i edit hi := by cases hi
  settled _ :=
    { marks := fun key henabled => by cases key <;> cases henabled
      stamp := fun stamp hstamp => by cases hstamp }
  pass := trivial

end Steps

/-- Runs in which saves and passes keep apart. -/
def carefulPasses (env : Env) : Lts ScheduleWorld (Instant × PassStep) where
  Tr w label w' := (passLts env).Tr w label w' ∧ label.2.Careful env w

variable {label : Instant × PassStep}

/-- Midday on the given day of 1970, and some minutes. -/
def afterNoon (day minutes : ℤ) : Instant := unixTime + day * dayLength + (12 * 60 + minutes) * minute

def localEnv : Env := ⟨fun _ _ => .ok [], fun _ => .ok [], .utc⟩

/-- Updates every day at noon. -/
def noonUpdates : Settings :=
  { defaultSettings with
    update := { defaultSettings.update with enabled := true, frequency := .daily, time := "12:00" } }

def ScheduleWorld.step (w : ScheduleWorld) (label : Instant × PassStep) : Option ScheduleWorld :=
  if w.clock ≤ label.1 then w.next localEnv label.1 label.2 else none

theorem tr_of_step (h : w.step label = some w') : (passLts localEnv).Tr w label w' := by
  unfold step at h
  split at h
  next hle =>
    exact ⟨hle, h⟩
  · cases h

/-- Every day at noon, in UTC. -/
def ScheduleConfig.isNoon (config : ScheduleConfig) : Bool :=
  config.frequency = .daily && config.time = "12:00"

/-- The last noon is that of the day that started twelve hours ago. -/
theorem mostRecent_noon {config : ScheduleConfig} (h : config.isNoon = true) (now : ℤ) :
    config.mostRecent .utc now =
      some ((now - 12 * (60 * minute)) / dayLength * dayLength + 12 * (60 * minute)) := by
  simp only [ScheduleConfig.isNoon, Bool.and_eq_true, decide_eq_true_eq] at h
  have htime : parseTimeOfDay "12:00" = .ok (12, 0) := by decide
  simp only [ScheduleConfig.mostRecent, mostRecentScheduledAt, h.1, h.2, htime, timeOn, dayOf,
    addDays, utc, date_fixed, wall_fixed, dayNumber, Except.toOption, Option.some.injEq]
  split
  next hlt =>
    have hlt : (now : ℤ) < _ := hlt
    change (_ : ℤ) = _
    simp only [dayLength, minute, second] at hlt ⊢
    omega
  next hle =>
    have hle : (_ : ℤ) ≤ now := Int.not_lt.mp hle
    change (_ : ℤ) = _
    simp only [dayLength, minute, second] at hle ⊢
    omega

theorem steady_of_noon {config : ScheduleConfig} (h : config.isNoon = true) :
    Steady .utc config := by
  have hpast : ∀ now : ℤ,
      (now - 12 * (60 * minute)) / dayLength * dayLength + 12 * (60 * minute) ≤ now := by
    intro now
    simp only [dayLength, minute]
    omega
  have hkept : ∀ now later : ℤ, now ≤ later →
      (later - 12 * (60 * minute)) / dayLength * dayLength + 12 * (60 * minute) ≤ now →
      (now - 12 * (60 * minute)) / dayLength = (later - 12 * (60 * minute)) / dayLength := by
    intro now later
    simp only [dayLength, minute]
    omega
  constructor
  · intro now o hmost
    rw [mostRecent_noon h] at hmost
    cases hmost
    exact hpast now
  · intro now later o hnow hmost _ hle
    rw [mostRecent_noon h] at hmost ⊢
    cases hmost
    rw [hkept now later hnow hle]

/-- Saves and passes keep apart, and what is saved is due at noon. -/
def PassStep.apart (w : ScheduleWorld) : PassStep → Bool
  | .saveSettings index => w.pass.isIdle && w.edits.all (fun edit => !edit.isPending) &&
      match w.edits[index]? with
      | some (.validated settings) =>
        [.update, .prune].all fun key =>
          !(settings.config key).enabled || (settings.config key).isNoon
      | _ => true
  | .loadSettings => w.edits.all fun edit => !edit.isPending
  | _ => true

theorem PassStep.careful_of_apart {step : PassStep} (h : step.apart w = true) :
    step.Careful localEnv w := by
  cases step with
  | saveSettings index =>
    simp only [PassStep.apart, Bool.and_eq_true, List.all_eq_true, Bool.not_eq_true'] at h
    refine ⟨h.1.1, h.1.2, ?_⟩
    intro settings hedit key henabled
    have hnoon := h.2
    rw [hedit] at hnoon
    have hkey := List.all_eq_true.mp hnoon key (by cases key <;> simp)
    exact steady_of_noon (by simpa [henabled] using hkey)
  | loadSettings =>
    simp only [PassStep.apart, List.all_eq_true, Bool.not_eq_true'] at h
    exact h
  | _ => trivial

def ScheduleWorld.apartStep (w : ScheduleWorld) (label : Instant × PassStep) :
    Option ScheduleWorld :=
  if label.2.apart w then w.step label else none

theorem careful_of_apartStep (h : w.apartStep label = some w') :
    (carefulPasses localEnv).Tr w label w' := by
  unfold apartStep at h
  split at h
  next hapart =>
    exact ⟨tr_of_step h, PassStep.careful_of_apart hapart⟩
  · cases h

/-- A pass, without what the workers do. -/
def onePass (at_ : Instant) : List (Instant × PassStep) :=
  [(at_, .loadSettings), (at_, .loadRuntimeState), (at_, .readNow), (at_, .evaluate),
    (at_, .updateRuntime)]

/-- Settings are saved after noon, and the next day's update is started. -/
def nextNoon : List (Instant × PassStep) :=
  [(afterNoon 0 30, .submit noonUpdates), (afterNoon 0 30, .saveSettings 0),
    (afterNoon 0 31, .readClock 0), (afterNoon 0 31, .resetRuntimeState 0)] ++
    onePass (afterNoon 1 5)

theorem nextNoon_runs :
    (nextNoon.foldlM apartStep (.initial (afterNoon 0 0))).isSome = true := by
  decide +kernel

/-- A pass runs between the two writes of the save. -/
def passBetween : List (Instant × PassStep) :=
  [(afterNoon 0 30, .submit noonUpdates), (afterNoon 0 30, .saveSettings 0)] ++
    onePass (afterNoon 0 30) ++
    [(afterNoon 0 31, .readClock 0), (afterNoon 0 31, .resetRuntimeState 0)]

theorem passBetween_runs :
    (passBetween.foldlM step (.initial (afterNoon 0 0))).isSome = true := by
  decide +kernel

end Stacklab.Scheduler
