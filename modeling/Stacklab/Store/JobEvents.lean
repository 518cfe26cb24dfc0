import Stacklab.Store.JobTable

/-! Appending to a job's event log, and what every statement on the log keeps. -/
namespace Stacklab.Store

open Lib

namespace JobTable

variable {t u : JobTable} {job : Job} {event e : JobEvent} {events new : List JobEvent}
  {id j : String} {first : ℕ} {allowed : List JobState}

/-- The next sequence number and the state are read from the job row. -/
def appendJobEvent (event : JobEvent) (t : JobTable) :
    Except StoreError (JobEvent × JobTable) :=
  match t.rows.lookup event.jobID with
  | none => .error .notFound
  | some row =>
    let row := { row with eventSequence := row.eventSequence + 1 }
    let event := { event with sequence := row.eventSequence, state := row.job.state }
    match createJobEventRow event { t with rows := t.rows.insert event.jobID row } with
    | .error err => .error err
    | .ok t => .ok (event, t)

/-- The events of a transition as it stores them. -/
def numberEvents : ℕ → List JobEvent → List JobEvent
  | _, [] => []
  | first, event :: events => { event with sequence := first } :: numberEvents (first + 1) events

def sequenceOf (t : JobTable) (id : String) : ℕ := (t.rows.lookup id).elim 0 (·.eventSequence)

/-- The events that a transition of the job commits. -/
def committedEvents (t : JobTable) (id : String) (events : List JobEvent) : List JobEvent :=
  numberEvents (t.sequenceOf id + 1) events

def eventsOf (t : JobTable) (id : String) : List JobEvent :=
  t.events.filter fun e => e.jobID = id

def stateOf (t : JobTable) (id : String) : Option JobState :=
  (t.rows.lookup id).map fun row => row.job.state

/-- One committed statement on the log of one job. -/
structure Commit (t u : JobTable) (id : String) (new : List JobEvent) : Prop where
  events : u.events = t.events ++ new
  others : ∀ j, j ≠ id → u.rows.lookup j = t.rows.lookup j
  stored : ∀ e ∈ new, e.jobID = id ∧ u.stateOf id = some e.state
  sequences : new.map JobEvent.sequence = List.range' (t.sequenceOf id + 1) new.length
  counted : u.sequenceOf id = t.sequenceOf id + new.length
  final : ∀ state, t.stateOf id = some state → state.isTerminal = true → u.stateOf id = some state
  kept : t.stateOf id ≠ none → u.stateOf id ≠ none

/-- The log of every job is numbered without gaps, and terminal once the job is. -/
structure Recorded (t : JobTable) : Prop where
  sequences : ∀ id, (t.eventsOf id).map JobEvent.sequence = List.range' 1 (t.sequenceOf id)
  terminal : ∀ e ∈ t.events, e.state.isTerminal = true → t.stateOf e.jobID = some e.state
  ordered : ∀ id, (t.eventsOf id).Pairwise fun earlier later =>
    earlier.state.isTerminal = true → later.state.isTerminal = true

theorem createJobEventRow_ok (h : createJobEventRow event t = .ok u) :
    u.rows = t.rows ∧ u.events = t.events ++ [event] := by
  unfold createJobEventRow at h
  split at h
  · cases h
  · cases h
    exact ⟨rfl, rfl⟩

theorem createNumberedEvents_ok (h : createNumberedEvents first events t = .ok u) :
    u.rows = t.rows ∧ u.events = t.events ++ numberEvents first events := by
  induction events generalizing first t with
  | nil =>
    cases h
    exact ⟨rfl, by simp [numberEvents]⟩
  | cons event events ih =>
    unfold createNumberedEvents at h
    split at h
    · cases h
    next t' ht =>
      obtain ⟨hrows, hevents⟩ := createJobEventRow_ok ht
      obtain ⟨hrows', hevents'⟩ := ih h
      exact ⟨hrows'.trans hrows, by simp [hevents', hevents, numberEvents]⟩

theorem numberEvents_sequences (first : ℕ) (events : List JobEvent) :
    (numberEvents first events).map JobEvent.sequence = List.range' first events.length := by
  induction events generalizing first with
  | nil => rfl
  | cons event events ih => simp [numberEvents, ih, List.range'_succ]

theorem length_numberEvents (first : ℕ) (events : List JobEvent) :
    (numberEvents first events).length = events.length := by
  induction events generalizing first with
  | nil => rfl
  | cons event events ih => simp [numberEvents, ih]

theorem mem_numberEvents (h : e ∈ numberEvents first events) :
    ∃ e' ∈ events, e.jobID = e'.jobID ∧ e.state = e'.state := by
  induction events generalizing first with
  | nil => cases h
  | cons event events ih =>
    rcases List.mem_cons.mp h with rfl | h
    · exact ⟨event, List.mem_cons_self, rfl, rfl⟩
    · obtain ⟨e', he', heq⟩ := ih h
      exact ⟨e', List.mem_cons_of_mem _ he', heq⟩

theorem rows_insert {row : JobRow} (hu : u.rows = t.rows.insert id row) :
    (∀ j, j ≠ id → u.rows.lookup j = t.rows.lookup j) ∧ u.rows.lookup id = some row := by
  rw [hu]
  refine ⟨fun j hj => ?_, ?_⟩
  · rw [GoMap.lookup_insert, if_neg hj]
  · rw [GoMap.lookup_insert, if_pos rfl]

theorem appendJobEvent_commit (h : appendJobEvent event t = .ok (e, u)) :
    Commit t u event.jobID [e] := by
  unfold appendJobEvent at h
  split at h
  · cases h
  next row hrow =>
    dsimp only at h
    split at h
    · cases h
    next t' ht =>
      cases h
      obtain ⟨hrows, hevents⟩ := createJobEventRow_ok ht
      obtain ⟨hothers, hnew⟩ := rows_insert hrows
      refine ⟨hevents, hothers, ?_, ?_, ?_, ?_, ?_⟩
      · simp [stateOf, hnew]
      · simp [sequenceOf, hrow]
      · simp [sequenceOf, hrow, hnew]
      · simp [stateOf, hrow, hnew]
      · simp [stateOf, hnew]

theorem createJobWithInitialEvent_commit (he : event.state = job.state)
    (h : createJobWithInitialEvent job event t = .ok u) :
    Commit t u job.id [event] ∧ t.rows.lookup job.id = none := by
  unfold createJobWithInitialEvent at h
  split at h
  · cases h
  next hvalid =>
    simp only [ne_eq, not_or, Decidable.not_not] at hvalid
    split at h
    · cases h
    next hnone =>
      obtain ⟨hrows, hevents⟩ := createJobEventRow_ok h
      obtain ⟨hothers, hnew⟩ := rows_insert hrows
      refine ⟨⟨hevents, hothers, ?_, ?_, ?_, ?_, ?_⟩, hnone⟩
      · simp [stateOf, hnew, hvalid.1, he]
      · simp [sequenceOf, hnone, hvalid.2]
      · simp [sequenceOf, hnone, hnew]
      · simp [stateOf, hnone]
      · simp [stateOf, hnew]

/-- What a transition that updates a row does to the tables. -/
theorem transitionJobWithEvents_ok
    (h : transitionJobWithEvents job allowed events t = .ok (true, u)) :
    ∃ row, t.rows.lookup job.id = some row ∧ row.job.state ∈ allowed ∧
      u.rows = t.rows.insert job.id
        ⟨Job.withProgress row.job job, row.eventSequence + events.length⟩ ∧
      u.events = t.events ++ numberEvents (row.eventSequence + 1) events ∧
      ∀ e ∈ events, e.jobID = job.id ∧ e.state = job.state := by
  unfold transitionJobWithEvents at h
  split at h
  · cases h
  · split at h
    · cases h
    next hmatch =>
      split at h
      · cases h
      next row hrow =>
        split at h
        · cases h
        next hstate =>
          dsimp only at h
          split at h
          · cases h
          next t' ht =>
            cases h
            obtain ⟨hrows, hevents⟩ := createNumberedEvents_ok ht
            have hfirst : row.eventSequence + events.length - events.length + 1 =
                row.eventSequence + 1 := by omega
            rw [hfirst] at hevents
            refine ⟨row, hrow, not_not.mp hstate, hrows, hevents, fun e he => ?_⟩
            by_contra hbad
            refine hmatch (List.any_eq_true.mpr ⟨e, he, ?_⟩)
            simp only [decide_eq_true_eq]
            tauto

theorem transitionJobWithEvents_unchanged
    (h : transitionJobWithEvents job allowed events t = .ok (false, u)) : u = t := by
  unfold transitionJobWithEvents at h
  split at h
  · cases h
  · split at h
    · cases h
    · split at h
      · cases h
        rfl
      · split at h
        · cases h
          rfl
        · dsimp only at h
          split at h <;> cases h

/-- A transition that updates a row commits its events and comes from an allowed state. -/
theorem transitionJobWithEvents_commit
    (h : transitionJobWithEvents job allowed events t = .ok (true, u))
    (hallowed : ∀ state ∈ allowed, state.isTerminal = false) :
    Commit t u job.id (t.committedEvents job.id events) ∧ u.stateOf job.id = some job.state ∧
      ∃ state ∈ allowed, t.stateOf job.id = some state := by
  obtain ⟨row, hrow, hstate, hrows, hevents, hmatch⟩ := transitionJobWithEvents_ok h
  obtain ⟨hothers, hnew⟩ := rows_insert hrows
  have hcommitted : t.committedEvents job.id events =
      numberEvents (row.eventSequence + 1) events := by
    simp [committedEvents, sequenceOf, hrow]
  have hold : t.stateOf job.id = some row.job.state := by simp [stateOf, hrow]
  have hcur : u.stateOf job.id = some job.state := by
    simp [stateOf, hnew, Job.withProgress]
  rw [hcommitted]
  refine ⟨⟨hevents, hothers, fun e he => ?_, ?_, ?_, fun state hs hterm => ?_, ?_⟩, hcur,
    row.job.state, hstate, hold⟩
  · obtain ⟨e', he', hid, hst⟩ := mem_numberEvents he
    rw [hid, hst, hcur, (hmatch e' he').1, (hmatch e' he').2]
    exact ⟨rfl, rfl⟩
  · rw [numberEvents_sequences, length_numberEvents]
    simp [sequenceOf, hrow]
  · rw [length_numberEvents]
    simp [sequenceOf, hrow, hnew]
  · rw [hold] at hs
    cases hs
    rw [hallowed _ hstate] at hterm
    cases hterm
  · simp [hcur]

section

variable (h : Commit t u id new)
include h

theorem Commit.subset : t.events ⊆ u.events := by
  rw [h.events]
  exact List.subset_append_left _ _

theorem eventsOf_commit_self : u.eventsOf id = t.eventsOf id ++ new := by
  unfold eventsOf
  rw [h.events, List.filter_append]
  congr 1
  exact List.filter_eq_self.mpr fun e he => by simp [(h.stored e he).1]

theorem eventsOf_commit_of_ne (hj : j ≠ id) : u.eventsOf j = t.eventsOf j := by
  unfold eventsOf
  rw [h.events, List.filter_append]
  have hnil : new.filter (fun e => e.jobID = j) = [] := by
    refine List.filter_eq_nil_iff.mpr fun e he => ?_
    simp [(h.stored e he).1, Ne.symm hj]
  rw [hnil, List.append_nil]

theorem stateOf_commit_of_ne (hj : j ≠ id) : u.stateOf j = t.stateOf j := by
  unfold stateOf
  rw [h.others j hj]

theorem Commit.recorded (hr : Recorded t) : Recorded u := by
  refine ⟨fun j => ?_, fun e he hterm => ?_, fun j => ?_⟩
  · by_cases hj : j = id
    · subst hj
      rw [eventsOf_commit_self h, List.map_append, hr.sequences, h.sequences, h.counted,
        Nat.add_comm (t.sequenceOf j) 1, List.range'_append_1]
    · rw [eventsOf_commit_of_ne h hj, hr.sequences]
      unfold sequenceOf
      rw [h.others j hj]
  · rw [h.events] at he
    rcases List.mem_append.mp he with he | he
    · have hold := hr.terminal e he hterm
      by_cases hj : e.jobID = id
      · rw [hj] at hold ⊢
        exact h.final e.state hold hterm
      · rw [stateOf_commit_of_ne h hj]
        exact hold
    · obtain ⟨hid, hstate⟩ := h.stored e he
      rw [hid]
      exact hstate
  · by_cases hj : j = id
    · subst hj
      rw [eventsOf_commit_self h, List.pairwise_append]
      -- New events have the row's state, which is terminal once an old event is.
      have hnew : ∀ e ∈ new, u.stateOf j = some e.state := fun e he => (h.stored e he).2
      refine ⟨hr.ordered j, List.pairwise_of_forall_mem_list fun a ha b hb hta => ?_,
        fun a ha b hb hta => ?_⟩
      · have heq := (hnew a ha).symm.trans (hnew b hb)
        rw [← Option.some.inj heq]
        exact hta
      · obtain ⟨hmem, hid⟩ := List.mem_filter.mp ha
        have hold := hr.terminal a hmem hta
        rw [of_decide_eq_true hid] at hold
        have heq := (h.final a.state hold hta).symm.trans (hnew b hb)
        rw [← Option.some.inj heq]
        exact hta
    · rw [eventsOf_commit_of_ne h hj]
      exact hr.ordered j

end

end JobTable

end Stacklab.Store
