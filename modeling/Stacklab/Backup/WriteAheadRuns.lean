import Stacklab.Lib.Lts
import Stacklab.Backup.RecoverClears
import Stacklab.Backup.WriteAhead

/-! The write-ahead discipline over all runs, failures and crashes. -/
namespace Stacklab.Backup

open Lib Prog GoMap

variable {sourceID : String → String} {w : World} {journal : StopJournal}
  {writer : Writer}

/-! The loop of `resume`. -/

section Programs

variable (sourceID) in
/-- A program run under the condition on fences, with the discipline at every cut. -/
abbrev Disciplined {α : Type} (p : CaptureProg α) (Q : α → World → Prop) (w : World) : Prop :=
  Wp (captureMachine sourceID) FenceAnnounced (Durable sourceID) p Q w

/-- Write the journal in memory and go on, whether or not the write succeeded. -/
theorem wp_save {α : Type} {intent : Option String} {Q : α → World → Prop}
    {k : Except String Unit → CaptureProg α} (hd : Durable sourceID w)
    (hm : Memory sourceID journal w)
    (hb : ∀ writer ∈ journal.writers, writer.running = true →
      (journal.phase writer.containerID).unfinished = true →
      intent ≠ some writer.containerID → writer.containerID ∉ lostIntents w.log →
      OnDisk sourceID w journal.runID fun stored => stored.Owes writer.containerID)
    (hk : ∀ r w', Durable sourceID w' → Working sourceID journal w' →
      owed w'.log = owed w.log → (r = .ok () → lostIntents w'.log = []) →
      Disciplined sourceID (k r) Q w') :
    Disciplined sourceID ((Cmd.saveStopJournal journal intent).issue >>= k) Q w := by
  refine ⟨hd, fun o _ => ?_⟩
  obtain ⟨hd', hw', howed, hlost⟩ := working_save hd hm intent hb o
  exact hk _ _ hd' hw' howed hlost

/-- The same journal, with more writers finished. -/
structure Advances (journal journal' : StopJournal) : Prop where
  writers : journal'.writers = journal.writers
  finished : ∀ id, (journal.phase id).unfinished = false → (journal'.phase id).unfinished = false

theorem Advances.refl (journal : StopJournal) : Advances journal journal :=
  ⟨rfl, fun _ h => h⟩

theorem Advances.trans {journal₁ journal₂ journal₃ : StopJournal}
    (h : Advances journal₁ journal₂) (h' : Advances journal₂ journal₃) :
    Advances journal₁ journal₃ :=
  ⟨h'.writers.trans h.writers,
    fun id hid => h'.finished id (h.finished id hid)⟩

theorem advances_resumed (journal : StopJournal) (id : String) :
    Advances journal (journal.setPhase id .resumed) := by
  refine ⟨rfl, ?_⟩
  intro id' h
  rw [StopJournal.phase_setPhase]
  split
  · rfl
  · exact h

theorem wp_resolveStop (hd : Durable sourceID w) (hw : Working sourceID journal w)
    (hmem : writer ∈ journal.writers) (hrun : writer.running = true)
    (hu : (journal.phase writer.containerID).unfinished = true) :
    Disciplined sourceID (resolveStop journal writer)
      (fun _ w' => Working sourceID journal w') w := by
  unfold resolveStop fenceWriterStop
  split
  · split
    · exact ⟨hd, hw⟩
    · exact ⟨hd, fun o hfence => working_stop hd hw hmem hrun hu hfence true⟩
  · exact ⟨hd, hw⟩

variable (sourceID) in
/-- What the loop leaves: a list without failures means that all its writers run again. -/
structure Resumed (journal : StopJournal) (writers : List Writer)
    (r : List String × StopJournal) (w : World) : Prop where
  working : Working sourceID r.2 w
  advances : Advances journal r.2
  done : r.1 = [] → ∀ writer ∈ writers, writer.running = true →
    (r.2.phase writer.containerID).unfinished = false

theorem wp_resumeWriters (writers : List Writer)
    (hsub : ∀ writer ∈ writers, writer ∈ journal.writers) (hd : Durable sourceID w)
    (hw : Working sourceID journal w) :
    Disciplined sourceID (resumeWriters journal writers)
      (Resumed sourceID journal writers) w := by
  induction writers generalizing journal w with
  | nil => exact ⟨hd, hw, .refl journal, by simp⟩
  | cons writer rest ih =>
    obtain ⟨hmem, hrest⟩ := List.forall_mem_cons.mp hsub
    -- after a failure the loop goes on and the failure is reported
    have hfail : ∀ {w} {journal'} (err : String), Advances journal journal' →
        Durable sourceID w → Working sourceID journal' w →
        Disciplined sourceID (do
          let r ← resumeWriters journal' rest
          pure (err :: r.1, r.2)) (Resumed sourceID journal (writer :: rest)) w := by
      intro w journal' err ha hd hw
      have hsub' : ∀ writer ∈ rest, writer ∈ journal'.writers := by
        rw [ha.writers]
        exact hrest
      refine wp_bind ((ih hsub' hd hw).post ?_)
      rintro r w' hd' hr
      exact ⟨hd', hr.working, ha.trans hr.advances, by simp⟩
    unfold resumeWriters
    dsimp only
    split
    next hskip =>
      refine (ih hrest hd hw).post ?_
      rintro r w' _ hr
      refine ⟨hr.working, hr.advances, ?_⟩
      intro hnil
      refine List.forall_mem_cons.mpr ⟨?_, hr.done hnil⟩
      intro hrun
      apply hr.advances.finished
      rcases hskip with hskip | hskip | hskip
      · simp [hrun] at hskip
      · rw [hskip]
        rfl
      · rw [hskip]
        rfl
    next hskip =>
      obtain ⟨hstopped, hplanned, hresumed⟩ := not_or.mp hskip |>.imp id not_or.mp
      have hrun : writer.running = true := by simpa using hstopped
      have hu : (journal.phase writer.containerID).unfinished = true := by
        revert hplanned hresumed
        cases journal.phase writer.containerID <;> simp [Phase.unfinished]
      refine wp_bind ((wp_resolveStop hd hw hmem hrun hu).post ?_)
      rintro (err | ⟨⟩) w₁ hd₁ hw₁
      · exact hfail _ (.refl journal) hd₁ hw₁
      refine wp_issue_bind (fun r w' => ∃ ok, (r = .ok () → ok = true) ∧
        w' = w₁.record (.startIssued journal.runID writer.containerID ok)) hd₁ ?_ ?_
      · intro o _
        refine ⟨o.failure.isNone, ?_, rfl⟩
        simp only [captureMachine, Out.answer]
        split <;> simp_all
      rintro (err | ⟨⟩) _ ⟨ok, hok, rfl⟩
      · obtain ⟨hd₂, hw₂⟩ := working_start hd₁ hw₁ journal.runID writer.containerID ok
        exact hfail _ (.refl journal) hd₂ hw₂
      obtain ⟨hd₂, hw₂⟩ := working_start hd₁ hw₁ journal.runID writer.containerID ok
      have hm : Memory sourceID (journal.setPhase writer.containerID .resumed)
          (w₁.record (.startIssued journal.runID writer.containerID ok)) :=
        hw₂.toMemory.setPhase rfl fun howed => absurd rfl ((owed_start howed).2 (hok rfl))
      have ha := advances_resumed journal writer.containerID
      refine wp_save hd₂ hm (hw₂.backed_setPhase fun hu => by cases hu) ?_
      rintro (err | ⟨⟩) w₃ hd₃ hw₃ _ _
      · exact hfail _ ha hd₃ hw₃
      refine (ih (ha.writers ▸ hrest) hd₃ hw₃).post ?_
      rintro r w' _ hr
      refine ⟨hr.working, ha.trans hr.advances, ?_⟩
      intro hnil
      refine List.forall_mem_cons.mpr ⟨fun _ => hr.advances.finished _ ?_, hr.done hnil⟩
      rw [StopJournal.phase_setPhase, if_pos rfl]
      rfl

/-- Removing a journal whose writers all run again leaves nothing unrecorded. -/
theorem working_remove (hd : Durable sourceID w) (hw : Working sourceID journal w)
    (hdone : ∀ writer ∈ journal.writers, writer.running = true →
      (journal.phase writer.containerID).unfinished = false) (o : Out) :
    Durable sourceID (w.remove sourceID o journal.runID false).2 ∧
      Working sourceID journal (w.remove sourceID o journal.runID false).2 := by
  have hnone : ∀ containerID, (journal.runID, containerID) ∉ owed w.log := by
    intro containerID howed
    obtain ⟨⟨writer, hmem, rfl, hrun⟩, hann⟩ := hw.owes containerID howed
    have hfin := hdone writer hmem hrun
    revert hann hfin
    cases journal.phase writer.containerID <;> simp [Phase.announced, Phase.unfinished]
  obtain ⟨hlog, hdisk⟩ := @remove_cases sourceID w o journal.runID false
  generalize w.remove sourceID o journal.runID false = r at hlog hdisk ⊢
  have howed : owed r.2.log = owed w.log := by
    rw [hlog]
    rfl
  refine ⟨⟨?_, ?_⟩, ⟨⟨hw.version, ?_, ?_, hw.known⟩, ?_⟩⟩
  · intro runID containerID hid
    rw [howed] at hid
    obtain ⟨stored, hs, hr, howes⟩ := hd.recorded runID containerID hid
    refine ⟨stored, ?_, hr, howes⟩
    rcases hdisk with h | ⟨h, _⟩
    · rw [h, lookup_erase, if_neg, hs]
      intro hfile
      have hrun := hw.alone runID containerID hid hfile
      exact hnone containerID (hrun ▸ hid)
    · rw [h, hs]
  · intro name stored hs
    rcases hdisk with h | ⟨h, _⟩
    · rw [h] at hs
      exact hd.version name stored (lookup_of_lookup_erase hs)
    · rw [h] at hs
      exact hd.version name stored hs
  · rw [howed]
    exact hw.alone
  · rw [howed]
    exact hw.owes
  · intro writer hmem hrun hu
    rw [hdone writer hmem hrun] at hu
    cases hu

variable {writers : List Writer} {name : String} {kind : EntryKind}

theorem wp_resume (hd : Durable sourceID w) (hw : Working sourceID journal w) :
    Disciplined sourceID (resume journal) (fun r w' => Working sourceID r.2 w') w := by
  refine wp_bind ((wp_resumeWriters journal.writers (fun _ h => h) hd hw).post ?_)
  rintro ⟨failures, journal'⟩ w' hd' hr
  split
  · exact ⟨hd', hr.working⟩
  next hlen =>
    have hnil : failures = [] := by
      cases failures with
      | nil => rfl
      | cons _ _ => simp at hlen
    have hdone := hr.done hnil
    rw [← hr.advances.writers] at hdone
    refine wp_issue_bind (fun _ w' => Durable sourceID w' ∧ Working sourceID journal' w') hd'
      (fun o _ => working_remove hd' hr.working hdone o) ?_
    rintro r w'' ⟨hd'', hw''⟩
    exact ⟨hd'', hw''⟩

/-! Recovery. -/

theorem validWriters_known {seen : List String} (hv : journal.version = 2)
    (h : validWriters journal seen writers = true) :
    ∀ writer ∈ writers, knownPhase (journal.phase writer.containerID) = true := by
  induction writers generalizing seen with
  | nil => simp
  | cons writer rest ih =>
    simp only [validWriters, Bool.and_eq_true, hv] at h
    obtain ⟨⟨_, hk⟩, hrest⟩ := h
    exact List.forall_mem_cons.mpr ⟨by simpa using hk, ih hrest⟩

/-- A valid journal read from disk is all that the memory needs. -/
theorem working_of_read (hd : Durable sourceID w)
    (hread : w.disk.lookup name = some (.file (some journal)))
    (hv : validJournal sourceID journal name = true) : Working sourceID journal w := by
  have hversion := hd.version name journal hread hv
  simp only [validJournal, Bool.and_eq_true, decide_eq_true_eq] at hv
  obtain ⟨⟨_, hfile⟩, hwriters⟩ := hv
  subst hfile
  have hknown := validWriters_known hversion hwriters
  have hstored : ∀ runID containerID, (runID, containerID) ∈ owed w.log →
      journalFile sourceID runID = journalFile sourceID journal.runID →
      runID = journal.runID ∧ journal.Owes containerID := by
    intro runID containerID howed hfile
    obtain ⟨stored, hs, hr, howes⟩ := hd.recorded runID containerID howed
    rw [hfile, hread] at hs
    cases hs
    exact ⟨hr.symm, howes⟩
  refine ⟨⟨hversion, fun runID containerID howed hfile =>
    (hstored runID containerID howed hfile).1, fun containerID howed =>
    (hstored _ containerID howed rfl).2, hknown⟩, ?_⟩
  intro writer hmem hrun hu _
  exact ⟨journal, hread, rfl, ⟨writer, hmem, rfl, hrun⟩,
    announced_of_unfinished (hknown writer hmem) hu⟩

theorem durable_recoverEntry (hd : Durable sourceID w)
    (hkind : ∀ entry, w.disk.lookup name = some entry → entry.kind = kind) :
    Disciplined sourceID (recoverEntry sourceID name kind) (fun _ _ => True) w := by
  refine wp_recoverEntry hd (fun _ => trivial) (fun _ => trivial) ?_
  intro journal entry _ hsym hentry hcontent hvalid _
  obtain rfl := file_of_content hcontent (hkind entry hentry ▸ hsym)
  exact (wp_resume hd (working_of_read hd hentry hvalid)).post fun _ _ _ _ => trivial

theorem durable_recoverEntries (entries : List (String × EntryKind)) (hd : Durable sourceID w)
    (hnodup : (entries.map Prod.fst).Nodup)
    (hkind : ∀ name kind, (name, kind) ∈ entries → ∀ entry, w.disk.lookup name = some entry →
      entry.kind = kind) :
    Disciplined sourceID (recoverEntries sourceID entries) (fun _ _ => True) w := by
  induction entries generalizing w with
  | nil => exact ⟨hd, trivial⟩
  | cons e rest ih =>
    obtain ⟨name, kind⟩ := e
    obtain ⟨hname, hrest⟩ := List.nodup_cons.mp hnodup
    have hfirst := durable_recoverEntry hd (hkind name kind List.mem_cons_self)
    refine wp_bind ((hfirst.and (wp_recoverEntry_clears (I := fun _ => True)
      (fun _ _ _ _ _ _ => trivial) trivial)).post ?_)
    rintro r w₁ hd₁ ⟨-, hcleared⟩
    -- the first entry leaves the files of the others alone
    have hkind₁ : ∀ name' kind', (name', kind') ∈ rest → ∀ entry,
        w₁.disk.lookup name' = some entry → entry.kind = kind' := by
      intro name' kind' hmem entry he
      rw [hcleared.frame name'] at he
      · exact hkind name' kind' (List.mem_cons_of_mem _ hmem) entry he
      · intro kind'' hfirst
        cases List.mem_singleton.mp hfirst
        exact absurd (List.mem_map.mpr ⟨_, hmem, rfl⟩) hname
    cases r with
    | error err => exact wp_bind ((ih hd₁ hrest hkind₁).post fun _ _ hd₂ _ => ⟨hd₂, trivial⟩)
    | ok _ => exact ih hd₁ hrest hkind₁

/-- A recovery without error leaves no stopped writer behind. -/
theorem durable_recover (hd : Durable sourceID w) :
    Disciplined sourceID (recover sourceID) (fun r w' => r = .ok () → owed w'.log = []) w := by
  have hkind : ∀ name kind, (name, kind) ∈ w.readDir → ∀ entry,
      w.disk.lookup name = some entry → entry.kind = kind := by
    intro name kind hmem entry he
    obtain ⟨entry', he', rfl⟩ := mem_readDir.mp hmem
    rw [he] at he'
    cases he'
    rfl
  have hentries := durable_recoverEntries w.readDir hd (nodup_readDir w) hkind
  refine ((wp_recover hd (Q := fun _ _ => True) (fun _ => trivial) hentries).and
    (wp_recover_clears (I := fun _ => True) (fun _ _ _ _ _ _ => trivial) trivial)).post ?_
  rintro r w' hd' ⟨-, hcleared⟩ hok
  apply List.eq_nil_iff_forall_not_mem.mpr
  rintro ⟨runID, containerID⟩ howed
  obtain ⟨journal, hfile, _, _⟩ := hd'.recorded runID containerID howed
  exact hcleared hok _ _ hfile ⟨by simp [DirEntry.kind], hasSuffix_journalFile runID⟩

/-! Capture. -/

theorem wp_stopWriter (hd : Durable sourceID w) (hw : Working sourceID journal w)
    (hmem : writer ∈ journal.writers) (hrun : writer.running = true)
    (hu : (journal.phase writer.containerID).unfinished = true)
    (hlost : lostIntents w.log = []) :
    Disciplined sourceID (stopWriter journal.runID writer)
      (fun _ w' => Working sourceID journal w') w := by
  refine wp_issue_bind (fun _ w' => w = w') hd (fun _ _ => rfl) ?_
  rintro (_ | err) _ rfl
  · dsimp only
    split
    · exact ⟨hd, hw⟩
    · exact ⟨hd, fun o _ => working_stop hd hw hmem hrun hu (by simp [hlost]) false⟩
  · exact ⟨hd, hw⟩

theorem wp_stopJournalWriter (hd : Durable sourceID w) (hw : Working sourceID journal w)
    (hmem : writer ∈ journal.writers) (hrun : writer.running = true) :
    Disciplined sourceID (stopJournalWriter journal writer)
      (fun r w' => Working sourceID r.2 w' ∧ r.2.writers = journal.writers) w := by
  have hm₁ : Memory sourceID (journal.setPhase writer.containerID .stopRequested) w :=
    hw.toMemory.setPhase rfl fun _ => rfl
  refine wp_save hd hm₁ (hw.backed_setPhase fun _ h => absurd rfl h) ?_
  rintro (err | ⟨⟩) w₁ hd₁ hw₁ _ hlost
  · exact ⟨hd₁, hw₁, rfl⟩
  have hphase : ((journal.setPhase writer.containerID .stopRequested).phase
      writer.containerID).unfinished = true := by
    rw [StopJournal.phase_setPhase, if_pos rfl]
    rfl
  refine wp_bind ((wp_stopWriter hd₁ hw₁ hmem hrun hphase (hlost rfl)).post ?_)
  rintro (err | ⟨⟩) w₂ hd₂ hw₂
  · exact ⟨hd₂, hw₂, rfl⟩
  have hm₃ : Memory sourceID ((journal.setPhase writer.containerID
      .stopRequested).setPhase writer.containerID .stopped) w₂ :=
    hw₂.toMemory.setPhase rfl fun _ => rfl
  refine wp_save hd₂ hm₃ (hw₂.backed_setPhase fun _ _ => hphase) ?_
  intro r w₃ hd₃ hw₃ _ _
  exact ⟨hd₃, hw₃, rfl⟩

theorem wp_stopWriters (writers : List Writer)
    (hsub : ∀ writer ∈ writers, writer ∈ journal.writers ∧ writer.running = true)
    (hd : Durable sourceID w) (hw : Working sourceID journal w) :
    Disciplined sourceID (stopWriters journal writers)
      (fun r w' => Working sourceID r.2 w') w := by
  induction writers generalizing journal w with
  | nil => exact ⟨hd, hw⟩
  | cons writer rest ih =>
    obtain ⟨⟨hmem, hrun⟩, hrest⟩ := List.forall_mem_cons.mp hsub
    refine wp_bind ((wp_stopJournalWriter hd hw hmem hrun).post ?_)
    rintro ⟨err | ⟨⟩, journal'⟩ w₁ hd₁ ⟨hw₁, hwriters⟩
    · exact ⟨hd₁, hw₁⟩
    · exact ih (fun writer h => hwriters.symm ▸ hrest writer h) hd₁ hw₁

theorem wp_captureStopped (hrun : ∀ writer ∈ journal.writers, writer.running = true)
    (hd : Durable sourceID w) (hw : Working sourceID journal w) :
    Disciplined sourceID (captureStopped journal) (fun _ _ => True) w := by
  have hresume : ∀ {w} {journal} (err : String), Durable sourceID w →
      Working sourceID journal w →
      Disciplined sourceID (do
        let resumed ← resume journal
        pure (joinError (.error err) resumed.1)) (fun _ _ => True) w := by
    intro w journal err hd hw
    exact wp_bind ((wp_resume hd hw).post fun _ _ hd' _ => ⟨hd', trivial⟩)
  refine wp_bind
    ((wp_stopWriters journal.writers (fun _ h => ⟨h, hrun _ h⟩) hd hw).post ?_)
  rintro ⟨err | ⟨⟩, journal₁⟩ w₁ hd₁ hw₁
  · exact hresume _ hd₁ hw₁
  refine wp_issue_bind (fun _ w' => w₁ = w') hd₁ (fun _ _ => rfl) ?_
  rintro (err | ⟨⟩) _ rfl
  · exact hresume _ hd₁ hw₁
  refine wp_bind ((wp_resume hd₁ hw₁).post ?_)
  rintro ⟨err | ⟨⟩, journal₂⟩ w₂ hd₂ hr
  · exact hresume _ hd₂ hr
  · exact ⟨hd₂, fun _ _ => ⟨hd₂, trivial⟩⟩

theorem phase_newStopJournal {runID : String}
    (hmem : writer ∈ (newStopJournal runID writers).writers) :
    (newStopJournal runID writers).phase writer.containerID = .planned := by
  have hin : writer.containerID ∈ writers.map Writer.containerID := List.mem_map_of_mem hmem
  simp [newStopJournal, StopJournal.phase, lookup_insertAll, hin]

theorem uniqueRunningWriters_running {sources : List ManifestSource}
    (hmem : writer ∈ uniqueRunningWriters sources) : writer.running = true := by
  have hfold : ∀ (writers : List Writer) (m : GoMap String Writer),
      (∀ writer ∈ writers, writer.running = true) →
      (∀ id writer, m.lookup id = some writer → writer.running = true) → ∀ id writer,
        (writers.foldl (fun m writer => m.insert writer.containerID writer) m).lookup id =
          some writer → writer.running = true := by
    intro writers
    induction writers with
    | nil => exact fun m _ hm => hm
    | cons x rest ih =>
      intro m hall hm
      obtain ⟨hx, hrest⟩ := List.forall_mem_cons.mp hall
      exact ih (m.insert x.containerID x) hrest (forall_insert hm hx)
  unfold uniqueRunningWriters at hmem
  rw [List.mem_mergeSort, List.mem_map] at hmem
  obtain ⟨e, he, rfl⟩ := hmem
  exact hfold _ ∅ (fun _ h => (List.mem_filter.mp h).2) (by simp) e.1 e.2
    (lookup_eq_some_iff.mpr he)

theorem wp_prepare (planSources : ℕ) (runID : String) (hd : Durable sourceID w) :
    Disciplined sourceID (prepare sourceID planSources runID) (fun _ _ => True) w := by
  unfold prepare
  split
  · exact ⟨hd, trivial⟩
  refine wp_bind ((durable_recover hd).post ?_)
  rintro (err | ⟨⟩) w₁ hd₁ howed
  · exact ⟨hd₁, trivial⟩
  refine wp_issue_bind (fun _ w' => w₁ = w') hd₁ (fun _ _ => rfl) ?_
  rintro (err | sources) _ rfl
  · exact ⟨hd₁, trivial⟩
  refine wp_issue_bind (fun _ w' => w₁ = w') hd₁ (fun _ _ => rfl) ?_
  rintro (err | ⟨⟩) _ rfl
  · exact ⟨hd₁, trivial⟩
  dsimp only
  split
  · exact ⟨hd₁, trivial⟩
  split
  · exact ⟨hd₁, fun _ _ => ⟨hd₁, trivial⟩⟩
  have hnone : ∀ runID containerID, (runID, containerID) ∉ owed w₁.log := by
    simp [howed rfl]
  have hm : Memory sourceID (newStopJournal runID (uniqueRunningWriters sources)) w₁ :=
    ⟨rfl, fun _ _ h => absurd h (hnone _ _), fun _ h => absurd h (hnone _ _),
      fun writer hmem => by
        rw [phase_newStopJournal hmem]
        rfl⟩
  refine wp_save hd₁ hm ?_ ?_
  · intro writer hmem _ hu
    rw [phase_newStopJournal hmem] at hu
    cases hu
  rintro (err | ⟨⟩) w₂ hd₂ hw₂ _ _
  · exact ⟨hd₂, trivial⟩
  · exact wp_captureStopped (fun _ h => uniqueRunningWriters_running h) hd₂ hw₂

theorem wp_retryRecovery (runID : String) (hd : Durable sourceID w) :
    Disciplined sourceID (resolveRecovery sourceID runID .retry) (fun _ _ => True) w := by
  refine wp_bind ((wp_validateRecoveryResolution hd).post ?_)
  rintro (err | journal) _ _ ⟨rfl, hread⟩
  · exact ⟨hd, trivial⟩
  · have hstored := (hread journal rfl).1
    exact wp_bind ((wp_resume hd (working_of_read hd hstored.file hstored.valid)).post
      fun _ _ hd₂ _ => ⟨hd₂, trivial⟩)

end Programs

/-! Runs: calls one after the other, each cut off anywhere. -/

inductive Call
  | prepare (planSources : ℕ) (runID : String)
  | recover
  | retryRecovery (runID : String)

variable (sourceID) in
def Call.prog : Call → CaptureProg Unit
  | .prepare planSources runID => do
    let _ ← Backup.prepare sourceID planSources runID
    pure ()
  | .recover => do
    let _ ← Backup.recover sourceID
    pure ()
  | .retryRecovery runID => do
    let _ ← resolveRecovery sourceID runID .retry
    pure ()

variable (sourceID) in
/-- One call, run for as many commands as there are outcomes. A crash loses the rest. -/
def callLts (Allowed : Cmd → Out → World → Prop) : Lts World (Call × List Out) where
  Tr w l w' :=
    (l.1.prog sourceID).Meets (captureMachine sourceID) Allowed l.2 (w.record .callBegan) ∧
      w' = ((l.1.prog sourceID).run (captureMachine sourceID) l.2 (w.record .callBegan)).2

variable (sourceID) in
/-- Nothing has been issued yet and every journal has the version that this code writes. -/
def Fresh (w : World) : Prop := w.log = [] ∧ CurrentVersion sourceID w

theorem durable_call {call : Call} (hd : Durable sourceID w) :
    Disciplined sourceID (call.prog sourceID) (fun _ _ => True) w := by
  cases call with
  | prepare planSources runID =>
    exact wp_bind ((wp_prepare planSources runID hd).post fun _ _ h _ => ⟨h, trivial⟩)
  | recover => exact wp_bind ((durable_recover hd).post fun _ _ h _ => ⟨h, trivial⟩)
  | retryRecovery runID =>
    exact wp_bind ((wp_retryRecovery runID hd).post fun _ _ h _ => ⟨h, trivial⟩)

/-- In every run in which no fence is issued for a writer whose stop intent was lost, every
stopped writer is recorded on disk, whatever fails and wherever a call is cut off. -/
theorem write_ahead_of_announced_fences
    (h : (callLts sourceID FenceAnnounced).Reachable (Fresh sourceID) w) :
    WriteAhead sourceID w := by
  refine Durable.writeAhead (Lts.reachable_of_trInv ?_ ?_ h)
  · rintro w₀ ⟨hlog, hversion⟩
    refine ⟨?_, hversion⟩
    intro runID containerID howed
    rw [hlog] at howed
    cases howed
  · rintro w₁ ⟨call, outs⟩ _ ⟨hmeets, rfl⟩ hd
    have hbegan : Durable sourceID (w₁.record .callBegan) := ⟨hd.recorded, hd.version⟩
    exact (Wp.run (durable_call hbegan) hmeets).1

/-! One running writer, and a stop intent that is or is not written. -/

namespace OneWriter

def database : Writer := ⟨"c1", "demo", "db", true, false, none⟩

def fine : Out := ⟨none, false, [⟨"data", "volume", [database]⟩], ⟨[], []⟩, "", []⟩

def diskFull : Out := { fine with failure := some "no space left on device" }

def start : World := ⟨∅, []⟩

/-- `Prepare` up to the end of the given outcomes. -/
def prepared (outs : List Out) : World :=
  (((Call.prepare 1 "run").prog id).run (captureMachine id) outs (start.record .callBegan)).2

/-- The write of the intent fails, the writer is fenced. -/
def lostIntent : List Out := List.replicate 4 fine ++ [diskFull, fine]

/-- The intent is written, the writer is stopped. -/
def keptIntent : List Out := List.replicate 7 fine

theorem reachable_prepared {Allowed : Cmd → Out → World → Prop} {outs : List Out}
    (h : ((Call.prepare 1 "run").prog id).Meets (captureMachine id) Allowed outs
      (start.record .callBegan)) :
    (callLts id Allowed).Reachable (Fresh id) (prepared outs) :=
  ⟨start, ⟨rfl, fun _ _ h => by simp [start] at h⟩, [(.prepare 1 "run", outs)],
    .stepL ⟨h, rfl⟩ .refl⟩

end OneWriter

/-- The stopped writer is only planned on disk: the next recovery drops the journal. -/
theorem fence_without_intent :
    ¬ ∀ (sourceID : String → String) (w : World),
      (callLts sourceID fun _ _ _ => True).Reachable (Fresh sourceID) w →
        WriteAhead sourceID w := by
  intro h
  obtain ⟨journal, hfile, _, hphase⟩ := h id (OneWriter.prepared OneWriter.lostIntent)
    (OneWriter.reachable_prepared meets_true) "run" "c1" (by decide +kernel)
  have hplanned : ((OneWriter.prepared OneWriter.lostIntent).disk.lookup
      (journalFile id "run")).bind (fun e => e.content.map (·.phase "c1")) = some .planned := by
    decide +kernel
  rw [hfile] at hplanned
  simp only [Option.bind_some, DirEntry.content, Option.map_some, Option.some.injEq] at hplanned
  rw [hplanned] at hphase
  cases hphase

/-- A crash right after the stop finds the writer on disk. -/
theorem write_ahead_kept_intent :
    ("run", "c1") ∈ owed (OneWriter.prepared OneWriter.keptIntent).log ∧
      WriteAhead id (OneWriter.prepared OneWriter.keptIntent) :=
  ⟨by decide +kernel,
    write_ahead_of_announced_fences (OneWriter.reachable_prepared (by decide +kernel))⟩

end Stacklab.Backup
