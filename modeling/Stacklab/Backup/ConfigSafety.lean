import Stacklab.Backup.ConfigFrames

/-! When a configuration call that returns an error has changed nothing. -/
namespace Stacklab.Backup

open Lib ConfigWorld

variable {checks : Checks} {env : CallEnv} {w w' : ConfigWorld} {id name : String}
  {files : GoMap String String}

/-- The files that a row of atomic writes replaces. -/
def replacedFiles (env : CallEnv) : List (String × String) → List (String × String)
  | [] => []
  | f :: rest =>
    match env.write f.1 with
    | .written => f :: replacedFiles env rest
    | .refused _ => []
    | .unsynced _ => [f]

/-- The credentials that `SaveDestination` is about to write, once every check has passed. -/
def WritesSecrets (checks : Checks) (env : CallEnv) (w : ConfigWorld) (id : String)
    (request : DestinationRequest) (target : String) (secret : Secrets) : Prop :=
  ∃ p, w.prepareDestination checks env id request = .ok p ∧ p.id = target ∧
    p.secrets = some secret ∧ ConfigWorld.validPassword secret.password = true ∧
    env.mkdir = none ∧ env.chmod = none

/-- The calls that cannot fail halfway. Credentials are written before the state is persisted and
removed after it: then either nothing fails any more, or the files that were replaced had the same
content already. -/
def Harmless (checks : Checks) (env : CallEnv) (w : ConfigWorld) : ConfigCall → Prop
  | .saveDestination id request => ∀ target secret,
    WritesSecrets checks env w id request target secret →
      ((∀ f ∈ ConfigWorld.secretFiles checks secret, env.write f.1 = .written) ∧
        env.persistErr = none) ∨
      ∀ f ∈ replacedFiles env (ConfigWorld.secretFiles checks secret),
        w.file target f.1 = some f.2
  | .deleteDestination id => ∀ d, ConfigWorld.deletable w id = .ok d → w.initErr = none →
    env.persistErr = none → env.remove = .removed
  | _ => True

section Writes

variable {l : List (String × String)} {m : GoMap String String}

theorem writeFiles_files (files : GoMap String String) :
    (writeFiles env files l).2 =
      (replacedFiles env l).foldl (fun m f => m.insert f.1 f.2) files := by
  induction l generalizing files with
  | nil => rfl
  | cons f rest ih =>
    obtain ⟨name, value⟩ := f
    simp only [writeFiles, replacedFiles]
    cases env.write name with
    | written => exact ih _
    | refused text => rfl
    | unsynced text => rfl

theorem writeFiles_ok :
    (writeFiles env files l).1 = none ↔ ∀ f ∈ l, env.write f.1 = .written := by
  induction l generalizing files with
  | nil => simp [writeFiles]
  | cons f rest ih =>
    obtain ⟨name, value⟩ := f
    simp only [writeFiles, List.forall_mem_cons]
    cases env.write name with
    | written =>
      rw [ih]
      simp
    | refused text => simp
    | unsynced text => simp

theorem replacedFiles_sublist : (replacedFiles env l).Sublist l := by
  induction l with
  | nil => exact .slnil
  | cons f rest ih =>
    simp only [replacedFiles]
    cases env.write f.1 with
    | written => exact ih.cons_cons f
    | refused text => exact List.nil_sublist _
    | unsynced text => exact (List.nil_sublist rest).cons_cons f

theorem lookup_written_of_mem {f : String × String} (hnames : (l.map Prod.fst).Nodup) (hf : f ∈ l) :
    (l.foldl (fun m f => m.insert f.1 f.2) m).lookup f.1 = some f.2 := by
  induction l using List.reverseRecOn with
  | nil => cases hf
  | append_singleton l g ih =>
    rw [List.map_append, List.nodup_append] at hnames
    obtain ⟨hl, -, hother⟩ := hnames
    rw [List.foldl_concat, GoMap.lookup_insert]
    rcases List.mem_append.mp hf with hf | hf
    · rw [if_neg (hother f.1 (List.mem_map_of_mem hf) g.1 (by simp))]
      exact ih hl hf
    · rw [List.mem_singleton.mp hf, if_pos rfl]

/-- Files that are replaced by what they contain stay as they are. -/
theorem lookup_written_of_same (h : ∀ f ∈ l, m.lookup f.1 = some f.2) (name : String) :
    (l.foldl (fun m f => m.insert f.1 f.2) m).lookup name = m.lookup name := by
  induction l using List.reverseRecOn with
  | nil => rfl
  | append_singleton l g ih =>
    rw [List.foldl_concat, GoMap.lookup_insert]
    split
    next hname =>
      rw [hname]
      exact (h g (by simp)).symm
    · exact ih fun f hf => h f (List.mem_append_left _ hf)

end Writes

section Credentials

variable {secret : Secrets}

theorem file_insert (id' : String) :
    ({ w with credentials := w.credentials.insert id files } : ConfigWorld).file id' name =
      if id' = id then files.lookup name else w.file id' name := by
  simp only [file, GoMap.lookup_insert]
  split <;> rfl

theorem lookup_getD_file :
    ((w.credentials.lookup id).getD ∅).lookup name = w.file id name := by
  unfold file
  cases w.credentials.lookup id with
  | none => rfl
  | some files => rfl

theorem Unchanged.trans {u : ConfigWorld} (h : Unchanged env w w') (h' : Unchanged env w' u) :
    Unchanged env w u :=
  ⟨fun k => (h'.destinations k).trans (h.destinations k), fun k => (h'.plans k).trans (h.plans k),
    fun k => (h'.copyCheckpoints k).trans (h.copyCheckpoints k),
    fun k => (h'.copyAttempts k).trans (h.copyAttempts k),
    fun k => (h'.maintenanceAttempts k).trans (h.maintenanceAttempts k),
    fun k => (h'.runs k).trans (h.runs k),
    fun k => (h'.repositoryJobs k).trans (h.repositoryJobs k),
    fun k n => (h'.credentials k n).trans (h.credentials k n)⟩

theorem Unchanged.symm (h : Unchanged env w w') : Unchanged env w' w :=
  ⟨fun k => (h.destinations k).symm, fun k => (h.plans k).symm,
    fun k => (h.copyCheckpoints k).symm, fun k => (h.copyAttempts k).symm,
    fun k => (h.maintenanceAttempts k).symm, fun k => (h.runs k).symm,
    fun k => (h.repositoryJobs k).symm, fun k n => (h.credentials k n).symm⟩

theorem unchanged_of_files {c : GoMap String (GoMap String String)}
    (h : ∀ id name, ({ w with credentials := c } : ConfigWorld).file id name = w.file id name) :
    Unchanged env w { w with credentials := c } :=
  ⟨fun _ => rfl, fun _ => rfl, fun _ => rfl, fun _ => rfl, fun _ => rfl, fun _ => rfl,
    fun _ => rfl, h⟩

/-- The state after the writes of `writeSecrets`, whether they all succeeded or not. -/
def wroteSecrets (checks : Checks) (env : CallEnv) (w : ConfigWorld) (target : String)
    (secret : Secrets) : ConfigWorld :=
  let files := (replacedFiles env (ConfigWorld.secretFiles checks secret)).foldl
    (fun m f => m.insert f.1 f.2) ((w.credentials.lookup target).getD ∅)
  { w with credentials := w.credentials.insert target files }

theorem secretFiles_names (secret : Secrets) :
    ((secretFiles checks secret).map Prod.fst).Nodup := by
  simp [secretFiles]

/-- The credential files are the same exactly if each replaced one had its content already. -/
theorem wroteSecrets_unchanged_iff {target : String} :
    Unchanged env w (wroteSecrets checks env w target secret) ↔
      ∀ f ∈ replacedFiles env (secretFiles checks secret),
        w.file target f.1 = some f.2 := by
  constructor
  · intro h f hf
    rw [← h.credentials target f.1, wroteSecrets, file_insert, if_pos rfl]
    exact lookup_written_of_mem
      ((secretFiles_names secret).sublist (replacedFiles_sublist.map Prod.fst)) hf
  · intro h
    apply unchanged_of_files
    intro id name
    rw [file_insert]
    split
    next hid =>
      rw [hid, lookup_written_of_same, lookup_getD_file]
      intro f hf
      rw [lookup_getD_file]
      exact h f hf
    · rfl

/-- `writeSecrets` changes nothing before its checks and its directory are in order. -/
theorem writeSecrets_unchanged (checks : Checks) (w : ConfigWorld) (target : String)
    (h : ¬ (validPassword secret.password = true ∧ env.mkdir = none ∧
      env.chmod = none)) :
    (w.writeSecrets checks env target secret).1 ≠ none ∧
      Unchanged env w (w.writeSecrets checks env target secret).2 := by
  unfold writeSecrets
  cases hpassword : validPassword secret.password with
  | false => exact ⟨by simp, .refl env w⟩
  | true =>
    cases hmkdir : env.mkdir with
    | some text => exact ⟨by simp, .refl env w⟩
    | none =>
      cases hchmod : env.chmod with
      | none => exact absurd ⟨hpassword, hmkdir, hchmod⟩ h
      | some text =>
        refine ⟨by simp, unchanged_of_files fun id name => ?_⟩
        rw [file_insert]
        split
        next hid =>
          rw [hid]
          exact lookup_getD_file
        · rfl

theorem writeSecrets_eq (checks : Checks) (w : ConfigWorld) (target : String)
    (hpassword : validPassword secret.password = true) (hmkdir : env.mkdir = none)
    (hchmod : env.chmod = none) :
    ((w.writeSecrets checks env target secret).1 = none ↔
      ∀ f ∈ secretFiles checks secret, env.write f.1 = .written) ∧
    (w.writeSecrets checks env target secret).2 = wroteSecrets checks env w target secret := by
  unfold writeSecrets
  simp only [hpassword, hmkdir, hchmod, Bool.not_true, Bool.false_eq_true, if_false]
  refine ⟨writeFiles_ok, ?_⟩
  rw [writeFiles_files]
  rfl

end Credentials

section Saves

variable {request : DestinationRequest} {p : ConfigWorld.PreparedDestination}

/-- A record that could not be persisted is taken back. -/
theorem storeDestination_unchanged (hkeyed : Keyed w.lease.runs) (hnew : NewIDs env w)
    (hid : p.id = if id = "" then env.newID else id)
    (herr : (w.storeDestination env id p).1 ≠ none) :
    Unchanged env w (w.storeDestination env id p).2 := by
  unfold storeDestination at herr ⊢
  split at herr
  · exact absurd rfl herr
  next err saved hpersist =>
    obtain ⟨runs, rfl, hpruned⟩ := persist_eq hpersist hkeyed
    refine ⟨fun k => ?_, fun _ => rfl, fun _ => rfl, fun _ => rfl, fun _ => rfl,
      liveRun_pruned (w := w) hpruned, fun _ => rfl, fun _ _ => rfl⟩
    exact lookup_undone hid hnew.destination hnew.noDestination k

theorem storeDestination_ok_iff :
    (w.storeDestination env id p).1 = none ↔ w.initErr = none ∧ env.persistErr = none := by
  have hpersist : (persist env (w.setDestinations
      (w.lease.destinations.insert p.id p.record))).1 = none ↔
      w.initErr = none ∧ env.persistErr = none := persist_ok_iff
  unfold storeDestination
  split
  next saved heq =>
    rw [heq] at hpersist
    exact hpersist
  next err saved heq =>
    rw [heq] at hpersist
    exact hpersist

section

variable (hkeyed : Keyed w.lease.runs) (hnew : NewIDs env w)
include hkeyed hnew

/-- What `SaveDestination` leaves when it fails after the first write. -/
theorem saveDestination_writes {target : String} {secret : Secrets}
    (hw : WritesSecrets checks env w id request target secret) :
    ((w.saveDestination checks env id request).1 = none ↔
      (∀ f ∈ secretFiles checks secret, env.write f.1 = .written) ∧
        env.persistErr = none) ∧
    ((w.saveDestination checks env id request).1 ≠ none →
      Unchanged env (wroteSecrets checks env w target secret)
        (w.saveDestination checks env id request).2) := by
  obtain ⟨p, hp, rfl, hsecrets, hpassword, hmkdir, hchmod⟩ := hw
  obtain ⟨hid, -, hinit⟩ := prepareDestination_ok hp
  obtain ⟨hok, hstate⟩ := writeSecrets_eq checks w p.id hpassword hmkdir hchmod
  unfold ConfigWorld.saveDestination
  rw [hp]
  dsimp only
  rw [hsecrets]
  dsimp only
  split
  next err u hwrite =>
    rw [hwrite] at hok hstate
    refine ⟨?_, fun _ => ?_⟩
    · constructor
      · intro h
        cases h
      · rintro ⟨hall, -⟩
        cases hok.mpr hall
    · rw [← hstate]
      exact .refl env u
  next u hwrite =>
    rw [hwrite] at hok hstate
    subst hstate
    refine ⟨?_, storeDestination_unchanged hkeyed ⟨hnew.1, hnew.2, hnew.3, hnew.4, hnew.5⟩ hid⟩
    rw [storeDestination_ok_iff]
    constructor
    · rintro ⟨-, hpersist⟩
      exact ⟨hok.mp rfl, hpersist⟩
    · rintro ⟨-, hpersist⟩
      exact ⟨hinit, hpersist⟩

/-- Without a write, a failed `SaveDestination` has changed nothing. -/
theorem saveDestination_unchanged
    (hw : ∀ target secret, ¬ WritesSecrets checks env w id request target secret)
    (herr : (w.saveDestination checks env id request).1 ≠ none) :
    Unchanged env w (w.saveDestination checks env id request).2 := by
  unfold ConfigWorld.saveDestination at herr ⊢
  split at herr
  · exact .refl env w
  next p hp =>
    obtain ⟨hid, -⟩ := prepareDestination_ok hp
    split at herr
    · exact storeDestination_unchanged hkeyed hnew hid herr
    next secret hsecrets =>
      have hnot := fun h => hw p.id secret ⟨p, hp, rfl, hsecrets, h⟩
      obtain ⟨hfailed, hsame⟩ := writeSecrets_unchanged checks w p.id hnot
      split at herr
      next err u hwrite =>
        rw [hwrite] at hsame
        exact hsame
      next u hwrite =>
        rw [hwrite] at hfailed
        exact absurd rfl hfailed

theorem saveDestination_unchanged_iff :
    ((w.saveDestination checks env id request).1 ≠ none →
      Unchanged env w (w.saveDestination checks env id request).2) ↔
    Harmless checks env w (.saveDestination id request) := by
  by_cases hwrites : ∃ target secret, WritesSecrets checks env w id request target secret
  · obtain ⟨target, secret, hw⟩ := hwrites
    obtain ⟨hok, hleft⟩ := saveDestination_writes hkeyed hnew hw
    constructor
    · intro h target' secret' hw'
      obtain ⟨hok', hleft'⟩ := saveDestination_writes hkeyed hnew hw'
      by_cases herr : (w.saveDestination checks env id request).1 = none
      · exact .inl (hok'.mp herr)
      · exact .inr (wroteSecrets_unchanged_iff.mp ((h herr).trans (hleft' herr).symm))
    · intro h herr
      rcases h target secret hw with hall | hsame
      · exact absurd (hok.mpr hall) herr
      · exact (wroteSecrets_unchanged_iff.mpr hsame).trans (hleft herr)
  · have hnone : ∀ target secret, ¬ WritesSecrets checks env w id request target secret :=
      fun target secret hw => hwrites ⟨target, secret, hw⟩
    exact iff_of_true (saveDestination_unchanged hkeyed hnew hnone)
      fun target secret hw => absurd hw (hnone target secret)

end

end Saves

theorem deleteDestination_unchanged_iff (hkeyed : Keyed w.lease.runs) :
    ((w.deleteDestination env id).1 ≠ none → Unchanged env w (w.deleteDestination env id).2) ↔
    Harmless checks env w (.deleteDestination id) := by
  constructor
  · intro h d hd hinit hpersist
    have hpersisted : (persist env (dropEvidence
        (ofDestination id) (w.setDestinations (w.lease.destinations.erase id)))).1 =
        none ↔ w.initErr = none ∧ env.persistErr = none := persist_ok_iff
    unfold ConfigWorld.deleteDestination at h
    rw [hd] at h
    dsimp only at h
    split at h
    next err saved heq =>
      rw [heq] at hpersisted
      cases hpersisted.mpr ⟨hinit, hpersist⟩
    next saved heq =>
      obtain ⟨runs, rfl, -⟩ := persist_eq heq hkeyed
      unfold removeCredentials at h
      cases hremove : env.remove with
      | removed => rfl
      | failed text kept =>
        -- the record is gone although the call returned an error
        rw [hremove] at h
        have hgone := (h (by simp)).destinations id
        change (w.lease.destinations.erase id).lookup id = _ at hgone
        rw [GoMap.lookup_erase, if_pos rfl, lookup_of_deletable hd] at hgone
        cases hgone
  · intro h herr
    exact deleteDestination_unchanged hkeyed herr h

/-- A call that returns an error has left everything as it was exactly if it could not fail after
the first change of the credential files. -/
theorem failed_call_changes_nothing_iff (call : ConfigCall)
    (hreach : LeaseReachable checks.digest checks.zones w.lease) (hnew : NewIDs env w) :
    ((call.run checks env w).1 ≠ none → Unchanged env w (call.run checks env w).2) ↔
      Harmless checks env w call := by
  have hsound := leaseReachable_sound hreach
  have hkeyed : Keyed w.lease.runs := hsound.tables.runIDs
  cases call with
  | saveDestination id request => exact saveDestination_unchanged_iff hkeyed hnew
  | deleteDestination id => exact deleteDestination_unchanged_iff hkeyed
  | savePlan id plan => exact iff_of_true (savePlan_unchanged hkeyed hnew) trivial
  | deletePlan id => exact iff_of_true (deletePlan_unchanged hkeyed) trivial
  | startRun planID request => exact iff_of_true (startRun_unchanged hsound) trivial
  | startRetry runID request => exact iff_of_true (startRetry_unchanged hsound) trivial

def plainChecks : Checks where
  validateDestination := .ok
  normalizePlan := .ok
  encode secret := secret.password
  decode text := some { password := text }
  digest kind repository := kind ++ repository
  zones := ⟨fun _ => none, .utc⟩

/-- The credentials can be written, but the state cannot be persisted. -/
def fullDisk : CallEnv where
  canonical := .ok "/srv"
  newID := "dst_2"
  now := 0
  readable := true
  mkdir := none
  chmod := none
  write := fun _ => .written
  remove := .removed
  preview := none
  paused := none
  retry := ⟨0, true, fun _ => none, none, .ok ""⟩
  holdings := .stored
  token := "t"
  expiresAt := 0
  clock := fun _ => 0
  order := .stored
  removable := fun _ => true
  persistErr := some "no space left on device"

/-- One destination with its credentials. -/
def configured : ConfigWorld where
  lease := { LeaseWorld.new with
    destinations := (∅ : GoMap String LeasedDestination).insert "dst_1"
      { LeasedDestination.zero with id := "dst_1", kind := "local", repository := "/srv" }
    savedIDs := ["dst_1"] }
  directory := "/state"
  initErr := none
  restoreDeletes := []
  copyCheckpoints := ∅
  copyAttempts := ∅
  maintenanceAttempts := ∅
  credentials := (∅ : GoMap String (GoMap String String)).insert "dst_1"
    ((∅ : GoMap String String).insert "password" "old")

theorem configured_reachable :
    LeaseReachable plainChecks.digest plainChecks.zones configured.lease := by
  refine ⟨configured.lease, ⟨rfl, ?_, ?_⟩, [], .refl⟩
  · exact GoMap.forall_insert (fun _ _ h => by cases h) ⟨rfl, List.mem_cons_self⟩
  · intro id p hp
    cases hp

theorem fullDisk_newIDs : NewIDs fullDisk configured :=
  ⟨by decide, by decide, by decide, by decide, by decide⟩

def manual : Schedule := ⟨.manual, "", 0, "", 0⟩

/-- The password of the repository is replaced, the disk is full and the record is taken back. -/
theorem failed_save_replaces_password :
    LeaseReachable plainChecks.digest plainChecks.zones configured.lease ∧
      NewIDs fullDisk configured ∧
      ∃ call : ConfigCall, (call.run plainChecks fullDisk configured).1 =
          some (.failed "no space left on device") ∧
        configured.file "dst_1" "password" = some "old" ∧
        (call.run plainChecks fullDisk configured).2.file "dst_1" "password" = some "new" ∧
        ¬ Unchanged fullDisk configured (call.run plainChecks fullDisk configured).2 := by
  refine ⟨configured_reachable, fullDisk_newIDs, .saveDestination "dst_1"
    ⟨"Disk", "local", "/srv", "", "", some { password := "new" }, manual, .metadata, manual⟩,
    by decide +kernel, by decide +kernel, by decide +kernel, ?_⟩
  intro h
  have hsame := h.credentials "dst_1" "password"
  revert hsame
  decide +kernel

/-- On the same disk a removal changes nothing. -/
theorem failed_delete_changes_nothing :
    Unchanged fullDisk configured
      ((ConfigCall.deleteDestination "dst_1").run plainChecks fullDisk configured).2 := by
  refine (failed_call_changes_nothing_iff (.deleteDestination "dst_1") configured_reachable
    fullDisk_newIDs).mpr ?_ (by decide +kernel)
  intro d _ _ hpersist
  cases hpersist

end Stacklab.Backup
