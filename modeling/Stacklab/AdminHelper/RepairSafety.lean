import Stacklab.AdminHelper.Repair

/-! A repair changes only files in the validated root, if no link is put in its way. -/
namespace Stacklab.AdminHelper

open Lib Workspace Prog

variable {α : Type} {w w' u : HelperWorld} {target path : Path} {depth uid gid : ℕ}
  {act : Action} {info : FileInfo} {kind : EntryKind} {Q : α → HelperWorld → Prop}
  {look : HelperProg (Except Errno FileInfo)} {entries : List DirEntry} {o : HelperOut}
  {recursive : Bool} {env : HelperEnv} {log : List (List Name × Except Errno Path)}
  {s : RepairState}

/-- The user's steps leave the answers and the changes as they are. -/
structure HelperRely (w w' : HelperWorld) : Prop where
  resolved : w'.resolved = w.resolved
  changed : w'.changed = w.changed

theorem HelperRely.refl (w : HelperWorld) : HelperRely w w := ⟨rfl, rfl⟩

theorem HelperRely.trans (h : HelperRely w w') (h' : HelperRely w' u) : HelperRely w u :=
  ⟨h'.resolved.trans h.resolved, h'.changed.trans h.changed⟩

/-- When a file is changed, no name on the way to it is a link. -/
def ChangeUnlinked (c : HelperCmd) (_ : HelperOut) (w : HelperWorld) : Prop :=
  match c with
  | .change _ p => w.tree.Unlinked p
  | _ => True

abbrev HelperSafe (p : HelperProg α) (Q : α → HelperWorld → Prop) (w : HelperWorld) : Prop :=
  p.Safe helperMachine ChangeUnlinked ChangesManaged HelperRely (fun _ _ => True) Q w

/-- The place is in the root that was validated. -/
def Validated (p : Path) (w : HelperWorld) : Prop :=
  ∃ R, validatedRoot w.resolved = some R ∧ R <+: p

theorem Validated.stable (h : Validated path w) (hr : w'.resolved = w.resolved) :
    Validated path w' := by
  rwa [Validated, hr]

theorem Validated.below (h : Validated target w) (hin : target <+: path) : Validated path w := by
  obtain ⟨R, hR, htarget⟩ := h
  exact ⟨R, hR, htarget.trans hin⟩

theorem ChangesManaged.change (h : ChangesManaged w) (hv : Validated path w) (c : Change) :
    ChangesManaged (w.change c path) := by
  intro change hmem
  rcases List.mem_append.mp hmem with hmem | hmem
  · exact h change hmem
  · obtain rfl := List.mem_singleton.mp hmem
    exact hv

theorem statPlace_unlinked (hclean : Clean path) (hlinks : w.tree.Unlinked path) {place : Path}
    (h : statPlace w.tree path = .ok place) : place = path := by
  rw [statPlace] at h
  split at h
  next hwalk =>
    cases h
    exact Tree.walk_unlinked hclean hlinks hwalk
  all_goals cases h

theorem safe_return {a : α} (h : ∀ w', w'.resolved = w.resolved → Q a w') :
    HelperSafe (pure a) Q w :=
  safe_pure fun w' hR _ => h w' hR.resolved

/-- Go on after a command that only looks. -/
theorem safe_look {c : HelperCmd} {k : HelperAns c → HelperProg α}
    (hlook : ∀ o u, (helperMachine.exec c o u).2 = u) (hv : Validated target w)
    (hk : ∀ o u, Validated target u → HelperSafe (k (helperMachine.exec c o u).1) Q u) :
    HelperSafe (c.issue >>= k) Q w := by
  refine safe_issue_bind hv (fun _ _ h hR => h.stable hR.resolved) ?_
  intro u o hu hI _
  rw [hlook]
  exact ⟨trivial, hI, hk o u hu⟩

theorem changeIf_safe {needed : Bool} {c : Change} {verb : String} (hclean : Clean path)
    (hin : target <+: path) (hv : Validated target w) :
    HelperSafe (changeIf needed c verb path) (fun _ => Validated target) w := by
  rw [changeIf]
  split
  · refine safe_issue_bind hv (fun _ _ h hR => h.stable hR.resolved) ?_
    intro u o hu hI hlinks
    have hdone : ChangesManaged (helperMachine.exec (.change c path) o u).2 ∧
        (helperMachine.exec (.change c path) o u).2.resolved = u.resolved := by
      simp only [helperMachine]
      split
      · exact ⟨hI, rfl⟩
      · exact ⟨hI, rfl⟩
      next place _ hplace =>
        obtain rfl := statPlace_unlinked hclean hlinks hplace
        exact ⟨hI.change (hu.below hin) c, rfl⟩
    refine ⟨trivial, hdone.1, ?_⟩
    split <;> exact safe_return fun _ hr => hu.stable (hr.trans hdone.2)
  · exact safe_return fun _ hr => hv.stable hr

/-- An action changes only the file that it is given. -/
def Action.SafeBelow (act : Action) (target : Path) : Prop :=
  ∀ path info w, Clean path → target <+: path → Validated target w →
    HelperSafe (act path info) (fun _ => Validated target) w

theorem repairOne_safe (uid gid : ℕ) (target : Path) :
    Action.SafeBelow (repairOne uid gid) target := by
  intro path info w hclean hin hv
  rw [repairOne]
  split
  · exact safe_return fun _ hr => hv.stable hr
  · refine safe_bind HelperRely.refl ((changeIf_safe hclean hin hv).post ?_)
    rintro ⟨changed, err⟩ u - hu
    cases err with
    | some e => exact safe_return fun _ hr => hu.stable hr
    | none =>
      refine safe_bind HelperRely.refl ((changeIf_safe hclean hin hu).post ?_)
      rintro ⟨more, err⟩ v - hv'
      exact safe_return fun _ hr => hv'.stable hr

theorem grantACL_safe (uid : ℕ) (target : Path) : Action.SafeBelow (grantACL uid) target := by
  intro path info w hclean hin hv
  rw [grantACL]
  split
  · exact safe_return fun _ hr => hv.stable hr
  · exact changeIf_safe hclean hin hv

theorem visit_safe (hact : act.SafeBelow target) (hclean : Clean path) (hin : target <+: path)
    (hv : Validated target w) (hlook : HelperSafe look (fun _ => Validated target) w) :
    HelperSafe (visit act path kind look) (fun _ => Validated target) w := by
  rw [visit]
  split
  · exact safe_return fun _ hr => hv.stable hr
  · refine safe_bind HelperRely.refl (hlook.post ?_)
    intro answer u _ hu
    cases answer with
    | error e => exact safe_return fun _ hr => hu.stable hr
    | ok info => exact hact path info u hclean hin hu

theorem walkEntries_safe {step : DirEntry → HelperProg Repaired} {changedItems : ℕ}
    (hv : Validated target w) (hstep : ∀ entry ∈ entries, ∀ u, Validated target u →
      HelperSafe (step entry) (fun _ => Validated target) u) :
    HelperSafe (walkEntries step entries changedItems) (fun _ => Validated target) w := by
  induction entries generalizing w changedItems with
  | nil => exact safe_return fun _ hr => hv.stable hr
  | cons entry rest ih =>
    obtain ⟨hentry, hrest⟩ := List.forall_mem_cons.mp hstep
    refine safe_bind HelperRely.refl ((hentry w hv).post ?_)
    rintro ⟨changed, err⟩ u - hu
    cases err with
    | some e => exact safe_return fun _ hr => hu.stable hr
    | none => exact ih hu hrest

theorem lstat_safe (p : Path) (hv : Validated target w) :
    HelperSafe (HelperCmd.lstat p).issue (fun _ => Validated target) w :=
  safe_look (k := ret) (fun _ _ => rfl) hv
    fun _ _ hu => safe_return fun _ hr => hu.stable hr

/-- The names that a directory yields are plain. -/
theorem plain_of_readDir {entry : DirEntry}
    (h : (helperMachine.exec (.readDir path) o w).1 = .ok entries) (hmem : entry ∈ entries) :
    Plain entry.name := by
  simp only [helperMachine] at h
  split at h
  · cases h
  · cases hdir : lookupDir w.tree path with
    | error e =>
      rw [hdir] at h
      cases h
    | ok d =>
      rw [hdir] at h
      cases h
      simpa using (List.mem_filter.mp hmem).2

/-- The walk goes on inside the target, however deep it comes. -/
theorem walkDir_safe (hact : act.SafeBelow target) (hclean : Clean path) (hin : target <+: path)
    (hv : Validated target w) (hlook : HelperSafe look (fun _ => Validated target) w) :
    HelperSafe (walkDir act depth path kind look) (fun _ => Validated target) w := by
  induction depth generalizing path kind look w with
  | zero => exact safe_return fun _ hr => hv.stable hr
  | succ depth ih =>
    refine safe_bind HelperRely.refl ((visit_safe hact hclean hin hv hlook).post ?_)
    rintro ⟨changed, err⟩ u - hu
    cases err with
    | some e => exact safe_return fun _ hr => hu.stable hr
    | none =>
      dsimp only
      split
      · exact safe_return fun _ hr => hu.stable hr
      · refine safe_look (fun _ _ => rfl) hu fun o v hv' => ?_
        split
        · exact safe_return fun _ hr => hv'.stable hr
        next entries hentries =>
          refine walkEntries_safe hv' fun entry hmem x hx => ?_
          have hname : Plain entry.name := plain_of_readDir hentries hmem
          apply ih
          · exact hclean.append fun n hn => List.mem_singleton.mp hn ▸ hname
          · exact hin.trans (List.prefix_append path _)
          · exact hx
          · exact lstat_safe _ hx

theorem repairPathWith_safe (hact : act.SafeBelow target) (hclean : Clean target)
    (hv : Validated target w) :
    HelperSafe (repairPathWith act depth target recursive) (fun _ => Validated target) w := by
  refine safe_look (fun _ _ => rfl) hv fun o u hu => ?_
  split
  · exact safe_return fun _ hr => hu.stable hr
  · split
    · exact safe_return fun _ hr => hu.stable hr
    · split
      · exact hact target _ u hclean (List.prefix_refl target) hu
      · refine safe_look (fun _ _ => rfl) hu fun o v hv' => ?_
        split
        · exact safe_return fun _ hr => hv'.stable hr
        · exact walkDir_safe hact hclean (List.prefix_refl target) hv'
            (safe_return fun _ hr => hv'.stable hr)

theorem repairTarget_safe {strategy : RepairStrategy} (hclean : Clean target)
    (hv : Validated target w) :
    HelperSafe (repairTarget depth env strategy recursive target) (fun _ _ => True) w := by
  rw [repairTarget]
  split
  · exact safe_return fun _ _ => trivial
  · refine safe_bind HelperRely.refl ?_
    have hrun : ∀ uid gid, HelperSafe (runStrategy depth strategy target uid gid recursive)
        (fun _ => Validated target) w := by
      intro uid gid
      cases strategy with
      | ownership => exact repairPathWith_safe (repairOne_safe uid gid target) hclean hv
      | acl => exact repairPathWith_safe (grantACL_safe uid target) hclean hv
    refine (hrun _ _).post ?_
    rintro ⟨changed, err⟩ u - -
    exact safe_return fun _ _ => trivial

/-- Nothing has been changed yet, and these are the answers so far. -/
def Asked (log : List (List Name × Except Errno Path)) (w : HelperWorld) : Prop :=
  w.resolved = log ∧ w.changed = []

theorem Asked.stable (h : Asked log w) (hR : HelperRely w w') : Asked log w' :=
  ⟨hR.resolved.trans h.1, hR.changed.trans h.2⟩

theorem safe_evalSymlinks {p : List Name} {k : Except Errno Path → HelperProg α} (h : Asked log w)
    (hk : ∀ answer u, (∀ r, answer = .ok r → Clean r) → Asked (log ++ [(p, answer)]) u →
      HelperSafe (k answer) Q u) : HelperSafe ((HelperCmd.evalSymlinks p).issue >>= k) Q w := by
  refine safe_issue_bind h (fun _ _ => Asked.stable) ?_
  intro u o hu _ _
  have hnone : ∀ c, c ∉ u.changed := by simp [hu.2]
  refine ⟨trivial, fun c hc => absurd hc (hnone c), hk _ _ ?_ ⟨?_, hu.2⟩⟩
  · intro r hr
    exact clean_of_node (evalSymlinks_ne_none hr)
  · simp only [helperMachine, hu.1]

/-- A target that is accepted is in the root that was validated. -/
def TargetValidated (res : Except HelperError (Path × Path)) (w : HelperWorld) : Prop :=
  ∀ accepted, res = .ok accepted → Clean accepted.1 ∧ Validated accepted.1 w

theorem refuse_safe (e : HelperError) : HelperSafe (pure (.error e)) TargetValidated w := by
  refine safe_return fun _ _ accepted he => ?_
  cases he

theorem resolveManagedTarget_safe {stacklabRoot : Path} {targetPath : List Name}
    (h : Asked [] w) :
    HelperSafe (resolveManagedTarget (fun p => (HelperCmd.evalSymlinks p).issue) stacklabRoot
      targetPath) TargetValidated w := by
  refine safe_evalSymlinks h fun answer u hclean hu => ?_
  dsimp only
  split
  · exact refuse_safe _
  · exact refuse_safe _
  next target =>
    have htarget := hclean target rfl
    refine safe_evalSymlinks hu fun evalConfig v _ hv => ?_
    split
    next hin =>
      refine safe_return fun x hx accepted he => ?_
      cases he
      refine ⟨htarget, _, ?_, (withinRoot_iff htarget).mp hin⟩
      rw [hx, hv.1]
      exact if_pos hin
    · refine safe_evalSymlinks hv fun evalStacks x _ hx => ?_
      split
      next hin =>
        split
        · exact refuse_safe _
        · refine safe_return fun y hy accepted he => ?_
          cases he
          refine ⟨htarget, _, ?_, (withinRoot_iff htarget).mp hin⟩
          rw [hy, hx.1]
          exact if_pos hin
      · exact refuse_safe _

theorem runRepair_safe (depth : ℕ) (env : HelperEnv) (request : RepairRequest)
    (h : Asked [] w) : HelperSafe (runRepair depth env request) (fun _ _ => True) w := by
  rw [runRepair]
  split
  · exact safe_return fun _ _ => trivial
  · split
    · exact safe_return fun _ _ => trivial
    · split
      · exact safe_return fun _ _ => trivial
      · refine safe_bind HelperRely.refl ((resolveManagedTarget_safe h).post ?_)
        intro res u _ hres
        split
        · exact safe_return fun _ _ => trivial
        · obtain ⟨hclean, hv⟩ := hres _ rfl
          exact repairTarget_safe hclean hv

instance (c : HelperCmd) (o : HelperOut) (w : HelperWorld) : Decidable (ChangeUnlinked c o w) := by
  unfold ChangeUnlinked
  split <;> infer_instance

/-- No name on the way to the file that the helper changes next is a link. -/
def RepairLabel.unlinked (s : RepairState) : RepairLabel → Bool
  | .user _ _ => true
  | .helper o =>
    match s.threads () with
    | some (.call c _) => decide (ChangeUnlinked c o s.world)
    | some (.ret _) | none => true

theorem permits_of_unlinked (h : (RepairLabel.helper o).unlinked s = true) :
    s.Permits ChangeUnlinked () o := by
  intro c k hc
  simpa only [RepairLabel.unlinked, hc, decide_eq_true_eq] using h

/-- The system in which no name on the way to a file is a link when the file is changed. -/
def unlinkedLts (stacklabRoot : Path) : Lts RepairState RepairLabel where
  Tr s l s' := (repairLts stacklabRoot).Tr s l s' ∧ l.unlinked s = true

abbrev RepairSafe (s : RepairState) : Prop :=
  s.Safe helperMachine ChangeUnlinked ChangesManaged (fun _ => HelperRely) fun _ _ _ => True

theorem helperRely_compatible :
    Pool.Compatible (fun _ : Unit => HelperRely) fun _ _ _ => True where
  refl _ := HelperRely.refl
  trans _ _ _ _ := HelperRely.trans
  other _ _ _ _ hne _ := absurd rfl hne

theorem started_safe {request : RepairRequest} (h : Started depth env request s) :
    RepairSafe s := by
  obtain ⟨hthread, hresolved, hchanged⟩ := h
  refine ⟨fun c hc => ?_, fun _ p hp => ?_⟩
  · rw [hchanged] at hc
    cases hc
  · cases hthread.symm.trans hp
    refine safe_bind HelperRely.refl
      ((runRepair_safe depth env request ⟨hresolved, hchanged⟩).post ?_)
    exact fun _ _ _ _ => safe_return fun _ _ => trivial

theorem repairSafe_inv (stacklabRoot : Path) : (unlinkedLts stacklabRoot).TrInv RepairSafe := by
  rintro s l s' ⟨⟨-, rfl⟩, hunlinked⟩ hs
  cases l with
  | helper o => exact hs.step helperRely_compatible (permits_of_unlinked hunlinked)
  | user tree attributes => exact hs.env helperRely_compatible hs.1 fun _ => ⟨rfl, rfl⟩

/-- Whatever the user does inside the managed roots between two calls of the helper: if no name on
the way to a file is a link at the moment the helper changes it, the file is in the root that was
validated. -/
theorem changes_managed {stacklabRoot : Path} {env : HelperEnv} {request : RepairRequest}
    {s : RepairState}
    (h : (unlinkedLts stacklabRoot).Reachable (Started depth env request) s) :
    ChangesManaged s.world :=
  (Lts.reachable_of_trInv (fun _ => started_safe) (repairSafe_inv stacklabRoot) h).1

theorem tree_step (s : RepairState) (o : HelperOut) :
    (s.step helperMachine () o).world.tree = s.world.tree := by
  unfold Pool.step
  split
  next c k _ =>
    cases c with
    | evalSymlinks p => rfl
    | lstat p => rfl
    | readDir p => rfl
    | change c p =>
      simp only [helperMachine]
      split <;> rfl
  all_goals rfl

/-- A file of the config root, and one that no user may change. -/
def hostTree : Tree :=
  (((((bareTree.grow [] "etc" .dir).grow ["etc"] "shadow" (.file true)).grow
    [] "opt" .dir).grow
    ["opt"] "stacklab" .dir).grow
    ["opt", "stacklab"] "config" .dir).grow
    ["opt", "stacklab", "config"] "app.env" (.file true)

/-- The user has replaced their file by a link. -/
def swappedTree : Tree :=
  hostTree.grow ["opt", "stacklab", "config"] "app.env" (.link ⟨true, ["etc", "shadow"]⟩)

def sudoEnv : HelperEnv where
  sources := ⟨.ok (["STACKLAB_ROOT=/opt/stacklab"], none), none, .ok ⟨[], by simp [Clean]⟩⟩
  sudoUID := some "1000"
  sudoGID := some "1000"
  euid := 0
  egid := 0

def repairFile : RepairRequest := ⟨"/opt/stacklab/config/app.env", false, ""⟩

def freshRepair : RepairState where
  threads _ := some (do let _ ← runRepair 0 sudoEnv repairFile; pure ())
  world := ⟨hostTree, fun _ => ⟨0, 0, 0o644⟩, [], []⟩

/-- The helper resolves the target and the config root and looks at the file. -/
def lookedAt : RepairState :=
  [RepairLabel.helper {}, .helper {}, .helper {}].foldl RepairLabel.next freshRepair

theorem lookedAt_run : (unlinkedLts ["opt", "stacklab"]).MTr freshRepair
    [.helper {}, .helper {}, .helper {}] lookedAt :=
  .stepL ⟨⟨trivial, rfl⟩, by decide +kernel⟩ (.stepL ⟨⟨trivial, rfl⟩, by decide +kernel⟩
    (.stepL ⟨⟨trivial, rfl⟩, by decide +kernel⟩ .refl))

theorem lookedAt_tree : lookedAt.world.tree = hostTree := by
  simp only [lookedAt, List.foldl_cons, List.foldl_nil, RepairLabel.next, tree_step]
  rfl

theorem freshRepair_started : Started 0 sudoEnv repairFile freshRepair := ⟨rfl, rfl, rfl⟩

/-- A user who leaves the file alone gets it back. -/
theorem own_file_repaired :
    ((.chown 1000 1000, ["opt", "stacklab", "config", "app.env"]) ∈
        ((RepairLabel.helper {}).next lookedAt).world.changed) ∧
      ChangesManaged ((RepairLabel.helper {}).next lookedAt).world := by
  have hlast : (unlinkedLts ["opt", "stacklab"]).Tr lookedAt (.helper {})
      ((RepairLabel.helper {}).next lookedAt) := ⟨⟨trivial, rfl⟩, by decide +kernel⟩
  exact ⟨by decide +kernel,
    changes_managed ⟨freshRepair, freshRepair_started, _, lookedAt_run.snoc hlast⟩⟩

/-- The link lies in the config root, so the user may put it there. -/
theorem swap_enabled (attributes : Path → Attributes) :
    (RepairLabel.user swappedTree attributes).Enabled ["opt", "stacklab"] lookedAt := by
  intro p hp
  rw [lookedAt_tree] at hp ⊢
  obtain rfl : p = ["opt", "stacklab", "config"] ++ ["app.env"] := by
    by_contra hne
    exact hp (Tree.grow_of_ne hne)
  exact ⟨"config", by decide, ["opt", "stacklab", "config"], by decide +kernel, by decide,
    by decide⟩

def swappedRun : List RepairLabel :=
  [.helper {}, .helper {}, .helper {}, .user swappedTree fun _ => ⟨0, 0, 0o644⟩, .helper {}]

/-- A user who replaces the file by a link, after the helper has looked at it, gets a file that
lies outside. -/
theorem foreign_file_repaired :
    ∃ s, (repairLts ["opt", "stacklab"]).MTr freshRepair swappedRun s ∧
      Started 0 sudoEnv repairFile freshRepair ∧
      (.chown 1000 1000, ["etc", "shadow"]) ∈ s.world.changed ∧ ¬ ChangesManaged s.world := by
  have hlooked : (repairLts ["opt", "stacklab"]).MTr freshRepair
      [.helper {}, .helper {}, .helper {}] lookedAt := by
    apply lookedAt_run.mono
    exact fun _ _ _ h => h.1
  have hrun : (repairLts ["opt", "stacklab"]).MTr freshRepair swappedRun
      (swappedRun.foldl RepairLabel.next freshRepair) :=
    (hlooked.snoc ⟨swap_enabled _, rfl⟩).snoc ⟨trivial, rfl⟩
  have hchanged : (.chown 1000 1000, ["etc", "shadow"]) ∈
      (swappedRun.foldl RepairLabel.next freshRepair).world.changed := by decide +kernel
  have hroot : validatedRoot (swappedRun.foldl RepairLabel.next freshRepair).world.resolved =
      some ["opt", "stacklab", "config"] := by decide +kernel
  refine ⟨_, hrun, freshRepair_started, hchanged, fun hmanaged => ?_⟩
  obtain ⟨R, hR, hin⟩ := hmanaged _ hchanged
  rw [hroot] at hR
  cases hR
  exact absurd hin (by decide)

end Stacklab.AdminHelper
