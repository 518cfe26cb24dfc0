import Stacklab.Workspace.AtomicWrite

/-! Where the target of a save lies, and that writing it stays inside the workspace root. -/
namespace Stacklab.Workspace

open Lib Prog Tree

variable {Allowed : Cmd → Out → World → Prop} {I : World → Prop} {t : Tree} {w : World}
  {p q d R root dir D parent target : Path} {n base : Name} {names : List Name} {kind : Kind}
  {request : SaveFileRequest} {stackID : String} {left : ℕ} {P : Path → World → Prop}
  {create : Bool}

def Clean (p : Path) : Prop := ∀ n ∈ p, Plain n

instance (p : Path) : Decidable (Clean p) := inferInstanceAs (Decidable (∀ n ∈ p, Plain n))

/-- What `filepath.Join` and `filepath.Abs` return. -/
abbrev CleanPath : Type := {p : Path // Clean p}

theorem Clean.append (h : Clean p) (h' : Clean q) : Clean (p ++ q) :=
  fun n hn => (List.mem_append.mp hn).elim (h n) (h' n)

theorem Clean.dropLast (h : Clean p) : Clean p.dropLast :=
  fun n hn => h n (List.dropLast_subset p hn)

theorem cleanParts_clean {parts : List String} (h : cleanParts parts = .ok names) :
    Clean names := by
  induction parts generalizing names with
  | nil =>
    cases h
    exact fun _ hn => absurd hn List.not_mem_nil
  | cons part rest ih =>
    rw [cleanParts] at h
    split at h
    · exact ih h
    next hempty =>
      split at h
      · cases h
      next hdots =>
        cases hr : cleanParts rest with
        | error e => simp [hr, Except.map] at h
        | ok more =>
          simp only [hr, Except.map, Except.ok.injEq] at h
          subst h
          rw [not_or] at hempty
          exact List.forall_mem_cons.mpr ⟨⟨hempty.1, hempty.2, hdots⟩, ih hr⟩

theorem normalizeRequiredFilePath_ok {value : String}
    (h : normalizeRequiredFilePath value = .ok names) : names ≠ [] ∧ Clean names := by
  rw [normalizeRequiredFilePath] at h
  split at h
  · cases h
  · cases h
  next hne hok =>
    cases h
    refine ⟨hne, ?_⟩
    rw [normalizeRelativePath] at hok
    split at hok
    · cases hok
      exact fun _ hn => absurd hn List.not_mem_nil
    · split at hok
      · cases hok
      · exact cleanParts_clean hok

theorem evalSymlinks_eq_ok :
    evalSymlinks t p = .ok q ↔ ∃ left, walk t.node goLinks [] p = .found q left := by
  rw [evalSymlinks]
  cases walk t.node goLinks [] p <;> simp

/-- What the kernel finds, `filepath.EvalSymlinks` finds as well. -/
theorem walk_goLinks (h : walk t.node kernelLinks [] p = .found q left) :
    walk t.node goLinks [] p = .found q (left + 215) :=
  walk_more 215 h

theorem evalSymlinks_of_walk (h : walk t.node kernelLinks [] p = .found q left) :
    evalSymlinks t p = .ok q :=
  evalSymlinks_eq_ok.mpr ⟨left + 215, walk_goLinks h⟩

theorem evalSymlinks_node (h : evalSymlinks t p = .ok q) :
    t.node q = some .dir ∨ ∃ regular, t.node q = some (.file regular) := by
  obtain ⟨left, hw⟩ := evalSymlinks_eq_ok.mp h
  exact walk_found t.root hw

theorem evalSymlinks_physical (h : evalSymlinks t p = .ok q) : evalSymlinks t q = .ok q :=
  evalSymlinks_of_walk (walk_physical (evalSymlinks_node h))

theorem Creatable.evalSymlinks (h : Creatable t p d n) (hp : Clean p) (more : List Name) :
    evalSymlinks t (p ++ more) = .error .notExist := by
  obtain ⟨q, rest, left, rfl, hw, hd, hnone⟩ := h
  have hn : Plain n := hp n (by simp)
  have hmissing : walk t.node goLinks [] (q ++ n :: (rest ++ more)) = .missing := by
    rw [walk_below t.root (by simp) (walk_goLinks hw) hd,
      walk_cons_none hn hnone]
  rw [List.append_assoc, List.cons_append, Workspace.evalSymlinks, hmissing]

theorem not_creatable (hp : Clean p) (h : evalSymlinks t p = .ok q) : ¬ Creatable t p d n := by
  intro hc
  have herr := hc.evalSymlinks hp []
  rw [List.append_nil, h] at herr
  cases herr

/-- If something below the root can be created, the kernel finds the root. -/
theorem Creatable.root_found (h : Creatable t (root ++ parent) d n) (hroot : Clean root)
    (hR : Workspace.evalSymlinks t root = .ok R) :
    ∃ left, walk t.node kernelLinks [] root = .found R left ∧ t.node R = some .dir := by
  obtain ⟨q, rest, left, hq, hw, hd, hnone⟩ := h
  obtain ⟨more, rfl⟩ : ∃ more, q = root ++ more := by
    rcases List.append_eq_append_iff.mp hq with ⟨more, hq, -⟩ | ⟨_ | ⟨m, more⟩, hroot', hm⟩
    · exact ⟨more, hq⟩
    · exact ⟨[], by simp [hroot']⟩
    · cases hm
      exact absurd ⟨q, more, left, hroot', hw, hd, hnone⟩ (not_creatable hroot hR)
  obtain ⟨found, spare, hfound, hdir⟩ := walk_prefix t.root hw
  have hsame : found = R := Except.ok.inj ((evalSymlinks_of_walk hfound).symm.trans hR)
  subst hsame
  refine ⟨spare, hfound, ?_⟩
  by_cases hmore : more = []
  · subst hmore
    rw [List.append_nil, hfound] at hw
    cases hw
    exact hd
  · exact hdir hmore

/-- A path as `ensureWithinRoot` compares it. -/
def resolvedOr (t : Tree) (p : Path) : Path := (evalSymlinks t p).toOption.getD p

theorem resolvedOr_ok (h : evalSymlinks t p = .ok q) : resolvedOr t p = q := by
  rw [resolvedOr, h]
  rfl

theorem resolvedOr_error {e : Errno} (h : evalSymlinks t p = .error e) : resolvedOr t p = p := by
  rw [resolvedOr, h]
  rfl

theorem wp_evalSymlinks_bind {α : Type} {Q : α → World → Prop}
    {k : Except Errno Path → FileProg α} (hI : I w)
    (hk : Wp fileMachine Allowed I (k (evalSymlinks w.tree p)) Q w) :
    Wp fileMachine Allowed I ((Cmd.evalSymlinks p).issue >>= k) Q w := by
  refine wp_issue_bind (fun r w' => r = evalSymlinks w.tree p ∧ w = w') hI
    (fun _ _ => ⟨rfl, rfl⟩) ?_
  rintro _ _ ⟨rfl, rfl⟩
  exact hk

theorem wp_ensureWithinRoot (hI : I w) :
    Wp fileMachine Allowed I (ensureWithinRoot root target) (fun r w' => w = w' ∧
      (r = none ∧ resolvedOr w.tree root <+: resolvedOr w.tree target ∨
        r = some (.pathOutsideWorkspace "") ∧
          ¬ resolvedOr w.tree root <+: resolvedOr w.tree target)) w := by
  refine wp_evalSymlinks_bind hI (wp_evalSymlinks_bind hI ?_)
  change Wp fileMachine Allowed I (if (resolvedOr w.tree root).isPrefixOf
    (resolvedOr w.tree target) then _ else _) _ w
  by_cases h : resolvedOr w.tree root <+: resolvedOr w.tree target
  · rw [if_pos (List.isPrefixOf_iff_prefix.mpr h)]
    exact wp_pure hI ⟨rfl, .inl ⟨rfl, h⟩⟩
  · rw [if_neg (mt List.isPrefixOf_iff_prefix.mp h)]
    exact wp_pure hI ⟨rfl, .inr ⟨rfl, h⟩⟩

/-- The root is there already, so nothing is created for it. -/
theorem wp_prepareRoot (hroot : Clean root) (hR : evalSymlinks w.tree root = .ok R)
    (hc : Confined R w) :
    Wp fileMachine Allowed (Confined R) (prepareRoot kind root) (fun r w' => w = w' ∧
      (r = none ∨ ∃ context e, r = some (.failed context e))) w := by
  rw [prepareRoot]
  split
  · have hnot : ∀ d n, ¬ Creatable w.tree root.reverse.reverse d n := by
      intro d n
      rw [List.reverse_reverse]
      exact not_creatable hroot hR
    refine wp_bind ((wp_mkdirAll root.reverse (fun n hn => hroot n (List.mem_reverse.mp hn))
      hc fun d n h => absurd h (hnot d n)).post ?_)
    intro r w' hc' hmade
    obtain rfl : w' = w := hmade.changed.resolve_right fun ⟨d, n, h⟩ => hnot d n h
    cases r with
    | none => exact wp_pure hc' ⟨rfl, .inl rfl⟩
    | some e => exact wp_pure hc' ⟨rfl, .inr ⟨_, e, rfl⟩⟩
  · exact wp_pure hc ⟨rfl, .inl rfl⟩

theorem wp_resolveExistingPath (hroot : Clean root) (hR : evalSymlinks w.tree root = .ok R)
    (hc : Confined R w) :
    Wp fileMachine Allowed (Confined R) (resolveExistingPath kind root names)
      (fun r w' => w = w' ∧
        (∀ q, r = .ok q → evalSymlinks w.tree (root ++ names) = .ok q ∧ R <+: q) ∧
        (r = .error .notFound → evalSymlinks w.tree (root ++ names) = .error .notExist)) w := by
  refine wp_bind ((wp_prepareRoot hroot hR hc).post ?_)
  rintro _ _ - ⟨rfl, rfl | ⟨context, e, rfl⟩⟩
  · refine wp_evalSymlinks_bind hc ?_
    rcases he : evalSymlinks w.tree (root ++ names) with e | q
    · cases e with
      | notExist => exact wp_pure hc ⟨rfl, by simp, fun _ => rfl⟩
      | _ => exact wp_pure hc ⟨rfl, by simp, by simp⟩
    · refine wp_bind ((wp_ensureWithinRoot hc).post ?_)
      rw [resolvedOr_ok hR, resolvedOr_ok (evalSymlinks_physical he)]
      rintro _ _ - ⟨rfl, ⟨rfl, hin⟩ | ⟨rfl, -⟩⟩
      · refine wp_pure hc ⟨rfl, ?_, by simp⟩
        rintro _ ⟨⟩
        exact ⟨rfl, hin⟩
      · exact wp_pure hc ⟨rfl, by simp, by simp⟩
  · exact wp_pure hc ⟨rfl, by simp, by simp⟩

/-- A property of the target that a step of the resolution returns, if it returns one. -/
def Yields (P : Path → World → Prop) (r : Except SaveError Path) (w : World) : Prop :=
  ∀ q, r = .ok q → P q w

theorem wp_refuse (hI : I w) (e : SaveError) :
    Wp fileMachine Allowed I (pure (.error e)) (Yields P) w :=
  wp_pure hI fun _ h => by cases h

theorem wp_accept (hI : I w) (hP : P q w) :
    Wp fileMachine Allowed I (pure (.ok q)) (Yields P) w :=
  wp_pure hI fun _ h => Except.ok.inj h ▸ hP

/-- An existing target is not a directory. -/
theorem wp_existingTarget (hI : I w) (hp : evalSymlinks w.tree p = .ok p)
    (hP : ∀ regular, w.tree.node p = some (.file regular) → P p w) :
    Wp fileMachine Allowed I (existingTarget kind p) (Yields P) w := by
  have hnode := evalSymlinks_node hp
  have hstat : stat w.tree p = (w.tree.node p).elim (.error .notExist) .ok := by
    rw [stat, walk_physical hnode]
  refine wp_stat_bind hI ?_
  rw [hstat]
  rcases hnode with hdir | ⟨regular, hfile⟩
  · rw [hdir]
    exact wp_refuse hI _
  · rw [hfile]
    refine wp_look_bind hI (fun _ => rfl) fun permissions => ?_
    split
    · exact wp_refuse hI _
    · cases regular with
      | false => exact wp_refuse hI _
      | true =>
        refine wp_look_bind hI (fun _ => rfl) fun entry => ?_
        split
        · exact wp_refuse hI _
        · exact wp_accept hI (hP true hfile)
        · exact wp_refuse hI _

/-- A target in a parent needs a directory there. -/
theorem wp_targetInParent (hI : I w)
    (hP : ∀ D, lookupDir w.tree parent = .ok D → P (parent ++ [base]) w) :
    Wp fileMachine Allowed I (targetInParent kind root parent base) (Yields P) w := by
  refine wp_stat_bind hI ?_
  rcases hs : stat w.tree parent with e | v
  · cases e <;> exact wp_refuse hI _
  · cases v with
    | dir =>
      obtain ⟨D, left, hw, hd⟩ := stat_eq_ok hs
      refine wp_look_bind hI (fun _ => rfl) fun permissions => ?_
      split
      · exact wp_refuse hI _
      · refine wp_bind ((wp_ensureWithinRoot hI).post ?_)
        rintro _ _ - ⟨rfl, ⟨rfl, -⟩ | ⟨rfl, -⟩⟩
        · exact wp_accept hI (hP D (lookupDir_eq_ok.mpr ⟨left, hw, hd⟩))
        · exact wp_refuse hI _
    | file regular => exact wp_refuse hI _
    | link onward => exact wp_refuse hI _

theorem wp_ensureExpectedModifiedAt {expected : Option Instant} (hI : I w) :
    Wp fileMachine Allowed I (ensureExpectedModifiedAt kind target expected)
      (fun _ w' => w = w') w := by
  cases expected with
  | none => exact wp_pure hI rfl
  | some expected =>
    refine wp_look_bind hI (fun _ => rfl) fun modTime => ?_
    split <;> exact wp_pure hI rfl

/-- The write to the target stays inside `R`. -/
def Writable (R target : Path) (w : World) : Prop :=
  ∃ dir base D, target = dir ++ [base] ∧ Anchored R dir D base w

theorem writable_file {regular : Bool} (hc : Confined R w) (hR : w.tree.node R = some .dir)
    (hp : w.tree.node p = some (.file regular)) (hin : R <+: p) : Writable R p w := by
  obtain ⟨rest, rfl⟩ := hin
  rcases List.eq_nil_or_concat rest with rfl | ⟨more, base, rfl⟩
  · rw [List.append_nil, hR] at hp
    cases hp
  · rw [List.concat_eq_append, ← List.append_assoc] at hp ⊢
    have hdir := w.tree.parent (R ++ more) base (by rw [hp]; simp)
    exact ⟨R ++ more, base, R ++ more, rfl, hc, List.prefix_append R more, hdir,
      lookupDir_physical hdir, .inl rfl⟩

theorem writable_entry (hc : Confined R w) (hp : evalSymlinks w.tree p = .ok p) (hin : R <+: p)
    (hD : lookupDir w.tree p = .ok D) : Writable R (p ++ [base]) w := by
  obtain ⟨left, hw, hd⟩ := lookupDir_eq_ok.mp hD
  have hsame : D = p := Except.ok.inj ((evalSymlinks_of_walk hw).symm.trans hp)
  subst hsame
  exact ⟨D, base, D, rfl, hc, hin, hd, hD, .inl rfl⟩

theorem wp_newTarget (hroot : Clean root) (hparent : Clean parent)
    (hR : evalSymlinks w.tree root = .ok R) (hc : Confined R w)
    (hsafe : create = true → R <+: root ++ parent →
      ∀ d n, Creatable w.tree (root ++ parent) d n → R <+: d) :
    Wp fileMachine Allowed (Confined R) (newTarget kind root parent base create)
      (Yields (Writable R)) w := by
  refine wp_bind ((wp_prepareRoot hroot hR hc).post ?_)
  rintro _ _ - ⟨rfl, rfl | ⟨context, e, rfl⟩⟩
  · refine wp_bind ((wp_resolveExistingPath hroot hR hc).post ?_)
    rintro (e | p) _ - ⟨rfl, hok, hmissing⟩
    · by_cases he : e = .notFound
      · subst he
        have hnone := hmissing rfl
        dsimp only
        split
        next hcreate =>
          refine wp_bind ((wp_ensureWithinRoot hc).post ?_)
          rw [resolvedOr_ok hR, resolvedOr_error hnone]
          rintro _ _ - ⟨rfl, ⟨rfl, hin⟩ | ⟨rfl, -⟩⟩
          · have hclean := hroot.append hparent
            refine wp_bind ((wp_mkdirAll (root ++ parent).reverse
              (fun n hn => hclean n (List.mem_reverse.mp hn)) hc ?_).post ?_)
            · rw [List.reverse_reverse]
              exact hsafe hcreate hin
            · rintro (_ | e) w' hc' hmade
              · refine wp_targetInParent hc' fun D' hD' => ?_
                rw [List.reverse_reverse] at hmade
                obtain ⟨D, left, hw, hd, hnew⟩ := hmade.found rfl
                rcases hnew with rfl | ⟨hin', hempty⟩
                · -- the parent was missing, so it cannot be where the path led before
                  rw [evalSymlinks_of_walk hw] at hnone
                  cases hnone
                · exact ⟨root ++ parent, base, D, rfl, hc', hin', hd,
                    lookupDir_eq_ok.mpr ⟨left, hw, hd⟩, .inr (by simp [hempty base])⟩
              · exact wp_refuse hc' _
          · exact wp_refuse hc _
        · exact wp_refuse hc _
      · cases e <;> first | exact absurd rfl he | exact wp_refuse hc _
    · obtain ⟨hp, hin⟩ := hok p rfl
      exact wp_targetInParent hc fun D hD =>
        writable_entry hc (evalSymlinks_physical hp) hin hD
  · exact wp_refuse hc _

theorem wp_resolveSaveTarget (hroot : Clean root) (hnames : Clean names) (hne : names ≠ [])
    (hR : evalSymlinks w.tree root = .ok R) (hc : Confined R w)
    (hsafe : create = true → R <+: root ++ names.dropLast →
      ∀ d n, Creatable w.tree (root ++ names.dropLast) d n → R <+: d) :
    Wp fileMachine Allowed (Confined R) (resolveSaveTarget kind root names create)
      (Yields (Writable R)) w := by
  refine wp_bind ((wp_resolveExistingPath hroot hR hc).post ?_)
  rintro (e | p) _ - ⟨rfl, hok, -⟩
  · by_cases he : e = .notFound
    · subst he
      exact wp_newTarget hroot hnames.dropLast hR hc hsafe
    · cases e <;> first | exact absurd rfl he | exact wp_refuse hc _
  · obtain ⟨hp, hin⟩ := hok p rfl
    refine wp_existingTarget hc (evalSymlinks_physical hp) fun regular hfile => ?_
    obtain ⟨left, hw⟩ := evalSymlinks_eq_ok.mp hp
    obtain ⟨found, spare, hfound, hdir⟩ := walk_prefix w.tree.root hw
    have hsame : found = R :=
      Except.ok.inj ((evalSymlinks_eq_ok.mpr ⟨spare, hfound⟩).symm.trans hR)
    exact writable_file hc (hsame ▸ hdir hne) hfile hin

/-- A save stays inside its root unless it may create parents and the first missing one of
them would stand outside. -/
theorem wp_saveNames (hroot : Clean root) (hnames : Clean names) (hne : names ≠ [])
    (hR : evalSymlinks w.tree root = .ok R) (hc : Confined R w)
    (hsafe : request.createParentDirectories = true → R <+: root ++ names.dropLast →
      ∀ d n, Creatable w.tree (root ++ names.dropLast) d n → R <+: d) :
    Wp fileMachine Allowed (Confined R) (saveNames kind root stackID names request)
      (fun _ _ => True) w := by
  refine wp_bind ((wp_resolveSaveTarget hroot hnames hne hR hc hsafe).post ?_)
  rintro (e | target) w₁ hc₁ hyield
  · exact wp_pure hc₁ trivial
  · obtain ⟨dir, base, D, rfl, hanchored⟩ := hyield target rfl
    refine wp_bind ((wp_ensureExpectedModifiedAt hc₁).post ?_)
    rintro (_ | e) _ - rfl
    · refine wp_bind ((wp_writeFileAtomic hanchored).post ?_)
      rintro (_ | e) w₂ hc₂ -
      · refine wp_look_bind hc₂ (fun _ => rfl) fun modTime => ?_
        split <;> exact wp_pure hc₂ trivial
      · exact wp_pure hc₂ trivial
    · exact wp_pure hc₁ trivial

end Stacklab.Workspace
