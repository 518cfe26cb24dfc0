import Stacklab.Workspace.Confinement

/-! Which paths the privileged permission helper takes for managed ones. -/
namespace Stacklab.AdminHelper

open Lib Workspace

variable {p : Path}

/-- The text of an error, and the error that it wraps. -/
structure HelperError where
  message : String
  cause : Option Errno := none
  deriving DecidableEq, Repr

def push (p : Path) (n : Name) : Path :=
  if n = "" ∨ n = "." then p else if n = ".." then p.dropLast else p ++ [n]

/-- `filepath.Join` of a clean path and a text. -/
def joinText (p : Path) (text : String) : Path :=
  ((splitChar '/' text).map String.ofList).foldl push p

theorem clean_push (h : Clean p) (n : Name) : Clean (push p n) := by
  rw [push]
  split
  · exact h
  next hdot =>
    split
    · exact h.dropLast
    next hup =>
      rw [not_or] at hdot
      exact h.append fun m hm => List.mem_singleton.mp hm ▸ ⟨hdot.1, hdot.2, hup⟩

theorem clean_joinText (h : Clean p) (text : String) : Clean (joinText p text) := by
  rw [joinText]
  generalize (splitChar '/' text).map String.ofList = names
  induction names generalizing p with
  | nil => exact h
  | cons n names ih => exact ih (clean_push h n)

def isAbs (text : String) : Bool := hasPrefix text "/"

/-- `filepath.Abs`. -/
def abs (getwd : Except Errno Workspace.CleanPath) (text : String) :
    Except Errno Workspace.CleanPath :=
  if isAbs text then .ok ⟨joinText [] text, clean_joinText (by simp [Clean]) text⟩
  else getwd.map fun cwd => ⟨joinText cwd.val text, clean_joinText cwd.property text⟩

/-- The names that `filepath.EvalSymlinks` walks; a slash at the end asks for a directory. -/
def pathNames (text : String) : List Name :=
  (splitChar '/' text).map fun part => if part = [] then "." else String.ofList part

def defaultStacklabRoot : String := "/opt/stacklab"

def stacklabEnvFilePath : String := "/etc/stacklab/stacklab.env"

/-- What the helper reads to find its root. -/
structure RootSources where
  /-- The lines of the environment file, and an error that ends the scan. -/
  envFile : Except Errno (List String × Option Errno)
  /-- The output of `systemctl show`. -/
  systemctlShow : Option String
  getwd : Except Errno Workspace.CleanPath

/-- The value that the first line for the key has, which may be empty. -/
def envFileRoot : List String → Option String
  | [] => none
  | text :: rest =>
    let line := trimSpace text
    if line = "" ∨ hasPrefix line "#" then envFileRoot rest
    else match cut '=' line with
      | none => envFileRoot rest
      | some (key, value) =>
        if trimSpace key = "STACKLAB_ROOT" then some (trimSpace value) else envFileRoot rest

def parseStacklabRootFromSystemdEnvironment (output : String) : String :=
  ((fields output).findSome? fun field =>
    match cut '=' field with
    | none => none
    | some (key, value) =>
      if key ≠ "STACKLAB_ROOT" then none
      else if trimSpace value ≠ "" then some (trimSpace value) else none).getD ""

def configuredRoot (sources : RootSources) (fromFile : Option String) : String :=
  match fromFile.filter (· ≠ "") with
  | some root => root
  | none =>
    match sources.systemctlShow.map parseStacklabRootFromSystemdEnvironment with
    | none => defaultStacklabRoot
    | some root => if root ≠ "" then root else defaultStacklabRoot

def loadStacklabRoot (sources : RootSources) : Except HelperError Workspace.CleanPath := do
  let fromFile ← match sources.envFile with
    | .ok (lines, none) => Except.ok (envFileRoot lines)
    | .ok (_, some e) => .error ⟨"read " ++ stacklabEnvFilePath, some e⟩
    | .error .notExist => .ok none
    | .error e => .error ⟨"open " ++ stacklabEnvFilePath, some e⟩
  (abs sources.getwd (configuredRoot sources fromFile)).mapError
    fun e => ⟨"resolve stacklab root", some e⟩

/-- `filepath.Rel` of two paths of which neither is the other. -/
def relNames : Path → Path → List Name
  | [], target => target
  | base, [] => base.map fun _ => ".."
  | b :: base, n :: target =>
    if b = n then relNames base target
    else ((b :: base).map fun _ => "..") ++ n :: target

/-- `filepath.Rel` of two clean absolute paths. -/
def rel (base target : Path) : List Name :=
  if base = target then ["."] else relNames base target

/-- `evalRoot` is what `filepath.EvalSymlinks` says about the root. -/
def withinRoot (root : Path) (evalRoot : Except Errno Path) (target : Path) : Bool :=
  (rel (evalRoot.toOption.getD root) target).head? ≠ some ".."

/-- The path as `filepath.EvalSymlinks` returns it is already absolute and clean. -/
def resolveManagedTarget {m : Type → Type} [Monad m]
    (evalSymlinks : List Name → m (Except Errno Path)) (stacklabRoot : Path)
    (targetPath : List Name) : m (Except HelperError (Path × Path)) := do
  let configRoot := stacklabRoot ++ ["config"]
  let stacksRoot := stacklabRoot ++ ["stacks"]
  match ← evalSymlinks targetPath with
  | .error .notExist => pure (.error ⟨"target path not found", some .notExist⟩)
  | .error e => pure (.error ⟨"resolve target path", some e⟩)
  | .ok resolvedTarget =>
    let evalConfig ← evalSymlinks configRoot
    if withinRoot configRoot evalConfig resolvedTarget then
      pure (.ok (resolvedTarget, configRoot))
    else
      let evalStacks ← evalSymlinks stacksRoot
      if withinRoot stacksRoot evalStacks resolvedTarget then
        -- the root is taken as it is written here, not as it was resolved above
        let first := (rel stacksRoot resolvedTarget).headD ""
        if first = "." ∨ first = "" then
          pure (.error ⟨"target path must be inside one stack directory", none⟩)
        else pure (.ok (resolvedTarget, push stacksRoot first))
      else pure (.error ⟨"target path is outside managed Stacklab roots", none⟩)

/-- The check on a file system that nobody changes meanwhile. -/
def accepts (t : Tree) (stacklabRoot : Path) (targetPath : List Name) : Bool :=
  (Id.run (resolveManagedTarget (fun p => pure (evalSymlinks t p)) stacklabRoot targetPath)).isOk

variable {t : Tree} {p q r base target root : Path} {names : List Name}

theorem relNames_eq_self (h : base <+: target) :
    relNames base target = target.drop base.length := by
  induction base generalizing target with
  | nil => simp [relNames]
  | cons b base ih =>
    obtain ⟨rest, rfl⟩ := h
    rw [List.cons_append, relNames, if_pos rfl, ih (List.prefix_append base rest)]
    rfl

/-- If the base is no part of the path, the way leads up first. -/
theorem head?_relNames (h : ¬ base <+: target) : (relNames base target).head? = some ".." := by
  induction base generalizing target with
  | nil => exact absurd ⟨target, rfl⟩ h
  | cons b base ih =>
    cases target with
    | nil => rfl
    | cons n target =>
      rw [relNames]
      split
      next hb =>
        subst hb
        exact ih fun hin => h (List.cons_prefix_cons.mpr ⟨rfl, hin⟩)
      · rfl

/-- Below the base, the way starts with a name. -/
theorem head?_rel_below (hclean : Clean target) (h : base <+: target) (hne : base ≠ target) :
    ∃ n, (rel base target).head? = some n ∧ Plain n := by
  obtain ⟨rest, rfl⟩ := h
  rw [rel, if_neg hne, relNames_eq_self (List.prefix_append base rest), List.drop_left]
  cases rest with
  | nil => simp at hne
  | cons n rest => exact ⟨n, rfl, hclean n (by simp)⟩

theorem withinRoot_iff {evalRoot : Except Errno Path} (hclean : Clean target) :
    withinRoot root evalRoot target = true ↔ evalRoot.toOption.getD root <+: target := by
  rw [withinRoot, decide_eq_true_eq]
  generalize evalRoot.toOption.getD root = base
  constructor
  · intro h
    by_contra hnot
    apply h
    have hne : base ≠ target := by
      rintro rfl
      exact hnot (List.prefix_refl _)
    rw [rel, if_neg hne, head?_relNames hnot]
  · intro h
    by_cases he : base = target
    · simp [rel, he]
    · obtain ⟨n, hn, hplain⟩ := head?_rel_below hclean h he
      rw [hn]
      exact fun hup => hplain.2.2 (Option.some.inj hup)

/-- The comparison with the written root finds only that root itself. -/
theorem head_rel_dot_iff (hclean : Clean target) :
    ((rel base target).headD "" = "." ∨ (rel base target).headD "" = "") ↔ base = target := by
  constructor
  · intro h
    by_contra hne
    by_cases hin : base <+: target
    · obtain ⟨n, hn, hplain⟩ := head?_rel_below hclean hin hne
      rw [List.headD_eq_head?_getD, hn] at h
      exact h.elim hplain.2.1 hplain.1
    · rw [List.headD_eq_head?_getD, rel, if_neg hne, head?_relNames hin] at h
      revert h
      decide
  · intro h
    simp [rel, h]

theorem node_above (hq : t.node q = some .dir ∨ ∃ regular, t.node q = some (.file regular))
    (h : p <+: q) : t.node p = some .dir ∨ ∃ regular, t.node p = some (.file regular) := by
  obtain ⟨rest, rfl⟩ := h
  induction rest using List.reverseRecOn with
  | nil => rwa [List.append_nil] at hq
  | append_singleton rest n ih =>
    have hne : t.node ((p ++ rest) ++ [n]) ≠ none := by
      rw [List.append_assoc]
      rcases hq with hq | ⟨regular, hq⟩ <;> simp [hq]
    exact ih (.inl (t.parent _ n hne))

/-- A root that cannot be resolved has nothing below it. -/
theorem resolvedOr_prefix_iff (hr : evalSymlinks t p = .ok r) :
    resolvedOr t root <+: r ↔ ∃ R, evalSymlinks t root = .ok R ∧ R <+: r := by
  cases hR : evalSymlinks t root with
  | ok R => simp [resolvedOr_ok hR]
  | error e =>
    rw [resolvedOr_error hR]
    constructor
    · intro hin
      have hwalk : walk t.node kernelLinks [] root = .found root kernelLinks :=
        Tree.walk_physical (node_above (evalSymlinks_node hr) hin)
      rw [evalSymlinks_of_walk hwalk] at hR
      cases hR
    · rintro ⟨R, hR', -⟩
      cases hR'

/-- A place in the resolved config root, or strictly below the resolved stacks root. -/
def Managed (t : Tree) (stacklabRoot r : Path) : Prop :=
  (∃ c, evalSymlinks t (stacklabRoot ++ ["config"]) = .ok c ∧ c <+: r) ∨
    ∃ s, evalSymlinks t (stacklabRoot ++ ["stacks"]) = .ok s ∧ s <+: r ∧ s ≠ r

theorem accepts_iff (t : Tree) (stacklabRoot : Path) (targetPath : List Name) :
    accepts t stacklabRoot targetPath = true ↔ ∃ r, evalSymlinks t targetPath = .ok r ∧
      ((∃ c, evalSymlinks t (stacklabRoot ++ ["config"]) = .ok c ∧ c <+: r) ∨
        (∃ s, evalSymlinks t (stacklabRoot ++ ["stacks"]) = .ok s ∧ s <+: r) ∧
          stacklabRoot ++ ["stacks"] ≠ r) := by
  cases hr : evalSymlinks t targetPath with
  | error e => cases e <;> simp [accepts, resolveManagedTarget, hr] <;> rfl
  | ok r =>
    have hclean : Clean r := clean_of_node (evalSymlinks_ne_none hr)
    have hroot := fun base => @withinRoot_iff r base (evalSymlinks t base) hclean
    have hresolved := fun base => @resolvedOr_prefix_iff t targetPath r base hr
    simp only [resolvedOr] at hresolved
    simp only [Except.ok.injEq, exists_eq_left', ← hresolved, ← hroot]
    have hdot := @head_rel_dot_iff (stacklabRoot ++ ["stacks"]) r hclean
    rw [accepts, resolveManagedTarget]
    simp only [pure_bind, hr]
    by_cases hc : withinRoot (stacklabRoot ++ ["config"])
        (evalSymlinks t (stacklabRoot ++ ["config"])) r = true
    · rw [if_pos hc]
      exact iff_of_true rfl (.inl hc)
    rw [if_neg hc]
    by_cases hs : withinRoot (stacklabRoot ++ ["stacks"])
        (evalSymlinks t (stacklabRoot ++ ["stacks"])) r = true
    · rw [if_pos hs]
      by_cases he : stacklabRoot ++ ["stacks"] = r
      · rw [if_pos (hdot.mpr he)]
        exact iff_of_false Bool.false_ne_true fun h => h.elim hc fun h => h.2 he
      · rw [if_neg (mt hdot.mp he)]
        exact iff_of_true rfl (.inr ⟨hs, he⟩)
    · rw [if_neg hs]
      exact iff_of_false Bool.false_ne_true fun h => h.elim hc fun h => hs h.1

/-- The target resolves to the resolved stacks root, which is not written so and is not in the
config root. -/
def ReachesStacksRoot (t : Tree) (stacklabRoot : Path) (targetPath : List Name) : Prop :=
  ∃ s, evalSymlinks t (stacklabRoot ++ ["stacks"]) = .ok s ∧
    evalSymlinks t targetPath = .ok s ∧ s ≠ stacklabRoot ++ ["stacks"] ∧
    ¬ ∃ c, evalSymlinks t (stacklabRoot ++ ["config"]) = .ok c ∧ c <+: s

/-- Where the check and the managed places differ, the stacks root is reached through a link. -/
theorem accepted_not_managed (hr : evalSymlinks t names = .ok r) (h : accepts t root names = true)
    (hnot : ¬ Managed t root r) : ReachesStacksRoot t root names := by
  obtain ⟨r', hr', hcase⟩ := (accepts_iff t root names).mp h
  obtain rfl : r = r' := Except.ok.inj (hr.symm.trans hr')
  rcases hcase with hconfig | ⟨⟨s, hs, hin⟩, hne⟩
  · exact absurd (.inl hconfig) hnot
  · obtain rfl : s = r := by
      by_contra hbelow
      exact hnot (.inr ⟨s, hs, hin, hbelow⟩)
    exact ⟨s, hs, hr, Ne.symm hne, fun hconfig => hnot (.inl hconfig)⟩

/-- Below the resolved stacks root nothing has the name of the root as it is written. -/
theorem stacksRoot_ne {s : Path} (hr : evalSymlinks t names = .ok r)
    (hs : evalSymlinks t (root ++ ["stacks"]) = .ok s) (hne : s ≠ r) : root ++ ["stacks"] ≠ r := by
  rintro rfl
  exact hne (Except.ok.inj (hs.symm.trans (evalSymlinks_physical hr)))

theorem accepts_of_managed (hr : evalSymlinks t names = .ok r) (h : Managed t root r) :
    accepts t root names = true := by
  refine (accepts_iff t root names).mpr ⟨r, hr, ?_⟩
  rcases h with hconfig | ⟨s, hs, hin, hne⟩
  · exact .inl hconfig
  · exact .inr ⟨⟨s, hs, hin⟩, stacksRoot_ne hr hs hne⟩

theorem ReachesStacksRoot.accepts (h : ReachesStacksRoot t root names) :
    accepts t root names = true := by
  obtain ⟨s, hs, hr, hne, -⟩ := h
  exact (accepts_iff t root names).mpr
    ⟨s, hr, .inr ⟨⟨s, hs, List.prefix_refl s⟩, Ne.symm hne⟩⟩

theorem ReachesStacksRoot.not_managed (h : ReachesStacksRoot t root names)
    (hr : evalSymlinks t names = .ok r) : ¬ Managed t root r := by
  obtain ⟨s, hs, hs', -, hconfig⟩ := h
  obtain rfl : s = r := Except.ok.inj (hs'.symm.trans hr)
  rintro (hin | ⟨s', hs'', -, hne⟩)
  · exact hconfig hin
  · exact hne (Except.ok.inj (hs''.symm.trans hs))

/-- The check is exact, except that it takes the stacks root itself for a managed path when the
root is reached through a link. -/
theorem accepts_managed_iff (t : Tree) (stacklabRoot : Workspace.CleanPath)
    (targetPath : List Name) :
    (accepts t stacklabRoot.val targetPath = true ↔
      ∃ r, evalSymlinks t targetPath = .ok r ∧ Managed t stacklabRoot.val r) ↔
    ¬ ReachesStacksRoot t stacklabRoot.val targetPath := by
  constructor
  · intro hexact hreach
    obtain ⟨r, hr, hmanaged⟩ := hexact.mp hreach.accepts
    exact hreach.not_managed hr hmanaged
  · intro hnot
    constructor
    · intro haccepts
      obtain ⟨r, hr, -⟩ := (accepts_iff t stacklabRoot.val targetPath).mp haccepts
      refine ⟨r, hr, ?_⟩
      by_contra hmanaged
      exact hnot (accepted_not_managed hr haccepts hmanaged)
    · rintro ⟨r, hr, hmanaged⟩
      exact accepts_of_managed hr hmanaged

/-- The root directory is a link to another disk. -/
def linkedRoot : Tree :=
  (((((bareTree.grow [] "opt" .dir).grow [] "srv" .dir).grow
    ["opt"] "stacklab" (.link ⟨true, ["srv", "stacklab"]⟩)).grow
    ["srv"] "stacklab" .dir).grow
    ["srv", "stacklab"] "config" .dir).grow
    ["srv", "stacklab"] "stacks" .dir

/-- The helper is ready to repair the stacks root as a whole. -/
theorem stacks_root_accepted :
    accepts linkedRoot ["opt", "stacklab"] (pathNames "/opt/stacklab/stacks") = true ∧
    evalSymlinks linkedRoot (pathNames "/opt/stacklab/stacks") =
      .ok ["srv", "stacklab", "stacks"] ∧
    ¬ Managed linkedRoot ["opt", "stacklab"] ["srv", "stacklab", "stacks"] := by
  have hstacks : evalSymlinks linkedRoot (["opt", "stacklab"] ++ ["stacks"]) =
      .ok ["srv", "stacklab", "stacks"] := by decide +kernel
  have hconfig : evalSymlinks linkedRoot (["opt", "stacklab"] ++ ["config"]) =
      .ok ["srv", "stacklab", "config"] := by decide +kernel
  refine ⟨by decide +kernel, by decide +kernel, ?_⟩
  rintro (⟨c, hc, hin⟩ | ⟨s, hs, -, hne⟩)
  · cases hconfig.symm.trans hc
    exact absurd hin (by decide)
  · exact hne (Except.ok.inj (hs.symm.trans hstacks))

end Stacklab.AdminHelper
