import Stacklab.Workspace.SaveTarget

/-! Exactly when a save stays inside its workspace root. -/
namespace Stacklab.Workspace

open Lib Stacks Prog

variable {Allowed : Cmd → Out → World → Prop} {I : World → Prop} {t : Tree} {w : World}
  {d R root parent p : Path} {n : Name} {names : List Name} {kind : Kind}
  {request : SaveFileRequest} {stackID : String} {left : ℕ}

theorem wp_prepareRoot_found (hw : walk w.tree.node kernelLinks [] root = .found R left)
    (hd : w.tree.node R = some .dir) (hI : I w) :
    Wp fileMachine Allowed I (prepareRoot kind root) (fun r w' => r = none ∧ w = w') w := by
  rw [prepareRoot]
  split
  · rw [← List.reverse_reverse root] at hw
    refine wp_bind ((wp_mkdirAll_found hw hd hI).post ?_)
    rintro _ _ - ⟨rfl, rfl⟩
    exact wp_pure hI ⟨rfl, rfl⟩
  · exact wp_pure hI ⟨rfl, rfl⟩

theorem wp_resolveExistingPath_missing
    (hw : walk w.tree.node kernelLinks [] root = .found R left) (hd : w.tree.node R = some .dir)
    (hmissing : evalSymlinks w.tree (root ++ names) = .error .notExist) (hI : I w) :
    Wp fileMachine Allowed I (resolveExistingPath kind root names)
      (fun r w' => r = .error .notFound ∧ w = w') w := by
  refine wp_bind ((wp_prepareRoot_found hw hd hI).post ?_)
  rintro _ _ - ⟨rfl, rfl⟩
  refine wp_evalSymlinks_bind hI ?_
  rw [hmissing]
  exact wp_pure hI ⟨rfl, rfl⟩

/-- If nothing fails, a missing parent directory is created wherever the links lead. -/
theorem wp_saveNames_creates (hroot : Clean root) (hnames : Clean names)
    (hR : evalSymlinks w.tree root = .ok R) (hcreate : request.createParentDirectories = true)
    (hin : R <+: root ++ names.dropLast) (hc : Creatable w.tree (root ++ names.dropLast) d n) :
    Wp fileMachine Succeeds (fun _ => True) (saveNames kind root stackID names request)
      (fun _ w' => d ++ [n] ∈ w'.touched) w := by
  have hclean := hroot.append hnames.dropLast
  obtain ⟨left, hw, hd⟩ := hc.root_found hroot hR
  have hparent : evalSymlinks w.tree (root ++ names.dropLast) = .error .notExist := by
    simpa using hc.evalSymlinks hclean []
  have hall : evalSymlinks w.tree (root ++ names) = .error .notExist := by
    by_cases hne : names = []
    · simpa [hne] using hparent
    · rw [← List.dropLast_concat_getLast hne, ← List.append_assoc]
      exact hc.evalSymlinks hclean _
  -- what was touched stays touched in the rest of the call
  have hrest : ∀ {α β : Type} {f : α → FileProg β} {p : FileProg α},
      Wp fileMachine Succeeds (fun _ => True) p (fun _ w' => d ++ [n] ∈ w'.touched) w →
      Wp fileMachine Succeeds (fun _ => True) (p >>= f)
        (fun _ w' => d ++ [n] ∈ w'.touched) w := by
    intro α β f p hp
    refine wp_bind (hp.post fun a w' _ hmem => ?_)
    exact (wp_touched (f a) hmem).mono (fun _ _ => trivial) fun _ _ h _ => h
  refine hrest (wp_bind ((wp_resolveExistingPath_missing hw hd hall trivial).post ?_))
  rintro _ _ - ⟨rfl, rfl⟩
  refine wp_bind ((wp_prepareRoot_found hw hd trivial).post ?_)
  rintro _ _ - ⟨rfl, rfl⟩
  refine wp_bind ((wp_resolveExistingPath_missing hw hd hparent trivial).post ?_)
  rintro _ _ - ⟨rfl, rfl⟩
  rw [if_pos hcreate]
  refine wp_bind ((wp_ensureWithinRoot trivial).post ?_)
  rw [resolvedOr_ok hR, resolvedOr_error hparent]
  rintro _ _ - ⟨rfl, ⟨rfl, -⟩ | ⟨rfl, hout⟩⟩
  · refine hrest (wp_mkdirAll_creates (fun m hm => hclean m (List.mem_reverse.mp hm)) ?_)
    rwa [List.reverse_reverse]
  · exact absurd hin hout

/-- A stack directory that is no link itself lies where the root directory leads. -/
theorem stackRoot_resolves (h : lstat t root n = .ok .dir) :
    ∃ d, evalSymlinks t root = .ok d ∧ evalSymlinks t (root ++ [n]) = .ok (d ++ [n]) := by
  rw [lstat] at h
  split at h
  · cases h
  next d hlook =>
    obtain ⟨left, hw, hd⟩ := lookupDir_eq_ok.mp hlook
    have hnode : t.node (d ++ [n]) = some .dir := by
      cases hv : t.node (d ++ [n]) with
      | none => simp [hv] at h
      | some v => simpa [hv] using h
    refine ⟨d, evalSymlinks_of_walk hw, @evalSymlinks_of_walk _ _ _ left ?_⟩
    rw [Tree.walk_below t.root (by simp) hw hd,
      Tree.walk_cons_dir (t.plain d n (by simp [hnode])) hnode, Tree.walk_nil]

/-- `stackRoot` accepts exactly the valid ids of directories that are no links. -/
theorem wp_stackRoot (hI : I w) :
    Wp fileMachine Allowed I (Stack.stackRoot root stackID) (fun r w' => w = w' ∧
      ((∃ e, r = .error e) ∧
          ¬ (isValidStackID stackID = true ∧ lstat w.tree root stackID = .ok .dir) ∨
        (isValidStackID stackID = true ∧ lstat w.tree root stackID = .ok .dir) ∧
          ∃ R, r = .ok R ∧ evalSymlinks w.tree (root ++ [stackID]) = .ok R)) w := by
  rw [Stack.stackRoot]
  by_cases hvalid : isValidStackID stackID = true
  · rw [if_neg (by simp [hvalid])]
    refine wp_lstat_bind hI ?_
    rcases hl : lstat w.tree root stackID with e | v
    · cases e <;> exact wp_pure hI ⟨rfl, .inl ⟨⟨_, rfl⟩, by simp⟩⟩
    · cases v with
      | dir =>
        obtain ⟨d, hroot, hresolved⟩ := stackRoot_resolves hl
        refine wp_evalSymlinks_bind hI ?_
        rw [hresolved]
        refine wp_bind ((wp_ensureWithinRoot hI).post ?_)
        rw [resolvedOr_ok hroot, resolvedOr_ok (evalSymlinks_physical hresolved)]
        rintro _ _ - ⟨rfl, ⟨rfl, -⟩ | ⟨rfl, hout⟩⟩
        · exact wp_pure hI ⟨rfl, .inr ⟨⟨hvalid, rfl⟩, _, rfl, rfl⟩⟩
        · exact absurd (List.prefix_append d [stackID]) hout
      | file regular => exact wp_pure hI ⟨rfl, .inl ⟨⟨_, rfl⟩, by simp⟩⟩
      | link onward => exact wp_pure hI ⟨rfl, .inl ⟨⟨_, rfl⟩, by simp⟩⟩
  · rw [if_pos (by simp [hvalid])]
    exact wp_pure hI ⟨rfl, .inl ⟨⟨_, rfl⟩, fun h => hvalid h.1⟩⟩

theorem clean_of_node (h : t.node p ≠ none) : Clean p := by
  induction p using List.reverseRecOn with
  | nil => exact fun _ hn => absurd hn List.not_mem_nil
  | append_singleton q m ih =>
    have hq : Clean q := ih (by simp [t.parent q m h])
    have hm : Clean [m] := List.forall_mem_singleton.mpr (t.plain q m h)
    exact hq.append hm

/-- The request gets past every check, and the first missing parent of its path, as the links
lead to it, would stand outside. -/
def Escapes (t : Tree) (root R : Path) (request : SaveFileRequest) : Prop :=
  checkString request.content = none ∧ request.createParentDirectories = true ∧
    ∃ names, normalizeRequiredFilePath request.path = .ok names ∧
      R <+: root ++ names.dropLast ∧
        ∃ d n, Creatable t (root ++ names.dropLast) d n ∧ ¬ R <+: d

/-- What is created outside stays outside: the root itself is there already. -/
theorem Creatable.outside (h : Creatable t root d n) (hR : t.node R ≠ none)
    (hout : ¬ R <+: d) : ¬ R <+: d ++ [n] := by
  obtain ⟨-, -, -, -, -, -, hnone⟩ := h
  intro hin
  rcases List.prefix_concat_iff.mp hin with rfl | hin
  · exact hR hnone
  · exact hout hin

theorem evalSymlinks_ne_none (h : evalSymlinks t p = .ok R) : t.node R ≠ none := by
  rcases evalSymlinks_node h with hd | ⟨regular, hf⟩
  · simp [hd]
  · simp [hf]

/-- A program is confined if it is so under every behaviour of the environment, and not if a
successful run touches a place outside. -/
theorem confined_iff {α : Type} {p : FileProg α} {escapes : Prop}
    (hsafe : ¬ escapes → Wp fileMachine (fun _ _ _ => True) (Confined R) p
      (fun _ _ => True) ⟨t, []⟩)
    (hout : escapes → ∃ q, ¬ R <+: q ∧ Wp fileMachine Succeeds (fun _ => True) p
      (fun _ w' => q ∈ w'.touched) ⟨t, []⟩) :
    (∀ outs, Confined R (p.run fileMachine outs ⟨t, []⟩).2) ↔ ¬ escapes := by
  constructor
  · intro h he
    obtain ⟨q, hq, hwp⟩ := hout he
    obtain ⟨k, a, w', hrun, hmem⟩ :=
      hwp.returns ⟨none, ⟨true, true⟩, .ok .textFile, 0, ""⟩ fun _ _ => rfl
    have hconfined := h (List.replicate k ⟨none, ⟨true, true⟩, .ok .textFile, 0, ""⟩)
    rw [hrun] at hconfined
    exact hq (hconfined q hmem)
  · intro he outs
    exact ((hsafe he).run meets_true).1

theorem config_confined_iff (hroot : Clean root) (hR : evalSymlinks t root = .ok R) :
    (∀ outs, Confined R ((Config.saveFile root request).run fileMachine outs ⟨t, []⟩).2) ↔
      ¬ Escapes t root R request := by
  have hnil : Confined R ⟨t, []⟩ := fun _ h => absurd h List.not_mem_nil
  refine confined_iff (fun hsafe => ?_) ?_
  · rw [Config.saveFile.eq_def]
    split
    · exact wp_pure hnil trivial
    next hsize =>
      split
      · exact wp_pure hnil trivial
      next names hok =>
        obtain ⟨hne, hclean⟩ := normalizeRequiredFilePath_ok hok
        refine wp_saveNames hroot hclean hne hR hnil fun hcreate hin d n hc => ?_
        by_contra hout
        exact hsafe ⟨hsize, hcreate, names, hok, hin, d, n, hc, hout⟩
  · rintro ⟨hsize, hcreate, names, hok, hin, d, n, hc, hout⟩
    refine ⟨d ++ [n], hc.outside (evalSymlinks_ne_none hR) hout, ?_⟩
    simp only [Config.saveFile, hsize, hok]
    exact wp_saveNames_creates hroot (normalizeRequiredFilePath_ok hok).2 hR hcreate hin hc

theorem isReservedDefinitionPath_dropLast (h : Stack.isReservedDefinitionPath names = true) :
    names.dropLast = [] := by
  rw [Stack.isReservedDefinitionPath] at h
  rcases (Bool.or_eq_true _ _).mp h with h | h <;> simp [of_decide_eq_true h]

theorem stack_confined_iff (hR : evalSymlinks t (root ++ [stackID]) = .ok R) :
    (∀ outs, Confined R
      ((Stack.saveFile root stackID request).run fileMachine outs ⟨t, []⟩).2) ↔
      ¬ (isValidStackID stackID = true ∧ lstat t root stackID = .ok .dir ∧
        Escapes t R R request) := by
  have hnil : Confined R ⟨t, []⟩ := fun _ h => absurd h List.not_mem_nil
  have hclean : Clean R := clean_of_node (evalSymlinks_ne_none hR)
  have hphysical := evalSymlinks_physical hR
  refine confined_iff (fun hsafe => ?_) ?_
  · rw [Stack.saveFile.eq_def]
    split
    · exact wp_pure hnil trivial
    next hsize =>
      refine wp_bind ((wp_stackRoot hnil).post ?_)
      rintro _ _ - ⟨rfl, ⟨⟨e, rfl⟩, -⟩ | ⟨⟨hvalid, hdir⟩, R', rfl, hR'⟩⟩
      · exact wp_pure hnil trivial
      · obtain rfl : R = R' := Except.ok.inj (hR.symm.trans hR')
        dsimp only
        split
        · exact wp_pure hnil trivial
        next names hok =>
          split
          · exact wp_pure hnil trivial
          · obtain ⟨hne, hnames⟩ := normalizeRequiredFilePath_ok hok
            refine wp_saveNames hclean hnames hne hphysical hnil fun hcreate hin d n hc => ?_
            by_contra hout
            exact hsafe ⟨hvalid, hdir, hsize, hcreate, names, hok, hin, d, n, hc, hout⟩
  · rintro ⟨hvalid, hdir, hsize, hcreate, names, hok, hin, d, n, hc, hout⟩
    refine ⟨d ++ [n], hc.outside (evalSymlinks_ne_none hR) hout, ?_⟩
    simp only [Stack.saveFile, hsize]
    refine wp_bind ((wp_stackRoot trivial).post ?_)
    rintro _ _ - ⟨rfl, ⟨-, hnot⟩ | ⟨-, R', rfl, hR'⟩⟩
    · exact absurd ⟨hvalid, hdir⟩ hnot
    · obtain rfl : R = R' := Except.ok.inj (hR.symm.trans hR')
      have hreserved : ¬ Stack.isReservedDefinitionPath names = true := by
        intro h
        rw [isReservedDefinitionPath_dropLast h, List.append_nil] at hc
        exact not_creatable hclean hphysical hc
      simp only [hok]
      rw [if_neg hreserved]
      exact wp_saveNames_creates hclean (normalizeRequiredFilePath_ok hok).2 hphysical hcreate
        hin hc

/-- A save touches only places inside the resolved root, unless it may create parents, the path
of the parent passes the comparison as it is written, and the links in it lead to a directory
outside in which the next name is missing. -/
theorem save_confined_iff (t : Tree) (request : SaveFileRequest) :
    (∀ (workspaceRoot : CleanPath) (R : Path), evalSymlinks t workspaceRoot.val = .ok R →
      ((∀ outs, Confined R
        ((Config.saveFile workspaceRoot.val request).run fileMachine outs ⟨t, []⟩).2) ↔
          ¬ Escapes t workspaceRoot.val R request)) ∧
    ∀ (rootDir : CleanPath) (stackID : String) (R : Path),
      evalSymlinks t (rootDir.val ++ [stackID]) = .ok R →
      ((∀ outs, Confined R
        ((Stack.saveFile rootDir.val stackID request).run fileMachine outs ⟨t, []⟩).2) ↔
          ¬ (isValidStackID stackID = true ∧ lstat t rootDir.val stackID = .ok .dir ∧
            Escapes t R R request)) :=
  ⟨fun root _ hR => config_confined_iff root.property hR, fun _ _ _ hR => stack_confined_iff hR⟩

def bareTree : Tree where
  node p := if p = [] then some .dir else none
  root := if_pos rfl
  parent := by simp
  plain := by simp

/-- A workspace with a link to a directory outside. -/
def linkedTree : Tree :=
  (((bareTree.put [] "outside" (some .dir) (by decide) (by decide) (by decide)).put
    [] "srv" (some .dir) (by decide) (by decide) (by decide)).put
    ["srv"] "config" (some .dir) (by decide) (by decide) (by decide)).put
    ["srv", "config"] "link" (some (.link ⟨true, ["outside"]⟩)) (by decide) (by decide) (by decide)

def configRoot : CleanPath := ⟨["srv", "config"], by decide⟩

def saveThroughLink (createParentDirectories : Bool) : SaveFileRequest :=
  ⟨"link/new/file.txt", "text", none, createParentDirectories⟩

/-- Without new parents the link is no way out. -/
theorem save_confined_without_parents :
    evalSymlinks linkedTree configRoot.val = .ok configRoot.val ∧
    ∀ outs, Confined configRoot.val ((Config.saveFile configRoot.val
      (saveThroughLink false)).run fileMachine outs ⟨linkedTree, []⟩).2 :=
  ⟨by decide +kernel, ((save_confined_iff linkedTree (saveThroughLink false)).1 configRoot
    configRoot.val (by decide +kernel)).mpr fun h => Bool.false_ne_true h.2.1⟩

/-- Both saves create a directory and a file behind the link. -/
theorem save_escapes_through_link :
    evalSymlinks linkedTree ["srv", "config"] = .ok ["srv", "config"] ∧
    ¬ ["srv", "config"] <+: ["outside", "new"] ∧
    [["outside", "new"], ["outside", "new", "file.txt"]] ⊆
      ((Config.saveFile ["srv", "config"] (saveThroughLink true)).run fileMachine
        (List.replicate 40 ⟨none, ⟨true, true⟩, .ok .textFile, 0, "temp"⟩)
        ⟨linkedTree, []⟩).2.touched ∧
    [["outside", "new"], ["outside", "new", "file.txt"]] ⊆
      ((Stack.saveFile ["srv"] "config" (saveThroughLink true)).run fileMachine
        (List.replicate 40 ⟨none, ⟨true, true⟩, .ok .textFile, 0, "temp"⟩)
        ⟨linkedTree, []⟩).2.touched := by
  decide +kernel

end Stacklab.Workspace
