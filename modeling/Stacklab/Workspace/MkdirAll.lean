import Stacklab.Workspace.FileSystem

/-! Where `os.MkdirAll` creates directories. -/
namespace Stacklab.Workspace

open Lib Prog Tree

variable {Allowed : Cmd → Out → World → Prop} {t : Tree} {w : World} {p d R : Path} {n : Name}
  {v : Option Node} {α : Type} {I : World → Prop} {r : Option Errno} {left : ℕ} {rev : List Name}

/-- Everything touched lies below a directory. -/
def Confined (R : Path) (w : World) : Prop := ∀ p ∈ w.touched, R <+: p

/-- Some prefix of the path leads to a directory in which its next name is missing. -/
def Creatable (t : Tree) (p d : Path) (n : Name) : Prop :=
  ∃ q rest left, p = q ++ n :: rest ∧ walk t.node kernelLinks [] q = .found d left ∧
    t.node d = some .dir ∧ t.node (d ++ [n]) = none

theorem lookupDir_eq_ok : lookupDir t p = .ok d ↔
    ∃ left, walk t.node kernelLinks [] p = .found d left ∧ t.node d = some .dir := by
  rw [lookupDir]
  cases walk t.node kernelLinks [] p with
  | found q left =>
    by_cases hq : t.node q = some .dir
    · simp only [hq, if_true, Except.ok.injEq, Walk.found.injEq]
      constructor
      · rintro rfl
        exact ⟨left, ⟨rfl, rfl⟩, hq⟩
      · rintro ⟨_, ⟨rfl, -⟩, -⟩
        rfl
    · simp only [hq, if_false, reduceCtorEq, Walk.found.injEq, false_iff]
      rintro ⟨_, ⟨rfl, -⟩, hd⟩
      exact hq hd
  | missing => simp
  | notDir => simp
  | loop => simp

theorem stat_eq_ok {v : Node} (h : stat t p = .ok v) :
    ∃ q left, walk t.node kernelLinks [] p = .found q left ∧ t.node q = some v := by
  rw [stat] at h
  split at h
  next q left hw =>
    cases hq : t.node q with
    | none => simp [hq] at h
    | some u =>
      simp only [hq, Option.elim_some, Except.ok.injEq] at h
      exact ⟨q, left, hw, by rw [hq, h]⟩
  · cases h
  · cases h
  · cases h

theorem put_eq (hd : w.tree.node d = some .dir) (hn : w.tree.node (d ++ [n]) ≠ some .dir)
    (hp : Plain n) : w.put d n v = ⟨w.tree.put d n v hd hn hp, (d ++ [n]) :: w.touched⟩ :=
  dif_pos ⟨hd, hn, hp⟩

theorem confined_put (h : Confined R w) (hR : R <+: d) : Confined R (w.put d n v) := by
  rw [World.put]
  split
  · exact List.forall_mem_cons.mpr ⟨hR.trans (List.prefix_append d [n]), h⟩
  · exact h

/-- The calls that only look at the tree leave the world alone. -/
theorem wp_stat_bind {Q : α → World → Prop} {k : Except Errno Node → FileProg α} (hI : I w)
    (hk : Wp fileMachine Allowed I (k (stat w.tree p)) Q w) :
    Wp fileMachine Allowed I ((Cmd.stat p).issue >>= k) Q w := by
  refine wp_issue_bind (fun r w' => r = stat w.tree p ∧ w = w') hI
    (fun _ _ => ⟨rfl, rfl⟩) ?_
  rintro _ _ ⟨rfl, rfl⟩
  exact hk

theorem wp_lstat_bind {Q : α → World → Prop} {k : Except Errno Node → FileProg α} (hI : I w)
    (hk : Wp fileMachine Allowed I (k (lstat w.tree p n)) Q w) :
    Wp fileMachine Allowed I ((Cmd.lstat p n).issue >>= k) Q w := by
  refine wp_issue_bind (fun r w' => r = lstat w.tree p n ∧ w = w') hI
    (fun _ _ => ⟨rfl, rfl⟩) ?_
  rintro _ _ ⟨rfl, rfl⟩
  exact hk

/-- What a call of `os.MkdirAll` leaves behind. -/
structure Made (R p : Path) (w : World) (r : Option Errno) (w' : World) : Prop where
  keeps : Tree.Keeps w.tree w'.tree
  changed : w' = w ∨ ∃ d n, Creatable w.tree p d n
  found : r = none → ∃ d left, walk w'.tree.node kernelLinks [] p = .found d left ∧
    w'.tree.node d = some .dir ∧
      (w' = w ∨ R <+: d ∧ ∀ m, w'.tree.node (d ++ [m]) = none)

theorem made_unchanged (h : r = none → ∃ d left, walk w.tree.node kernelLinks [] p = .found d left ∧
      w.tree.node d = some .dir) : Made R p w r w where
  keeps := Tree.Keeps.refl
  changed := Or.inl rfl
  found := by
    intro hr
    obtain ⟨d, left, hw, hd⟩ := h hr
    exact ⟨d, left, hw, hd, .inl rfl⟩

theorem Creatable.extend {q : Path} (h : Creatable t q d n) (m : Name) :
    Creatable t (q ++ [m]) d n := by
  obtain ⟨q', rest, left, rfl, hw⟩ := h
  exact ⟨q', rest ++ [m], left, by simp, hw⟩

theorem mkdir_cases {failure : Option String} (hd : lookupDir w.tree p = .ok d)
    (hn : Plain n) :
    (∃ e, w.mkdir p n failure = (some e, w)) ∨
      w.tree.node (d ++ [n]) = none ∧ w.mkdir p n failure = (none, w.put d n (some .dir)) := by
  simp only [World.mkdir, hd]
  by_cases hnone : w.tree.node (d ++ [n]) = none
  · cases failure with
    | none => exact .inr ⟨hnone, by simp [hnone, hn]⟩
    | some message => exact .inl ⟨.failed message, by simp [hnone]⟩
  · exact .inl ⟨.exist, by simp [hnone]⟩

/-- A directory that was just made is where the path now leads, and it is empty. -/
theorem put_dir_found (hw : walk w.tree.node kernelLinks [] p = .found d left)
    (hd : w.tree.node d = some .dir) (hnone : w.tree.node (d ++ [n]) = none) (hn : Plain n) :
    Tree.Keeps w.tree (w.put d n (some .dir)).tree ∧
    walk (w.put d n (some .dir)).tree.node kernelLinks [] (p ++ [n]) = .found (d ++ [n]) left ∧
    (w.put d n (some .dir)).tree.node (d ++ [n]) = some .dir ∧
    ∀ m, (w.put d n (some .dir)).tree.node (d ++ [n] ++ [m]) = none := by
  have hne : w.tree.node (d ++ [n]) ≠ some .dir := by simp [hnone]
  rw [put_eq hd hne hn]
  have hkeeps : Tree.Keeps w.tree (w.tree.put d n (some .dir) hd hne hn) :=
    keeps_put (by simp [hnone])
  have hnew : (w.tree.put d n (some .dir) hd hne hn).node (d ++ [n]) = some .dir :=
    Function.update_self _ _ _
  refine ⟨hkeeps, ?_, hnew, ?_⟩
  · have hw' := walk_keeps hkeeps hw hd
    have hd' := (hkeeps d (.inl hd)).trans hd
    rw [walk_below (root _) (by simp) hw' hd', walk_cons_dir hn hnew, walk_nil]
  · intro m
    have hold : w.tree.node (d ++ [n] ++ [m]) = none := by
      by_contra hm
      exact hne (w.tree.parent _ m hm)
    have hupd : (w.tree.put d n (some .dir) hd hne hn).node (d ++ [n] ++ [m]) =
        w.tree.node (d ++ [n] ++ [m]) := Function.update_of_ne (by simp) _ _
    rw [hupd, hold]

theorem wp_mkdirLast (hw : walk w.tree.node kernelLinks [] p = .found d left)
    (hd : w.tree.node d = some .dir) (hn : Plain n) (hI : I w)
    (hput : w.tree.node (d ++ [n]) = none → I (w.put d n (some .dir))) :
    Wp fileMachine Allowed I (mkdirLast p n) (fun r w' =>
      w' = w ∧ (r = none → w.tree.node (d ++ [n]) = some .dir) ∨
        w.tree.node (d ++ [n]) = none ∧ r = none ∧ w' = w.put d n (some .dir)) w := by
  have hlook : lookupDir w.tree p = .ok d := lookupDir_eq_ok.mpr ⟨left, hw, hd⟩
  refine wp_issue_bind (fun r w' => (∃ e, r = some e) ∧ w = w' ∨
    w.tree.node (d ++ [n]) = none ∧ r = none ∧ w' = w.put d n (some .dir)) hI ?_ ?_
  · intro o _
    have hexec : fileMachine.exec (.mkdir p n) o w = w.mkdir p n o.failure := rfl
    rw [hexec]
    rcases @mkdir_cases w p d n o.failure hlook hn with ⟨e, he⟩ | ⟨hnone, he⟩
    · rw [he]
      exact .inl ⟨⟨e, rfl⟩, rfl⟩
    · rw [he]
      exact .inr ⟨hnone, rfl, rfl⟩
  · rintro r w' (⟨⟨e, rfl⟩, rfl⟩ | ⟨hnone, rfl, rfl⟩)
    · refine wp_lstat_bind hI ?_
      have hl : lstat w.tree p n = (w.tree.node (d ++ [n])).elim (.error .notExist) .ok := by
        rw [lstat, hlook]
      rw [hl]
      rcases hv : w.tree.node (d ++ [n]) with _ | (_ | _ | _)
      · exact wp_pure hI (.inl ⟨rfl, by simp⟩)
      · exact wp_pure hI (.inl ⟨rfl, fun _ => rfl⟩)
      · exact wp_pure hI (.inl ⟨rfl, by simp⟩)
      · exact wp_pure hI (.inl ⟨rfl, by simp⟩)
    · exact wp_pure (hput hnone) (.inr ⟨hnone, rfl, rfl⟩)

theorem Made.changed_extend {w' : World} (h : Made R p w r w') (m : Name) :
    w' = w ∨ ∃ d n, Creatable w.tree (p ++ [m]) d n := by
  refine h.changed.imp_right ?_
  rintro ⟨d, n, hc⟩
  exact ⟨d, n, hc.extend m⟩

/-- `os.MkdirAll` touches only places below the directory in which the path's first missing
name would be created. -/
theorem wp_mkdirAll (rev : List Name) (hplain : ∀ n ∈ rev, Plain n) (hc : Confined R w)
    (hsafe : ∀ d n, Creatable w.tree rev.reverse d n → R <+: d) :
    Wp fileMachine Allowed (Confined R) (mkdirAll rev) (Made R rev.reverse w) w := by
  induction rev with
  | nil =>
    refine wp_stat_bind hc ?_
    have hwalk : walk w.tree.node kernelLinks [] [] = .found [] kernelLinks := walk_nil
    have hstat : stat w.tree [] = .ok .dir := by simp [stat, hwalk, w.tree.root]
    rw [hstat]
    exact wp_pure hc (made_unchanged fun _ => ⟨[], _, hwalk, w.tree.root⟩)
  | cons n up ih =>
    obtain ⟨hn, hup⟩ := List.forall_mem_cons.mp hplain
    rw [List.reverse_cons] at hsafe ⊢
    refine wp_stat_bind hc ?_
    rw [List.reverse_cons]
    rcases hs : stat w.tree (up.reverse ++ [n]) with e | v
    · refine wp_bind ((ih hup fun d m hm => hsafe d m (hm.extend n)).post ?_)
      rintro (_ | e) w₁ hc₁ hmade
      · obtain ⟨d, left, hw, hd, hnew⟩ := hmade.found rfl
        -- the directory is inside `R` if the next name is missing in it
        have hR : w₁.tree.node (d ++ [n]) = none → R <+: d := by
          intro hnone
          rcases hnew with rfl | ⟨hR, -⟩
          · exact hsafe d n ⟨up.reverse, [], left, rfl, hw, hd, hnone⟩
          · exact hR
        refine (wp_mkdirLast hw hd hn hc₁ fun hnone => confined_put hc₁ (hR hnone)).post ?_
        rintro r w' - (⟨rfl, hdir⟩ | ⟨hnone, rfl, rfl⟩)
        · refine ⟨hmade.keeps, hmade.changed_extend n, fun hr => ?_⟩
          refine ⟨d ++ [n], left, ?_, hdir hr, .inl ?_⟩
          · rw [walk_below w'.tree.root (by simp) hw hd, walk_cons_dir hn (hdir hr),
              walk_nil]
          · refine hnew.resolve_right ?_
            rintro ⟨-, hempty⟩
            simp [hempty n] at hdir
            exact hdir hr
        · obtain ⟨hk, hwalk, hdir, hempty⟩ := put_dir_found hw hd hnone hn
          refine ⟨hmade.keeps.trans hk, .inr ?_,
            fun _ => ⟨d ++ [n], left, hwalk, hdir, .inr ⟨?_, hempty⟩⟩⟩
          · rcases hmade.changed_extend n with rfl | hcreatable
            · exact ⟨d, n, up.reverse, [], left, rfl, hw, hd, hnone⟩
            · exact hcreatable
          · exact (hR hnone).trans (List.prefix_append d [n])
      · exact wp_pure hc₁ ⟨hmade.keeps, hmade.changed_extend n, by simp⟩
    · obtain ⟨q, left, hw, hq⟩ := stat_eq_ok hs
      cases v with
      | dir => exact wp_pure hc (made_unchanged fun _ => ⟨q, left, hw, hq⟩)
      | file regular => exact wp_pure hc (made_unchanged (by simp))
      | link target => exact wp_pure hc (made_unchanged (by simp))

theorem touched_put : w.touched ⊆ (w.put d n v).touched := by
  rw [World.put]
  split
  · exact List.subset_cons_self _ _
  · exact fun _ h => h

theorem touched_exec (c : Cmd) (o : Out) (w : World) :
    w.touched ⊆ (fileMachine.exec c o w).2.touched := by
  have hrefl : w.touched ⊆ w.touched := fun _ h => h
  cases c with
  | mkdir up n =>
    change w.touched ⊆ (w.mkdir up n o.failure).2.touched
    rw [World.mkdir.eq_def]
    repeat' split
    all_goals first | exact hrefl | exact touched_put
  | createTemp dir =>
    change w.touched ⊆ (w.createTemp dir o.temp o.failure).2.touched
    rw [World.createTemp.eq_def]
    repeat' split
    all_goals first | exact hrefl | exact touched_put
  | rename dir temp base =>
    change w.touched ⊆ (w.rename dir temp base o.failure).2.touched
    rw [World.rename.eq_def]
    repeat' split
    all_goals first | exact hrefl | exact List.Subset.trans touched_put touched_put
  | remove dir temp =>
    change w.touched ⊆ (w.remove dir temp o.failure).touched
    rw [World.remove.eq_def]
    repeat' split
    all_goals first | exact hrefl | exact touched_put
  | _ => exact hrefl

/-- Nothing that was touched is forgotten by the rest of a program. -/
theorem wp_touched (q : FileProg α) (h : p ∈ w.touched) :
    Wp fileMachine Allowed (fun w => p ∈ w.touched) q (fun _ _ => True) w :=
  wp_preserved q (fun c o w _ hm => touched_exec c o w hm) h

def Succeeds (_ : Cmd) (o : Out) (_ : World) : Prop := o.failure = none

theorem Creatable.stat_error (h : Creatable t p d n) (hn : Plain n) :
    ∃ e, stat t p = .error e := by
  obtain ⟨q, rest, left, rfl, hw, hd, hnone⟩ := h
  have hmissing : walk t.node kernelLinks [] (q ++ n :: rest) = .missing := by
    rw [walk_below t.root (by simp) hw hd, walk_cons_none hn hnone]
  exact ⟨.notExist, by rw [stat, hmissing]⟩

theorem wp_mkdirAll_found (hw : walk w.tree.node kernelLinks [] rev.reverse = .found d left)
    (hd : w.tree.node d = some .dir) (hI : I w) :
    Wp fileMachine Allowed I (mkdirAll rev) (fun r w' => r = none ∧ w = w') w := by
  have hstat : stat w.tree rev.reverse = .ok .dir := by simp [stat, hw, hd]
  cases rev with
  | nil =>
    refine wp_stat_bind hI ?_
    rw [List.reverse_nil] at hstat
    rw [hstat]
    exact wp_pure hI ⟨rfl, rfl⟩
  | cons n up =>
    refine wp_stat_bind hI ?_
    rw [hstat]
    exact wp_pure hI ⟨rfl, rfl⟩

/-- If nothing fails, the first missing name is created. -/
theorem wp_mkdirAll_creates (hplain : ∀ n ∈ rev, Plain n) (hc : Creatable w.tree rev.reverse d n) :
    Wp fileMachine Succeeds (fun _ => True) (mkdirAll rev)
      (fun _ w' => d ++ [n] ∈ w'.touched) w := by
  induction rev with
  | nil =>
    obtain ⟨q, rest, left, hq, -⟩ := hc
    simp at hq
  | cons m up ih =>
    obtain ⟨hm, hup⟩ := List.forall_mem_cons.mp hplain
    have hn : Plain n := by
      obtain ⟨q, rest, left, hq, -⟩ := hc
      exact hplain n (by rw [← List.mem_reverse, hq]; simp)
    obtain ⟨e, he⟩ := hc.stat_error hn
    refine wp_stat_bind trivial ?_
    rw [he]
    obtain ⟨q, rest, left, hq, hw, hd, hnone⟩ := hc
    rw [List.reverse_cons] at hq
    rcases List.eq_nil_or_concat rest with rfl | ⟨rest, x, rfl⟩
    · -- the parent is there and the last name is created in it
      obtain ⟨hparent, hmn⟩ := List.append_inj' hq rfl
      cases hmn
      rw [← hparent] at hw
      refine wp_bind ((wp_mkdirAll_found hw hd trivial).post ?_)
      rintro _ _ - ⟨rfl, rfl⟩
      refine wp_issue_bind (fun r w' => r = none ∧ d ++ [n] ∈ w'.touched) trivial ?_ ?_
      · intro o ho
        have hlook : lookupDir w.tree up.reverse = .ok d := lookupDir_eq_ok.mpr ⟨left, hw, hd⟩
        have hfail : o.failure = none := ho
        have hexec : fileMachine.exec (.mkdir up.reverse n) o w =
            (none, w.put d n (some .dir)) := by
          change w.mkdir up.reverse n o.failure = _
          simp [World.mkdir, hlook, hfail, hnone, hm]
        rw [hexec, put_eq hd (by simp [hnone]) hm]
        exact ⟨rfl, List.mem_cons_self⟩
      · rintro _ w' ⟨rfl, hmem⟩
        exact wp_pure trivial hmem
    · rw [List.concat_eq_append, ← List.cons_append, ← List.append_assoc] at hq
      obtain ⟨hq, -⟩ := List.append_inj' hq rfl
      refine wp_bind ((ih hup ⟨q, rest, left, hq, hw, hd, hnone⟩).post ?_)
      rintro (_ | e) w' - hmem
      · exact (wp_touched (mkdirLast up.reverse m) hmem).mono (fun _ _ => trivial)
          fun _ _ h _ => h
      · exact wp_pure trivial hmem

end Stacklab.Workspace
