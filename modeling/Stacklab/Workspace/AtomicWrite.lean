import Stacklab.Workspace.MkdirAll
import Stacklab.Workspace.SaveFile

/-! The atomic write touches nothing but entries of the directory of its target. -/
namespace Stacklab.Workspace

open Lib Prog.Issues Prog

variable {Allowed : Cmd → Out → World → Prop} {w : World} {R dir D : Path} {base n : Name}
  {t : Tree}

/-- The path `dir` leads to a directory inside `R`, and still does so after the entry `base`
of that directory is replaced. -/
structure Anchored (R dir D : Path) (base : Name) (w : World) : Prop where
  confined : Confined R w
  inside : R <+: D
  isDir : w.tree.node D = some .dir
  leads : lookupDir w.tree dir = .ok D
  lasting : dir = D ∨ ∀ target, w.tree.node (D ++ [base]) ≠ some (.link target)

theorem lookupDir_physical (h : t.node D = some .dir) : lookupDir t D = .ok D :=
  lookupDir_eq_ok.mpr ⟨kernelLinks, Tree.walk_physical (.inl h), h⟩

theorem lookupDir_keeps {t' : Tree} (hk : Tree.Keeps t t') (h : lookupDir t dir = .ok D) :
    lookupDir t' dir = .ok D := by
  obtain ⟨left, hw, hd⟩ := lookupDir_eq_ok.mp h
  exact lookupDir_eq_ok.mpr ⟨left, Tree.walk_keeps hk hw hd, (hk D (.inl hd)).trans hd⟩

theorem Anchored.put (h : Anchored R dir D base w) {v : Option Node}
    (hv : ∀ target, v ≠ some (.link target))
    (hn : n = base ∨ ∀ target, w.tree.node (D ++ [n]) ≠ some (.link target)) :
    Anchored R dir D base (w.put D n v) := by
  have hc := @confined_put w D R n v h.confined h.inside
  by_cases hok : w.tree.node D = some .dir ∧ w.tree.node (D ++ [n]) ≠ some .dir ∧ Plain n
  · obtain ⟨hd, hne, hp⟩ := hok
    rw [put_eq hd hne hp] at hc ⊢
    have hD : (w.tree.put D n v hd hne hp).node D = some .dir := by
      have hold : (w.tree.put D n v hd hne hp).node D = w.tree.node D :=
        Function.update_of_ne (by simp) _ _
      rw [hold, hd]
    refine ⟨hc, h.inside, hD, ?_, ?_⟩
    · rcases h.lasting with rfl | hbase
      · exact lookupDir_physical hD
      · have hlink : ∀ target, w.tree.node (D ++ [n]) ≠ some (.link target) := by
          rcases hn with rfl | hn
          · exact hbase
          · exact hn
        have hkeeps : Tree.Keeps w.tree (w.tree.put D n v hd hne hp) := Tree.keeps_put hlink
        exact lookupDir_keeps hkeeps h.leads
    · refine h.lasting.imp_right fun hbase => ?_
      by_cases he : base = n
      · subst he
        have hnew : (w.tree.put D base v hd hne hp).node (D ++ [base]) = v :=
          Function.update_self _ _ _
        rwa [hnew]
      · have hold : (w.tree.put D n v hd hne hp).node (D ++ [base]) = w.tree.node (D ++ [base]) :=
          Function.update_of_ne (by simpa using he) _ _
        rwa [hold]
  · have hsame : w.put D n v = w := dif_neg hok
    rwa [hsame]

/-- The commands that write into one directory or nowhere. -/
def Within (dir : Path) (base : Name) : Cmd → Prop
  | .mkdir _ _ => False
  | .createTemp into | .remove into _ => into = dir
  | .rename into _ onto => into = dir ∧ onto = base
  | _ => True

theorem anchored_exec (c : Cmd) (o : Out) (w : World) (hc : Within dir base c)
    (h : Anchored R dir D base w) : Anchored R dir D base (fileMachine.exec c o w).2 := by
  cases c with
  | mkdir up n => exact hc.elim
  | createTemp into =>
    obtain rfl : into = dir := hc
    change Anchored R into D base (w.createTemp into o.temp o.failure).2
    rw [World.createTemp.eq_def, h.leads]
    split
    · exact h
    · exact h
    next hd _ =>
      cases hd
      split
      next hfree =>
        exact h.put (by simp) (.inr (by simp [hfree.1]))
      · exact h
  | rename into temp onto =>
    obtain ⟨rfl, rfl⟩ : into = dir ∧ onto = base := hc
    change Anchored R into D onto (w.rename into temp onto o.failure).2
    rw [World.rename.eq_def, h.leads]
    split
    · exact h
    · exact h
    next hd _ =>
      cases hd
      split
      · exact h
      next htemp =>
        rw [not_not] at htemp
        split
        · exact h
        · split
          · exact (h.put (by simp) (.inr (by simp [htemp]))).put (by simp) (.inl rfl)
          · exact h
  | remove into temp =>
    obtain rfl : into = dir := hc
    change Anchored R into D base (w.remove into temp o.failure)
    rw [World.remove.eq_def, h.leads]
    split
    next hd _ =>
      cases hd
      split
      next htemp =>
        exact h.put (by simp) (.inr (by simp [htemp]))
      · exact h
    · exact h
  | _ => exact h

theorem issues_snapshotMetadata (path : Path) :
    (snapshotMetadata path).Issues (Within dir base) := by
  refine bind (issues_issue trivial) fun r => ?_
  split
  · exact issues_pure _
  · exact issues_pure _
  · refine bind (issues_issue trivial) fun text => ?_
    split <;> exact issues_pure _
  · exact issues_pure _

theorem issues_remove (temp : Name) {α : Type} (a : α) :
    (do (Cmd.remove dir temp).issue; pure a : FileProg α).Issues (Within dir base) :=
  bind (issues_issue rfl) fun _ => issues_pure a

theorem issues_stageTemp : (stageTemp dir).Issues (Within dir base) := by
  refine bind (issues_issue rfl) fun r => ?_
  split
  · exact issues_pure _
  · refine bind (issues_issue trivial) fun text => ?_
    split
    · exact issues_remove _ _
    · exact issues_pure _

theorem issues_commit (temp : Name) : (commit dir base temp).Issues (Within dir base) := by
  refine bind (issues_issue ⟨rfl, rfl⟩) fun r => ?_
  split
  · exact issues_remove _ _
  · exact bind (issues_issue trivial) fun _ => issues_remove _ _

theorem wp_stage (h : Anchored R dir D base w) :
    Wp fileMachine Allowed (Anchored R dir D base) (stage dir base) (fun _ _ => True) w := by
  obtain ⟨left, hw, hd⟩ := lookupDir_eq_ok.mp h.leads
  rw [← List.reverse_reverse dir] at hw
  refine wp_bind ((wp_mkdirAll_found hw hd h).post ?_)
  rintro _ _ - ⟨rfl, rfl⟩
  refine wp (bind (issues_snapshotMetadata _) fun r => ?_) anchored_exec h
  split
  · exact issues_pure _
  · exact issues_stageTemp

theorem wp_writeFileAtomic (h : Anchored R dir D base w) :
    Wp fileMachine Allowed (Confined R) (writeFileAtomic (dir ++ [base]))
      (fun _ _ => True) w := by
  have hall : Wp fileMachine Allowed (Anchored R dir D base)
      (writeFileAtomic (dir ++ [base])) (fun _ _ => True) w := by
    simp only [writeFileAtomic, List.dropLast_concat, List.getLast?_concat, Option.getD_some]
    refine wp_bind ((wp_stage h).post ?_)
    rintro (e | temp) w' h' -
    · exact wp_pure h' trivial
    · exact (issues_commit temp).wp anchored_exec h'
  exact hall.mono (fun _ hw => hw.confined) fun _ _ _ _ => trivial

end Stacklab.Workspace
