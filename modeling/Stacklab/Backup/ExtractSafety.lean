import Stacklab.Backup.ArchiveLinks
import Stacklab.Backup.Extract

/-! Extraction never writes through a symlink of the archive. -/
namespace Stacklab.Backup

open Lib Prog

/-- Every symlink in the target stands at a known place, and none was followed so far. -/
structure TarSafe (Symlink : MemberPath → Prop) (w : TarWorld) : Prop where
  known : ∀ path, w.entry path = some .symlink → Symlink path
  direct : ∀ write ∈ w.log, write.through = false

variable {Symlink Symlink' : MemberPath → Prop} {w : TarWorld} {o : TarOut} {path : MemberPath}
  {header : Header} {headers members : List Header} {delayed : List MemberPath}

theorem TarSafe.mono (h : TarSafe Symlink w) (hle : ∀ path, Symlink path → Symlink' path) :
    TarSafe Symlink' w :=
  ⟨fun path hp => hle path (h.known path hp), h.direct⟩

variable (Symlink) in
/-- No symlink can stand above the path. -/
def Clear (path : MemberPath) : Prop := ∀ above, Symlink above → ¬ StrictAncestor above path

theorem passesSymlink_eq_false (h : TarSafe Symlink w) (hclear : Clear Symlink path) :
    w.passesSymlink path = false := by
  rw [TarWorld.passesSymlink, List.any_eq_false]
  intro above habove
  rw [List.mem_inits] at habove
  simp only [decide_eq_true_eq, not_and]
  exact fun hne hlink => hclear above (h.known above hlink) ⟨habove, hne⟩

section Writes

variable {q : MemberPath} {follows legal : Bool} {fs : GoMap MemberPath EntryType}

theorem write_cases (w : TarWorld) (o : TarOut) (path : MemberPath) (follows legal : Bool)
    (fs : GoMap MemberPath EntryType) :
    (w.write o path follows legal fs).2.log = ⟨path, w.passesSymlink path || follows⟩ :: w.log ∧
      ((w.write o path follows legal fs).2.fs = w.fs ∨
        (w.write o path follows legal fs).2.fs = fs) := by
  have hfs : ∀ b : Prop, [Decidable b] →
      (if b then fs else w.fs) = w.fs ∨ (if b then fs else w.fs) = fs := by
    intro b _
    split
    · exact .inr rfl
    · exact .inl rfl
  unfold TarWorld.write
  dsimp only
  split
  · exact ⟨rfl, hfs _⟩
  · split <;> exact ⟨rfl, hfs _⟩

theorem entry_of_fs {log : List TarWrite} (h : TarWorld.entry ⟨fs, log⟩ path = some .symlink) :
    fs.lookup path = some .symlink := by
  unfold TarWorld.entry at h
  split at h
  · cases h
  · exact h

/-- A symlink after a write was there before, or the write may have left it. -/
theorem entry_write {P : Prop}
    (hfs : fs.lookup q = some .symlink → w.fs.lookup q = some .symlink ∨ P)
    (h : (w.write o path follows legal fs).2.entry q = some .symlink) :
    w.entry q = some .symlink ∨ P := by
  have hne : q ≠ [] := by
    rintro rfl
    cases h
  have hlookup := entry_of_fs h
  have hold : w.fs.lookup q = some .symlink ∨ P := by
    rcases (write_cases w o path follows legal fs).2 with hw | hw
    · exact .inl (hw ▸ hlookup)
    · exact hfs (hw ▸ hlookup)
  refine hold.imp_left fun hq => ?_
  rw [TarWorld.entry, if_neg hne, hq]

/-- A write to a clear path is safe if it leaves no symlink at an unknown place. -/
theorem tarSafe_write (h : TarSafe Symlink w) (hclear : Clear Symlink path)
    (hfollows : follows = false)
    (hfs : ∀ q, fs.lookup q = some .symlink → w.fs.lookup q = some .symlink ∨ Symlink q) :
    TarSafe Symlink (w.write o path follows legal fs).2 := by
  refine ⟨fun q hq => (entry_write (hfs q) hq).elim (h.known q) id, fun write hwrite => ?_⟩
  rw [(write_cases w o path follows legal fs).1] at hwrite
  rcases List.mem_cons.mp hwrite with rfl | hwrite
  · simp [passesSymlink_eq_false h hclear, hfollows]
  · exact h.direct write hwrite

end Writes

variable (Symlink) {q : MemberPath} {S : TarCmd → Prop} {before : List Header} in
/-- The commands that are safe wherever the known symlinks stand. -/
def Direct : TarCmd → Prop
  | .lstat _ | .other => True
  | .mkdir path | .unlink path | .rmdir path => Clear Symlink path
  | .create path kind => Clear Symlink path ∧ (kind = .symlink → Symlink path)
  | .link source path => Clear Symlink path ∧ Clear Symlink source ∧ ¬ Symlink source
  | .setMetadata _ => False

theorem tarSafe_exec (c : TarCmd) (o : TarOut) (w : TarWorld) (hc : Direct Symlink c)
    (h : TarSafe Symlink w) : TarSafe Symlink (tarMachine.exec c o w).2 := by
  cases c with
  | lstat path =>
    simp only [tarMachine]
    split <;> exact h
  | other =>
    simp only [tarMachine]
    split <;> exact h
  | mkdir path =>
    refine tarSafe_write h hc rfl fun q hq => ?_
    exact (GoMap.lookup_insert_cases hq).symm.imp_right fun hkind => by cases hkind.2
  | unlink path => exact tarSafe_write h hc rfl fun q hq => .inl (GoMap.lookup_of_lookup_erase hq)
  | rmdir path => exact tarSafe_write h hc rfl fun q hq => .inl (GoMap.lookup_of_lookup_erase hq)
  | create path kind =>
    refine tarSafe_write h hc.1 rfl fun q hq => ?_
    rcases GoMap.lookup_insert_cases hq with ⟨rfl, hkind⟩ | hold
    · exact .inr (hc.2 hkind.symm)
    · exact .inl hold
  | link source path =>
    have hsource : w.linkSource o source = w.entry source := by
      rw [TarWorld.linkSource, passesSymlink_eq_false h hc.2.1]
      rfl
    simp only [tarMachine, hsource]
    split
    · exact tarSafe_write h hc.1 rfl fun q => .inl
    · exact tarSafe_write h hc.1 rfl fun q => .inl
    next kind _ hkind =>
      refine tarSafe_write h hc.1 rfl fun q hq => ?_
      refine (GoMap.lookup_insert_cases hq).symm.imp_right fun hnew => absurd ?_ hc.2.2
      exact h.known source (hnew.2 ▸ hkind)
  | setMetadata path => exact hc.elim

/-! One member. -/

theorem StrictAncestor.trans {a b c : MemberPath} (h : StrictAncestor a b)
    (h' : StrictAncestor b c) : StrictAncestor a c := by
  refine ⟨h.1.trans h'.1, ?_⟩
  rintro rfl
  exact h.2 (h.1.eq_of_length_le h'.1.length_le)

theorem Clear.parent (h : Clear Symlink path) {parent : MemberPath}
    (hparent : parent ∈ parents path) : Clear Symlink parent :=
  fun above hlink hanc => h above hlink (hanc.trans (mem_parents.mp hparent).2)

theorem Clear.not_symlink_parent (h : Clear Symlink path) {parent : MemberPath}
    (hparent : parent ∈ parents path) : ¬ Symlink parent :=
  fun hlink => h parent hlink (mem_parents.mp hparent).2

theorem issues_makeParents {todo : List MemberPath} (hlstat : ∀ path, S (.lstat path))
    (hmkdir : ∀ path ∈ todo, S (.mkdir path)) : (makeParents todo).Issues S := by
  induction todo with
  | nil => exact issues_pure _
  | cons parent rest ih =>
    have hrest := ih fun path hp => hmkdir path (List.mem_cons_of_mem _ hp)
    refine (issues_issue (hlstat parent)).bind ?_
    rintro (err | _ | kind)
    · exact issues_pure _
    · refine (issues_issue (hmkdir parent List.mem_cons_self)).bind ?_
      rintro (err | _)
      · exact issues_pure _
      · exact hrest.bind fun _ => issues_pure _
    · exact hrest

theorem ensures_makeParents (todo : List MemberPath) :
    Ensures tarMachine (makeParents todo) (fun made _ => made.2 ⊆ todo) w := by
  induction todo generalizing w with
  | nil => exact wp_pure trivial (List.nil_subset _)
  | cons parent rest ih =>
    refine wp_issue_bind (fun _ _ => True) trivial (fun _ _ => trivial) ?_
    rintro (err | _ | kind) w₁ -
    · exact wp_pure trivial (List.nil_subset _)
    · refine wp_issue_bind (fun _ _ => True) trivial (fun _ _ => trivial) ?_
      rintro (err | _) w₂ -
      · exact wp_pure trivial (List.nil_subset _)
      · exact wp_bind (ih.post fun made w₃ _ hsub =>
          wp_pure trivial (List.cons_subset_cons parent hsub))
    · exact ih.post fun made w₃ _ hsub => List.Subset.trans hsub (List.subset_cons_self _ _)

theorem direct_placeMember (hclear : Clear Symlink path)
    (hsymlink : header.typeflag = .symlink → Symlink path)
    (hlink : header.typeflag = .link → Clear Symlink header.linkPath ∧ ¬ Symlink header.linkPath) :
    (placeMember header path).Issues (Direct Symlink) := by
  unfold placeMember
  split
  · exact issues_issue hclear
  next hflag =>
    exact issues_issue ⟨hclear, fun _ => hsymlink hflag⟩
  next hflag =>
    exact issues_issue ⟨hclear, hlink hflag⟩
  all_goals exact issues_issue ⟨hclear, fun hkind => by cases hkind⟩

theorem issues_clearPlace (hlstat : S (.lstat path)) (hrmdir : S (.rmdir path))
    (hunlink : S (.unlink path)) : (clearPlace header path).Issues S := by
  refine (issues_issue hlstat).bind ?_
  rintro (err | _ | kind)
  · exact issues_pure _
  · exact issues_pure _
  · cases kind with
    | directory =>
      dsimp only
      split
      · exact issues_pure _
      · exact (issues_issue hrmdir).bind fun _ => issues_pure _
    | _ => exact (issues_issue hunlink).bind fun _ => issues_pure _

/-- Only a directory stays where a member goes, and only for a directory. -/
theorem ensures_clearPlace :
    Ensures tarMachine (clearPlace header path) (fun r w' => r = .ok true →
      header.typeflag = .dir ∧ w'.entry path = some .directory) w := by
  have hgone (c : TarCmd) (k : TarAns c → Except String Unit) (w : TarWorld) :
      Ensures tarMachine (do
        let removed ← c.issue
        pure ((k removed).map fun _ => false) : TarProg (Except String Bool))
        (fun r w' => r = .ok true → header.typeflag = .dir ∧ w'.entry path = some .directory) w := by
    refine wp_issue_bind (fun _ _ => True) trivial (fun _ _ => trivial) fun removed w' _ => ?_
    refine wp_pure trivial fun hr => ?_
    cases hk : k removed <;> simp [hk, Except.map] at hr
  refine wp_issue_bind (fun (r : Except String (Option EntryType)) w' =>
    ∀ kind, r = .ok kind → w'.entry path = kind) trivial ?_ ?_
  · intro o _ kind hr
    simp only [tarMachine] at hr ⊢
    split at hr
    · cases hr
    · exact Except.ok.inj hr
  · rintro (err | _ | kind) w₁ hentry
    · exact wp_pure trivial (by simp)
    · exact wp_pure trivial (by simp)
    · cases kind with
      | directory =>
        dsimp only
        split
        next hdir =>
          exact wp_pure trivial fun _ => ⟨hdir, hentry _ rfl⟩
        · exact hgone (.rmdir path) id w₁
      | _ => exact hgone (.unlink path) id w₁

/-- The first pass: a member that is no directory, with its symlink known. -/
theorem wp_extractMember (h : TarSafe Symlink w) (hdir : header.typeflag ≠ .dir)
    (hclear : Clear Symlink header.path)
    (hsymlink : header.typeflag = .symlink → Symlink header.path)
    (hlink : header.typeflag = .link → Clear Symlink header.linkPath ∧ ¬ Symlink header.linkPath) :
    Wp tarMachine (fun _ _ _ => True) (TarSafe Symlink) (extractMember header)
      (fun r _ => ∀ path ∈ r.2, path ∈ parents header.path) w := by
  unfold extractMember
  split
  · exact wp_pure h (by simp)
  · have hparents : (makeParents (parents header.path).reverse).Issues (Direct Symlink) :=
      issues_makeParents (fun _ => trivial) fun _ hp => hclear.parent (List.mem_reverse.mp hp)
    have hplace : (clearPlace header header.path).Issues (Direct Symlink) :=
      issues_clearPlace trivial hclear hclear
    refine wp_bind (((hparents.wp tarSafe_exec h).and (ensures_makeParents _)).post ?_)
    rintro ⟨err | _, made⟩ w₁ h₁ ⟨-, hsub⟩
    · exact wp_pure h₁ fun path hp => List.mem_reverse.mp (hsub hp)
    · have hmade : ∀ path ∈ made, path ∈ parents header.path :=
        fun path hp => List.mem_reverse.mp (hsub hp)
      refine wp_bind (((hplace.wp tarSafe_exec h₁).and ensures_clearPlace).post ?_)
      rintro (err | _ | _) w₂ h₂ ⟨-, hstays⟩
      · exact wp_pure h₂ hmade
      · refine wp_bind (((direct_placeMember hclear hsymlink hlink).wp tarSafe_exec h₂).post ?_)
        rintro (err | _) w₃ h₃ -
        · exact wp_pure h₃ hmade
        · dsimp only
          exact wp_pure h₃ hmade
      · exact absurd (hstays rfl).1 hdir

variable (members) in
def SymlinkAt (path : MemberPath) : Prop :=
  ∃ member ∈ members, member.typeflag = .symlink ∧ member.path = path

theorem ArchiveAccepted.clear (h : ArchiveAccepted headers) (hmem : header ∈ headers)
    (hsub : members ⊆ headers) : Clear (SymlinkAt members) header.path := by
  rintro _ ⟨link, hlink, hflag, rfl⟩
  exact h.not_below_symlink hmem (hsub hlink) hflag

theorem ArchiveAccepted.clear_linkPath {after : List Header} (h : ArchiveAccepted headers)
    (he : headers = before ++ header :: after) (hflag : header.typeflag = .link) :
    Clear (SymlinkAt (before ++ [header])) header.linkPath ∧
      ¬ SymlinkAt (before ++ [header]) header.linkPath := by
  have hbefore : ∀ link ∈ before ++ [header], link.typeflag = .symlink →
      link.path ≠ header.linkPath ∧ ¬ StrictAncestor link.path header.linkPath := by
    intro link hlink hsym
    rcases List.mem_append.mp hlink with hlink | hlink
    · exact h.linked_not_link he hflag hlink (ArchiveAccepted.isLink_of_symlink hsym)
    · rw [List.mem_singleton.mp hlink, hflag] at hsym
      cases hsym
  refine ⟨?_, ?_⟩
  · rintro _ ⟨link, hlink, hsym, rfl⟩
    exact (hbefore link hlink hsym).2
  · rintro ⟨link, hlink, hsym, hpath⟩
    exact (hbefore link hlink hsym).1 hpath

theorem symlinkAt_mono (hsub : members ⊆ headers) :
    SymlinkAt members path → SymlinkAt headers path := by
  rintro ⟨link, hlink, hflag, rfl⟩
  exact ⟨link, hsub hlink, hflag, rfl⟩

/-- The first pass. The symlinks that can stand in the target are those of the members that
come before the next one in the archive. -/
theorem wp_extractMembers {rest : List Header} (h : ArchiveAccepted headers)
    (he : headers = before ++ rest) (hw : TarSafe (SymlinkAt before) w) :
    Wp tarMachine (fun _ _ _ => True) (TarSafe (SymlinkAt headers))
      (extractMembers (rest.filter fun header => header.typeflag ≠ .dir))
      (fun r _ => ∀ path ∈ r.2, ∃ member ∈ headers, path ∈ parents member.path) w := by
  have hsub : before ⊆ headers := he ▸ List.subset_append_left _ _
  have hI := hw.mono fun _ => symlinkAt_mono hsub
  induction rest generalizing before w with
  | nil => exact wp_pure hI (by simp)
  | cons header rest ih =>
    have he' : headers = (before ++ [header]) ++ rest := by simp [he]
    have hsub' : before ++ [header] ⊆ headers := he' ▸ List.subset_append_left _ _
    have hw' := hw.mono fun _ => symlinkAt_mono (List.subset_append_left before [header])
    have hmem : header ∈ headers := hsub' (by simp)
    by_cases hdir : header.typeflag = .dir
    · rw [List.filter_cons_of_neg (by simp [hdir])]
      exact ih he' hw' hsub' hI
    · rw [List.filter_cons_of_pos (by simp [hdir])]
      refine wp_bind ((wp_extractMember hw' hdir (h.clear hmem hsub')
        (fun hflag => ⟨header, by simp, hflag, rfl⟩) (h.clear_linkPath he)).mono
        (fun _ hw₁ => hw₁.mono fun _ => symlinkAt_mono hsub') ?_)
      intro first w₁ hw₁ hfirst
      refine wp_bind ((ih he' hw₁ hsub' (hw₁.mono fun _ => symlinkAt_mono hsub')).post ?_)
      intro others w₂ hI₂ hothers
      have hall : ∀ path ∈ first.2 ++ others.2, ∃ member ∈ headers, path ∈ parents member.path := by
        intro path hp
        rcases List.mem_append.mp hp with hp | hp
        · exact ⟨header, hmem, hfirst path hp⟩
        · exact hothers path hp
      split <;> exact wp_pure hI₂ hall

/-! The second pass. -/

variable (Symlink) in
/-- The directories whose metadata is still to be set are no symlinks. -/
def Settled (delayed : List MemberPath) (w : TarWorld) : Prop :=
  ∀ path ∈ delayed, Clear Symlink path ∧ w.entry path ≠ some .symlink

theorem Settled.append {delayed' : List MemberPath} (h : Settled Symlink delayed w)
    (h' : Settled Symlink delayed' w) : Settled Symlink (delayed ++ delayed') w :=
  fun path hp => (List.mem_append.mp hp).elim (h path) (h' path)

theorem Settled.cons (h : Settled Symlink delayed w) (hclear : Clear Symlink path)
    (hdir : w.entry path = some .directory) : Settled Symlink (path :: delayed) w := by
  intro q hq
  rcases List.mem_cons.mp hq with rfl | hq
  · exact ⟨hclear, by simp [hdir]⟩
  · exact h q hq

theorem settled_parents (h : TarSafe Symlink w) (hclear : Clear Symlink path)
    (hmade : ∀ parent ∈ delayed, parent ∈ parents path) : Settled Symlink delayed w :=
  fun parent hp => ⟨hclear.parent (hmade parent hp),
    fun hlink => hclear.not_symlink_parent (hmade parent hp) (h.known parent hlink)⟩

def AddsNoLink : TarCmd → Prop
  | .create _ _ | .link _ _ => False
  | _ => True

theorem entry_exec (c : TarCmd) (o : TarOut) (hc : AddsNoLink c)
    (h : (tarMachine.exec c o w).2.entry path = some .symlink) : w.entry path = some .symlink := by
  have hwrite : ∀ {follows legal : Bool} {q : MemberPath} {fs : GoMap MemberPath EntryType},
      (w.write o q follows legal fs).2.entry path = some .symlink →
      (fs.lookup path = some .symlink → w.fs.lookup path = some .symlink) →
      w.entry path = some .symlink :=
    fun hafter hfs => (entry_write (fun hp => .inl (hfs hp)) hafter).elim id False.elim
  cases c with
  | lstat q =>
    simp only [tarMachine] at h
    split at h <;> exact h
  | other =>
    simp only [tarMachine] at h
    split at h <;> exact h
  | mkdir q =>
    refine hwrite h fun hp => ?_
    exact (GoMap.lookup_insert_cases hp).resolve_left fun hnew => by cases hnew.2
  | unlink q => exact hwrite h GoMap.lookup_of_lookup_erase
  | rmdir q => exact hwrite h GoMap.lookup_of_lookup_erase
  | setMetadata q => exact hwrite h id
  | create q kind => exact hc.elim
  | link source q => exact hc.elim

/-- What the second pass keeps. -/
theorem settled_exec (c : TarCmd) (o : TarOut) (w : TarWorld)
    (hc : Direct Symlink c ∧ AddsNoLink c) (h : TarSafe Symlink w ∧ Settled Symlink delayed w) :
    TarSafe Symlink (tarMachine.exec c o w).2 ∧
      Settled Symlink delayed (tarMachine.exec c o w).2 :=
  ⟨tarSafe_exec c o w hc.1 h.1, fun path hp =>
    ⟨(h.2 path hp).1, fun hlink => (h.2 path hp).2 (entry_exec c o hc.2 hlink)⟩⟩

theorem mkdir_ok (h : TarSafe Symlink w) (hclear : Clear Symlink path)
    (hok : (tarMachine.exec (.mkdir path) o w).1 = .ok ()) :
    (tarMachine.exec (.mkdir path) o w).2.entry path = some .directory := by
  simp only [tarMachine, TarWorld.write, passesSymlink_eq_false h hclear] at hok ⊢
  split at hok
  · cases hok
  next hnone =>
    split at hok
    next hlegal =>
      simp only [Bool.or_self, Bool.false_eq_true, false_or] at hlegal
      simp [hnone, hlegal, TarWorld.entry]
    · cases hok

section

variable (h : TarSafe Symlink w) (hdelayed : Settled Symlink delayed w)
include h hdelayed

theorem wp_extractDirectory (hdir : header.typeflag = .dir) (hclear : Clear Symlink header.path) :
    Wp tarMachine (fun _ _ _ => True)
      (fun w' => TarSafe Symlink w' ∧ Settled Symlink delayed w') (extractMember header)
      (fun r w' => Settled Symlink r.2 w') w := by
  unfold extractMember
  split
  · exact wp_pure ⟨h, hdelayed⟩ (by simp [Settled])
  · have hparents : (makeParents (parents header.path).reverse).Issues
        fun c => Direct Symlink c ∧ AddsNoLink c :=
      issues_makeParents (fun _ => ⟨trivial, trivial⟩)
        fun _ hp => ⟨hclear.parent (List.mem_reverse.mp hp), trivial⟩
    have hplace : (clearPlace header header.path).Issues
        fun c => Direct Symlink c ∧ AddsNoLink c :=
      issues_clearPlace ⟨trivial, trivial⟩ ⟨hclear, trivial⟩ ⟨hclear, trivial⟩
    refine wp_bind (((hparents.wp settled_exec ⟨h, hdelayed⟩).and
      (ensures_makeParents _)).post ?_)
    rintro ⟨made₁, made⟩ w₁ hI₁ ⟨-, hsub⟩
    have hmade (w' : TarWorld) (h' : TarSafe Symlink w') : Settled Symlink made w' :=
      settled_parents h' hclear fun path hp => List.mem_reverse.mp (hsub hp)
    cases made₁ with
    | error err => exact wp_pure hI₁ (hmade w₁ hI₁.1)
    | ok _ =>
      refine wp_bind (((hplace.wp settled_exec hI₁).and ensures_clearPlace).post ?_)
      rintro (err | _ | _) w₂ hI₂ ⟨-, hstays⟩
      · exact wp_pure hI₂ (hmade w₂ hI₂.1)
      · have hmkdir : placeMember header header.path = (TarCmd.mkdir header.path).issue := by
          rw [placeMember, hdir]
        rw [hmkdir]
        refine wp_issue_bind (fun (r : Except String Unit) w' =>
          (TarSafe Symlink w' ∧ Settled Symlink delayed w') ∧
            (r = .ok () → w'.entry header.path = some .directory)) hI₂ (fun o _ =>
          ⟨settled_exec (.mkdir _) o w₂ ⟨hclear, trivial⟩ hI₂, mkdir_ok hI₂.1 hclear⟩) ?_
        rintro (err | _) w₃ ⟨hI₃, hentry⟩
        · exact wp_pure hI₃ (hmade w₃ hI₃.1)
        · dsimp only
          exact wp_pure hI₃ ((hmade w₃ hI₃.1).cons hclear (hentry rfl))
      · exact wp_pure hI₂ ((hmade w₂ hI₂.1).cons hclear (hstays rfl).2)

theorem wp_extractDirectories
    (hdirs : ∀ header ∈ members, header.typeflag = .dir ∧ Clear Symlink header.path) :
    Wp tarMachine (fun _ _ _ => True) (TarSafe Symlink) (extractMembers members)
      (fun r w' => Settled Symlink (delayed ++ r.2) w') w := by
  induction members generalizing delayed w with
  | nil => exact wp_pure h (by simpa using hdelayed)
  | cons header rest ih =>
    obtain ⟨hdir, hclear⟩ := hdirs header List.mem_cons_self
    refine wp_bind ((wp_extractDirectory h hdelayed hdir hclear).mono
      (fun _ => And.left) ?_)
    intro first w₁ hI₁ hfirst
    refine wp_bind ((ih hI₁.1 (hI₁.2.append hfirst)
      fun member hm => hdirs member (List.mem_cons_of_mem _ hm)).post ?_)
    intro others w₂ h₂ hothers
    rw [List.append_assoc] at hothers
    split <;> exact wp_pure h₂ hothers

/-! Both passes. -/

theorem wp_restoreMetadata :
    Wp tarMachine (fun _ _ _ => True) (TarSafe Symlink) (restoreMetadata delayed)
      (fun _ _ => True) w := by
  induction delayed generalizing w with
  | nil => exact wp_pure h trivial
  | cons path rest ih =>
    obtain ⟨hclear, hentry⟩ := hdelayed path List.mem_cons_self
    refine wp_issue_bind (fun _ w' => TarSafe Symlink w' ∧ Settled Symlink rest w') h ?_ ?_
    · intro o _
      refine ⟨tarSafe_write h hclear (decide_eq_false hentry) fun q => .inl, ?_⟩
      intro q hq
      obtain ⟨hclear', hentry'⟩ := hdelayed q (List.mem_cons_of_mem _ hq)
      exact ⟨hclear', fun hlink => hentry' (entry_exec (.setMetadata path) o trivial hlink)⟩
    · rintro (err | _) w₁ ⟨h₁, hdelayed₁⟩
      · exact wp_bind ((ih h₁ hdelayed₁).post fun _ _ h₂ _ => wp_pure h₂ trivial)
      · exact ih h₁ hdelayed₁

end

theorem wp_runTar (hextract : Wp tarMachine (fun _ _ _ => True) (TarSafe Symlink)
      (extractMembers members) (fun r w' => Settled Symlink r.2 w') w) :
    Wp tarMachine (fun _ _ _ => True) (TarSafe Symlink) (runTar members)
      (fun _ _ => True) w := by
  refine wp_bind (hextract.post fun extracted w₁ h₁ hsettled => ?_)
  refine wp_bind ((wp_restoreMetadata h₁ hsettled).post fun errs w₂ h₂ _ => ?_)
  split <;> exact wp_pure h₂ trivial

theorem wp_other_bind {α : Type} {k : Except String Unit → TarProg α} {Q : α → TarWorld → Prop}
    {I : TarWorld → Prop} (hI : I w)
    (hk : ∀ r, Wp tarMachine (fun _ _ _ => True) I (k r) Q w) :
    Wp tarMachine (fun _ _ _ => True) I (TarCmd.other.issue >>= k) Q w := by
  refine wp_look_bind hI (fun o => ?_) hk
  simp only [tarMachine]
  split <;> rfl

theorem wp_extractPass (h : TarSafe Symlink w)
    (hextract : Wp tarMachine (fun _ _ _ => True) (TarSafe Symlink)
      (extractMembers members) (fun r w' => Settled Symlink r.2 w') w) :
    Wp tarMachine (fun _ _ _ => True) (TarSafe Symlink) (extractPass members)
      (fun _ _ => True) w := by
  refine wp_other_bind h ?_
  rintro (err | _)
  · exact wp_pure h trivial
  · dsimp only
    split
    · exact wp_pure h trivial
    · refine wp_other_bind h ?_
      rintro (err | _)
      · exact wp_pure h trivial
      · exact wp_runTar hextract

theorem archiveMemberLists_map (headers : List Header) :
    archiveMemberLists (headers.map .ok) =
      .ok (headers.filter (fun header => header.typeflag ≠ .dir),
        headers.filter (fun header => header.typeflag = .dir)) := by
  induction headers with
  | nil => rfl
  | cons header rest ih =>
    rw [List.map_cons, archiveMemberLists, ih]
    by_cases hdir : header.typeflag = .dir <;> simp [hdir]

/-- A target without symlinks stays safe along the whole extraction. -/
theorem wp_extractArchivePinned {target : Option LstatTarget} (h : ArchiveAccepted headers)
    (hw : TarSafe (SymlinkAt []) w) :
    Wp tarMachine (fun _ _ _ => True) (TarSafe (SymlinkAt headers))
      (extractArchivePinned target (headers.map .ok)) (fun _ _ => True) w := by
  have hI : TarSafe (SymlinkAt headers) w :=
    hw.mono fun _ => symlinkAt_mono (List.nil_subset headers)
  refine wp_other_bind hI ?_
  rintro (err | _)
  · exact wp_pure hI trivial
  · dsimp only
    split
    · exact wp_pure hI trivial
    · refine wp_other_bind hI ?_
      rintro (err | _)
      · exact wp_pure hI trivial
      · rw [archiveMemberLists_map]
        refine wp_bind ((wp_extractPass hI ((wp_extractMembers h rfl hw).post ?_)).post ?_)
        · intro r w₁ h₁ hparents path hp
          obtain ⟨member, hmem, hparent⟩ := hparents path hp
          exact settled_parents h₁ (h.clear hmem (List.Subset.refl _))
            (fun _ hq => (List.mem_singleton.mp hq) ▸ hparent) path (List.mem_singleton.mpr rfl)
        · rintro (err | _) w₁ h₁ -
          · exact wp_pure h₁ trivial
          · refine wp_bind ((wp_extractPass h₁ ?_).post
              fun _ _ h₂ _ => wp_pure h₂ trivial)
            refine @wp_extractDirectories (SymlinkAt headers) w₁ _ [] h₁ (by simp [Settled]) ?_
            intro header hmem
            rw [List.mem_filter, decide_eq_true_eq] at hmem
            exact ⟨hmem.2, h.clear hmem.1 (List.Subset.refl _)⟩

/-- What an accepted archive guarantees about its names and links, and that its extraction
into a target without symlinks never follows one. -/
theorem accepted_archive_never_writes_through_links (target : Option LstatTarget)
    (headers : List Header) (h : validateArchive target (headers.map .ok) = .ok ()) :
    (∀ header ∈ headers, (cleaned header.name).Inside) ∧
    (∀ before header after, headers = before ++ header :: after →
      ∀ link ∈ before, link.isLink = true → ¬ StrictAncestor link.path header.path) ∧
    (∀ link ∈ headers, link.typeflag = .symlink →
      ∀ header ∈ headers, ¬ StrictAncestor link.path header.path) ∧
    (∀ before header after, headers = before ++ header :: after → header.typeflag = .link →
      (∃ member ∈ before, cleaned member.name = cleaned header.linkname) ∧
      ∀ link ∈ before, link.isLink = true →
        link.path ≠ header.linkPath ∧ ¬ StrictAncestor link.path header.linkPath) ∧
    (∀ fs : GoMap MemberPath EntryType, (∀ path, fs.lookup path ≠ some .symlink) →
      ∀ outs, ∀ write ∈ ((extractArchivePinned target (headers.map .ok)).run tarMachine outs
        ⟨fs, []⟩).2.log, write.through = false) := by
  obtain ⟨headers', he, haccepted⟩ := validateArchive_ok h
  obtain rfl : headers = headers' := List.map_injective_iff.mpr (fun _ _ => Except.ok.inj) he
  refine ⟨fun header hmem => haccepted.inside hmem,
    fun before header after hsplit link hlink his =>
      haccepted.not_below_earlier hsplit hlink his,
    fun link hlink hflag header hmem => haccepted.not_below_symlink hmem hlink hflag,
    fun before header after hsplit hflag => ⟨haccepted.linked_earlier hsplit hflag,
      fun link hlink his => haccepted.linked_not_link hsplit hflag hlink his⟩, ?_⟩
  intro fs hfs outs
  have hstart : TarSafe (SymlinkAt []) ⟨fs, []⟩ :=
    ⟨fun path hp => absurd (entry_of_fs hp) (hfs path), by simp⟩
  have hwp := @wp_extractArchivePinned _ headers target haccepted hstart
  exact (Wp.run hwp (@meets_true _ _ _ _ _ _ _ _ outs)).1.direct

namespace FourMembers

def member (name linkname : String) (typeflag : Typeflag) : Header :=
  ⟨bytes name, bytes linkname, typeflag, 0o644, 0, 0, 0, 0, [], []⟩

/-- A directory, a file in it, a symlink and a hard link. -/
def archived : List Header :=
  [member "data/" "" .dir, member "./data/file" "" .reg, member "current" "data" .symlink,
    member "copy" "data/file" .link]

end FourMembers

/-- The archive is accepted and may be extracted into an empty target. -/
theorem four_members_extracted :
    validateArchive none (FourMembers.archived.map .ok) = .ok () ∧
      ∀ outs, ∀ write ∈ ((extractArchivePinned none (FourMembers.archived.map .ok)).run tarMachine
        outs ⟨∅, []⟩).2.log, write.through = false := by
  have haccepted : validateArchive none (FourMembers.archived.map .ok) = .ok () := by
    decide +kernel
  exact ⟨haccepted, (accepted_archive_never_writes_through_links none FourMembers.archived
    haccepted).2.2.2.2 ∅ fun path => by simp⟩

end Stacklab.Backup
