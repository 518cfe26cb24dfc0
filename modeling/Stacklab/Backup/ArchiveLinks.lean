import Mathlib.Data.List.Infix
import Stacklab.Backup.Archive
import Stacklab.Lib.Fallible

/-! What an archive that passes validation says about its links. -/
namespace Stacklab.Backup

open Lib

variable {path : MemberPath}

def Header.linkPath (header : Header) : MemberPath := (cleaned header.linkname).names

/-- A directory above a path. -/
def StrictAncestor (ancestor path : MemberPath) : Prop := ancestor <+: path ∧ ancestor ≠ path

theorem mem_parents {parent : MemberPath} :
    parent ∈ parents path ↔ parent ≠ [] ∧ StrictAncestor parent path := by
  simp only [parents, List.mem_reverse, List.mem_filter, List.mem_inits, decide_eq_true_eq,
    StrictAncestor]
  tauto

/-- What the checks of one member establish. -/
structure MemberAccepted (st : ValidateState) (header : Header) : Prop where
  inside : (cleaned header.name).Inside
  root : header.path = [] → header.typeflag = .dir
  above : ∀ parent ∈ parents header.path, parent ∉ st.links
  fresh : header.path ∉ st.links
  empty : header.typeflag = .symlink → header.path ∉ st.hasChildren
  linkInside : header.typeflag = .link → (cleaned header.linkname).Inside
  linked : header.typeflag = .link → header.linkPath ∈ st.seen ∧ header.linkPath ∉ st.links ∧
    ∀ parent ∈ parents header.linkPath, parent ∉ st.links

variable {target : Option LstatTarget} {st : ValidateState} {header : Header}

theorem checkPath_ok (h : checkPath header (cleaned header.name) = .ok ()) :
    (cleaned header.name).Inside ∧ (header.path = [] → header.typeflag = .dir) := by
  unfold checkPath at h
  split at h
  · cases h
  next hsafe =>
    split at h
    · cases h
    next hroot =>
      exact ⟨by tauto, fun hp => by_contra fun hdir => hroot ⟨hp, hdir⟩⟩

theorem checkParents_ok (h : checkParents st path = .ok ()) :
    (∀ parent ∈ parents path, parent ∉ st.links) ∧ path ∉ st.links := by
  unfold checkParents at h
  split at h
  · cases h
  next habove =>
    split at h
    · cases h
    next hfresh =>
      exact ⟨fun parent hparent hlink => habove ⟨parent, hparent, hlink⟩, hfresh⟩

theorem checkKind_symlink (h : checkKind st header path = .ok ())
    (hflag : header.typeflag = .symlink) : path ∉ st.hasChildren := by
  rw [checkKind, hflag] at h
  dsimp only at h
  split at h
  · cases h
  · split at h
    · cases h
    next hempty =>
      exact fun hmem => hempty (.inl hmem)

theorem checkKind_link (h : checkKind st header path = .ok ()) (hflag : header.typeflag = .link) :
    (cleaned header.linkname).Inside ∧
      header.linkPath ∈ st.seen ∧ header.linkPath ∉ st.links ∧
      ∀ parent ∈ parents header.linkPath, parent ∉ st.links := by
  rw [checkKind, hflag] at h
  dsimp only at h
  split at h
  · cases h
  next hsafe =>
    split at h
    · cases h
    next habove =>
      simp only [not_or, not_not] at hsafe
      exact ⟨hsafe.1, hsafe.2.1, hsafe.2.2, fun parent hparent hlink => habove ⟨parent, hparent, hlink⟩⟩

theorem checkMember_ok (h : checkMember target st header = .ok ()) : MemberAccepted st header := by
  obtain ⟨-, h⟩ := ok_of_bind h
  obtain ⟨-, h⟩ := ok_of_bind h
  obtain ⟨-, h⟩ := ok_of_bind h
  obtain ⟨hpath, h⟩ := ok_of_bind h
  obtain ⟨hparents, h⟩ := ok_of_bind h
  obtain ⟨hkind, -⟩ := ok_of_bind h
  exact ⟨(checkPath_ok hpath).1, (checkPath_ok hpath).2, (checkParents_ok hparents).1,
    (checkParents_ok hparents).2, checkKind_symlink hkind,
    fun hflag => (checkKind_link hkind hflag).1, fun hflag => (checkKind_link hkind hflag).2⟩

/-! The maps of the loop, after some members. -/

def stateAfter (done : List Header) : ValidateState := done.foldl ValidateState.add .start

variable {done before after headers : List Header} {path : MemberPath}

theorem stateAfter_concat : stateAfter (done ++ [header]) = (stateAfter done).add header := by
  simp [stateAfter]

theorem mem_links : path ∈ (stateAfter done).links ↔
    ∃ member ∈ done, member.isLink = true ∧ member.path = path := by
  induction done using List.reverseRecOn with
  | nil => simp [stateAfter, ValidateState.start]
  | append_singleton done header ih =>
    simp only [stateAfter_concat, ValidateState.add, List.mem_append, List.mem_singleton,
      or_and_right, exists_or, exists_eq_left, ← ih]
    by_cases hlink : header.isLink = true
    · rw [if_pos hlink, List.mem_cons, or_comm, eq_comm]
      simp only [hlink, true_and]
    · rw [if_neg hlink]
      simp only [hlink, false_and, or_false, Bool.false_eq_true]

theorem mem_seen : path ∈ (stateAfter done).seen ↔ ∃ member ∈ done, member.path = path := by
  induction done using List.reverseRecOn with
  | nil => simp [stateAfter, ValidateState.start]
  | append_singleton done header ih =>
    rw [stateAfter_concat, ValidateState.add]
    simp [ih, or_and_right, exists_or, or_comm, eq_comm]

theorem mem_hasChildren : path ∈ (stateAfter done).hasChildren ↔
    ∃ member ∈ done, path ∈ parents member.path := by
  induction done using List.reverseRecOn with
  | nil => simp [stateAfter, ValidateState.start]
  | append_singleton done header ih =>
    rw [stateAfter_concat, ValidateState.add]
    simp [ih, or_and_right, exists_or, or_comm]

/-- Each member was checked against the members before it. -/
theorem validateMembers_ok {archive : HeaderStream}
    (h : validateMembers target (stateAfter done) archive = .ok ()) :
    ∃ headers, archive = headers.map .ok ∧ ∀ before header after,
      headers = before ++ header :: after →
        MemberAccepted (stateAfter (done ++ before)) header := by
  induction archive generalizing done with
  | nil => exact ⟨[], rfl, fun before header after he => by simp at he⟩
  | cons next rest ih =>
    cases next with
    | error err => cases h
    | ok header =>
      rw [validateMembers] at h
      cases hcheck : checkMember target (stateAfter done) header with
      | error err => simp [hcheck] at h
      | ok u =>
        simp only [hcheck] at h
        rw [← stateAfter_concat] at h
        obtain ⟨headers, rfl, hall⟩ := ih h
        refine ⟨header :: headers, rfl, fun before member after he => ?_⟩
        cases before with
        | nil =>
          obtain ⟨rfl, rfl⟩ : header = member ∧ headers = after := by simpa using he
          rw [List.append_nil]
          exact checkMember_ok hcheck
        | cons first before =>
          obtain ⟨rfl, hrest⟩ : header = first ∧ headers = before ++ member :: after := by
            simpa using he
          have hmember := hall before member after hrest
          rwa [List.append_assoc] at hmember

variable (headers) in
/-- Each member of an archive was accepted after the members before it. -/
def ArchiveAccepted : Prop :=
  ∀ before header after, headers = before ++ header :: after →
    MemberAccepted (stateAfter before) header

theorem validateArchive_ok {archive : HeaderStream}
    (h : validateArchive target archive = .ok ()) :
    ∃ headers, archive = headers.map .ok ∧ ArchiveAccepted headers :=
  @validateMembers_ok target [] archive h

namespace ArchiveAccepted

variable {link : Header}

theorem inside (h : ArchiveAccepted headers) (hmem : header ∈ headers) :
    (cleaned header.name).Inside := by
  obtain ⟨before, after, he⟩ := List.append_of_mem hmem
  exact (h before header after he).inside

theorem path_ne_nil (h : ArchiveAccepted headers) (hmem : header ∈ headers)
    (hlink : header.isLink = true) : header.path ≠ [] := by
  obtain ⟨before, after, he⟩ := List.append_of_mem hmem
  intro hnil
  have hdir := (h before header after he).root hnil
  simp [Header.isLink, hdir] at hlink

/-- No link stands above a member that comes after it. -/
theorem not_below_earlier (h : ArchiveAccepted headers) (he : headers = before ++ header :: after)
    (hlink : link ∈ before) (his : link.isLink = true) :
    ¬ StrictAncestor link.path header.path := by
  intro habove
  have hmem : link ∈ headers := he ▸ List.mem_append_left _ hlink
  exact (h before header after he).above link.path
    (mem_parents.mpr ⟨h.path_ne_nil hmem his, habove⟩) (mem_links.mpr ⟨link, hlink, his, rfl⟩)

theorem isLink_of_symlink (hflag : header.typeflag = .symlink) : header.isLink = true := by
  simp [Header.isLink, hflag]

/-- No symlink stands above any member, wherever the two are. -/
theorem not_below_symlink (h : ArchiveAccepted headers) (hmem : header ∈ headers)
    (hlink : link ∈ headers) (hflag : link.typeflag = .symlink) :
    ¬ StrictAncestor link.path header.path := by
  intro habove
  have his := isLink_of_symlink hflag
  obtain ⟨before, after, he⟩ := List.append_of_mem hlink
  rw [he, List.mem_append, List.mem_cons] at hmem
  rcases hmem with hbefore | rfl | hafter
  · refine (h before link after he).empty hflag (mem_hasChildren.mpr ⟨header, hbefore, ?_⟩)
    exact mem_parents.mpr ⟨h.path_ne_nil hlink his, habove⟩
  · exact habove.2 rfl
  · obtain ⟨between, rest, rfl⟩ := List.append_of_mem hafter
    have hsplit : headers = (before ++ link :: between) ++ header :: rest := by
      rw [he, List.append_assoc, List.cons_append]
    exact h.not_below_earlier hsplit (by simp) his habove

theorem linked_earlier (h : ArchiveAccepted headers) (he : headers = before ++ header :: after)
    (hflag : header.typeflag = .link) :
    ∃ member ∈ before, cleaned member.name = cleaned header.linkname := by
  obtain ⟨member, hmem, hpath⟩ := mem_seen.mp ((h before header after he).linked hflag).1
  have hin := h.inside (he ▸ List.mem_append_left _ hmem)
  have hlink := (h before header after he).linkInside hflag
  exact ⟨member, hmem, CleanPath.ext (hin.1.trans hlink.1.symm) (hin.2.trans hlink.2.symm) hpath⟩

theorem linked_not_link (h : ArchiveAccepted headers) (he : headers = before ++ header :: after)
    (hflag : header.typeflag = .link) (hlink : link ∈ before) (his : link.isLink = true) :
    link.path ≠ header.linkPath ∧
      ¬ StrictAncestor link.path header.linkPath := by
  obtain ⟨-, hnot, habove⟩ := (h before header after he).linked hflag
  have hmem : link ∈ headers := he ▸ List.mem_append_left _ hlink
  have hrecorded := mem_links.mpr ⟨link, hlink, his, rfl⟩
  refine ⟨fun hp => hnot (hp ▸ hrecorded), fun hanc => ?_⟩
  exact habove link.path (mem_parents.mpr ⟨h.path_ne_nil hmem his, hanc⟩) hrecorded

end ArchiveAccepted

end Stacklab.Backup
