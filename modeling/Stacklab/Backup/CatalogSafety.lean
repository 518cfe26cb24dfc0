import Stacklab.Backup.CatalogEntries

/-! Which file indexes are read back as they were written. -/
namespace Stacklab.Backup

open Lib IndexState

section Runs

variable {sum256 : Bytes → Digest} {member : Member} {st st' : IndexState} {done : List Member}
  {entry : FileEntry} {key : Bytes} {above : List MemberPath}

theorem addParent_lookup (parent : MemberPath) :
    (st.addParent parent).entries.lookup key =
      if (st.entries.lookup key).isNone ∧ key = CleanPath.text ⟨false, 0, parent⟩ then
        some (parentEntry key)
      else st.entries.lookup key := by
  unfold addParent
  dsimp only
  split
  next hsome =>
    split
    next hnew =>
      rw [← hnew.2] at hsome
      simp [Option.isNone_iff_eq_none.mp hnew.1] at hsome
    · rfl
  next hnone =>
    rw [GoMap.lookup_insert]
    by_cases hkey : key = CleanPath.text ⟨false, 0, parent⟩
    · subst hkey
      simp_all
    · simp [hkey]

theorem addParents_kept (h : st.entries.lookup key = some entry) :
    (above.foldl addParent st).entries.lookup key = some entry := by
  induction above generalizing st with
  | nil => exact h
  | cons parent rest ih =>
    apply ih
    rw [addParent_lookup, h]
    simp

theorem addParents_explicit : (above.foldl addParent st).explicit = st.explicit := by
  induction above generalizing st with
  | nil => rfl
  | cons parent rest ih =>
    rw [List.foldl_cons, ih]
    unfold addParent
    dsimp only
    split <;> rfl

theorem addParents_new (h : (above.foldl addParent st).entries.lookup key = some entry) :
    st.entries.lookup key = some entry ∨
      ∃ parent ∈ above, key = CleanPath.text ⟨false, 0, parent⟩ ∧ entry = parentEntry key := by
  induction above generalizing st with
  | nil => exact .inl h
  | cons parent rest ih =>
    rcases ih h with h | ⟨other, hother, hnew⟩
    · rw [addParent_lookup] at h
      split at h
      next hadded => exact .inr ⟨parent, List.mem_cons_self, hadded.2, (Option.some.inj h).symm⟩
      · exact .inl h
    · exact .inr ⟨other, List.mem_cons_of_mem _ hother, hnew⟩

/-- The entry that the index holds for a member. -/
def EntryOf (sum256 : Bytes → Digest) (member : Member) (entry : FileEntry) : Prop :=
  catalogPath member.header.name false = .ok entry.path ∧
    indexEntry sum256 member entry.path = .ok entry

def EntryAbove (member : Member) (entry : FileEntry) : Prop :=
  (∃ name, catalogPath member.header.name false = .ok name) ∧
    ∃ parent, parent ≠ [] ∧ parent <+: member.header.path ∧
      entry = parentEntry (CleanPath.text ⟨false, 0, parent⟩)

/-- What the map of entries holds once some members were read. -/
structure Indexed (sum256 : Bytes → Digest) (done : List Member) (st : IndexState) : Prop where
  keys : ∀ key entry, st.entries.lookup key = some entry → entry.path = key
  origin : ∀ key entry, st.entries.lookup key = some entry →
    ∃ member ∈ done, EntryOf sum256 member entry ∨ EntryAbove member entry
  listed : ∀ member ∈ done, clean member.header.name = dot ∨
    ∃ entry, EntryOf sum256 member entry ∧ st.entries.lookup entry.path = some entry ∧
      entry.path ∈ st.explicit
  size : st.entries.entries.length ≤ maxCatalogEntries

theorem indexed_start : Indexed sum256 [] .start where
  keys key entry h := by simp [start] at h
  origin key entry h := by simp [start] at h
  listed member h := by cases h
  size := Nat.zero_le _

theorem indexMember_cases (h : indexMember sum256 st member = .ok st') :
    clean member.header.name = dot ∧ st' = st ∨
      ∃ entry, EntryOf sum256 member entry ∧ entry.path ∉ st.explicit ∧
        st' = (parents member.header.path).foldl addParent (st.add entry) ∧
        st'.entries.entries.length ≤ maxCatalogEntries := by
  unfold indexMember at h
  split at h
  next hdot =>
    cases h
    exact .inl ⟨hdot, rfl⟩
  · right
    split at h
    · cases h
    next name hname =>
      split at h
      · cases h
      next hnew =>
        split at h
        · cases h
        next entry hentry =>
          obtain ⟨rfl, -⟩ := indexEntry_ok hentry
          dsimp only at h
          split at h
          · cases h
          next hsize =>
            cases h
            rw [List.contains_iff_mem] at hnew
            exact ⟨entry, ⟨hname, hentry⟩, hnew, rfl, Nat.le_of_not_lt (not_or.mp hsize).1⟩

theorem Indexed.step (hi : Indexed sum256 done st) (h : indexMember sum256 st member = .ok st') :
    Indexed sum256 (member :: done) st' := by
  rcases indexMember_cases h with ⟨hdot, rfl⟩ | ⟨entry, hentry, hnew, rfl, hsize⟩
  · refine ⟨hi.keys, fun key entry hkey => ?_, fun other hother => ?_, hi.size⟩
    · obtain ⟨other, hother, horigin⟩ := hi.origin key entry hkey
      exact ⟨other, List.mem_cons_of_mem _ hother, horigin⟩
    · rcases List.mem_cons.mp hother with rfl | hother
      · exact .inl hdot
      · exact hi.listed other hother
  · have hadd : ∀ key, (st.add entry).entries.lookup key =
        if key = entry.path then some entry else st.entries.lookup key :=
      fun key => GoMap.lookup_insert _ _ _ _
    refine ⟨fun key found hkey => ?_, fun key found hkey => ?_, fun other hother => ?_, hsize⟩
    · rcases addParents_new hkey with hkey | ⟨parent, -, -, rfl⟩
      · rw [hadd] at hkey
        split at hkey
        next heq =>
          cases hkey
          exact heq.symm
        · exact hi.keys key found hkey
      · rfl
    · rcases addParents_new hkey with hkey | ⟨parent, hparent, rfl, rfl⟩
      · rw [hadd] at hkey
        split at hkey
        · cases hkey
          exact ⟨member, List.mem_cons_self, .inl hentry⟩
        · obtain ⟨other, hother, horigin⟩ := hi.origin key found hkey
          exact ⟨other, List.mem_cons_of_mem _ hother, horigin⟩
      · obtain ⟨hne, habove, -⟩ := mem_parents.mp hparent
        exact ⟨member, List.mem_cons_self,
          Or.inr ⟨⟨entry.path, hentry.1⟩, parent, hne, habove, rfl⟩⟩
    · rw [addParents_explicit]
      rcases List.mem_cons.mp hother with rfl | hother
      · refine .inr ⟨entry, hentry, addParents_kept ?_, List.mem_cons_self⟩
        rw [hadd, if_pos rfl]
      · rcases hi.listed other hother with hdot | ⟨found, hfound, hkey, hexplicit⟩
        · exact .inl hdot
        · -- A path that was named before is not named again.
          have hother : found.path ≠ entry.path := fun heq => hnew (heq ▸ hexplicit)
          refine .inr ⟨found, hfound, addParents_kept ?_, List.mem_cons_of_mem _ hexplicit⟩
          rw [hadd, if_neg hother, hkey]

theorem Indexed.run {archive : MemberStream} (hi : Indexed sum256 done st)
    (h : indexMembers sum256 st archive = .ok st') :
    ∃ all, Indexed sum256 all st' ∧ ∀ member, member ∈ all ↔ member ∈ done ∨ .ok member ∈ archive := by
  induction archive generalizing st done with
  | nil =>
    cases h
    exact ⟨done, hi, fun member => by simp⟩
  | cons item rest ih =>
    cases item with
    | error err => cases h
    | ok member =>
      unfold indexMembers at h
      split at h
      · cases h
      next st₁ hstep =>
        obtain ⟨all, hall, hmem⟩ := ih (hi.step hstep) h
        refine ⟨all, hall, fun other => ?_⟩
        rw [hmem, List.mem_cons, List.mem_cons, Except.ok.injEq]
        tauto

theorem mem_sorted : entry ∈ st.sorted ↔ ∃ key, st.entries.lookup key = some entry := by
  rw [sorted, List.mem_insertionSort, List.mem_map]
  constructor
  · rintro ⟨⟨key, found⟩, hmem, rfl⟩
    exact ⟨key, GoMap.lookup_eq_some_iff.mpr hmem⟩
  · rintro ⟨key, hkey⟩
    exact ⟨⟨key, entry⟩, GoMap.lookup_eq_some_iff.mp hkey, rfl⟩

theorem Indexed.sorted_length (hi : Indexed sum256 done st) :
    st.sorted.length ≤ maxCatalogEntries := by
  rw [sorted, List.length_insertionSort, List.length_map]
  exact hi.size

theorem Indexed.sorted_nodup (hi : Indexed sum256 done st) :
    (st.sorted.map FileEntry.path).Nodup := by
  have hperm := (List.perm_insertionSort (fun a b : FileEntry => textLE a.path b.path = true)
    (st.entries.entries.map Sigma.snd)).map FileEntry.path
  have hkeys : (st.entries.entries.map Sigma.snd).map FileEntry.path = st.entries.entries.keys := by
    rw [List.map_map]
    apply List.map_congr_left
    rintro ⟨key, found⟩ hmem
    exact hi.keys key found (GoMap.lookup_eq_some_iff.mpr hmem)
  exact (hperm.trans (List.Perm.of_eq hkeys)).nodup_iff.mpr st.entries.nodupKeys

/-- Every entry is accepted and unchanged exactly if every member is readable. -/
theorem Indexed.readable_iff (hi : Indexed sum256 done st)
    (hcaptured : ∀ member ∈ done, checkCaptured member.header = .ok ()) :
    (∀ entry ∈ st.sorted, checkIndexedEntry [] entry = .ok () ∧ entry.readBack = entry) ↔
      ∀ member ∈ done, member.header.Readable := by
  constructor
  · intro h member hmember
    rcases hi.listed member hmember with hdot | ⟨entry, ⟨hname, hentry⟩, hkey, -⟩
    · exact .inl hdot
    · exact (entry_readable (hcaptured member hmember) hname hentry).mp
        (h entry (mem_sorted.mpr ⟨entry.path, hkey⟩))
  · intro h entry hentry
    obtain ⟨key, hkey⟩ := mem_sorted.mp hentry
    obtain ⟨member, hmember, horigin⟩ := hi.origin key entry hkey
    rcases horigin with ⟨hname, hentry⟩ | ⟨⟨name, hname⟩, parent, hne, hparent, rfl⟩
    · exact (entry_readable (hcaptured member hmember) hname hentry).mpr (h member hmember)
    · obtain ⟨-, -, -, hinside, hroot⟩ := catalogPath_ok hname
      have hvalid : validUTF8 (clean member.header.name) = true :=
        (h member hmember).elim (fun hdot => absurd hdot hroot) (fun hr => hr.1)
      rw [clean, cleaned_eq_of_inside hinside] at hvalid
      exact ⟨parentEntry_ok (catalogPath_above hname hne hparent),
        parentEntry_readBack.mpr (validUTF8_above hne hparent hvalid)⟩

end Runs

section Decode

variable {entries : List FileEntry} {seen : List Bytes} {index : FileIndex} {data : IndexData}

theorem checkIndexedEntries_ok :
    checkIndexedEntries seen entries = .ok () ↔
      (∀ entry ∈ entries, checkIndexedEntry [] entry = .ok () ∧ entry.path ∉ seen) ∧
        (entries.map FileEntry.path).Nodup := by
  induction entries generalizing seen with
  | nil => simp [checkIndexedEntries]
  | cons entry rest ih =>
    have hfirst : checkIndexedEntry seen entry = .ok () ↔
        checkIndexedEntry [] entry = .ok () ∧ entry.path ∉ seen := by
      rw [checkIndexedEntry_ok, checkIndexedEntry_ok]
      simp only [List.not_mem_nil, not_false_eq_true, true_and]
      tauto
    unfold checkIndexedEntries
    split
    next err herr =>
      rw [herr] at hfirst
      simp only [reduceCtorEq, false_iff] at hfirst ⊢
      exact fun h => hfirst (h.1 entry List.mem_cons_self)
    next hok =>
      rw [ih]
      have hentry := hfirst.mp hok
      simp only [List.mem_cons, forall_eq_or_imp, not_or, List.map_cons, List.nodup_cons,
        List.mem_map, not_exists, not_and]
      constructor
      · rintro ⟨hrest, hnodup⟩
        exact ⟨⟨hentry, fun e he => ⟨(hrest e he).1, (hrest e he).2.2⟩⟩,
          fun e he => (hrest e he).2.1, hnodup⟩
      · rintro ⟨⟨-, hrest⟩, hnew, hnodup⟩
        exact ⟨fun e he => ⟨(hrest e he).1, hnew e he, (hrest e he).2⟩, hnodup⟩

theorem readBack_index (hid : toValidUTF8 index.sourceID = index.sourceID) :
    index.readBack = index ↔ ∀ entry ∈ index.entries, entry.readBack = entry := by
  have hmap : index.entries.map FileEntry.readBack = index.entries ↔
      ∀ entry ∈ index.entries, entry.readBack = entry := by
    conv_lhs => rhs; rw [← List.map_id index.entries]
    exact List.map_inj_left
  rw [← hmap]
  cases index
  simp_all [FileIndex.readBack]

theorem safeID_valid {id : Bytes} (h : safeID id = true) : toValidUTF8 id = id := by
  apply toValidUTF8_eq_self.mpr
  apply validUTF8_ascii
  intro b hb
  simp only [safeID, Bool.and_eq_true, List.all_eq_true] at h
  have hclass := h.2 b hb
  simp only [Bool.or_eq_true, Bool.and_eq_true, decide_eq_true_eq, beq_iff_eq,
    UInt8.le_iff_toNat_le, ← UInt8.toNat_inj] at hclass
  rw [UInt8.lt_iff_toNat_lt]
  have hnums : (57 : UInt8).toNat = 57 ∧ (90 : UInt8).toNat = 90 ∧ (122 : UInt8).toNat = 122 ∧
    (95 : UInt8).toNat = 95 ∧ (45 : UInt8).toNat = 45 ∧ (0x80 : UInt8).toNat = 128 :=
    ⟨rfl, rfl, rfl, rfl, rfl, rfl⟩
  omega

/-- Decoding what was marshalled fails, or yields what JSON keeps of the index. -/
theorem decodeIndex_marshal {source : ManifestIndex} (hdata : data.value = index.readBack)
    (hlen : data.text.length ≤ maxCatalogBytes) (hversion : index.version = 1)
    (hid : index.sourceID = source.sourceID)
    (hvalid : toValidUTF8 index.sourceID = index.sourceID)
    (hcount : index.entries.length ≤ maxCatalogEntries) :
    decodeIndex data source = .ok index ↔
      (∀ entry ∈ index.entries, checkIndexedEntry [] entry = .ok () ∧ entry.readBack = entry) ∧
        (index.entries.map FileEntry.path).Nodup := by
  have hheader : ¬ (index.readBack.version ≠ 1 ∨ index.readBack.sourceID ≠ source.sourceID ∨
      index.readBack.entries.length > maxCatalogEntries) := by
    simp [FileIndex.readBack, hversion, hvalid, ← hid, Nat.not_lt.mpr hcount]
  unfold decodeIndex
  rw [if_neg (Nat.not_lt.mpr hlen), hdata, if_neg hheader]
  constructor
  · intro h
    split at h
    · cases h
    next hchecks =>
      have hself : index.readBack = index := Except.ok.inj h
      rw [hself, checkIndexedEntries_ok] at hchecks
      exact ⟨fun entry he => ⟨(hchecks.1 entry he).1, (readBack_index hvalid).mp hself entry he⟩,
        hchecks.2⟩
  · rintro ⟨hentries, hnodup⟩
    have hself : index.readBack = index :=
      (readBack_index hvalid).mpr fun entry he => (hentries entry he).2
    have hchecks : checkIndexedEntries [] index.entries = .ok () :=
      checkIndexedEntries_ok.mpr
        ⟨fun entry he => ⟨(hentries entry he).1, List.not_mem_nil⟩, hnodup⟩
    rw [hself, hchecks]

end Decode

variable {sum256 : Bytes → Digest} {file : CapturedFile} {staging : Staging}
  {source : ManifestIndex} {remaining : ℤ} {outcome : IndexOutcome} {sourceID : Bytes}
  {index : FileIndex}

theorem indexArchive_ok (h : indexArchive sum256 file sourceID = .ok index) :
    safeID sourceID = true ∧
      (∃ restrictions, validateCapturedArchive file.archive.headers = .ok restrictions) ∧
      ∃ st, indexMembers sum256 .start file.archive = .ok st ∧ index = ⟨1, sourceID, st.sorted⟩ := by
  unfold indexArchive at h
  split at h
  · cases h
  next hid =>
    split at h
    · cases h
    · split at h
      · cases h
      · split at h
        · cases h
        next restrictions hvalid =>
          split at h
          · cases h
          next st hst =>
            cases h
            exact ⟨not_not.mp hid, ⟨restrictions, hvalid⟩, st, hst, rfl⟩

theorem writeSourceIndex_written
    (h : writeSourceIndex sum256 file staging source remaining = .ok outcome)
    (hpath : outcome.source.indexPath ≠ []) :
    ∃ index data, indexArchive sum256 file source.sourceID = .ok index ∧
      outcome.written = some (outcome.source.indexPath, data) ∧ data.value = index.readBack ∧
      data.text.length ≤ maxCatalogBytes ∧ outcome.source.sourceID = source.sourceID := by
  unfold writeSourceIndex at h
  split at h
  · cases h
    exact absurd rfl hpath
  · cases h
  next index hindex =>
    split at h
    · cases h
    next data hdata =>
      split at h
      · cases h
        exact absurd rfl hpath
      next hlen =>
        split at h
        · cases h
        · cases h
        · cases h
          have hvalue : data.value = index.readBack := by
            unfold FileIndex.marshal at hdata
            split at hdata
            · cases hdata
            · cases hdata
              rfl
          exact ⟨index, data, hindex, rfl, hvalue, Nat.le_of_not_lt (not_or.mp hlen).1, rfl⟩

/-- A symbolic link below a directory that the archive does not name. -/
def linkHeader (target : String) : Header :=
  ⟨bytes "data/current", bytes target, .symlink, 0o777, 0, 0, 0, 0, [], []⟩

def linkArchive (target : String) : CapturedFile where
  openError := none
  regular := true
  archive := [.ok ⟨linkHeader target, .ok [], fun _ _ h => absurd h (by simp [linkHeader])⟩]

def unindexed : ManifestIndex := ⟨bytes "source-a", [], 0, 0, []⟩

def indexedSource : ManifestIndex :=
  ⟨bytes "source-a", bytes "indexes/source-a.json", 1, 2, []⟩

def linkIndex (target : String) : FileIndex where
  version := 1
  sourceID := bytes "source-a"
  entries := [parentEntry (bytes "data"),
    ⟨bytes "data/current", .symlink, 0, unixEpoch, [], [], bytes target, 0o777, 0, 0⟩]

def linkData (target : String) : IndexData :=
  ⟨(linkIndex target).json.toOption.getD [], linkIndex target⟩

def linkOutcome (target : String) : IndexOutcome where
  source := indexedSource
  written := some (bytes "indexes/source-a.json", linkData target)
  size := (linkData target).text.length

def zeroSum (_ : Bytes) : Digest := ⟨List.replicate 32 0, rfl⟩

end Stacklab.Backup
