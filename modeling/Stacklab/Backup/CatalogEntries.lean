import Stacklab.Backup.ArchiveLinks
import Stacklab.Backup.Catalog

/-! Which entries of a file index are accepted and unchanged when they are read back. -/
namespace Stacklab.Backup

open Lib CleanPath

section Paths

variable {value name : Bytes} {names : List Bytes} {parent : MemberPath}

theorem catalogPath_ok (h : catalogPath value false = .ok name) :
    name = clean value ∧ value.length ≤ 4096 ∧ (∀ b ∈ value, b ∉ bytes "\\\x00\r\n") ∧
      (cleaned value).Inside ∧ clean value ≠ dot := by
  unfold catalogPath at h
  split at h
  · cases h
  next hform =>
    obtain ⟨hlen, hrest⟩ := not_or.mp hform
    obtain ⟨hbytes, -⟩ := not_or.mp hrest
    split at h
    · cases h
    next hinside =>
      split at h
      · cases h
      next hroot =>
        cases h
        exact ⟨rfl, Nat.le_of_not_lt hlen, fun b hb hbad => hbytes ⟨b, hb, hbad⟩,
          not_not.mp hinside, hroot⟩

theorem text_of_ne_nil (hne : names ≠ []) :
    text ⟨false, 0, names⟩ = [slash].intercalate names := by
  simp [text, parts, hne]

/-- A path that is clean and made of plain names is its own catalog path. -/
theorem catalogPath_text (hne : names ≠ []) (hplain : ∀ part ∈ names, PlainPart part)
    (hlen : (text ⟨false, 0, names⟩).length ≤ 4096)
    (hbytes : ∀ part ∈ names, ∀ b ∈ part, b ∉ bytes "\\\x00\r\n") :
    catalogPath (text ⟨false, 0, names⟩) false =
      .ok (text ⟨false, 0, names⟩) := by
  have hclean : cleaned (text ⟨false, 0, names⟩) = ⟨false, 0, names⟩ :=
    cleaned_text ⟨hplain, fun hroot => by cases hroot⟩
  have htext := text_of_ne_nil hne
  have hbad : ¬ ∃ b ∈ text ⟨false, 0, names⟩, b ∈ bytes "\\\x00\r\n" := by
    rintro ⟨b, hb, hbad⟩
    rw [htext] at hb
    rcases mem_intercalate hb with rfl | ⟨part, hpart, hb⟩
    · revert hbad
      decide +kernel
    · exact hbytes part hpart b hb hbad
  have habs : ¬ isAbs (text ⟨false, 0, names⟩) = true := by
    rw [← rooted_cleaned, hclean]
    exact Bool.false_ne_true
  have hroot : text ⟨false, 0, names⟩ ≠ dot := by
    intro hdot
    rw [hdot] at hclean
    have hnil : names = [] := (congrArg CleanPath.names hclean).symm
    exact hne hnil
  have hself : clean (text ⟨false, 0, names⟩) = text ⟨false, 0, names⟩ := by
    rw [clean, hclean]
  unfold catalogPath
  rw [if_neg (by rintro (h | h | h); exacts [Nat.not_lt.mpr hlen h, hbad h, habs h]),
    if_neg (by rw [hclean]; exact not_not.mpr ⟨rfl, rfl⟩), hself, if_neg hroot]

/-- The directories above a catalog path, and the path itself, are catalog paths. -/
theorem catalogPath_above (h : catalogPath value false = .ok name) (hne : parent ≠ [])
    (hparent : parent <+: (cleaned value).names) :
    catalogPath (text ⟨false, 0, parent⟩) false =
      .ok (text ⟨false, 0, parent⟩) := by
  obtain ⟨-, hlen, hbytes, ⟨-, hups⟩, -⟩ := catalogPath_ok h
  have hparts : (cleaned value).parts = (cleaned value).names := by
    simp [parts, hups]
  have hsub : parent ⊆ (cleaned value).parts := hparts ▸ hparent.subset
  apply catalogPath_text hne
  · exact fun part hpart => (wellFormed_cleaned value).1 part (hparent.subset hpart)
  · have hle := length_intercalate_sublist
      ((hparts ▸ hparent.sublist).trans (parts_cleaned value))
    rw [List.intercalate_splitOn, ← text_of_ne_nil hne] at hle
    omega
  · exact fun part hpart b hb => hbytes b (mem_of_mem_parts (hsub hpart) hb)

theorem intercalate_append_cons {parent rest : List Bytes} {part : Bytes} (hne : parent ≠ []) :
    [slash].intercalate (parent ++ part :: rest) =
      [slash].intercalate parent ++ slash :: [slash].intercalate (part :: rest) := by
  induction parent with
  | nil => exact absurd rfl hne
  | cons first others ih =>
    cases others with
    | nil => simp [List.intercalate]
    | cons next others =>
      have hrest := ih (List.cons_ne_nil _ _)
      simp only [List.cons_append] at hrest ⊢
      rw [List.intercalate_cons_cons, hrest, List.intercalate_cons_cons]
      simp

theorem validUTF8_above (hne : parent ≠ []) (hparent : parent <+: names)
    (h : validUTF8 (text ⟨false, 0, names⟩) = true) :
    validUTF8 (text ⟨false, 0, parent⟩) = true := by
  obtain ⟨rest, rfl⟩ := hparent
  cases rest with
  | nil => simpa using h
  | cons part rest =>
    rw [text_of_ne_nil (by simp), intercalate_append_cons hne] at h
    rw [text_of_ne_nil hne]
    exact validUTF8_of_append_ascii (by decide) h

theorem cleaned_eq_of_inside (h : (cleaned value).Inside) :
    cleaned value = ⟨false, 0, (cleaned value).names⟩ :=
  CleanPath.ext h.1 h.2 rfl

theorem names_ne_nil (h : catalogPath value false = .ok name) : (cleaned value).names ≠ [] := by
  obtain ⟨-, -, -, hinside, hroot⟩ := catalogPath_ok h
  intro hnil
  apply hroot
  rw [clean, cleaned_eq_of_inside hinside, hnil]
  rfl

theorem catalogPath_self (h : catalogPath value false = .ok name) :
    catalogPath name false = .ok name := by
  obtain ⟨rfl, -, -, hinside, -⟩ := catalogPath_ok h
  have habove := catalogPath_above h (names_ne_nil h) (List.prefix_refl _)
  rw [clean, cleaned_eq_of_inside hinside]
  exact habove

end Paths

variable {sum256 : Bytes → Digest} {member : Member} {header : Header} {entry : FileEntry}
  {name : Bytes} {seen : List Bytes} {type : FileType}

/-- The target that the index holds of a link. -/
def Header.indexedTarget (header : Header) : Bytes :=
  match header.typeflag with
  | .symlink => header.linkname
  | .link => clean header.linkname
  | _ => []

/-- The member is the root of the archive, or its entry can be read back. -/
def Header.Readable (header : Header) : Prop :=
  clean header.name = dot ∨
    validUTF8 (clean header.name) = true ∧ validUTF8 header.indexedTarget = true ∧
      (∀ b ∈ header.indexedTarget, b ∉ bytes "\x00\r\n") ∧
      (header.typeflag ∈ [.reg, .regA] → header.size ≤ 2 ^ 60)

theorem checkCaptured_ok (h : checkCaptured header = .ok ()) :
    header.linkname.length ≤ 4096 ∧ 0 ≤ header.uid ∧ 0 ≤ header.gid ∧ 0 ≤ header.mode ∧
      hasOtherBits header.mode 0o7777 = false := by
  unfold checkCaptured at h
  dsimp only at h
  split at h
  · cases h
  next hpath =>
    split at h
    · cases h
    next howner =>
      simp only [not_or, Bool.not_eq_true] at hpath howner
      exact ⟨by omega, by omega, by omega, by omega, howner.2.2.2⟩

theorem validateCapturedFrom_ok {archive : HeaderStream} {entries : ℕ} {before after : Restrictions}
    (h : validateCapturedFrom entries before archive = .ok after) (hmem : .ok header ∈ archive) :
    checkCaptured header = .ok () := by
  induction archive generalizing entries before with
  | nil => cases hmem
  | cons item rest ih =>
    cases item with
    | error err => cases h
    | ok first =>
      unfold validateCapturedFrom at h
      split at h
      · cases h
      next hfirst =>
        rcases List.mem_cons.mp hmem with heq | hmem
        · cases heq
          exact hfirst
        · exact ih h hmem

theorem checkIndexedEntry_ok :
    checkIndexedEntry seen entry = .ok () ↔
      (catalogPath entry.path false = .ok entry.path ∧ entry.path ∉ seen ∧
        0 ≤ entry.sizeBytes ∧ entry.sizeBytes ≤ 2 ^ 60 ∧ 0 ≤ entry.mode ∧
        hasOtherBits entry.mode 0o7777 = false ∧ 0 ≤ entry.uid ∧ 0 ≤ entry.gid) ∧
      (entry.metadataSHA256 ≠ [] → badDigest entry.metadataSHA256 = false) ∧
      checkIndexedType entry = .ok () := by
  unfold checkIndexedEntry
  split
  next hbad =>
    simp only [reduceCtorEq, false_iff, not_and]
    intro hgood
    exfalso
    simp only [hgood, ne_eq, not_true_eq_false, Bool.false_eq_true, false_or,
      List.contains_iff_mem] at hbad
    omega
  next hgood =>
    simp only [not_or, not_not, not_lt, List.contains_iff_mem, Bool.not_eq_true, gt_iff_lt,
      ne_eq] at hgood
    split
    next hdigest =>
      simp [hdigest.1, hdigest.2]
    next hdigest =>
      have hmeta : entry.metadataSHA256 ≠ [] → badDigest entry.metadataSHA256 = false := by
        intro hne
        exact Bool.eq_false_iff.mpr fun hbad => hdigest ⟨hne, hbad⟩
      exact ⟨fun htype => ⟨hgood, hmeta, htype⟩, fun h => h.2.2⟩

theorem hexSum_good (data : Bytes) : badDigest (hexSum sum256 data) = false := by
  have hlen : (hexSum sum256 data).length = 64 := by
    rw [hexSum, length_hexText, (sum256 data).2]
  have hall : (hexSum sum256 data).all isHexDigit = true :=
    List.all_eq_true.mpr fun b hb => isHexDigit_of_mem_hexText hb
  simp [badDigest, hlen, hall]

theorem hexSum_valid (data : Bytes) : toValidUTF8 (hexSum sum256 data) = hexSum sum256 data :=
  toValidUTF8_eq_self.mpr <| validUTF8_ascii fun _ hb =>
    ascii_of_isHexDigit (isHexDigit_of_mem_hexText hb)

/-- What an entry takes from its member. -/
structure Describes (header : Header) (entry : FileEntry) : Prop where
  target : entry.linkTarget = header.indexedTarget
  metadata : entry.metadataSHA256 ≠ [] → badDigest entry.metadataSHA256 = false
  sums : toValidUTF8 entry.sha256 = entry.sha256 ∧
    toValidUTF8 entry.metadataSHA256 = entry.metadataSHA256
  size : 0 ≤ entry.sizeBytes ∧
    (entry.sizeBytes ≤ 2 ^ 60 ↔ (header.typeflag ∈ [.reg, .regA] → header.size ≤ 2 ^ 60))
  owner : entry.mode = header.mode ∧ entry.uid = header.uid ∧ entry.gid = header.gid
  type : header.indexedTarget.length ≤ 4096 → (checkIndexedType entry = .ok () ↔
    ∀ b ∈ header.indexedTarget, b ∉ bytes "\x00\r\n")

theorem metadataSum_good :
    (metadataSum sum256 header ≠ [] → badDigest (metadataSum sum256 header) = false) ∧
      toValidUTF8 (metadataSum sum256 header) = metadataSum sum256 header := by
  unfold metadataSum
  dsimp only
  split
  · exact ⟨fun h => absurd rfl h, rfl⟩
  · exact ⟨fun _ => hexSum_good _, hexSum_valid _⟩

/-- The entry of a member that is neither a file nor a link. -/
theorem describes_common (htarget : header.indexedTarget = [])
    (hfile : header.typeflag ∉ [.reg, .regA])
    (htype : checkIndexedType (commonEntry sum256 header name type) = .ok ()) :
    Describes header (commonEntry sum256 header name type) where
  target := htarget.symm
  metadata := metadataSum_good.1
  sums := ⟨rfl, metadataSum_good.2⟩
  size := ⟨Int.le_refl 0, by simp [commonEntry, hfile]⟩
  owner := ⟨rfl, rfl, rfl⟩
  type _ := by simp [htype, htarget]

theorem describes_link (hfile : header.typeflag ∉ [.reg, .regA])
    (htype : type = .symlink ∨ type = .hardlink) :
    Describes header { commonEntry sum256 header name type with
      linkTarget := header.indexedTarget } where
  target := rfl
  metadata := metadataSum_good.1
  sums := ⟨rfl, metadataSum_good.2⟩
  size := ⟨Int.le_refl 0, by simp [commonEntry, hfile]⟩
  owner := ⟨rfl, rfl, rfl⟩
  type hlen := by
    rcases htype with rfl | rfl <;>
      simp [checkIndexedType, commonEntry, checkIndexedLink, Nat.not_lt.mpr hlen]

theorem describes_file {data : Bytes} (hfile : header.typeflag ∈ [.reg, .regA])
    (hsize : header.size = data.length) :
    Describes header { commonEntry sum256 header name .file with
      sizeBytes := header.size
      sha256 := hexSum sum256 data } where
  target := by
    rcases List.mem_pair.mp hfile with hflag | hflag <;>
      simp [Header.indexedTarget, hflag, commonEntry]
  metadata := metadataSum_good.1
  sums := ⟨hexSum_valid _, metadataSum_good.2⟩
  size := ⟨by simp [hsize], by simp [hfile]⟩
  owner := ⟨rfl, rfl, rfl⟩
  type _ := by
    rcases List.mem_pair.mp hfile with hflag | hflag <;>
      simp [checkIndexedType, commonEntry, hexSum_good, Header.indexedTarget, hflag]

theorem indexEntry_ok (h : indexEntry sum256 member name = .ok entry) :
    entry.path = name ∧ Describes member.header entry := by
  unfold indexEntry at h
  cases hflag : member.header.typeflag with
  | reg | regA =>
    have hfile : member.header.typeflag ∈ [.reg, .regA] := by simp [hflag]
    rw [hflag] at h
    dsimp only at h
    split at h
    · cases h
    next data hdata =>
      cases h
      exact ⟨rfl, describes_file hfile (member.sized data hdata hfile)⟩
  | dir | fifo | char | block =>
    rw [hflag] at h
    cases h
    have htarget : member.header.indexedTarget = [] := by simp [Header.indexedTarget, hflag]
    exact ⟨rfl, describes_common htarget (by simp [hflag]) rfl⟩
  | symlink =>
    have htarget : member.header.indexedTarget = member.header.linkname := by
      simp [Header.indexedTarget, hflag]
    rw [hflag] at h
    cases h
    rw [← htarget]
    exact ⟨rfl, describes_link (by simp [hflag]) (.inl rfl)⟩
  | link =>
    have htarget : member.header.indexedTarget = clean member.header.linkname := by
      simp [Header.indexedTarget, hflag]
    rw [hflag] at h
    cases h
    rw [← htarget]
    exact ⟨rfl, describes_link (by simp [hflag]) (.inr rfl)⟩
  | other flag =>
    rw [hflag] at h
    cases h

theorem length_indexedTarget (h : header.linkname.length ≤ 4096) :
    header.indexedTarget.length ≤ 4096 := by
  have hclean := length_clean header.linkname
  unfold Header.indexedTarget
  split
  · exact h
  · omega
  · exact Nat.zero_le _

theorem readBack_eq_self (hsums : toValidUTF8 entry.sha256 = entry.sha256 ∧
    toValidUTF8 entry.metadataSHA256 = entry.metadataSHA256) :
    entry.readBack = entry ↔
      validUTF8 entry.path = true ∧ validUTF8 entry.linkTarget = true := by
  rw [← toValidUTF8_eq_self, ← toValidUTF8_eq_self]
  cases entry
  simp_all [FileEntry.readBack]

/-- The entry of a member is accepted and unchanged exactly if the member is readable. -/
theorem entry_readable (hcaptured : checkCaptured member.header = .ok ())
    (hname : catalogPath member.header.name false = .ok name)
    (hentry : indexEntry sum256 member name = .ok entry) :
    checkIndexedEntry [] entry = .ok () ∧ entry.readBack = entry ↔ member.header.Readable := by
  obtain ⟨hpath, hdesc⟩ := indexEntry_ok hentry
  obtain ⟨hlink, huid, hgid, hmode, hbits⟩ := checkCaptured_ok hcaptured
  obtain ⟨hclean, -, -, -, hroot⟩ := catalogPath_ok hname
  rw [checkIndexedEntry_ok, readBack_eq_self hdesc.sums, hdesc.size.2,
    hdesc.type (length_indexedTarget hlink), hdesc.target, hdesc.owner.1, hdesc.owner.2.1,
    hdesc.owner.2.2, hpath, ← hclean.symm]
  have hself := hclean ▸ catalogPath_self hname
  have hmeta := hdesc.metadata
  have hsize := hdesc.size.1
  unfold Header.Readable
  constructor
  · rintro ⟨⟨⟨-, -, -, hmax, -⟩, -, hbytes⟩, hvalid, hvalidTarget⟩
    exact .inr ⟨hvalid, hvalidTarget, hbytes, hmax⟩
  · rintro (hdot | ⟨hvalid, hvalidTarget, hbytes, hmax⟩)
    · exact absurd hdot hroot
    · exact ⟨⟨⟨hself, List.not_mem_nil, hsize, hmax, hmode, hbits, huid, hgid⟩, hmeta, hbytes⟩,
        hvalid, hvalidTarget⟩

theorem parentEntry_ok (h : catalogPath name false = .ok name) :
    checkIndexedEntry [] (parentEntry name) = .ok () := by
  rw [checkIndexedEntry_ok]
  refine ⟨⟨h, List.not_mem_nil, ?_⟩, fun hne => absurd rfl hne, rfl⟩
  dsimp only [parentEntry]
  decide

theorem parentEntry_readBack : (parentEntry name).readBack = parentEntry name ↔
    validUTF8 name = true := by
  rw [readBack_eq_self ⟨rfl, rfl⟩]
  exact and_iff_left rfl

end Stacklab.Backup
