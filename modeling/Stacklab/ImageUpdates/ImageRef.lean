import Stacklab.Lib.GoText

/-! Splitting an image reference into registry, repository and tag or digest. -/
namespace Stacklab.ImageUpdates

open Lib

def isHost (segment : String) : Bool :=
  segment.toList.any (fun c => c = '.' || c = ':') || segment = "localhost"

def dockerHub : String := "registry-1.docker.io"

/-- The registry and what follows it. -/
def splitHost (remainder : String) : String × String :=
  match cut '/' remainder with
  | some (firstSegment, rest) =>
    if isHost firstSegment then (firstSegment, rest) else (dockerHub, remainder)
  | none => (dockerHub, remainder)

/-- The repository and the tag, where a digest takes the place of the tag. -/
def splitTag (digest remainder : String) : String × String :=
  if digest = "" then
    match cut ':' remainder with
    | some (name, parsedTag) =>
      if '/' ∈ parsedTag.toList then (remainder, "latest") else (name, parsedTag)
    | none => (remainder, "latest")
  else (((cut ':' remainder).map Prod.fst).getD remainder, digest)

def splitImageRef (imageRef : String) : String × String × String :=
  let (remainder, digest) := (cut '@' imageRef).getD (imageRef, "")
  let (host, remainder) := splitHost remainder
  let registry := if host = "docker.io" || host = "index.docker.io" then dockerHub else host
  let (remainder, tag) := splitTag digest remainder
  let repository :=
    if registry = dockerHub ∧ '/' ∉ remainder.toList then "library/" ++ remainder else remainder
  (registry, repository, tag)

def isPathChar (c : Char) : Bool := c.isLower || c.isDigit || c ∈ ['.', '_', '-']

def isTagChar (c : Char) : Bool := c.isAlphanum || c ∈ ['.', '_', '-']

/-- Components separated by slashes. -/
def joinPath : String → List String → String
  | first, [] => first
  | first, next :: rest => first ++ ("/" ++ joinPath next rest)

/-- A well-formed reference. The first of several components after no host does not look like a
host: it would be one. -/
structure ImageRef where
  host : Option String
  first : String
  rest : List String
  tag : Option String
  digest : Option String
  hosts : ∀ h ∈ host, isHost h = true ∧ '/' ∉ h.toList ∧ '@' ∉ h.toList
  components : ∀ component ∈ first :: rest, ∀ c ∈ component.toList, isPathChar c = true
  unambiguous : host = none → rest ≠ [] → isHost first = false
  tags : ∀ t ∈ tag, ∀ c ∈ t.toList, isTagChar c = true
  digests : digest ≠ some ""

namespace ImageRef

def tagText (r : ImageRef) : String := r.tag.elim "" (":" ++ ·)

def nameText (r : ImageRef) : String :=
  r.host.elim "" (· ++ "/") ++ (joinPath r.first r.rest ++ r.tagText)

def text (r : ImageRef) : String := r.nameText ++ r.digest.elim "" ("@" ++ ·)

/-- Docker Hub is the default and has several names. -/
def onHub (r : ImageRef) : Bool :=
  r.host.all (· ∈ ["docker.io", "index.docker.io", dockerHub])

def registry (r : ImageRef) : String :=
  if r.onHub then dockerHub else r.host.getD dockerHub

/-- The components as Docker completes them. -/
def path (r : ImageRef) : String × List String :=
  if r.onHub ∧ r.rest = [] then ("library", [r.first]) else (r.first, r.rest)

def repository (r : ImageRef) : String := joinPath r.path.1 r.path.2

/-- The digest, or the tag as Docker completes it. -/
def reference (r : ImageRef) : String := r.digest.getD (r.tag.getD "latest")

/-- Docker treats the references as equal. -/
structure SameImage (r r' : ImageRef) : Prop where
  host : r.onHub = true ∧ r'.onHub = true ∨ r.host = r'.host
  path : r.path = r'.path
  tag : r.tag.getD "latest" = r'.tag.getD "latest"
  digest : r.digest = r'.digest

end ImageRef

variable {r : ImageRef} {first : String} {rest : List String} {c : Char}

theorem not_mem_joinPath (hslash : c ≠ '/')
    (h : ∀ component ∈ first :: rest, c ∉ component.toList) :
    c ∉ (joinPath first rest).toList := by
  induction rest generalizing first with
  | nil => exact h first List.mem_cons_self
  | cons next rest ih =>
    obtain ⟨hfirst, hrest⟩ := List.forall_mem_cons.mp h
    simp [joinPath, hslash, hfirst, ih hrest]

namespace ImageRef

theorem not_mem_component {component : String} (hmem : component ∈ r.first :: r.rest)
    (hc : isPathChar c = false) : c ∉ component.toList := by
  intro hin
  rw [r.components component hmem c hin] at hc
  cases hc

theorem slash_not_mem_first : '/' ∉ r.first.toList :=
  not_mem_component List.mem_cons_self (by decide)

theorem not_mem_path (hslash : c ≠ '/') (hc : isPathChar c = false) :
    c ∉ (joinPath r.first r.rest).toList :=
  not_mem_joinPath hslash fun _ hmem => not_mem_component hmem hc

theorem slash_mem_path : '/' ∈ (joinPath r.first r.rest).toList ↔ r.rest ≠ [] := by
  cases hrest : r.rest with
  | nil => simp [joinPath, slash_not_mem_first]
  | cons next rest => simp [joinPath]

theorem not_mem_tagText (hcolon : c ≠ ':') (hc : isTagChar c = false) : c ∉ r.tagText.toList := by
  unfold tagText
  cases htag : r.tag with
  | none => simp
  | some tag =>
    have hmem : c ∉ tag.toList := by
      intro hmem
      rw [r.tags tag htag c hmem] at hc
      cases hc
    simp [hcolon, hmem]

theorem at_not_mem_nameText : '@' ∉ r.nameText.toList := by
  have hpath : '@' ∉ (joinPath r.first r.rest).toList := not_mem_path (by decide) (by decide)
  have htag : '@' ∉ r.tagText.toList := not_mem_tagText (by decide) (by decide)
  unfold nameText
  cases hhost : r.host with
  | none => simp [hpath, htag]
  | some host => simp [(r.hosts host hhost).2.2, hpath, htag]

theorem cut_text : (cut '@' r.text).getD (r.text, "") = (r.nameText, r.digest.getD "") := by
  unfold text
  cases r.digest with
  | none => simp [cut_eq_none at_not_mem_nameText]
  | some digest =>
    rw [Option.elim_some, cut_append rfl at_not_mem_nameText]
    rfl

theorem splitHost_nameText :
    splitHost r.nameText = (r.host.getD dockerHub, joinPath r.first r.rest ++ r.tagText) := by
  unfold nameText splitHost
  cases hhost : r.host with
  | some host =>
    obtain ⟨hhostlike, hslash, -⟩ := r.hosts host hhost
    rw [Option.elim_some, String.append_assoc, cut_append rfl hslash]
    simp [hhostlike]
  | none =>
    cases hrest : r.rest with
    | nil =>
      have htag : '/' ∉ r.tagText.toList := not_mem_tagText (by decide) (by decide)
      have hnone : cut '/' (r.first ++ r.tagText) = none :=
        cut_eq_none (by simp [slash_not_mem_first, htag])
      simp [joinPath, hnone]
    | cons next rest =>
      have hplain : isHost r.first = false := r.unambiguous hhost (by simp [hrest])
      rw [Option.elim_none, String.empty_append, joinPath, String.append_assoc,
        String.append_assoc, cut_append rfl slash_not_mem_first]
      simp [hplain]

theorem cut_path : cut ':' (joinPath r.first r.rest ++ r.tagText) =
    r.tag.map fun tag => (joinPath r.first r.rest, tag) := by
  have hpath : ':' ∉ (joinPath r.first r.rest).toList := not_mem_path (by decide) (by decide)
  unfold tagText
  cases r.tag with
  | none => simp [cut_eq_none hpath]
  | some tag => exact cut_append rfl hpath tag

theorem splitTag_path : splitTag (r.digest.getD "") (joinPath r.first r.rest ++ r.tagText) =
    (joinPath r.first r.rest, r.reference) := by
  have hslash : '/' ∉ r.tagText.toList := not_mem_tagText (by decide) (by decide)
  unfold splitTag reference
  rw [cut_path]
  unfold tagText at hslash ⊢
  cases hdigest : r.digest with
  | none => cases htag : r.tag <;> simp_all
  | some digest =>
    have hne : digest ≠ "" := fun h => r.digests (hdigest.trans (congrArg some h))
    cases r.tag <;> simp [hne]

theorem registry_eq_dockerHub : r.registry = dockerHub ↔ r.onHub = true := by
  unfold registry
  split
  next h => simp [h]
  next h =>
    unfold onHub at h
    cases hhost : r.host <;> simp_all [onHub]

theorem registry_eq : r.registry =
    let host := r.host.getD dockerHub
    if host = "docker.io" || host = "index.docker.io" then dockerHub else host := by
  unfold registry onHub
  cases r.host with
  | none => decide
  | some host =>
    by_cases h1 : host = "docker.io" <;> by_cases h2 : host = "index.docker.io" <;> simp_all

/-- Every reference is split into what Docker takes it for. -/
theorem splitImageRef_text : splitImageRef r.text = (r.registry, r.repository, r.reference) := by
  unfold splitImageRef
  rw [cut_text]
  simp only [splitHost_nameText, splitTag_path, ← registry_eq, registry_eq_dockerHub,
    slash_mem_path, not_not]
  unfold repository path
  split
  next h =>
    rw [h.2]
    rfl
  next h => rfl

end ImageRef

/-- Splitting gives the registry, the repository and the tag or digest of every well-formed
reference, and the same for two that Docker treats as equal. -/
theorem references_split_canonically (r : ImageRef) :
    splitImageRef r.text = (r.registry, r.repository, r.reference) ∧
    ∀ r' : ImageRef, r.SameImage r' → splitImageRef r.text = splitImageRef r'.text := by
  refine ⟨r.splitImageRef_text, fun r' h => ?_⟩
  rw [r.splitImageRef_text, r'.splitImageRef_text]
  unfold ImageRef.registry ImageRef.repository ImageRef.reference
  rw [h.path, h.tag, h.digest]
  rcases h.host with ⟨hhub, hhub'⟩ | hhost
  · rw [hhub, hhub']
    rfl
  · unfold ImageRef.onHub
    rw [hhost]

def shortRef : ImageRef where
  host := none
  first := "ubuntu"
  rest := []
  tag := none
  digest := none
  hosts := by simp
  components := by
    rintro _ (_ | ⟨_, ⟨⟩⟩)
    exact List.all_eq_true.mp (by decide +kernel)
  unambiguous := by simp
  tags := by simp
  digests := by simp

/-- The short reference with all that it leaves out. -/
def fullRef : ImageRef where
  host := some "docker.io"
  first := "library"
  rest := ["ubuntu"]
  tag := some "latest"
  digest := none
  hosts := by decide +kernel
  components := by
    rintro _ (_ | ⟨_, _ | ⟨_, ⟨⟩⟩⟩) <;> exact List.all_eq_true.mp (by decide +kernel)
  unambiguous := by simp
  tags := by
    rintro _ ⟨⟩
    exact List.all_eq_true.mp (by decide +kernel)
  digests := by simp

theorem short_reference_splits_alike :
    fullRef.text = "docker.io/library/ubuntu:latest" ∧
      splitImageRef shortRef.text = (dockerHub, "library/ubuntu", "latest") ∧
      splitImageRef shortRef.text = splitImageRef fullRef.text :=
  ⟨by decide +kernel, by decide +kernel,
    (references_split_canonically shortRef).2 fullRef ⟨.inl ⟨rfl, rfl⟩, rfl, rfl, rfl⟩⟩

end Stacklab.ImageUpdates
