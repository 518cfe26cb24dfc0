import Stacklab.Lib.GoText
import Stacklab.Lib.GoMap

/-! Typed job resources, their conflict matrix and the normalisation of a request. -/
namespace Stacklab.Jobs

open Lib

/-- A `uint8` in the source; `unknown` covers the zero value and every undeclared code. -/
inductive ResourceKind
  | unknown (code : ℕ)
  | global
  | dockerDaemon
  | dockerRegistry
  | selfUpdate
  | imageUpdates
  | stack
  | backupRepository
  deriving DecidableEq, Repr

structure Resource where
  kind : ResourceKind
  id : String
  deriving DecidableEq, Repr

/-- The zero value `Resource{}`. -/
def Resource.zero : Resource := ⟨.unknown 0, ""⟩

def globalResource : Resource := ⟨.global, ""⟩
def dockerDaemonResource : Resource := ⟨.dockerDaemon, ""⟩
def dockerRegistryResource : Resource := ⟨.dockerRegistry, ""⟩
def selfUpdateResource : Resource := ⟨.selfUpdate, ""⟩
def imageUpdatesResource : Resource := ⟨.imageUpdates, ""⟩
def stackResource (stackID : String) : Resource := ⟨.stack, trimSpace stackID⟩
def backupRepositoryResource (key : String) : Resource := ⟨.backupRepository, trimSpace key⟩

def Resource.string (r : Resource) : String :=
  match r.kind with
  | .global => "global"
  | .dockerDaemon => "docker-daemon"
  | .dockerRegistry => "docker-registry"
  | .selfUpdate => "self-update"
  | .imageUpdates => "image-updates"
  | .stack => "stack:" ++ r.id
  | .backupRepository => "backup-repository:" ++ r.id
  | .unknown _ => "invalid"

inductive ConflictReason
  | resourceHeld
  | drainActive
  | drainBlocked
  deriving DecidableEq, Repr

structure ResourceConflictError where
  reason : ConflictReason
  requested : Resource
  conflicting : Resource
  conflictingJobID : String
  deriving DecidableEq, Repr

inductive JobsError
  | resourcesRequired
  | invalidResource (message : String)
  | resourceConflict (conflict : ResourceConflictError)
  | leaseInactive
  deriving DecidableEq, Repr

def Resource.validate (r : Resource) : Except JobsError Unit :=
  match r.kind with
  | .global | .dockerDaemon | .dockerRegistry | .selfUpdate | .imageUpdates =>
    if r.id ≠ "" then
      .error (.invalidResource (r.string ++ " resource cannot have an id"))
    else .ok ()
  | .stack | .backupRepository =>
    if r.id = "" then .error (.invalidResource "stack resource requires an id") else .ok ()
  | .unknown code => .error (.invalidResource ("unknown resource kind " ++ toString code))

def resourcesConflict (left right : Resource) : Bool :=
  if left = right then true
  else if left.kind = .backupRepository ∨ right.kind = .backupRepository then false
  else if left.kind = .global ∨ right.kind = .global then true
  else if left.kind = .dockerDaemon ∨ right.kind = .dockerDaemon then
    let other := if left.kind ≠ .dockerDaemon then left.kind else right.kind
    other = .stack ∨ other = .dockerRegistry
  else if left.kind = .dockerRegistry ∨ right.kind = .dockerRegistry then
    let other := if left.kind ≠ .dockerRegistry then left.kind else right.kind
    other = .stack
  else false

theorem resourcesConflict_self (r : Resource) : resourcesConflict r r = true := by
  simp [resourcesConflict]

theorem resourcesConflict_comm (l r : Resource) :
    resourcesConflict l r = resourcesConflict r l := by
  by_cases h : l = r
  · rw [h]
  · have h' : r ≠ l := fun he => h he.symm
    obtain ⟨lk, li⟩ := l
    obtain ⟨rk, ri⟩ := r
    cases lk <;> cases rk <;> simp [resourcesConflict, h, h']

/-- The loop that validates each requested resource and adds it to the `unique` set. -/
def collectRequested : List Resource → List Resource → Except JobsError (List Resource)
  | unique, [] => .ok unique
  | unique, resource :: rest =>
    match resource.validate with
    | .error err => .error err
    | .ok () => collectRequested (unique.insert resource) rest

/-- The set is a duplicate-free list: its iteration order is erased by the final sort,
whose key separates any two of its members. -/
def normalizeResources (stackID : String) (requested : List Resource) :
    Except JobsError (List Resource) :=
  let unique := if trimSpace stackID ≠ "" then [stackResource stackID] else []
  match collectRequested unique requested with
  | .error err => .error err
  | .ok unique =>
    if unique.length = 0 then .error .resourcesRequired
    else
      let kept :=
        if globalResource ∈ unique then
          unique.filter fun r => r = globalResource ∨ r.kind = .backupRepository
        else unique
      .ok (kept.mergeSort fun a b => decide (a.string ≤ b.string))

theorem globalResource_mem_kept {unique : List Resource} (h : globalResource ∈ unique) :
    globalResource ∈
      unique.filter fun r => decide (r = globalResource ∨ r.kind = .backupRepository) := by
  simp [h]

theorem normalizeResources_ne_nil {stackID : String} {requested resources : List Resource}
    (h : normalizeResources stackID requested = .ok resources) : resources ≠ [] := by
  simp only [normalizeResources] at h
  split at h
  · cases h
  next unique _ =>
    split at h
    · cases h
    next hne =>
      intro hnil
      subst hnil
      have hlen := congrArg (Except.map List.length) h
      simp only [Except.map, List.length_mergeSort, List.length_nil, Except.ok.injEq] at hlen
      split at hlen
      next hg =>
        have hmem := globalResource_mem_kept hg
        rw [List.length_eq_zero_iff.mp hlen] at hmem
        cases hmem
      · exact hne hlen

end Stacklab.Jobs
