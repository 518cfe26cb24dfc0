import Stacklab.Backup.Leases

/-! The calls that change the backup configuration or start a run, with every step that may fail
and what each undoes by hand. -/
namespace Stacklab.Backup

open Lib
open Jobs

structure Secrets where
  password : String := ""
  accessKeyID : String := ""
  secretAccessKey : String := ""
  sessionToken : String := ""
  sshPrivateKey : String := ""
  sshKnownHosts : String := ""
  rcloneConfig : String := ""
  deriving DecidableEq, Repr

/-- A `DestinationInput` with the credentials themselves. -/
structure DestinationRequest where
  name : String
  kind : String
  repository : String
  expectedFilesystem : String
  region : String
  secrets : Option Secrets
  checkSchedule : Schedule
  checkReadData : CheckScope
  pruneSchedule : Schedule

def DestinationRequest.input (r : DestinationRequest) : DestinationInput where
  name := r.name
  kind := r.kind
  repository := r.repository
  expectedFilesystem := r.expectedFilesystem
  region := r.region
  secrets := r.secrets.isSome
  checkSchedule := r.checkSchedule
  checkReadData := r.checkReadData
  pruneSchedule := r.pruneSchedule

inductive CallError
  | notFound
  | expired
  | busy (message : String)
  | invalid (message : String)
  | failed (text : String)
  deriving DecidableEq, Repr

/-- The service state, and the files in each destination's directory of credentials. -/
structure ConfigWorld where
  lease : LeaseWorld
  directory : String
  initErr : Option String
  restoreDeletes : List String
  copyCheckpoints : GoMap String CopyCheckpoint
  copyAttempts : GoMap String CopyAttempt
  maintenanceAttempts : GoMap String CopyAttempt
  credentials : GoMap String (GoMap String String)

/-- An atomic write replaces the file, leaves it, or replaces it and then cannot sync. -/
inductive WriteOutcome
  | written
  | refused (text : String)
  | unsynced (text : String)
  deriving DecidableEq, Repr

/-- `os.RemoveAll`; one that fails may have removed some of the files. -/
inductive RemoveOutcome
  | removed
  | failed (text : String) (kept : String → Bool)

/-- The pure parts that the calls use: the checks of an input, the encoding of credentials, the
key of a repository and the time zones. -/
structure Checks where
  validateDestination : DestinationRequest → Except CallError DestinationRequest
  normalizePlan : Plan → Except CallError Plan
  encode : Secrets → String
  decode : String → Option Secrets
  digest : String → String → String
  zones : Zones

/-- What a call meets outside the service state. -/
structure CallEnv where
  canonical : Except String String
  newID : String
  now : Instant
  readable : Bool
  mkdir : Option String
  chmod : Option String
  write : String → WriteOutcome
  remove : RemoveOutcome
  preview : Option (Except String (List String))
  paused : Option String
  retry : RetryEnv
  holdings : RangeOrder Jobs.Holding
  token : String
  expiresAt : Instant
  clock : String → Instant
  order : RangeOrder PersistedRun
  removable : String → Bool
  persistErr : Option String

def overlaps (a b : String) : Bool :=
  let a := clean (bytes a)
  let b := clean (bytes b)
  a = b || (b ++ [slash]).isPrefixOf a || (a ++ [slash]).isPrefixOf b

def configurationBusyError : CallError :=
  .busy ("a backup job, repository read or background inventory is active; " ++
    "wait for it to finish and retry")

/-- The error of the first check that applies. -/
def refuse (refusals : List (Bool × CallError)) : Except CallError Unit :=
  match refusals.find? fun r => r.1 with
  | some r => .error r.2
  | none => .ok ()

def putBack {V : Type} (entries : List (Sigma fun _ : String => V)) (m : GoMap String V) :
    GoMap String V :=
  entries.foldl (fun m e => m.insert e.1 e.2) m

/-- Take back an assignment: the key gets the value it had before, or is deleted. -/
def undo {V : Type} (previous : Option V) (key : String) (m : GoMap String V) : GoMap String V :=
  match previous with
  | some old => m.insert key old
  | none => m.erase key

/-- The entries whose keys a predicate picks. -/
def picked {V : Type} (p : String → Bool) (m : GoMap String V) :
    List (Sigma fun _ : String => V) :=
  m.entries.filter fun e => p e.1

namespace ConfigWorld

section State

variable (w : ConfigWorld)

def busy : Bool := w.lease.configurationBusyLocked || !w.restoreDeletes.isEmpty

def setDestinations (destinations : GoMap String LeasedDestination) : ConfigWorld :=
  { w with lease := { w.lease with destinations } }

def setPlans (plans : GoMap String Plan) : ConfigWorld :=
  { w with lease := { w.lease with plans } }

def setRuns (runs : GoMap String PersistedRun) : ConfigWorld :=
  { w with lease := { w.lease with runs } }

/-- A credential file, if the destination has it. -/
def file (id name : String) : Option String :=
  (w.credentials.lookup id).bind fun files => files.lookup name

end State

section Calls

variable (checks : Checks) (env : CallEnv)

/-- A run that `pruneMetadataLocked` may drop. -/
def expiredRun (p : PersistedRun) : Bool := !runActive p && p.run.expiresAt ≤ env.clock p.run.id

/-- All but the two hundred newest expired runs go, unless their staged data cannot be removed. -/
def pruneMetadataLocked (w : ConfigWorld) : ConfigWorld :=
  let expired := (env.order.order 0 (w.lease.runs.entries.map Sigma.snd)).filter (expiredRun env)
  let newestFirst := expired.mergeSort fun a b => b.run.createdAt ≤ a.run.createdAt
  let dropped := ((newestFirst.drop 200).map fun p => p.run.id).filter env.removable
  w.setRuns (w.lease.runs.eraseWhere dropped.contains)

def persist (w : ConfigWorld) : Option CallError × ConfigWorld :=
  match w.initErr with
  | some err => (some (.failed err), w)
  | none => (env.persistErr.map .failed, pruneMetadataLocked env w)

def readSecrets (w : ConfigWorld) (id : String) : Except CallError Secrets :=
  match w.file id "credentials.json" with
  | none => .error (.failed "repository credentials unavailable")
  | some data =>
    if !env.readable then .error (.failed "repository credentials unavailable")
    else
      match checks.decode data with
      | none => .error (.failed "repository credentials invalid")
      | some secret => .ok secret

def secretFiles (secret : Secrets) : List (String × String) :=
  [("password", secret.password), ("ssh_key", secret.sshPrivateKey),
    ("known_hosts", secret.sshKnownHosts), ("rclone.conf", secret.rcloneConfig),
    ("credentials.json", checks.encode secret)]

/-- The files up to the first write that fails. -/
def writeFiles (files : GoMap String String) :
    List (String × String) → Option CallError × GoMap String String
  | [] => (none, files)
  | (name, value) :: rest =>
    match env.write name with
    | .written => writeFiles (files.insert name value) rest
    | .refused text => (some (.failed text), files)
    | .unsynced text => (some (.failed text), files.insert name value)

def validPassword (password : String) : Bool :=
  password ≠ "" && !password.toList.any fun c => c = '\r' || c = '\n' || c = '\x00'

def writeSecrets (w : ConfigWorld) (id : String) (secret : Secrets) :
    Option CallError × ConfigWorld :=
  if !validPassword secret.password then
    (some (.invalid "repository password must be nonempty and single-line"), w)
  else
    match env.mkdir with
    | some text => (some (.failed text), w)
    | none =>
      let files := (w.credentials.lookup id).getD ∅
      match env.chmod with
      | some text =>
        (some (.failed text), { w with credentials := w.credentials.insert id files })
      | none =>
        let (err, files) := writeFiles env files (secretFiles checks secret)
        (err, { w with credentials := w.credentials.insert id files })

/-- The repository of a local destination is replaced by its canonical path. -/
def canonicalRequest (request : DestinationRequest) : Except CallError DestinationRequest :=
  if request.kind ≠ "local" then .ok request
  else
    match env.canonical with
    | .error message => .error (.invalid message)
    | .ok repository => .ok { request with repository }

/-- What `SaveDestination` is to write: the id, the record and the credentials. -/
structure PreparedDestination where
  id : String
  record : LeasedDestination
  secrets : Option Secrets

/-- The credentials that are written, once they are complete. -/
def prepareSecrets (w : ConfigWorld) (id kind : String) (known : Bool) (secret : Secrets) :
    Except CallError Secrets := do
  let secret ←
    if known && secret.password = "" then do
      let old ← readSecrets checks env w id
      pure { secret with password := old.password }
    else pure secret
  if kind = "s3" && (secret.accessKeyID = "" || secret.secretAccessKey = "") then
    .error (.invalid "S3 access key and secret are required")
  else if kind = "sftp" && (secret.sshPrivateKey = "" || secret.sshKnownHosts = "") then
    .error (.invalid "SSH private key and pinned known_hosts are required")
  else if kind = "rclone" && secret.rcloneConfig = "" then
    .error (.invalid "authorized rclone configuration is required")
  else .ok secret

/-- What `SaveDestination` refuses, in the order of its checks. -/
def destinationRefusals (w : ConfigWorld) (id : String) (request : DestinationRequest) :
    List (Bool × CallError) :=
  let known := (w.lease.destinations.lookup id).isSome
  let previous := w.lease.destination id
  [(w.initErr.isSome, .failed (w.initErr.getD "")),
    (w.busy, configurationBusyError),
    (w.lease.destinations.entries.any fun e => e.1 ≠ id &&
      LeaseWorld.repositoryKey checks.digest e.2 = checks.digest request.kind request.repository,
      .invalid "this repository already has a destination"),
    (id ≠ "" && !known, .notFound),
    (known && (previous.kind ≠ request.kind || previous.repository ≠ request.repository),
      .invalid "repository kind and location are immutable; create a new destination"),
    (request.secrets.isNone && !known,
      .invalid "credentials and repository password are required"),
    (request.kind = "local" && overlaps request.repository w.directory,
      .invalid "repositories cannot overlap private backup state")]

/-- `SaveDestination` before it writes anything. -/
def prepareDestination (w : ConfigWorld) (id : String) (request : DestinationRequest) :
    Except CallError PreparedDestination := do
  let request ← checks.validateDestination request
  let request ← canonicalRequest env request
  refuse (destinationRefusals checks w id request)
  let target := if id = "" then env.newID else id
  let record :=
    { w.lease.savedDestination checks.zones id request.input env.now with id := target }
  let secrets ← request.secrets.mapM
    (prepareSecrets checks env w target request.kind (w.lease.destinations.lookup id).isSome)
  pure ⟨target, record, secrets⟩

/-- The record is put in place and taken back if it cannot be persisted. -/
def storeDestination (w : ConfigWorld) (id : String) (p : PreparedDestination) :
    Option CallError × ConfigWorld :=
  match persist env (w.setDestinations (w.lease.destinations.insert p.id p.record)) with
  | (none, saved) => (none, saved)
  | (some err, saved) =>
    (some err, saved.setDestinations
      (undo (w.lease.destinations.lookup id) p.id saved.lease.destinations))

def saveDestination (w : ConfigWorld) (id : String) (request : DestinationRequest) :
    Option CallError × ConfigWorld :=
  match prepareDestination checks env w id request with
  | .error err => (some err, w)
  | .ok p =>
    match p.secrets with
    | none => storeDestination env w id p
    | some secret =>
      match writeSecrets checks env w p.id secret with
      | (some err, w) => (some err, w)
      | (none, w) => storeDestination env w id p

def removeCredentials (w : ConfigWorld) (id : String) : Option CallError × ConfigWorld :=
  match env.remove with
  | .removed => (none, { w with credentials := w.credentials.erase id })
  | .failed text kept =>
    let files := ((w.credentials.lookup id).getD ∅).eraseWhere fun name => !kept name
    (some (.failed text), { w with credentials := w.credentials.insert id files })

/-- Delete what belongs to a removed plan or destination. -/
def dropEvidence (p : String → Bool) (w : ConfigWorld) : ConfigWorld :=
  { w with
    copyAttempts := w.copyAttempts.eraseWhere p
    maintenanceAttempts := w.maintenanceAttempts.eraseWhere p
    copyCheckpoints := w.copyCheckpoints.eraseWhere p }

/-- Put back what `before` had. -/
def restoreEvidence (p : String → Bool) (before w : ConfigWorld) : ConfigWorld :=
  { w with
    copyAttempts := putBack (picked p before.copyAttempts) w.copyAttempts
    maintenanceAttempts := putBack (picked p before.maintenanceAttempts) w.maintenanceAttempts
    copyCheckpoints := putBack (picked p before.copyCheckpoints) w.copyCheckpoints }

def ofDestination (id key : String) : Bool := hasSuffix key ("/" ++ id)

def ofPlan (id key : String) : Bool := hasPrefix key (id ++ "/")

/-- What `DeleteDestination` checks. -/
def deletable (w : ConfigWorld) (id : String) : Except CallError LeasedDestination :=
  if w.busy then .error configurationBusyError
  else
    match w.lease.destinations.lookup id with
    | none => .error .notFound
    | some d =>
      if assigned w.lease.plans id then .error (.invalid "destination is assigned to a plan")
      else .ok d

def deleteDestination (w : ConfigWorld) (id : String) : Option CallError × ConfigWorld :=
  match deletable w id with
  | .error err => (some err, w)
  | .ok d =>
    let dropped := dropEvidence (ofDestination id)
      (w.setDestinations (w.lease.destinations.erase id))
    match persist env dropped with
    | (some err, saved) =>
      (some err, restoreEvidence (ofDestination id) w
        (saved.setDestinations (saved.lease.destinations.insert id d)))
    | (none, saved) => removeCredentials env saved id

/-- A source may not lie over a local repository. -/
def validateSourceRepositories (w : ConfigWorld) (paths : List String) : Option CallError :=
  if paths.any fun path => path ≠ "" && w.lease.destinations.entries.any fun e =>
      e.2.kind = "local" && overlaps path e.2.repository then
    some (.invalid "source overlaps local backup repository")
  else none

def checkPreview (w : ConfigWorld) : Option CallError :=
  match env.preview with
  | none => none
  | some (.error message) => some (.invalid message)
  | some (.ok paths) => validateSourceRepositories w paths

/-- What `SavePlan` refuses, in the order of its checks. -/
def planRefusals (w : ConfigWorld) (id : String) (plan : Plan) : List (Bool × CallError) :=
  [(w.initErr.isSome, .failed (w.initErr.getD "")),
    (w.busy, configurationBusyError),
    (id ≠ "" && (w.lease.plans.lookup id).isNone, .notFound),
    (plan.destinations.any fun a => (w.lease.destinations.lookup a.destinationID).isNone,
      .invalid "unknown destination"),
    ((checkPreview env w).isSome, (checkPreview env w).getD .notFound)]

/-- `SavePlan` before it stores the plan. -/
def preparePlan (w : ConfigWorld) (id : String) (plan : Plan) : Except CallError Plan := do
  let plan ← checks.normalizePlan plan
  refuse (planRefusals env w id plan)
  let previous := ((w.lease.plans.lookup id).map Plan.destinations).getD []
  pure { plan with
    id := if id = "" then env.newID else id
    destinations := plan.destinations.map (saveAssignment checks.zones env.now previous) }

def savePlan (w : ConfigWorld) (id : String) (plan : Plan) : Option CallError × ConfigWorld :=
  match preparePlan checks env w id plan with
  | .error err => (some err, w)
  | .ok plan =>
    match persist env (w.setPlans (w.lease.plans.insert plan.id plan)) with
    | (none, saved) => (none, saved)
    | (some err, saved) =>
      (some err, saved.setPlans (undo (w.lease.plans.lookup id) plan.id saved.lease.plans))

def deletePlan (w : ConfigWorld) (id : String) : Option CallError × ConfigWorld :=
  if w.busy then (some configurationBusyError, w)
  else
    match w.lease.plans.lookup id with
    | none => (some .notFound, w)
    | some plan =>
      let dropped := dropEvidence (ofPlan id) (w.setPlans (w.lease.plans.erase id))
      match persist env dropped with
      | (none, saved) => (none, saved)
      | (some err, saved) =>
        (some err, restoreEvidence (ofPlan id) w
          (saved.setPlans (saved.lease.plans.insert id plan)))

def leaseError : LeaseError → CallError
  | .notFound => .notFound
  | .invalid message => .invalid message
  | .busy => .busy ""

def retryError : RetryError → CallError
  | .busy => .busy ""
  | .expired => .expired
  | .invalid message => .invalid message
  | .retention message => .invalid message
  | .start message => .failed message

/-- The job of a run starts in the job service. -/
def startJob (w : ConfigWorld) (resources : List Resource) : Except CallError ConfigWorld :=
  match w.lease.startWithResources env.holdings env.token resources with
  | none => .error (.failed "resources are locked")
  | some lease => .ok { w with lease }

/-- The run is stored under its job's reservation; without it both are taken back, and the job
is left to finish. -/
def storeRun (w started : ConfigWorld) (copies : List CopyResult) (record : PersistedRun) :
    Option CallError × ConfigWorld :=
  let jobID := newJobID env.token
  let reserved := { started with lease := { started.lease with
    repositoryJobs := started.lease.reserveRepositoriesLocked checks.digest jobID copies
    runs := started.lease.runs.insert record.run.id record } }
  match persist env reserved with
  | (none, saved) =>
    (none, { saved with lease := saved.lease.addThread jobID (.runReserved record.run.id) })
  | (some err, saved) =>
    (some err, { saved with lease := { saved.lease.addThread jobID .finishing with
      runs := undo (w.lease.runs.lookup record.run.id) record.run.id saved.lease.runs
      repositoryJobs := saved.lease.repositoryJobs.eraseWhere fun key =>
        saved.lease.repositoryJobs.lookup key = some jobID } })

def startRun (w : ConfigWorld) (planID : String) (request : List String) :
    Option CallError × ConfigWorld :=
  match w.initErr, w.lease.plans.lookup planID with
  | some err, _ => (some (.busy err), w)
  | none, none => (some .notFound, w)
  | none, some plan =>
    let (ids, left) := selectCopies request.isEmpty request plan.destinations
    let run := newRun env.newID (newJobID env.token) plan.id plan.name env.now env.expiresAt ids
    if !left.isEmpty || ids.isEmpty then
      (some (.invalid "select enabled destinations assigned to this plan"), w)
    else
      match env.paused, w.lease.repositoryResourcesLocked checks.digest [] run.copies with
      | some reason, _ => (some (.busy reason), w)
      | none, .error err => (some (leaseError err), w)
      | none, .ok resources =>
        match startJob env w (resources ++ [globalResource]) with
        | .error err => (some err, w)
        | .ok started => storeRun checks env w started run.copies ⟨run, plan⟩

def startRetry (w : ConfigWorld) (runID : String) (request : List String) :
    Option CallError × ConfigWorld :=
  match w.initErr, w.lease.runs.lookup runID with
  | some err, _ => (some (.failed err), w)
  | none, none => (some .notFound, w)
  | none, some stored =>
    let retry := { env.retry with resourcesErr := none, job := .ok (newJobID env.token) }
    match Backup.startRetry request retry stored.run with
    | .error err => (some (retryError err), w)
    | .ok run =>
      match w.lease.repositoryResourcesLocked checks.digest [] run.copies with
      | .error err => (some (leaseError err), w)
      | .ok resources =>
        match startJob env w resources with
        | .error err => (some err, w)
        | .ok started => storeRun checks env w started run.copies ⟨run, stored.planSnapshot⟩

end Calls

end ConfigWorld

inductive ConfigCall
  | saveDestination (id : String) (request : DestinationRequest)
  | deleteDestination (id : String)
  | savePlan (id : String) (plan : Plan)
  | deletePlan (id : String)
  | startRun (planID : String) (request : List String)
  | startRetry (runID : String) (request : List String)

/-- The error of a call, if it returns one, and the state it leaves. -/
def ConfigCall.run (checks : Checks) (env : CallEnv) (w : ConfigWorld) :
    ConfigCall → Option CallError × ConfigWorld
  | .saveDestination id request => w.saveDestination checks env id request
  | .deleteDestination id => w.deleteDestination env id
  | .savePlan id plan => w.savePlan checks env id plan
  | .deletePlan id => w.deletePlan env id
  | .startRun planID request => w.startRun checks env planID request
  | .startRetry runID request => w.startRetry checks env runID request

def liveRun (env : CallEnv) (w : ConfigWorld) (id : String) : Option PersistedRun :=
  (w.lease.runs.lookup id).filter fun p => !ConfigWorld.expiredRun env p

/-- The configuration, the evidence, the runs that have not expired, the reservations and the
credential files are the same. -/
structure Unchanged (env : CallEnv) (w w' : ConfigWorld) : Prop where
  destinations : ∀ id, w'.lease.destinations.lookup id = w.lease.destinations.lookup id
  plans : ∀ id, w'.lease.plans.lookup id = w.lease.plans.lookup id
  copyCheckpoints : ∀ key, w'.copyCheckpoints.lookup key = w.copyCheckpoints.lookup key
  copyAttempts : ∀ key, w'.copyAttempts.lookup key = w.copyAttempts.lookup key
  maintenanceAttempts : ∀ key, w'.maintenanceAttempts.lookup key = w.maintenanceAttempts.lookup key
  runs : ∀ id, liveRun env w' id = liveRun env w id
  repositoryJobs : ∀ key, w'.lease.repositoryJobs.lookup key = w.lease.repositoryJobs.lookup key
  credentials : ∀ id name, w'.file id name = w.file id name

end Stacklab.Backup
