import Gridops.Autoscaling.Queue

/-!
# Provisioning one runner

`provision` of `gridops-api/src/resources.rs` and `provision_on_host` of the reconciler start a
runner on the built-in host: they reserve capacity at the manager, insert the row, register the
runner with GitHub or Bitbucket, have the manager create the container and record it. A failure
after the reservation releases the lease and marks the row failed.

A `Call` holds what everything outside decides: the plan that the statements before the reservation
arrive at, and the fate of every later call and write. A request that failed may have been carried
out all the same. `Footprint` is what a call leaves behind, all of it under identifiers drawn for
this call. Calls that compensate succeed.
-/

namespace Gridops.Provisioning

open Autoscaling (RunnerStatus)

abbrev RunnerId := String
abbrev ContainerId := String
abbrev LeaseId := String
abbrev Millis := Int

inductive CiPlatform where
  | github | bitbucket
deriving DecidableEq

/-- The status of a runner that could not be provisioned, or whose runtime ended badly. -/
abbrev failed : RunnerStatus := .other "failed" (by decide)

structure Runner where
  id : RunnerId
  name : String
  ciPlatform : CiPlatform
  status : RunnerStatus
  busy : Bool
  configurationVersion : Int
  githubRunnerId : Option ℕ
  bitbucketRunnerUuid : Option String
  containerId : Option ContainerId
  createdAt : Millis
  deletedAt : Option Millis
deriving DecidableEq

/-! ## What is decided before -/

/-- `ProvisioningPlan`, without the parts that only the container sees. -/
structure ProvisioningPlan where
  provider : String
  platform : CiPlatform
  mode : String
  ephemeral : Bool
deriving DecidableEq

def ProvisioningPlan.forSelectedProvider (provider : String) (bitbucketConnectionSelected : Bool)
    (poolMode : String) (poolEphemeral : Bool) : ProvisioningPlan :=
  let platform := if bitbucketConnectionSelected then CiPlatform.bitbucket else .github
  { provider, platform
    mode := if bitbucketConnectionSelected then "persistent" else poolMode
    ephemeral := platform == .github && poolEphemeral }

structure FailureCleanup where
  releaseCapacity : Bool
  removeProviderRunner : Bool
  removeManagerRunner : Bool
deriving DecidableEq

def failureCleanup (capacityReserved providerRunnerRegistered managerRunnerCreated : Bool) :
    FailureCleanup :=
  ⟨capacityReserved, providerRunnerRegistered, managerRunnerCreated⟩

structure Selection where
  runnerId : RunnerId
  runnerName : String
  provider : String
  bitbucketConnection : Option String
  poolMode : String
  poolEphemeral : Bool
  /-- The pool is one of an organization, with a runner group of its own. -/
  grouped : Bool
  configurationVersion : Int
deriving DecidableEq

def Selection.plan (s : Selection) : ProvisioningPlan :=
  .forSelectedProvider s.provider s.bitbucketConnection.isSome s.poolMode s.poolEphemeral

def Selection.row (s : Selection) (now : Millis) : Runner where
  id := s.runnerId
  name := s.runnerName
  ciPlatform := s.plan.platform
  status := .starting
  busy := false
  configurationVersion := s.configurationVersion
  githubRunnerId := none
  bitbucketRunnerUuid := none
  containerId := none
  createdAt := now
  deletedAt := none

/-! ## What the outside does -/

inductive Failure where
  | selection (text : String)
  | manager (code : String)
  | connection
  | database
  | upstream
  | text (message : String)
deriving DecidableEq

inductive Reply (α : Type) where
  | done (result : α)
  | refused (code : String)
  /-- It was carried out, but no answer that says so arrived. -/
  | lost (result : α)
deriving DecidableEq

structure Reserved where
  lease : LeaseId
  identified : Bool
deriving DecidableEq

structure BitbucketRunner where
  uuid : String
  oauthSecret : Option String
deriving DecidableEq

/-- A container that the manager created; the answer may come without its identifier. -/
structure CreatedRunner where
  id : ContainerId
  identified : Bool
  state : String
deriving DecidableEq

structure Call where
  selection : Except Failure Selection
  now : Millis
  reserve : Reply Reserved
  insertRow : Bool
  accessToken : Bool
  labelsValid : Bool
  createRunner : Reply BitbucketRunner
  installationToken : Bool
  jitConfig : Reply ℕ
  registrationToken : Bool
  runnerGroupName : Bool
  recordGithubRunner : Bool
  createContainer : Reply CreatedRunner
  /-- The number GitHub gives a persistent runner when its container registers it. -/
  ownNumber : ℕ
  recordContainer : Bool
  conclude : Bool
  markFailed : Bool

structure GithubRunner where
  id : ℕ
  name : String
deriving DecidableEq

structure Footprint where
  row : Option Runner
  lease : Option LeaseId
  github : Option GithubRunner
  bitbucket : Option String
  container : Option ContainerId
deriving DecidableEq

def Footprint.nothing : Footprint := ⟨none, none, none, none, none⟩

/-- No lease is outstanding, and the row names what is registered and the container. -/
structure Footprint.Tracked (f : Footprint) : Prop where
  lease : f.lease = none
  github : ∀ g ∈ f.github, ∃ r ∈ f.row, r.deletedAt = none ∧
    (r.githubRunnerId = some g.id ∨ r.ciPlatform = .github ∧ r.name = g.name)
  bitbucket : ∀ u ∈ f.bitbucket, ∃ r ∈ f.row, r.deletedAt = none ∧ r.bitbucketRunnerUuid = some u
  container : ∀ c ∈ f.container, ∃ r ∈ f.row, r.deletedAt = none ∧ r.containerId = some c

namespace Footprint

variable (f : Footprint)

def update (change : Runner → Runner) : Footprint := { f with row := f.row.map change }

/-- `DELETE v1/admissions/{lease}`. -/
def release : Footprint := { f with lease := none }

/-- The manager consumes the lease when it creates the container. A persistent runner registers
itself from there. -/
def create (id : ContainerId) (own : Option GithubRunner) : Footprint :=
  { f with lease := none, container := some id, github := own.or f.github }

end Footprint

/-! ## The steps that both programs share -/

structure Registration where
  githubRunnerId : Option ℕ
  bitbucketRunnerUuid : Option String
deriving DecidableEq

def Runner.record (r : Runner) (reg : Registration) (created : CreatedRunner) : Runner :=
  { r with
    githubRunnerId := reg.githubRunnerId
    bitbucketRunnerUuid := reg.bitbucketRunnerUuid
    containerId := some created.id
    status := if created.state = "running" then .online else .starting }

def Runner.fail (r : Runner) : Runner := { r with status := failed }

namespace Call

variable (c : Call)

variable (s : Selection)

def row : Runner := s.row c.now

/-- Registers the runner with Bitbucket, or prepares its registration with GitHub. -/
def register (f : Footprint) : Footprint × Except Failure Registration :=
  match s.bitbucketConnection with
  | some _ =>
    if !c.accessToken then
      (f, .error (.text "Bitbucket workspace credentials are unavailable."))
    else if !c.labelsValid then (f, .error (.text "Bitbucket runner labels are invalid."))
    else
      match c.createRunner with
      | .refused _ => (f, .error .upstream)
      | .lost runner => ({ f with bitbucket := some runner.uuid }, .error .connection)
      | .done runner =>
        let f := { f with bitbucket := some runner.uuid }
        match runner.oauthSecret with
        | none => (f, .error (.text "Bitbucket did not return the runner OAuth secret."))
        | some _ => (f, .ok ⟨none, some runner.uuid⟩)
  | none =>
    if !c.installationToken then (f, .error (.text "GitHub App credentials are required."))
    else if s.poolEphemeral then
      match c.jitConfig with
      | .refused _ => (f, .error .upstream)
      | .lost id => ({ f with github := some ⟨id, s.runnerName⟩ }, .error .connection)
      | .done id => ({ f with github := some ⟨id, s.runnerName⟩ }, .ok ⟨some id, none⟩)
    else if !c.registrationToken then (f, .error .upstream)
    else if s.grouped && !c.runnerGroupName then (f, .error .upstream)
    else (f, .ok ⟨none, none⟩)

/-- `UPDATE runners SET github_runner_id=?`, where there is one. -/
def recordGithub (reg : Registration) (f : Footprint) : Footprint × Except Failure Unit :=
  match reg.githubRunnerId with
  | none => (f, .ok ())
  | some id =>
    if c.recordGithubRunner then
      (f.update fun r => { r with githubRunnerId := some id }, .ok ())
    else (f, .error .database)

def prepare (f : Footprint) : Footprint × Except Failure Registration :=
  match c.register s f with
  | (f, .error e) => (f, .error e)
  | (f, .ok reg) =>
    match c.recordGithub reg f with
    | (f, .error e) => (f, .error e)
    | (f, .ok ()) => (f, .ok reg)

/-- The persistent GitHub runner that registers itself from its container. -/
def own : Option GithubRunner :=
  if s.bitbucketConnection.isNone && !s.poolEphemeral then some ⟨c.ownNumber, s.runnerName⟩
  else none

def deregister (reg : Registration) (f : Footprint) : Footprint :=
  if (failureCleanup true reg.bitbucketRunnerUuid.isSome false).removeProviderRunner then
    { f with bitbucket := none }
  else f

def fail (f : Footprint) : Footprint :=
  if c.markFailed then f.update Runner.fail else f

end Call

namespace Call

variable (c : Call)

/-- The manager's call and the record of the container, in `provision` of the API. -/
def launch (s : Selection) (reg : Registration) (f : Footprint) :
    Footprint × Except Failure Unit :=
  match c.createContainer with
  | .refused code => (deregister reg f, .error (.manager code))
  | .lost created => (deregister reg (f.create created.id (c.own s)), .error .connection)
  | .done created =>
    let f := f.create created.id (c.own s)
    if !created.identified then
      (f, .error (.text "Runner manager returned an invalid container identifier."))
    else if !c.recordContainer then (f, .error .database)
    else
      let f := f.update (·.record reg created)
      if c.conclude then (f, .ok ()) else (f, .error .database)

/-- The block of `provision` whose failure the end of the function handles. -/
def body (s : Selection) (f : Footprint) : Footprint × Except Failure Unit :=
  match c.prepare s f with
  | (f, .error e) => (f, .error e)
  | (f, .ok reg) => c.launch s reg f

def provision : Footprint × Except Failure Unit :=
  match c.selection with
  | .error e => (.nothing, .error e)
  | .ok s =>
    match c.reserve with
    | .refused code => (.nothing, .error (.manager code))
    | .lost r => ({ Footprint.nothing with lease := some r.lease }, .error .connection)
    | .done r =>
      let f := { Footprint.nothing with lease := some r.lease }
      if !r.identified then
        (f, .error (.text "Runner manager returned an invalid capacity reservation."))
      else if !c.insertRow then
        (if (failureCleanup true false false).releaseCapacity then f.release else f,
          .error .database)
      else
        match c.body s { f with row := some (c.row s) } with
        | (f, .ok ()) => (f, .ok ())
        | (f, .error e) =>
          let f := if (failureCleanup true false false).releaseCapacity then f.release else f
          -- A failed write here is returned in place of the first error.
          (c.fail f, .error (if c.markFailed then e else .database))

end Call

inductive ProvisionAttempt where
  | provisioned
  | deferred (fullProvider : Option String)
deriving DecidableEq

def deferredManagerError : Failure → Bool
  | .manager code =>
    ["host_capacity_exhausted", "host_disk_guardrail", "provisioning_paused"].contains code
  | _ => false

def hostCapacityExhausted : Failure → Bool
  | .manager code => code == "host_capacity_exhausted"
  | _ => false

namespace Call

variable (c : Call)

/-- The manager's call and the record of the container, in `provision_on_host`. An answer without
an identifier does not parse, which is a failed request here. -/
def launchOnHost (s : Selection) (reg : Registration) (f : Footprint) :
    Footprint × Except Failure Unit :=
  match c.createContainer with
  | .refused code => (deregister reg f, .error (.manager code))
  | .lost created => (deregister reg (f.create created.id (c.own s)), .error .connection)
  | .done created =>
    let f := f.create created.id (c.own s)
    if !created.identified then (deregister reg f, .error .connection)
    else if !c.recordContainer then (f, .error .database)
    else (f.update (·.record reg created), .ok ())

def bodyOnHost (s : Selection) (f : Footprint) : Footprint × Except Failure Unit :=
  match c.prepare s f with
  | (f, .error e) => (f, .error e)
  | (f, .ok reg) => c.launchOnHost s reg f

/-- `cleanup_unrecorded_manager_runner`: removes the container that carries the runner's id. -/
def cleanupUnrecorded (f : Footprint) : Footprint := { f with container := none }

def provisionOnHost : Footprint × Except Failure ProvisionAttempt :=
  match c.selection with
  | .error e => (.nothing, .error e)
  | .ok s =>
    match c.reserve with
    | .refused code =>
      if deferredManagerError (.manager code) then
        (.nothing, .ok (.deferred (if hostCapacityExhausted (.manager code) then some s.provider
          else none)))
      else (.nothing, .error (.manager code))
    | .lost r => ({ Footprint.nothing with lease := some r.lease }, .error .connection)
    | .done r =>
      let f := { Footprint.nothing with lease := some r.lease }
      if !r.identified then (f, .ok (.deferred none))
      else if !c.insertRow then
        (if (failureCleanup true false false).releaseCapacity then f.release else f,
          .error .database)
      else
        match c.bodyOnHost s { f with row := some (c.row s) } with
        | (f, .ok ()) => if c.conclude then (f, .ok .provisioned) else (f, .error .database)
        | (f, .error e) =>
          let f := if (failureCleanup true false false).releaseCapacity then f.release else f
          let f := cleanupUnrecorded f
          if !c.markFailed then (f, .error .database)
          else if deferredManagerError e then
            (c.fail f, .ok (.deferred (if hostCapacityExhausted e then some s.provider else none)))
          else (c.fail f, .error e)

end Call

end Gridops.Provisioning
