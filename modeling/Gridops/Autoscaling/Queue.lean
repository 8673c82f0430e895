import Gridops.Ci.Jobs
import Gridops.Fleet.Protocol.Agent

/-!
# The queue as the autoscaler sees it

`gridops-core/src/autoscaling.rs` reads the queue of workflow jobs in three ways: as a number of
jobs for each pool (`assigned_queued_jobs`), as the list of those jobs (`queued_job_assignments`)
and by repository (`repository_capacities`). All three give a queued job to the first pool, in one
fixed order, that serves its repository and admits its labels.

The first two go by the platforms a pool runs on, its built-in providers and its execution profiles;
the third goes by the providers alone, and so does `compatible_runner_provider` of the webhook.
`ORDER BY .. LIMIT 1` is the first match in the ordered table.
-/

namespace Gridops.Autoscaling

open Lib
open Ci (JobStatus JobId RunId RepositoryId InstallationId)
open Fleet (ExecutionOs Architecture)

abbrev PoolId := String
abbrev Millis := Int

inductive PoolScope where
  | repository | organization
deriving DecidableEq

/-- A row of `runner_pools`; `providers` and `labels` are JSON arrays of strings. -/
structure RunnerPool where
  id : PoolId
  installationId : InstallationId
  repositoryId : Option RepositoryId
  scope : PoolScope
  labels : List String
  providers : List String
  desiredCount : Int
  maxCount : Int
  queueScaleFactor : Int
  autoscalingEnabled : Bool
  paused : Bool
  state : String
  createdAt : Millis
  updatedAt : Millis
deriving DecidableEq

/-- A row of `runner_pool_repositories`, or of `runner_pool_priority_repositories`. -/
structure PoolRepository where
  poolId : PoolId
  repositoryId : RepositoryId
  createdAt : Millis
deriving DecidableEq

structure PoolPriority where
  poolId : PoolId
  waitMinutes : Int
deriving DecidableEq

inductive Placement where
  | machines | machinesFirst | hostFirst
deriving DecidableEq

structure ExecutionProfile where
  id : String
  poolId : PoolId
  enabled : Bool
  archivedAt : Option Millis
  placement : Placement
  executionOs : ExecutionOs
  architecture : Architecture
deriving DecidableEq

structure Repository where
  id : RepositoryId
  installationId : InstallationId
  owner : String
  name : String
  archived : Bool
deriving DecidableEq

structure WorkflowRun where
  id : RunId
  repositoryId : RepositoryId
  status : JobStatus
deriving DecidableEq

/-- A row of `workflow_jobs`; `labels` is a JSON array of strings. -/
structure WorkflowJob where
  id : JobId
  runId : RunId
  status : JobStatus
  labels : List String
  createdAt : Millis
deriving DecidableEq

/-- A runner's status: the texts that the autoscaler compares with, and any other. -/
inductive RunnerStatus where
  | starting | online | idle | busy | paused | stopped
  | other (text : String)
      (hother : text ∉ ["starting", "online", "idle", "busy", "paused", "stopped"])
deriving DecidableEq

def RunnerStatus.counted : RunnerStatus → Bool
  | .other .. => false
  | _ => true

structure Runner where
  id : String
  poolId : PoolId
  provider : String
  status : RunnerStatus
  busy : Bool
  deletedAt : Option Millis
  targetRepositoryId : Option RepositoryId
deriving DecidableEq

structure Database where
  pools : Table RunnerPool.id
  members : Table fun m : PoolRepository => (m.poolId, m.repositoryId)
  priorityRepositories : Table fun m : PoolRepository => (m.poolId, m.repositoryId)
  priorities : Table PoolPriority.poolId
  profiles : Table ExecutionProfile.id
  repositories : Table Repository.id
  runs : Table WorkflowRun.id
  jobs : Table WorkflowJob.id
  runners : Table Runner.id
deriving DecidableEq

/-- SQLite's `lower`, which changes ASCII letters only. -/
def lower (text : String) : String := text.map Char.toLower

def eqIgnoreAsciiCase (a b : String) : Bool := lower a == lower b

def platformLabels : List String := ["linux", "macos", "windows", "x64", "arm64", "arm", "x86"]

def isRunnerSystemLabel (label : String) : Bool :=
  ("self-hosted" :: platformLabels).any (eqIgnoreAsciiCase · label)

/-- A label that every runner has, or a label of its own that the pool has. -/
def poolHasLabel (pool : RunnerPool) (requested : String) : Bool :=
  lower requested == "self-hosted" ||
    (!platformLabels.contains (lower requested) &&
      pool.labels.any (lower · == lower requested))

/-- An operating system and an architecture that a pool runs on, as labels. -/
structure Platform where
  os : String
  arch : String
deriving DecidableEq

def Platform.has (platform : Platform) (requested : String) : Bool :=
  [platform.os, platform.arch].contains (lower requested)

def builtInPlatform (archLabel provider : String) : Option Platform :=
  if lower provider = "tart" then some ⟨"macos", "arm64"⟩
  else if lower provider = "docker" then some ⟨"linux", lower archLabel⟩
  else none

def osLabel : ExecutionOs → String
  | .linux => "linux"
  | .macos => "macos"
  | .windows => "windows"

def architectureLabel : Architecture → String
  | .x64 => "x64"
  | .arm64 => "arm64"

/-- `runner_system_labels`, with the label of the architecture the program was built for. -/
def runnerSystemLabels (archLabel provider : String) : List String :=
  if provider = "tart" then ["self-hosted", "macOS", "ARM64"]
  else ["self-hosted", "linux", archLabel]

def runnerSupportsSystemLabel (archLabel provider label : String) : Bool :=
  (runnerSystemLabels archLabel provider).any (eqIgnoreAsciiCase · label)

def providerSupportsLabels (archLabel provider : String) (requested configured : List String) :
    Bool :=
  requested.all fun label =>
    if eqIgnoreAsciiCase label "self-hosted" then true
    else if isRunnerSystemLabel label then runnerSupportsSystemLabel archLabel provider label
    else configured.any (eqIgnoreAsciiCase · label)

def compatibleRunnerProvider (archLabel : String) (providers requested configured : List String) :
    Option String :=
  providers.find? fun provider => providerSupportsLabels archLabel provider requested configured

/-- A queued job joined with its run and repository; a job of a finished run does not count. -/
structure Entry where
  job : WorkflowJob
  repo : Repository
deriving DecidableEq

structure QueuedJob where
  repositoryId : RepositoryId
  labels : List String
  queuedAt : Millis
  prioritised : Bool
deriving DecidableEq

structure RepositoryCapacity where
  repositoryId : RepositoryId
  installationId : InstallationId
  owner : String
  name : String
  queued : ℕ
  active : ℕ
  busy : ℕ
  prioritised : ℕ
  prioritisedSince : Option Millis
deriving DecidableEq

namespace Database

variable (d : Database) (archLabel : String)

def poolRank (pool : RunnerPool) : ℕ :=
  match pool.scope with
  | .repository => 0
  | .organization => 1

/-- `ORDER BY CASE WHEN scope='repository' THEN 0 ELSE 1 END, created_at, id`. -/
def poolBefore (a b : RunnerPool) : Prop :=
  poolRank a < poolRank b ∨ poolRank a = poolRank b ∧
    (a.createdAt < b.createdAt ∨ a.createdAt = b.createdAt ∧ ¬b.id < a.id)

instance : DecidableRel poolBefore := fun a b => by unfold poolBefore; infer_instance

def orderedPools : List RunnerPool := d.pools.rows.insertionSort poolBefore

def isMember (pool : RunnerPool) (repositoryId : RepositoryId) : Bool :=
  (d.members.find (pool.id, repositoryId)).isSome

def serves (pool : RunnerPool) (repo : Repository) : Bool :=
  pool.autoscalingEnabled && !pool.paused &&
    (d.isMember pool repo.id || pool.repositoryId == some repo.id ||
      (pool.scope == .organization && pool.installationId == repo.installationId))

def machinesOnly (pool : RunnerPool) : Bool :=
  d.profiles.rows.any fun p =>
    p.poolId == pool.id && p.enabled && p.archivedAt.isNone && p.placement == .machines

/-- The built-in host's runners, unless the pool runs on machines only. -/
def builtInPlatforms (pool : RunnerPool) : List Platform :=
  if d.machinesOnly pool then [] else pool.providers.filterMap (builtInPlatform archLabel)

def fleetPlatforms (pool : RunnerPool) : List Platform :=
  (d.profiles.rows.filter fun p => p.poolId == pool.id && p.enabled && p.archivedAt.isNone).map
    fun p => ⟨osLabel p.executionOs, architectureLabel p.architecture⟩

/-- The clause of `assigned_queued_jobs` and `queued_job_assignments`: some platform of the pool
admits every label. -/
def admitsByPlatform (labels : List String) (pool : RunnerPool) : Bool :=
  (d.builtInPlatforms archLabel pool ++ d.fleetPlatforms pool).any fun platform =>
    labels.all fun requested => poolHasLabel pool requested || platform.has requested

/-- The clause of `repository_capacities`: some provider of the pool admits every label. -/
def admitsByProvider (labels : List String) (pool : RunnerPool) : Bool :=
  pool.providers.any fun provider =>
    labels.all fun requested =>
      poolHasLabel pool requested ||
        (lower provider == "docker" && ["linux", lower archLabel].contains (lower requested)) ||
        (lower provider == "tart" && ["macos", "arm64"].contains (lower requested))

/-- The pool that a statement's subquery selects for a job. -/
def firstPool (repo : Repository) (admits : RunnerPool → Bool) : Option RunnerPool :=
  d.orderedPools.find? fun pool => d.serves pool repo && admits pool

def entry (job : WorkflowJob) : Option Entry := do
  let run ← d.runs.find job.runId
  let repo ← d.repositories.find run.repositoryId
  if job.status = .queued ∧ run.status ≠ .completed then some ⟨job, repo⟩ else none

def queue : List Entry := d.jobs.rows.filterMap d.entry

def assigned (e : Entry) : Option RunnerPool :=
  d.firstPool e.repo (d.admitsByPlatform archLabel e.job.labels)

def assignedByProvider (e : Entry) : Option RunnerPool :=
  d.firstPool e.repo (admitsByProvider archLabel e.job.labels)

variable (poolId : PoolId)

def prioritised (now : Millis) (e : Entry) : Bool :=
  (d.priorityRepositories.find (poolId, e.repo.id)).isSome ||
    decide (e.job.createdAt ≤
      now - 60000 * ((d.priorities.find poolId).map PoolPriority.waitMinutes).getD 10)

/-- The entries that the platform clause gives to a pool. -/
def assignedEntries : List Entry :=
  d.queue.filter fun e => (d.assigned archLabel e).any (·.id == poolId)

/-- The entries that the provider clause gives to a pool. -/
def assignedByProviderEntries : List Entry :=
  d.queue.filter fun e => (d.assignedByProvider archLabel e).any (·.id == poolId)

/-! ## The three views -/

def assignedQueuedJobs : ℕ := (d.assignedEntries archLabel poolId).length

/-- `ORDER BY wj.created_at, wj.id`. -/
def entryBefore (a b : Entry) : Prop :=
  a.job.createdAt < b.job.createdAt ∨ a.job.createdAt = b.job.createdAt ∧ a.job.id ≤ b.job.id

instance : DecidableRel entryBefore := fun a b => by unfold entryBefore; infer_instance

def queuedJobAssignments (now : Millis) : List QueuedJob :=
  ((d.assignedEntries archLabel poolId).insertionSort entryBefore).map fun e =>
    ⟨e.repo.id, e.job.labels, e.job.createdAt, d.prioritised poolId now e⟩

def activeRunners : List Runner :=
  d.runners.rows.filter fun r =>
    r.poolId == poolId && r.deletedAt.isNone && r.status.counted

def repositoryCapacity (now : Millis) (repo : Repository) : RepositoryCapacity :=
  let jobs := (d.assignedByProviderEntries archLabel poolId).filter (·.repo.id == repo.id)
  let flagged := jobs.filter (d.prioritised poolId now)
  let runners := (d.activeRunners poolId).filter (·.targetRepositoryId == some repo.id)
  { repositoryId := repo.id
    installationId := repo.installationId
    owner := repo.owner
    name := repo.name
    queued := jobs.length
    active := runners.length
    busy := (runners.filter (·.busy)).length
    prioritised := flagged.length
    prioritisedSince := (flagged.map (·.job.createdAt)).min? }

/-- `ORDER BY membership.created_at, repo.id`. -/
def membershipBefore (a b : PoolRepository × Repository) : Prop :=
  a.1.createdAt < b.1.createdAt ∨ a.1.createdAt = b.1.createdAt ∧ a.2.id ≤ b.2.id

instance : DecidableRel membershipBefore := fun a b => by unfold membershipBefore; infer_instance

def memberRepositories : List (PoolRepository × Repository) :=
  (d.members.rows.filter (·.poolId == poolId)).filterMap fun m =>
    (d.repositories.find m.repositoryId).bind fun repo =>
      if repo.archived then none else some (m, repo)

def repositoryCapacities (now : Millis) : List RepositoryCapacity :=
  ((d.memberRepositories poolId).insertionSort membershipBefore).map fun m =>
    d.repositoryCapacity archLabel poolId now m.2

end Database

end Gridops.Autoscaling
