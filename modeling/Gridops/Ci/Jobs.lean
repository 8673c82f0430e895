import Gridops.Lib.Run
import Gridops.Lib.Table

/-!
# Workflow jobs and the runners that execute them

GitHub tells GridOps about a job twice over: by `workflow_job` webhooks, which may be late, repeated
or reordered, and through the reconciler's `sync_run_jobs`, which fetches every job of a run page by
page. Both first write the job's row and then, in a statement of its own, mark the runner of that
name (`associate_runner_with_job`).

The machine `ci` interleaves the two at that grain: a `webhook` or `page` step writes the job rows
and leaves a task behind, `advance` runs the next association of a task, and `stop` is the death of
the process that held it. `applied` records the associations in the order they ran.

The autoscaling that follows the webhook of a queued job writes neither jobs nor runners and is left
out.
-/

namespace Gridops.Ci

open Gridops.Lib

abbrev JobId := Int
abbrev RunId := Int
abbrev RepositoryId := Int
abbrev InstallationId := Int
abbrev RunnerId := Nat
abbrev PoolId := Nat
abbrev Millis := Nat

/-- A job's status: the three texts the code compares with, and any other text. -/
inductive JobStatus
  | queued
  | inProgress
  | completed
  | other (text : String) (hother : text ∉ ["queued", "in_progress", "completed"])
deriving DecidableEq

def JobStatus.text : JobStatus → String
  | .queued => "queued"
  | .inProgress => "in_progress"
  | .completed => "completed"
  | .other text _ => text

structure JobReport where
  id : JobId
  runId : RunId
  name : String
  status : JobStatus
  conclusion : Option String
  runnerId : Option Int
  runnerName : Option String
  runnerGroupId : Option Int
  runnerGroupName : Option String
  labels : String
  htmlUrl : String
  startedAt : Option Millis
  completedAt : Option Millis
deriving DecidableEq

structure WorkflowJob extends JobReport where
  createdAt : Millis
  updatedAt : Millis
deriving DecidableEq

structure WorkflowRun where
  id : RunId
  repositoryId : RepositoryId
  status : JobStatus
  conclusion : Option String
  completedAt : Option Millis
  updatedAt : Millis
deriving DecidableEq

structure Repository where
  id : RepositoryId
  installationId : InstallationId
  fullName : String
deriving DecidableEq

/-- A runner's `status` as this module writes it. -/
inductive RunnerStatus
  | starting
  | online
  | busy
  | other (text : String) (hother : text ∉ ["starting", "online", "busy"])
deriving DecidableEq

/-- A row of `runners`. Names are not unique. -/
structure Runner where
  id : RunnerId
  poolId : PoolId
  name : String
  githubRunnerId : Option Int
  status : RunnerStatus
  busy : Bool
  currentJobId : Option JobId
  lastJobId : Option JobId
  lastHeartbeatAt : Option Millis
  deletedAt : Option Millis
  updatedAt : Millis
deriving DecidableEq

structure RunnerEvent where
  runnerId : Option RunnerId
  poolId : Option PoolId
  event : String
  message : String
  jobId : JobId
  runId : RunId
  labels : String
  createdAt : Millis
deriving DecidableEq

structure CiStore where
  installations : List InstallationId
  repositories : Table Repository.id
  runs : Table WorkflowRun.id
  jobs : Table fun j : WorkflowJob => j.id
  runners : Table Runner.id
  events : List RunnerEvent

inductive ApiError
  | unauthorized
  | badRequest (message : String)
  | conflict (message : String)
  | payloadTooLarge (message : String)
  | internal
deriving DecidableEq

/-! ## Marking the runner -/

structure Association where
  jobId : JobId
  status : JobStatus
  githubRunnerId : Option Int
  runnerName : Option String
  now : Millis
deriving DecidableEq

def Runner.mark (a : Association) (current : Option JobId) (r : Runner) : Runner :=
  { r with
    busy := current.isSome
    status := if current.isSome then .busy else .online
    currentJobId := current
    lastJobId := some a.jobId
    githubRunnerId := r.githubRunnerId.or a.githubRunnerId
    lastHeartbeatAt := some a.now
    updatedAt := a.now }

theorem Runner.mark_id (a : Association) (current : Option JobId) (r : Runner) :
    (r.mark a current).id = r.id := rfl

/-- `WHERE name = ? AND deleted_at IS NULL`. -/
def Runner.isNamed (name : String) (r : Runner) : Bool := r.name == name && r.deletedAt.isNone

variable (s : CiStore)

def CiStore.markRunners (name : String) (a : Association) (current : Option JobId) : CiStore :=
  { s with
    runners := s.runners.update (Runner.isNamed name) (Runner.mark a current)
      (Runner.mark_id a current) }

/-- The completion of a job marks the runner idle whatever job it is at. -/
def CiStore.associateRunnerWithJob (a : Association) :
    CiStore × Option (RunnerId × PoolId) :=
  match a.runnerName with
  | none => (s, none)
  | some name =>
    let s := match a.status with
      | .inProgress => s.markRunners name a (some a.jobId)
      | .completed => s.markRunners name a none
      | _ => s
    (s, (s.runners.rows.find? (Runner.isNamed name)).map fun r => (r.id, r.poolId))

/-! ## Writing the job rows -/

structure RepositoryPayload where
  id : Option RepositoryId
  fullName : Option String
deriving DecidableEq

structure JobPayload where
  id : Option JobId
  runId : Option RunId
  name : Option String
  status : Option JobStatus
  conclusion : Option String
  runnerId : Option Int
  runnerName : Option String
  runnerGroupId : Option Int
  runnerGroupName : Option String
  labels : Option String
  htmlUrl : Option String
  startedAt : Option Millis
  completedAt : Option Millis
deriving DecidableEq

structure JobWebhook where
  action : Option JobStatus
  job : Option JobPayload
  repository : Option RepositoryPayload
  installationId : Option InstallationId
deriving DecidableEq

def JobWebhook.report (w : JobWebhook) : Option JobReport :=
  w.job.bind fun job =>
    match job.id, job.runId with
    | some id, some runId => some
        { id, runId
          name := job.name.getD "Job"
          status := (job.status.or w.action).getD .queued
          conclusion := job.conclusion
          runnerId := job.runnerId
          runnerName := job.runnerName
          runnerGroupId := job.runnerGroupId
          runnerGroupName := job.runnerGroupName
          labels := job.labels.getD "null"
          htmlUrl := job.htmlUrl.getD ""
          startedAt := job.startedAt
          completedAt := job.completedAt }
    | _, _ => none

/-- Inserts or updates the repository. Its installation must exist and its full name
must not be another repository's. -/
def CiStore.upsertRepositoryFromWebhook (installationId : InstallationId)
    (repository : RepositoryPayload) : Except ApiError CiStore :=
  match repository.fullName, repository.id with
  | some fullName, some id =>
    if installationId ∉ s.installations ∨
        ∃ r ∈ s.repositories.rows, r.id ≠ id ∧ r.fullName = fullName then .error .internal
    else .ok { s with
      repositories := s.repositories.upsert { id, installationId, fullName }
        (fun r => { r with installationId, fullName }) fun _ => rfl }
  | _, _ => .ok s

def CiStore.ensureRepository (w : JobWebhook) (repositoryId : RepositoryId) :
    Except ApiError CiStore :=
  match s.repositories.find repositoryId, w.installationId, w.repository with
  | some _, _, _ => .ok s
  | none, some installationId, some repository =>
    s.upsertRepositoryFromWebhook installationId repository
  | none, _, _ => .error (.conflict
      s!"Repository {repositoryId} arrived without enough information to sync it.")

def CiStore.insertPlaceholderRun (w : JobWebhook) (job : JobReport) (now : Millis) :
    Except ApiError CiStore :=
  match w.repository.bind (·.id) with
  | none => .error (.conflict
      s!"Workflow run {job.runId} arrived before its repository was synced.")
  | some repositoryId => do
    let s ← s.ensureRepository w repositoryId
    -- the run's foreign key: a repository without a full name has not been inserted
    if s.repositories.find repositoryId = none then .error .internal
    else .ok { s with
      runs := (s.runs.insert?
        { id := job.runId
          repositoryId
          status := (w.job.bind (·.status)).getD .queued
          conclusion := job.conclusion
          completedAt := job.completedAt
          updatedAt := now }).getD s.runs }

def CiStore.ensureRun (w : JobWebhook) (job : JobReport) (now : Millis) :
    Except ApiError CiStore :=
  match s.runs.find job.runId with
  | some _ => .ok s
  | none => s.insertPlaceholderRun w job now

def WorkflowJob.refresh (job : JobReport) (now : Millis) (row : WorkflowJob) : WorkflowJob :=
  { row with
    status := job.status
    conclusion := job.conclusion
    runnerId := job.runnerId
    runnerName := job.runnerName
    runnerGroupId := job.runnerGroupId
    runnerGroupName := job.runnerGroupName
    labels := job.labels
    startedAt := job.startedAt
    completedAt := job.completedAt
    updatedAt := now }

theorem WorkflowJob.refresh_id (job : JobReport) (now : Millis) (row : WorkflowJob) :
    (row.refresh job now).id = row.id := rfl

/-- What a page's upsert writes over an existing row: the run, name and link as well. -/
def WorkflowJob.replace (job : JobReport) (now : Millis) (row : WorkflowJob) : WorkflowJob :=
  { row.refresh job now with
    runId := job.runId
    name := job.name
    htmlUrl := job.htmlUrl }

theorem WorkflowJob.replace_id (job : JobReport) (now : Millis) (row : WorkflowJob) :
    (row.replace job now).id = row.id := rfl

/-- `process_workflow_job` up to the job's row, which is written whatever it held. -/
def CiStore.recordWebhook (w : JobWebhook) (job : JobReport) (now : Millis) :
    Except ApiError CiStore := do
  let s ← s.ensureRun w job now
  .ok { s with
    jobs := s.jobs.upsert { job with createdAt := now, updatedAt := now }
      (WorkflowJob.refresh job now) (WorkflowJob.refresh_id job now) }

/-- One upsert of `sync_run_jobs`, or an error where the job's run is unknown. -/
def CiStore.recordJob (now : Millis) (s : CiStore) (job : JobReport) : Option CiStore :=
  (s.runs.find job.runId).map fun _ =>
    { s with
      jobs := s.jobs.upsert { job with createdAt := job.startedAt.getD now, updatedAt := now }
        (WorkflowJob.replace job now) (WorkflowJob.replace_id job now) }

/-- The transaction of one page of `sync_run_jobs`: every job or none. -/
def CiStore.recordPage (jobs : List JobReport) (now : Millis) : Option CiStore :=
  jobs.foldlM (CiStore.recordJob now) s

/-- GitHub no longer knows the run: it and its unfinished jobs are closed. -/
def CiStore.closeMissingRun (runId : RunId) (now : Millis) : CiStore :=
  { s with
    runs := s.runs.update (fun r => r.id == runId)
      (fun r => { r with
        status := .completed
        conclusion := r.conclusion.or (some "cancelled")
        completedAt := r.completedAt.or (some now)
        updatedAt := now }) fun _ => rfl
    jobs := s.jobs.update (fun j => j.runId == runId && j.status != .completed)
      (fun j => { j with
        status := .completed
        conclusion := j.conclusion.or (some "cancelled")
        completedAt := j.completedAt.or (some now)
        updatedAt := now }) fun _ => rfl }

/-! ## What the writers change -/

section Writers

variable {s t : CiStore} {w : JobWebhook} {job : JobReport} {now : Millis}

theorem upsertRepositoryFromWebhook_ok {installationId : InstallationId}
    {repository : RepositoryPayload}
    (h : s.upsertRepositoryFromWebhook installationId repository = .ok t) :
    t.jobs = s.jobs ∧ t.runners = s.runners := by
  unfold CiStore.upsertRepositoryFromWebhook at h
  split at h
  · split at h
    · cases h
    · cases h
      exact ⟨rfl, rfl⟩
  · cases h
    exact ⟨rfl, rfl⟩

theorem ensureRepository_ok {repositoryId : RepositoryId}
    (h : s.ensureRepository w repositoryId = .ok t) :
    t.jobs = s.jobs ∧ t.runners = s.runners := by
  unfold CiStore.ensureRepository at h
  split at h
  · cases h
    exact ⟨rfl, rfl⟩
  · exact upsertRepositoryFromWebhook_ok h
  · cases h

theorem insertPlaceholderRun_ok (h : s.insertPlaceholderRun w job now = .ok t) :
    t.jobs = s.jobs ∧ t.runners = s.runners := by
  unfold CiStore.insertPlaceholderRun at h
  split at h
  · cases h
  · obtain ⟨u, hu, h⟩ := bind_eq_ok h
    have hrepository := ensureRepository_ok hu
    split at h
    · cases h
    · cases h
      exact hrepository

theorem ensureRun_ok (h : s.ensureRun w job now = .ok t) :
    t.jobs = s.jobs ∧ t.runners = s.runners := by
  unfold CiStore.ensureRun at h
  split at h
  · cases h
    exact ⟨rfl, rfl⟩
  · exact insertPlaceholderRun_ok h

theorem recordWebhook_ok (h : s.recordWebhook w job now = .ok t) :
    t.jobs = s.jobs.upsert { job with createdAt := now, updatedAt := now }
      (WorkflowJob.refresh job now) (WorkflowJob.refresh_id job now) ∧
    t.runners = s.runners := by
  obtain ⟨u, hu, h⟩ := bind_eq_ok h
  obtain ⟨hjobs, hrunners⟩ := ensureRun_ok hu
  cases h
  exact ⟨by rw [← hjobs], hrunners⟩

theorem recordJob_some (h : s.recordJob now job = some t) :
    (s.runs.find job.runId).isSome ∧ t.runs = s.runs ∧ t.runners = s.runners := by
  obtain ⟨run, hrun, rfl⟩ := Option.map_eq_some_iff.mp h
  exact ⟨Option.isSome_of_eq_some hrun, rfl, rfl⟩

theorem recordPage_runners {jobs : List JobReport} (h : s.recordPage jobs now = some t) :
    t.runners = s.runners := by
  induction jobs generalizing s with
  | nil => cases h; rfl
  | cons job jobs ih =>
    obtain ⟨u, hu, h⟩ := Option.bind_eq_some_iff.mp h
    exact (ih h).trans (recordJob_some hu).2.2

theorem associateRunnerWithJob_jobs (s : CiStore) (a : Association) :
    (s.associateRunnerWithJob a).1.jobs = s.jobs := by
  unfold CiStore.associateRunnerWithJob
  split
  · rfl
  · split <;> rfl

end Writers

/-! ## The two writers interleaved -/

def JobReport.association (job : JobReport) (now : Millis) : Association :=
  { jobId := job.id, status := job.status, githubRunnerId := job.runnerId,
    runnerName := job.runnerName, now }

structure Task where
  associations : List Association
  event : Option (Option (RunnerId × PoolId) → RunnerEvent)

def JobWebhook.runnerEvent (w : JobWebhook) (job : JobReport) (now : Millis)
    (runner : Option (RunnerId × PoolId)) : RunnerEvent :=
  { runnerId := runner.map (·.1)
    poolId := runner.map (·.2)
    event := "Workflow job " ++ (w.action.getD job.status).text
    message := s!"{job.name} · run {job.runId}"
    jobId := job.id
    runId := job.runId
    labels := job.labels
    createdAt := now }

/-- The database, the handlers under way and the associations run so far. -/
structure CiState where
  store : CiStore
  tasks : List Task
  applied : List Association

inductive CiStep
  /-- A `workflow_job` delivery is processed up to the job's row. -/
  | webhook (w : JobWebhook) (now : Millis)
  | page (jobs : List JobReport) (now : Millis)
  | advance (i : Nat)
  /-- The process that holds a task dies or gives up. -/
  | stop (i : Nat)
  | closeMissingRun (runId : RunId) (now : Millis)

/-- Runs the next association of a task and, after it, the task's event. -/
def CiState.advance (c : CiState) (i : Nat) : Option CiState :=
  match c.tasks[i]? with
  | some ⟨a :: rest, event⟩ =>
    let (store, runner) := c.store.associateRunnerWithJob a
    some
      { store := { store with events := store.events ++ (event.map (· runner)).toList }
        tasks := c.tasks.set i ⟨rest, event⟩
        applied := c.applied ++ [a] }
  | _ => none

/-- A delivery that fails, or a page with an unknown run, changes nothing. -/
def CiState.step (c : CiState) : CiStep → Option CiState
  | .webhook w now => some <|
    match w.report with
    | none => c
    | some job =>
      match c.store.recordWebhook w job now with
      | .error _ => c
      | .ok store =>
        { c with
          store
          tasks := c.tasks ++ [⟨[job.association now], some (w.runnerEvent job now)⟩] }
  | .page jobs now => some <|
    match c.store.recordPage jobs now with
    | none => c
    | some store =>
      { c with store, tasks := c.tasks ++ [⟨jobs.map (·.association now), none⟩] }
  | .advance i => c.advance i
  | .stop i => some { c with tasks := c.tasks.eraseIdx i }
  | .closeMissingRun runId now => some { c with store := c.store.closeMissingRun runId now }

def ci : Machine CiState CiStep := ⟨CiState.step⟩

namespace Sample

def ciRunner : Runner :=
  { id := 1, poolId := 1, name := "runner-1", githubRunnerId := none, status := .online,
    busy := false, currentJobId := none, lastJobId := none, lastHeartbeatAt := none,
    deletedAt := none, updatedAt := 0 }

def ciState : CiState where
  store :=
    { installations := [1]
      repositories := ⟨[⟨10, 1, "octo/app"⟩], by decide⟩
      runs := ⟨[⟨20, 10, .inProgress, none, none, 0⟩], by decide⟩
      jobs := Table.empty
      runners := ⟨[ciRunner], by decide⟩
      events := [] }
  tasks := []
  applied := []

def jobReport (id : JobId) (status : JobStatus) (conclusion : Option String) : JobReport :=
  { id, runId := 20, name := "build", status, conclusion, runnerId := some 100,
    runnerName := some "runner-1", runnerGroupId := none, runnerGroupName := none,
    labels := "[]", htmlUrl := "", startedAt := none, completedAt := none }

def jobWebhook (id : JobId) (status : JobStatus) (conclusion : Option String) : JobWebhook where
  action := some status
  job := some
    { id := some id, runId := some 20, name := some "build", status := some status, conclusion,
      runnerId := some 100, runnerName := some "runner-1", runnerGroupId := none,
      runnerGroupName := none, labels := some "[]", htmlUrl := none, startedAt := none,
      completedAt := none }
  repository := some ⟨some 10, some "octo/app"⟩
  installationId := some 1

end Sample

end Gridops.Ci
