import Gridops.Lib.Index
import Gridops.FixAgent.Session

/-!
# The table of fix runs

`agent_runs` and the statements that the API and the worker run on it. Every `UPDATE` names one run
by its id, some with a guard on its status as well. What they have in common is stated once: no
statement touches a run's identity, and none makes an ended run active again, so the index that
allows one active run a job cannot refuse any of them.

The columns nothing here reads are left out.
-/

namespace Gridops.FixAgent

open Lib (Indexed)

abbrev Millis := Int
abbrev RunId := ℕ
abbrev JobId := ℕ
abbrev WorkflowRunId := ℕ
abbrev SandboxId := ℕ

inductive Trigger where
  | manual | automatic
deriving DecidableEq

inductive Status where
  | queued | running | succeeded | failed | cancelled
deriving DecidableEq

/-- `status IN ('queued','running')`. -/
def Status.isActive : Status → Bool
  | .queued | .running => true
  | .succeeded | .failed | .cancelled => false

/-- A status no run should leave. -/
abbrev Status.Terminal (s : Status) : Prop := s.isActive = false

structure PullRequest where
  number : ℕ
  base : String
  draft : Bool
deriving DecidableEq

structure AgentRun where
  id : RunId
  jobId : JobId
  runId : WorkflowRunId
  trigger : Trigger
  status : Status := .queued
  stage : String := "Waiting for the agent worker"
  outcome : Option FinishOutcome := none
  pullRequest : Option PullRequest := none
  error : Option String := none
  sandboxId : Option SandboxId := none
  turns : ℕ := 0
  toolCalls : ℕ := 0
  cancelRequested : Bool := false
  /-- When a queued run waiting for host capacity may try again. -/
  retryAt : Option Millis := none
  createdAt : Millis
  startedAt : Option Millis := none
  completedAt : Option Millis := none
deriving DecidableEq

namespace AgentRun

def isActive (r : AgentRun) : Bool := r.status.isActive

structure Identity where
  id : RunId
  jobId : JobId
  runId : WorkflowRunId
  trigger : Trigger
  createdAt : Millis
deriving DecidableEq

def identity (r : AgentRun) : Identity := ⟨r.id, r.jobId, r.runId, r.trigger, r.createdAt⟩

end AgentRun

/-- `agent_runs`, with `agent_runs_active_job_unique`. -/
abbrev AgentRuns := Indexed AgentRun.id AgentRun.isActive AgentRun.jobId

/-! ## Statements -/

def capacityRetryMs : Millis := 60000

inductive Statement where
  | stage (text : String)
  | sandbox (box : SandboxId)
  | counts (turns toolCalls : ℕ)
  /-- Of `claim_next_run`. -/
  | claim (now : Millis)
  /-- `requeue_for_capacity`. -/
  | requeue (now : Millis)
  /-- `finish_succeeded`. -/
  | succeed (pullRequest : Option PullRequest) (now : Millis)
  /-- `finish_failed`. -/
  | fail (error : String) (now : Millis)
  /-- `finish_cancelled`. -/
  | finishCancelled (now : Millis)
  /-- The first statement of `cancel_agent_run`. -/
  | cancelQueued (now : Millis)
  /-- Its second. -/
  | requestCancel
deriving DecidableEq

namespace Statement

/-- The guard beside the id: `finish_succeeded` and `finish_cancelled` have none. -/
def guard : Statement → Status → Bool
  | .claim _, s | .cancelQueued _, s => s == .queued
  | .requeue _, s | .requestCancel, s => s == .running
  | .fail _ _, s => s.isActive
  | .stage _, _ | .sandbox _, _ | .counts _ _, _ | .succeed _ _, _ | .finishCancelled _, _ => true

def set : Statement → AgentRun → AgentRun
  | .stage text, r => { r with stage := text }
  | .sandbox box, r => { r with sandboxId := some box }
  | .counts turns toolCalls, r => { r with turns, toolCalls }
  | .claim now, r =>
    { r with
      status := .running
      stage := "Preparing"
      startedAt := some (r.startedAt.getD now)
      retryAt := none }
  | .requeue now, r =>
    { r with
      status := .queued
      stage := "Waiting for runner host capacity"
      retryAt := some (now + capacityRetryMs) }
  | .succeed pullRequest now, r =>
    { r with
      status := .succeeded
      stage := if pullRequest.isSome then "Pull request opened" else "Diagnosis ready"
      outcome := some (if pullRequest.isSome then .pullRequest else .diagnosis)
      pullRequest
      completedAt := some now }
  | .fail error now, r =>
    { r with
      status := .failed
      stage := "Failed"
      error := some error
      completedAt := some now }
  | .finishCancelled now, r | .cancelQueued now, r =>
    { r with
      status := .cancelled
      stage := "Cancelled"
      completedAt := some now }
  | .requestCancel, r => { r with cancelRequested := true, stage := "Cancelling" }

def target : Statement → Option Status
  | .claim _ => some .running
  | .requeue _ => some .queued
  | .succeed _ _ => some .succeeded
  | .fail _ _ => some .failed
  | .finishCancelled _ | .cancelQueued _ => some .cancelled
  | .stage _ | .sandbox _ | .counts _ _ | .requestCancel => none

variable (st : Statement) (r : AgentRun)

@[simp]
theorem identity_set : (st.set r).identity = r.identity := by
  cases st <;> rfl

@[simp]
theorem id_set : (st.set r).id = r.id := congrArg AgentRun.Identity.id (st.identity_set r)

theorem jobId_set : (st.set r).jobId = r.jobId :=
  congrArg AgentRun.Identity.jobId (st.identity_set r)

theorem status_set : (st.set r).status = st.target.getD r.status := by
  cases st <;> rfl

theorem cancelRequested_set :
    (st.set r).cancelRequested = (st == .requestCancel || r.cancelRequested) := by
  cases st <;> rfl

theorem isActive_of_set (hguard : st.guard r.status) (h : (st.set r).isActive) : r.isActive := by
  rw [AgentRun.isActive]
  cases st with
  | stage | sandbox | counts | requestCancel => exact h
  | claim | requeue =>
    rw [eq_of_beq hguard]
    rfl
  | succeed | fail | finishCancelled | cancelQueued => cases h

end Statement

namespace AgentRuns

def hits (id : RunId) (st : Statement) (r : AgentRun) : Bool := r.id == id && st.guard r.status

variable (t : AgentRuns)

def run (id : RunId) (st : Statement) : AgentRuns :=
  t.update (hits id st) st.set st.id_set fun r hhit hactive =>
    ⟨st.isActive_of_set r (Bool.and_eq_true_iff.mp hhit).2 hactive, st.jobId_set r⟩

/-- `rows_affected() > 0`. -/
def affects (id : RunId) (st : Statement) : Bool := t.rows.any (hits id st)

def nextQueued (now : Millis) : Option RunId :=
  ((t.rows.filter fun r => r.status == .queued && r.retryAt.all (· ≤ now)).insertionSort
    fun a b => a.createdAt ≤ b.createdAt).head?.map (·.id)

def runningIds : List RunId :=
  (t.rows.filter fun r => r.status == .running).map (·.id)

/-- `SELECT cancel_requested FROM agent_runs WHERE id=?`. -/
def cancelRequested (id : RunId) : Bool :=
  t.rows.any fun r => r.id == id && r.cancelRequested

variable {t u : AgentRuns} {id : RunId} {st : Statement} {r r' : AgentRun}

theorem hits_iff : hits id st r ↔ r.id = id ∧ st.guard r.status := by
  simp [hits]

theorem mem_run : r' ∈ t.run id st ↔ ∃ r ∈ t, (if hits id st r then st.set r else r) = r' :=
  Indexed.mem_update

theorem exists_of_mem_run (h : r' ∈ t.run id st) :
    ∃ r ∈ t, r.identity = r'.identity ∧
      (r' = r ∨ (r.id = id ∧ st.guard r.status ∧ r' = st.set r)) := by
  obtain ⟨r, hr, rfl⟩ := mem_run.mp h
  refine ⟨r, hr, ?_⟩
  split
  · next hhit =>
    exact ⟨(st.identity_set r).symm, .inr ⟨(hits_iff.mp hhit).1, (hits_iff.mp hhit).2, rfl⟩⟩
  · exact ⟨rfl, .inl rfl⟩

theorem mem_run_of_not_hits (hr : r ∈ t) (h : ¬hits id st r) : r ∈ t.run id st :=
  mem_run.mpr ⟨r, hr, if_neg h⟩

theorem mem_run_of_hits (hr : r ∈ t) (h : hits id st r) : st.set r ∈ t.run id st :=
  mem_run.mpr ⟨r, hr, if_pos h⟩

theorem affects_iff : t.affects id st ↔ ∃ r ∈ t, r.id = id ∧ st.guard r.status := by
  rw [affects, List.any_eq_true]
  exact exists_congr fun r => and_congr_right fun _ => hits_iff

theorem mem_runningIds {i : RunId} :
    i ∈ t.runningIds ↔ ∃ r ∈ t, r.status = .running ∧ r.id = i := by
  simp only [runningIds, List.mem_map, List.mem_filter, beq_iff_eq, and_assoc]
  rfl

theorem cancelRequested_iff : t.cancelRequested id ↔ ∃ r ∈ t, r.id = id ∧ r.cancelRequested := by
  simp only [cancelRequested, List.any_eq_true, Bool.and_eq_true, beq_iff_eq]
  rfl

end AgentRuns

end Gridops.FixAgent
