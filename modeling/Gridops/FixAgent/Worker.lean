import Gridops.FixAgent.Runs
import Gridops.Lib.Run

/-!
# The worker and the API on the table of fix runs

`gridops-reconciler/src/agent.rs` with the two handlers of `gridops-api/src/agent.rs`. One worker
process fails what a crashed one left, queues automatic runs, claims a queued run and executes it;
the API inserts and cancels runs, and the process crashes and is started again, at any time.

One step is one statement on the table, or one call of the outside together with the statement that
follows it. What the outside decides (the manager, GitHub, the model, a database that fails) comes
with the step. `Phase.step` is the whole of `execute_run` and `drive`: what a phase does with an
answer, as a `Move`.

Which runs a pull request was opened for, which cancellations returned and which runs the worker
gave up is state only there to be talked about.
-/

namespace Gridops.FixAgent

open Lib (Indexed Machine)

/-! ## Executing a run -/

/-- What `drive` keeps of the run's plan. -/
structure Plan where
  headBranch : Option String
  defaultBranch : String
  workflows : Bool
deriving DecidableEq

def branchPrefix : String := "gridops/fix-"

def workflowsDir : String := ".github/workflows/"

def startsWith (text start : String) : Bool := start.toList.isPrefixOf text.toList

def Plan.attempts (p : Plan) : List (String × Bool) :=
  let base := (p.headBranch.filter fun b => !startsWith b branchPrefix).getD p.defaultBranch
  [(base, true), (base, false)] ++
    if base = p.defaultBranch then [] else [(p.defaultBranch, true), (p.defaultBranch, false)]

inductive Phase where
  | planning
  | reserving (plan : Plan)
  | starting (plan : Plan)
  | placing (plan : Plan) (box : SandboxId)
  | requeueing
  | reading (plan : Plan)
  | copying (plan : Plan)
  | checkingOut (plan : Plan)
  | session (plan : Plan) (current : Session)
  | settling (plan : Plan) (outcome : AgentOutcome)
  | opening (plan : Plan)
  | collecting (plan : Plan)
  | committing (plan : Plan)
  | proposing (attempts : List (String × Bool))
  | recording (pullRequest : PullRequest)
  | succeeding (pullRequest : Option PullRequest)
  | cancelling
  /-- The sandbox is removed; what `drive` returned. -/
  | closing (failure : Option String)
  | failing (message : String)
deriving DecidableEq

inductive Answer where
  | ok
  | error (message : String)
  | panicked
  | plan (plan : Plan)
  | deferred
  | sandbox (box : SandboxId)
  | session (answer : SessionAnswer)
  | changes (paths : List String)
  | created (number : ℕ)
  | unprocessable
  /-- The statement succeeded and the event after it could not be written. -/
  | unrecorded (message : String)
deriving DecidableEq

/-- What a phase does: the statement on the run's row, whether a pull request was opened, and the
next phase, or `none` where the execution is over. -/
structure Move where
  statement : Option Statement := none
  opened : Bool := false
  next : Option Phase
deriving DecidableEq

/-- Whether drive's result reaches the worker only after the sandbox is removed. -/
def Phase.hasSandbox : Phase → Bool
  | .planning | .reserving _ | .starting _ | .placing _ _ | .requeueing | .failing _ => false
  | _ => true

def Phase.fail (p : Phase) (message : String) : Move :=
  { next := some (if p.hasSandbox then .closing (some message) else .failing message) }

def Phase.afterSession (p : Phase) (plan : Plan) : SessionEnd → Move
  | .finished outcome => { next := some (.settling plan outcome) }
  | .cancelled => { next := some .cancelling }
  | .failed message => p.fail message

/-- What `drive` does with the changes, and `open_pull_request` with none. -/
def Phase.afterChanges (p : Phase) (plan : Plan) (paths : List String) : Move :=
  if paths.any (startsWith · workflowsDir) && !plan.workflows then
    { next := some (.succeeding none) }
  else if paths.isEmpty then p.fail "The agent finished with a fix but no files changed."
  else { next := some (.committing plan) }

/-- `execute_run` and `drive`, one answer at a time. -/
def Phase.step (p : Phase) (requested : Bool) (now : Millis) : Answer → Option Move
  | .ok =>
    match p with
    | .reserving plan =>
      some { statement := some (.stage "Starting the sandbox"), next := some (.starting plan) }
    | .placing plan box =>
      some { statement := some (.sandbox box), next := some (.reading plan) }
    | .requeueing => some { statement := some (.requeue now), next := none }
    | .reading plan =>
      some { statement := some (.stage "Reading the failure"), next := some (.copying plan) }
    | .copying plan =>
      some { statement := some (.stage "Copying the repository"), next := some (.checkingOut plan) }
    | .checkingOut plan =>
      some { statement := some (.stage "Agent working"), next := some (.session plan {}) }
    | .settling plan outcome =>
      some {
        statement := some (.counts outcome.turns outcome.toolCalls)
        next := some
          (match outcome.finish with
          | .diagnosis => .succeeding none
          | .pullRequest => .opening plan) }
    | .opening plan =>
      some {
        statement := some (.stage "Opening the pull request")
        next := some (.collecting plan) }
    | .committing plan => some { next := some (.proposing plan.attempts) }
    | .recording pullRequest => some { next := some (.succeeding (some pullRequest)) }
    | .succeeding pullRequest =>
      some { statement := some (.succeed pullRequest now), next := some (.closing none) }
    | .cancelling => some { statement := some (.finishCancelled now), next := some (.closing none) }
    | .closing none => some { next := none }
    | .closing (some message) => some { next := some (.failing message) }
    | .failing message => some { statement := some (.fail message now), next := none }
    | _ => none
  | .error message =>
    match p with
    -- `let _ = finish_failed(..)`: nothing is left to tell.
    | .failing _ => some { next := none }
    -- A sandbox that could not be removed is only logged.
    | .closing none => some { next := none }
    | .closing (some message) => some { next := some (.failing message) }
    | _ => some (p.fail message)
  | .panicked =>
    match p with
    | .failing _ => none
    | _ =>
      some { next := some (.failing "GridOps hit an internal error while running the agent") }
  | .plan plan =>
    match p with
    | .planning =>
      some {
        statement := some (.stage "Waiting for runner host capacity")
        next := some (.reserving plan) }
    | _ => none
  | .deferred =>
    match p with
    | .reserving _ | .starting _ => some { next := some .requeueing }
    | _ => none
  | .sandbox box =>
    match p with
    | .starting plan => some { next := some (.placing plan box) }
    | _ => none
  | .session answer =>
    match p with
    | .session plan current =>
      (current.step requested answer).map fun result =>
        match result with
        | .inl current => { next := some (.session plan current) }
        | .inr ended => p.afterSession plan ended
    | _ => none
  | .changes paths =>
    match p with
    | .collecting plan => some (p.afterChanges plan paths)
    | _ => none
  | .created number =>
    match p with
    | .proposing ((base, draft) :: _) =>
      some { opened := true, next := some (.recording ⟨number, base, draft⟩) }
    | _ => none
  | .unprocessable =>
    match p with
    | .proposing (_ :: attempt :: rest) => some { next := some (.proposing (attempt :: rest)) }
    | .proposing [_] =>
      some (p.fail "The fix was ready but the pull request could not be opened")
    | _ => none
  | .unrecorded message =>
    match p with
    | .succeeding none =>
      some { statement := some (.succeed none now), next := some (.closing (some message)) }
    | _ => none

/-! ## Queueing automatic runs -/

def automaticWindowMs : Millis := 6 * 60 * 60 * 1000

def dayMs : Millis := 24 * 60 * 60 * 1000

/-- `DAILY_LIMIT_SETTING` as `load_config` reads it, from the number stored, if any. -/
def dailyLimit (setting : Option Int) : Int := max 1 (min (setting.getD 10) 100)

inductive TriggerMode where
  | manual | automatic
deriving DecidableEq

structure AgentConfig where
  triggerMode : TriggerMode
  connected : Bool
  automaticSince : Option Millis
deriving DecidableEq

structure CiJob where
  id : JobId
  runId : WorkflowRunId
  conclusion : Option String
  completedAt : Option Millis
  updatedAt : Millis
  headBranch : Option String
  archived : Bool
  suspended : Bool
  permissions : List (String × String)
deriving DecidableEq

/-- `COALESCE(job.completed_at,job.updated_at)`. -/
def CiJob.endedAt (j : CiJob) : Millis := j.completedAt.getD j.updatedAt

def missingPermissions (permissions : List (String × String)) : List String :=
  ["contents", "pull_requests"].filter fun name => permissions.lookup name != some "write"

/-- `run.head_branch NOT LIKE 'gridops/fix-%'`, which does not look at the case of letters. -/
def ownBranch (branch : String) : Bool :=
  branchPrefix.toList.isPrefixOf (branch.toList.map Char.toLower)

def candidates (ci : List CiJob) (t : AgentRuns) (since : Millis) : List CiJob :=
  ((ci.filter fun j =>
      j.conclusion == some "failure" && since ≤ j.endedAt && !j.archived && !j.suspended &&
        j.headBranch.all (!ownBranch ·) && t.rows.all (·.runId != j.runId)).insertionSort
    fun a b => a.endedAt < b.endedAt ∨ (a.endedAt = b.endedAt ∧ a.id ≤ b.id)).take 50

structure Scan where
  now : Millis
  remaining : Int
  todo : List CiJob
  /-- `queued_runs`. -/
  seen : List WorkflowRunId := []
  queued : Int := 0
deriving DecidableEq

def automaticRun (id : RunId) (j : CiJob) (now : Millis) : AgentRun :=
  { id, jobId := j.id, runId := j.runId, trigger := .automatic, createdAt := now }

def manualRun (id : RunId) (jobId : JobId) (runId : WorkflowRunId) (now : Millis) : AgentRun :=
  { id, jobId, runId, trigger := .manual, createdAt := now }

/-- `SELECT COUNT(*) FROM agent_runs WHERE trigger='automatic' AND created_at>=?`. -/
def usedSince (t : AgentRuns) (since : Millis) : Int :=
  t.rows.countP fun r => r.trigger == .automatic && since ≤ r.createdAt

/-! ## The system -/

inductive Worker where
  | down
  /-- Started; `recover_interrupted_runs` reads the running runs next. -/
  | started
  | recovering (todo : List RunId)
  | idle
  /-- The automatic runs of the last day are counted; the candidates are read next. -/
  | counted (now since : Millis) (remaining : Int)
  | scanning (scan : Scan)
  | claiming (id : RunId) (now : Millis)
  | executing (id : RunId) (phase : Phase)
deriving DecidableEq

structure CancelCall where
  id : RunId
  /-- Whether a statement has cancelled the run or asked for it. -/
  written : Bool
deriving DecidableEq

structure State where
  runs : AgentRuns
  worker : Worker
  clock : Millis
  /-- The process at work has recovered what an earlier one left. -/
  recovered : Bool
  cancels : List CancelCall
  abandoned : List RunId
  /-- Runs for which `cancel_agent_run` returned `Ok`. -/
  returned : List RunId
  /-- Runs for which a pull request was opened. -/
  opened : List RunId
deriving DecidableEq

inductive Action where
  | tick (now : Millis)
  /-- The insertion of `start_agent_run`. -/
  | startRun (id : RunId) (jobId : JobId) (runId : WorkflowRunId)
  | cancel (id : RunId)
  /-- Its second statement, where the first touched nothing. -/
  | requestCancel (id : RunId)
  /-- It writes the event and the audit, and returns. -/
  | cancelReturn (id : RunId) (ok : Bool)
  | boot
  | crash
  | recoverSelect
  | recoverNext (ok : Bool)
  | scan (config : AgentConfig)
  | scanSelect (ci : List CiJob)
  | scanNext (id : RunId) (ok : Bool)
  | claimSelect
  | claim
  | execute (answer : Answer)
deriving DecidableEq

namespace State

variable (s : State)

/-- `start_agent_run` after its checks. The checks only refuse; whatever they saw, the index has
the last word. -/
def startRun (id : RunId) (jobId : JobId) (runId : WorkflowRunId) : State :=
  match s.runs.insert? (manualRun id jobId runId s.clock) with
  | some runs => { s with runs }
  | none => s

def cancel (id : RunId) : State :=
  { s with
    runs := s.runs.run id (.cancelQueued s.clock)
    cancels := ⟨id, s.runs.affects id (.cancelQueued s.clock)⟩ :: s.cancels }

/-- Its second statement; where that touches nothing either, the call ends with a conflict. -/
def requestCancel (id : RunId) : Option State :=
  if ⟨id, false⟩ ∈ s.cancels then
    let cancels := s.cancels.erase ⟨id, false⟩
    some { s with
      runs := s.runs.run id .requestCancel
      cancels := if s.runs.affects id .requestCancel then ⟨id, true⟩ :: cancels else cancels }
  else none

/-- The call ends, with `Ok` unless the event or the audit cannot be written. -/
def cancelReturn (id : RunId) (ok : Bool) : Option State :=
  if ⟨id, true⟩ ∈ s.cancels then
    some { s with
      cancels := s.cancels.erase ⟨id, true⟩
      returned := if ok then id :: s.returned else s.returned }
  else none

/-- `recover_interrupted_runs`, one run. -/
def recoverNext (todo : List RunId) (ok : Bool) : State :=
  match todo with
  | [] => { s with worker := .idle, recovered := true, abandoned := [] }
  | id :: todo =>
    if ok then
      { s with
        runs := s.runs.run id
          (.fail "GridOps restarted while this run was in progress. Start it again." s.clock)
        worker := .recovering todo }
    -- The error is logged and the worker goes on.
    else { s with worker := .idle }

/-- The start of `queue_automatic_runs`. -/
def scan (setting : Option Int) (config : AgentConfig) : State :=
  if config.triggerMode = .automatic && config.connected then
    let remaining := dailyLimit setting - usedSince s.runs (s.clock - dayMs)
    if remaining ≤ 0 then s
    else
      { s with
        worker := .counted s.clock
          (max (config.automaticSince.getD s.clock) (s.clock - automaticWindowMs)) remaining }
  else s

def scanNext (scan : Scan) (id : RunId) (ok : Bool) : State :=
  match scan.todo with
  | [] => { s with worker := .idle }
  | j :: todo =>
    if scan.remaining ≤ scan.queued then { s with worker := .idle }
    else
      let next := { scan with todo, seen := j.runId :: scan.seen }
      if j.runId ∈ scan.seen ∨ missingPermissions j.permissions ≠ [] then
        { s with worker := .scanning next }
      else if ok then
        match s.runs.insert? (automaticRun id j scan.now) with
        | some runs =>
          { s with runs, worker := .scanning { next with queued := scan.queued + 1 } }
        -- A unique violation is passed over.
        | none => { s with worker := .scanning next }
      else { s with worker := .idle }

/-- The second half of `claim_next_run`. -/
def claim (id : RunId) (now : Millis) : State :=
  { s with
    runs := s.runs.run id (.claim now)
    worker :=
      if s.runs.affects id (.claim now) then .executing id .planning else .idle }

def execute (id : RunId) (p : Phase) (answer : Answer) : Option State :=
  (p.step (s.runs.cancelRequested id) s.clock answer).map fun move =>
    { s with
      runs := (move.statement.map (s.runs.run id)).getD s.runs
      worker := (move.next.map (Worker.executing id)).getD .idle
      abandoned :=
        if move.next.isNone && move.statement.isNone && p != .closing none then id :: s.abandoned
        else s.abandoned
      opened := if move.opened then id :: s.opened else s.opened }

end State

def machine (setting : Option Int) : Machine State Action where
  step s
    | .tick now => if s.clock ≤ now then some { s with clock := now } else none
    | .startRun id jobId runId => some (s.startRun id jobId runId)
    | .cancel id => some (s.cancel id)
    | .requestCancel id => s.requestCancel id
    | .cancelReturn id ok => s.cancelReturn id ok
    | .boot => if s.worker = .down then some { s with worker := .started } else none
    | .crash => some { s with worker := .down, recovered := false }
    | .recoverSelect =>
      if s.worker = .started then some { s with worker := .recovering s.runs.runningIds } else none
    | .recoverNext ok =>
      match s.worker with
      | .recovering todo => some (s.recoverNext todo ok)
      | _ => none
    | .scan config => if s.worker = .idle then some (s.scan setting config) else none
    | .scanSelect ci =>
      match s.worker with
      | .counted now since remaining =>
        some { s with
          worker := .scanning { now, remaining, todo := candidates ci s.runs since } }
      | _ => none
    | .scanNext id ok =>
      match s.worker with
      | .scanning scan => some (s.scanNext scan id ok)
      | _ => none
    | .claimSelect =>
      if s.worker = .idle then
        some ((s.runs.nextQueued s.clock).elim s
          fun id => { s with worker := .claiming id s.clock })
      else none
    | .claim =>
      match s.worker with
      | .claiming id now => some (s.claim id now)
      | _ => none
    | .execute answer =>
      match s.worker with
      | .executing id p => s.execute id p answer
      | _ => none

def init (clock : Millis) : State where
  runs := Indexed.empty
  worker := .down
  clock := clock
  recovered := false
  cancels := []
  abandoned := []
  returned := []
  opened := []

end Gridops.FixAgent
