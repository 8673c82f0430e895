import Gridops.Lib.Run
import Gridops.HostAgent.Journal

/-!
# Command dispatch on the host

`dispatch_with`, `interrupted` and `deliver_results` of the agent, cut at every point where the
process can stop: between two journal transactions, before and after the helper's answer. A `Job` is
one command being handled, its `Stage` the next thing it does. The in-flight lock lets either one
dispatch or the redelivery of results run (`Holder`), and a crash loses the holder and nothing else.

`calls`, `returned` and `posted` are the deliveries that reached `RuntimeHelper::call`, the results
handed back and those sent to the server.
-/

namespace Gridops.HostAgent

open Gridops.Lib Gridops.Fleet

abbrev Bootstrap := String

structure HelperRequest where
  environmentId : Option EnvironmentId
  dockerSocket : Bool
  prepared : Option PrepareEnvironment
  bootstrap : Option Bootstrap
  operation : AgentOperation
deriving DecidableEq

inductive HelperResponse
  | succeeded (evidence : SuccessEvidence)
  | failed (code : FailureCode) (retryable : Bool)
deriving DecidableEq

/-- What a start cut short by an agent restart left in its environment. -/
inductive StartRemains
  | runner (identity : LocalResourceIdentity)
  | nothing
  | unknown
deriving DecidableEq

structure Trust where
  dockerSocket : Bool
deriving DecidableEq

def refused (code : FailureCode) : CommandOutcome := .failed code false none

/-- Cut short before it took effect, so nothing of it exists. -/
def cutShort : CommandOutcome := .failed .cancelled true none

def unknown : CommandOutcome := .uncertain .localStateUnknown none

def HelperResponse.outcome : HelperResponse → CommandOutcome
  | .succeeded evidence => .succeeded evidence
  | .failed code retryable => .failed code retryable none

def startedOutcome (start : StartRunner) (identity : LocalResourceIdentity) : CommandOutcome :=
  .succeeded (.runnerStarted start.preparedEnvironmentId start.executionProfileId
    start.profileRevision identity)

/-- The result a job journals: evidence for something other than its command is not
trusted. -/
def finalResult (H : Hashing) (envelope : AgentCommandEnvelope) (freshId : ResultId)
    (outcome : CommandOutcome) (now : Millis) : AgentCommandResult :=
  let result := resultFor envelope freshId outcome now
  match result.validateAgainst H.bytes envelope with
  | .ok () => result
  | .error _ => { result with outcome := unknown }

/-! ## Jobs -/

inductive Stage
  /-- Reads what an interrupted command left behind. -/
  | remains
  /-- Asks the helper what an interrupted start launched. -/
  | interruptedStart (start : StartRunner) (environment : Environment) (rebooted : Bool)
  | execute
  | call (request : HelperRequest) (environment : Option Environment)
  /-- The helper works on the request. -/
  | calling (environment : Option Environment)
  | record (environment : Environment) (outcome : CommandOutcome)
  | bind (environment : EnvironmentId) (identity : LocalResourceIdentity) (outcome : CommandOutcome)
  | complete (outcome : CommandOutcome)
deriving DecidableEq

structure Job where
  envelope : AgentCommandEnvelope
  now : Millis
  bootstrap : Option Bootstrap
  stage : Stage
deriving DecidableEq

section

variable (trust : Trust)

def helperRequest (environment : Option Environment) (operation : AgentOperation)
    (bootstrap : Option Bootstrap) : HelperRequest where
  environmentId := environment.map (·.id)
  dockerSocket := trust.dockerSocket && environment.any (·.dockerSocket)
  prepared := environment.map (·.prepare)
  bootstrap := bootstrap
  operation := operation

/-- Sandbox operations reach only the container this agent created for a fix placement. -/
def isOwnedFixSandbox (environment : Environment) (expected : LocalResourceIdentity) : Bool :=
  environment.workload == .fixSandbox && environment.runtimeKind == .docker
    && environment.executionOs == .linux && expected.isDocker
    && environment.localIdentity == some expected

def preparedEnvironment (prepare : PrepareEnvironment) (placementId : PlacementId)
    (generation : Nat) (freshId : EnvironmentId) : Environment where
  id := freshId
  placementId := placementId
  generation := generation
  workload := prepare.workload
  runtimeKind := prepare.runtimeKind
  executionOs := prepare.executionOs
  dockerSocket := prepare.configuration.requiresDockerSocket
  prepare := prepare
  localIdentity := none

/-- Calls the helper in the owned environment if it passes `allowed`. -/
def callOwned (owned : Option Environment) (allowed : Environment → Bool)
    (operation : AgentOperation) (bootstrap : Option Bootstrap) : Stage :=
  match owned.filter allowed with
  | some environment =>
    .call (helperRequest trust (some environment) operation bootstrap) (some environment)
  | none => .complete (refused .permission)

/-- What `execute` does with a new command. -/
def decideStage (j : Journal) (envelope : AgentCommandEnvelope) (bootstrap : Option Bootstrap)
    (freshId : EnvironmentId) : Stage :=
  let operation := envelope.operation
  match envelope.scope with
  | .host =>
    match operation with
    | .inspectHost | .drainHost => .call (helperRequest trust none operation none) none
    | _ => .complete (refused .unsupported)
  | .placement placementId _ generation =>
    let owned := j.placementEnvironment placementId generation
    match operation with
    | .prepareEnvironment prepare =>
      if prepare.configuration.requiresDockerSocket && !trust.dockerSocket then
        .complete (refused .permission)
      else if prepare.configuration.requiresInteractive then .complete (refused .unsupported)
      else if owned.isSome then .complete (refused .configuration)
      else
        let environment := preparedEnvironment prepare placementId generation freshId
        .call (helperRequest trust (some environment) operation none) (some environment)
    | .startRunner start =>
      callOwned trust owned (·.id == start.preparedEnvironmentId) operation bootstrap
    | .inspect expected | .drain expected | .stop expected _ | .cleanup expected =>
      callOwned trust owned (·.localIdentity == some expected) operation none
    | .executeSandbox expected .. | .sandboxFile expected _ | .sandboxArtifact expected _ =>
      callOwned trust owned (isOwnedFixSandbox · expected) operation none
    | _ => .complete (refused .unsupported)

/-- What `remains` makes of an interrupted command. -/
def remainsStage (j : Journal) (envelope : AgentCommandEnvelope) (boot : String) : Stage :=
  match envelope.scope with
  | .host => .complete unknown
  | .placement placementId _ generation =>
    match envelope.operation, j.placementEnvironment placementId generation with
    | .prepareEnvironment _, some environment =>
      .complete (.succeeded (.preparedEnvironment environment.id))
    -- Nothing journaled, so no command can ever reach what the prepare staged.
    | .prepareEnvironment _, none => .complete cutShort
    | .startRunner start, some environment =>
      if environment.id = start.preparedEnvironmentId then
        match environment.localIdentity with
        | some identity => .complete (startedOutcome start identity)
        | none => .interruptedStart start environment (j.rebootedSince envelope.commandId boot)
      else .complete (refused .permission)
    | .startRunner _, none => .complete (refused .permission)
    | _, _ => .complete unknown

/-- What follows the helper's answer: the environment of a prepare and the runner of a
start are journaled before the result. -/
def respondStage (operation : AgentOperation) (environment : Option Environment)
    (response : HelperResponse) : Stage :=
  match response, environment with
  | .succeeded evidence, some environment =>
    match operation with
    | .prepareEnvironment _ =>
      if evidence = .preparedEnvironment environment.id then .record environment response.outcome
      else .complete unknown
    | _ =>
      match evidence with
      | .runnerStarted _ _ _ identity => .bind environment.id identity response.outcome
      | _ => .complete response.outcome
  | _, _ => .complete response.outcome

inductive JobStep
  | look (boot : String)
  | found (answer : StartRemains)
  | decide (freshId : EnvironmentId)
  | call
  | respond (response : HelperResponse)
  | write
  | complete (freshId : ResultId)
deriving DecidableEq

inductive Progress
  | stage (stage : Stage)
  | done (result : AgentCommandResult)
  | failed
deriving DecidableEq

/-- A journal write after which the job goes on, or fails with it. -/
def Progress.after (j : Journal) (write : Except JournalError Journal) (next : Progress) :
    Journal × Progress :=
  match write with
  | .ok j' => (j', next)
  | .error _ => (j, .failed)

variable (H : Hashing)

def Job.step (j : Journal) (job : Job) (step : JobStep) : Option (Journal × Progress) :=
  match step, job.stage with
  | .look boot, .remains => some (j, .stage (remainsStage j job.envelope boot))
  | .found (.runner identity), .interruptedStart start environment _ =>
    some (j, .stage (.bind environment.id identity (startedOutcome start identity)))
  | .found .nothing, .interruptedStart .. => some (j, .stage (.complete cutShort))
  | .found .unknown, .interruptedStart .. => some (j, .stage (.complete unknown))
  | .decide freshId, .execute =>
    some (j, .stage (decideStage trust j job.envelope job.bootstrap freshId))
  | .call, .call _ environment => some (j, .stage (.calling environment))
  | .respond response, .calling environment =>
    some (j, .stage (respondStage job.envelope.operation environment response))
  | .write, .record environment outcome =>
    some (Progress.after j (j.recordEnvironment environment) (.stage (.complete outcome)))
  | .write, .bind id identity outcome =>
    some (Progress.after j (j.bindLocalIdentity id identity) (.stage (.complete outcome)))
  | .complete freshId, .complete outcome =>
    let result := finalResult H job.envelope freshId outcome job.now
    some (Progress.after j (j.complete result) (.done result))
  | _, _ => none

end

/-! ## The agent -/

/-- Undelivered commands still to be reported, with their journaled results. -/
abbrev Backlog := List (AgentCommandEnvelope × Option AgentCommandResult)

inductive Holder
  | free
  | dispatching (job : Job)
  | flushing (queue : Backlog)
  | recovering (queue : Backlog) (job : Job)
  | posting (queue : Backlog) (id : CommandId) (result : AgentCommandResult)
deriving DecidableEq

structure Agent where
  journal : Journal
  holder : Holder
  calls : List AgentCommandEnvelope
  returned : List AgentCommandResult
  posted : List AgentCommandResult
deriving DecidableEq

def Agent.fresh (identity : Option Identity) : Agent :=
  ⟨{ Journal.empty with identity := identity }, .free, [], [], []⟩

inductive AgentStep
  /-- `dispatch_with` up to the receipt; `receivedAt` and `boot` are what the journal
  stores with it. -/
  | dispatch (envelope : AgentCommandEnvelope) (session : ExpectedAgentSession)
      (now receivedAt : Millis) (boot : String) (bootstrap : Option Bootstrap)
  | job (step : JobStep)
  | flush (since : Millis)
  | next (now : Millis)
  /-- The server took the result being posted, or refused it for good. -/
  | acknowledged
  | abort
  | post (result : AgentCommandResult)
  | delivered (result : AgentCommandResult)
  | crash
deriving DecidableEq

namespace Agent

/-- The history after a job step: only `call` reaches the helper. -/
def logCall (a : Agent) (envelope : AgentCommandEnvelope) : JobStep → Agent
  | .call => { a with calls := a.calls ++ [envelope] }
  | _ => a

section

variable (H : Hashing) (trust : Trust)

def dispatch (a : Agent) (envelope : AgentCommandEnvelope) (session : ExpectedAgentSession)
    (now receivedAt : Millis) (boot : String) (bootstrap : Option Bootstrap) : Agent :=
  match envelope.validateBinding H.envelope session with
  | .error _ => a
  | .ok () =>
    match a.journal.receive envelope receivedAt boot with
    | .error _ => a
    | .ok (.completed result, j) => { a with journal := j, returned := a.returned ++ [result] }
    | .ok (.interrupted, j) =>
      { a with journal := j, holder := .dispatching ⟨envelope, now, none, .remains⟩ }
    | .ok (.new, j) =>
      -- Too late: answered as not run rather than refused.
      let stage := match envelope.validateAgainst H.envelope session now with
        | .ok () => Stage.execute
        | .error _ => .complete (refused .deadline)
      { a with journal := j, holder := .dispatching ⟨envelope, now, bootstrap, stage⟩ }

def step (a : Agent) : AgentStep → Option Agent
  | .dispatch envelope session now receivedAt boot bootstrap =>
    match a.holder with
    | .free => some (a.dispatch H envelope session now receivedAt boot bootstrap)
    | _ => none
  | .job js =>
    match a.holder with
    | .dispatching job =>
      (job.step trust H a.journal js).map fun (j, progress) =>
        let a := { a with journal := j }.logCall job.envelope js
        match progress with
        | .stage stage => { a with holder := .dispatching { job with stage := stage } }
        | .done result => { a with holder := .free, returned := a.returned ++ [result] }
        | .failed => { a with holder := .free }
    | .recovering queue job =>
      (job.step trust H a.journal js).map fun (j, progress) =>
        let a := { a with journal := j }.logCall job.envelope js
        match progress with
        | .stage stage => { a with holder := .recovering queue { job with stage := stage } }
        | .done result =>
          { a with
            holder := .posting queue job.envelope.commandId result
            returned := a.returned ++ [result]
            posted := a.posted ++ [result] }
        | .failed => { a with holder := .free }
    | _ => none
  | .flush since =>
    match a.holder with
    | .free => some { a with holder := .flushing (a.journal.undelivered since) }
    | _ => none
  | .next now =>
    match a.holder with
    | .flushing [] => some { a with holder := .free }
    | .flushing ((envelope, some result) :: queue) =>
      some { a with
        holder := .posting queue envelope.commandId result
        posted := a.posted ++ [result] }
    | .flushing ((envelope, none) :: queue) =>
      some { a with holder := .recovering queue ⟨envelope, now, none, .remains⟩ }
    | _ => none
  | .acknowledged =>
    match a.holder with
    | .posting queue id _ =>
      some { a with journal := a.journal.markDelivered id, holder := .flushing queue }
    | _ => none
  | .abort =>
    match a.holder with
    | .flushing _ | .posting .. => some { a with holder := .free }
    | _ => none
  | .post result =>
    if result ∈ a.returned then some { a with posted := a.posted ++ [result] } else none
  | .delivered result =>
    if result ∈ a.posted then
      some { a with journal := a.journal.markDelivered result.commandId }
    else none
  | .crash => some { a with holder := .free }

end

end Agent

def agentMachine (H : Hashing) (trust : Trust) : Machine Agent AgentStep := ⟨Agent.step H trust⟩

end Gridops.HostAgent
