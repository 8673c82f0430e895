import Gridops.Fleet.Protocol.Agent

/-!
# Command results

The typed result a host agent returns for one command and the correlation check
the control plane makes before applying it (`protocol/outcomes.rs`).
-/

namespace Gridops.Fleet

abbrev ResultId := Nat
abbrev DiagnosticId := Nat
abbrev LogStreamId := Nat

/-! ## Outcomes and their evidence -/

inductive DiagnosticCode
  | authority | configuration | deadline | dependency | imageUnavailable | permission
  | resourceUnavailable | runtime | stale | unknown
deriving DecidableEq

inductive FailureCode
  | cancelled | configuration | dependency | deadline | permission | resourceUnavailable
  | runtime | unsupported
deriving DecidableEq

inductive UncertainCode
  | authorityLost | deliveryUnknown | localStateUnknown | timeout
deriving DecidableEq

structure DiagnosticReference where
  id : DiagnosticId
  code : DiagnosticCode
deriving DecidableEq

/-- An agent's claim about its resource at a time: that it is absent, or that no
delayed start of it can follow. -/
structure ResourceClaim where
  resource : LocalResourceIdentity
  claimedAt : Millis
  evidence : DiagnosticReference
deriving DecidableEq

inductive SandboxExitStatus
  | exited (code : Nat)
  | signaled (signal : Nat)
  | timedOut
deriving DecidableEq

structure LogStreamReference where
  streamId : LogStreamId
  bytes : Nat
deriving DecidableEq

structure ArtifactReceipt where
  artifactId : ArtifactId
  sizeBytes : Nat
  digest : String
deriving DecidableEq

inductive StreamReference
  | log (streamId : LogStreamId)
  | artifact (artifactId : ArtifactId)
deriving DecidableEq

structure ChunkOwnership where
  placementId : PlacementId
  backendId : BackendId
  generation : Nat
deriving DecidableEq

structure TransferChunk where
  stream : StreamReference
  owner : ChunkOwnership
  offset : Nat
  bytes : List UInt8
deriving DecidableEq

inductive SandboxFileResult
  | read (chunk : Option TransferChunk) (sizeBytes : Nat) (digest : String)
  | written (artifact : ArtifactReceipt)
deriving DecidableEq

inductive SandboxArtifactResult
  | published (artifact : ArtifactReceipt)
  | fetched (chunk : TransferChunk) (sizeBytes : Nat) (digest : String)
deriving DecidableEq

inductive SuccessEvidence
  | preparedEnvironment (preparedEnvironmentId : EnvironmentId)
  | runnerStarted (preparedEnvironmentId : EnvironmentId) (executionProfileId : ProfileId)
      (profileRevision : Nat) (localIdentity : LocalResourceIdentity)
  | inspected (localIdentity : Option LocalResourceIdentity)
  | drained (localIdentity : Option LocalResourceIdentity)
  | stopped (localIdentity : LocalResourceIdentity)
  | cleaned (localIdentity : LocalResourceIdentity) (localAbsence : ResourceClaim)
      (delayedStartExclusion : ResourceClaim)
  | agentUpgraded (signedManifestReference : ReleaseManifestId) (version : String)
  | sandboxExecuted (localIdentity : LocalResourceIdentity) (exitStatus : SandboxExitStatus)
      (stdout stderr : Option LogStreamReference)
  | sandboxFileApplied (localIdentity : LocalResourceIdentity) (action : SandboxFileAction)
      (result : SandboxFileResult)
  | sandboxArtifactApplied (localIdentity : LocalResourceIdentity)
      (action : SandboxArtifactAction) (result : SandboxArtifactResult)
deriving DecidableEq

def SuccessEvidence.isCleaned : SuccessEvidence → Bool
  | .cleaned .. => true
  | _ => false

inductive CommandOutcome
  | accepted (attempt : Nat)
  | running (attempt : Nat)
  | succeeded (evidence : SuccessEvidence)
  | failed (code : FailureCode) (retryable : Bool) (diagnostic : Option DiagnosticReference)
  | uncertain (code : UncertainCode) (diagnostic : Option DiagnosticReference)
deriving DecidableEq

def CommandOutcome.isProgress : CommandOutcome → Bool
  | .accepted _ | .running _ => true
  | _ => false

structure AgentCommandResult where
  resultId : ResultId
  commandId : CommandId
  operationId : OperationId
  hostId : HostId
  hostEpoch : Nat
  controlPlaneIncarnation : Incarnation
  authoritySessionId : SessionId
  scope : CommandScope
  generation : Option Nat
  requestHash : String
  observedAt : Millis
  outcome : CommandOutcome
deriving DecidableEq

/-! ## Correlation with the command -/

inductive OutcomeError
  | correlation | scope | evidence | hash
deriving DecidableEq

def scopeGenerationMatches : CommandScope → Option Nat → Bool
  | .host, none => true
  | .placement _ _ expected, some actual => expected == actual
  | _, _ => false

/-- The chunk belongs to the placement the command is scoped to. -/
def TransferChunk.ownedBy (chunk : TransferChunk) : CommandScope → Bool
  | .host => false
  | .placement p b g => chunk.owner == ⟨p, b, g⟩

section

variable (sha256 : List UInt8 → String)

def fileResultMatches (action : SandboxFileAction) (result : SandboxFileResult)
    (scope : CommandScope) : Bool :=
  match action, result with
  | .read _ offset maxBytes, .read (some chunk) sizeBytes digest =>
    chunk.offset == offset && sizeBytes == chunk.bytes.length && sizeBytes ≤ maxBytes
      && digest == sha256 chunk.bytes && chunk.ownedBy scope
  | .read .., .read none sizeBytes digest => sizeBytes == 0 && digest == sha256 []
  | .write _ artifactId expectedLength hash, .written artifact =>
    artifact == ⟨artifactId, expectedLength, hash⟩
  | _, _ => false

def artifactResultMatches (action : SandboxArtifactAction) (result : SandboxArtifactResult)
    (scope : CommandScope) : Bool :=
  match action, result with
  | .publish _ artifactId, .published artifact => artifactId == artifact.artifactId
  | .fetch artifactId offset maxBytes, .fetched chunk sizeBytes digest =>
    chunk.stream == .artifact artifactId && chunk.offset == offset
      && sizeBytes == chunk.bytes.length && sizeBytes ≤ maxBytes
      && digest == sha256 chunk.bytes && chunk.ownedBy scope
  | _, _ => false

/-- The evidence a success must carry for the command's own operation. -/
def evidenceMatches (command : AgentCommandEnvelope) (evidence : SuccessEvidence) : Bool :=
  match command.operation, evidence with
  | .prepareEnvironment _, .preparedEnvironment _ => true
  | .startRunner start, .runnerStarted env profile revision _ =>
    start.preparedEnvironmentId == env && start.executionProfileId == profile
      && start.profileRevision == revision
  | .inspectHost, .inspected _ => true
  | .inspect expected, .inspected identity => identity == some expected
  | .drainHost, .drained identity => identity.isNone
  | .drain expected, .drained identity => identity == some expected
  | .stop expected _, .stopped identity => expected == identity
  | .cleanup expected, .cleaned identity absence exclusion =>
    expected == identity && absence.resource == identity && exclusion.resource == identity
  | .upgradeAgent manifest expectedVersion _ _, .agentUpgraded actual version =>
    manifest == actual && expectedVersion == version
  | .executeSandbox expected .., .sandboxExecuted identity .. => expected == identity
  | .sandboxFile expected action, .sandboxFileApplied identity actual result =>
    expected == identity && action == actual && fileResultMatches sha256 action result command.scope
  | .sandboxArtifact expected action, .sandboxArtifactApplied identity actual result =>
    expected == identity && action == actual
      && artifactResultMatches sha256 action result command.scope
  | _, _ => false

def AgentCommandResult.validateAgainst (r : AgentCommandResult) (command : AgentCommandEnvelope) :
    Except OutcomeError Unit :=
  if r.commandId ≠ command.commandId ∨ r.operationId ≠ command.operationId
      ∨ r.hostId ≠ command.hostId ∨ r.hostEpoch ≠ command.hostEpoch
      ∨ r.controlPlaneIncarnation ≠ command.controlPlaneIncarnation
      ∨ r.authoritySessionId ≠ command.authoritySessionId ∨ r.scope ≠ command.scope then
    .error .correlation
  else if r.requestHash ≠ command.requestHash then .error .hash
  else if !scopeGenerationMatches r.scope r.generation then .error .scope
  else match r.outcome with
    | .succeeded evidence =>
      if evidenceMatches sha256 command evidence then .ok () else .error .evidence
    | _ => .ok ()

end

/-- The result an agent builds for a command (`result` in `dispatch.rs`). -/
def resultFor (envelope : AgentCommandEnvelope) (freshId : ResultId) (outcome : CommandOutcome)
    (now : Millis) : AgentCommandResult where
  resultId := freshId
  commandId := envelope.commandId
  operationId := envelope.operationId
  hostId := envelope.hostId
  hostEpoch := envelope.hostEpoch
  controlPlaneIncarnation := envelope.controlPlaneIncarnation
  authoritySessionId := envelope.authoritySessionId
  scope := envelope.scope
  generation := match envelope.scope with
    | .placement _ _ generation => some generation
    | .host => none
  requestHash := envelope.requestHash
  observedAt := now
  outcome := outcome

/-- Such a result correlates with its command, whatever the outcome: only the evidence
of a success can be wrong. -/
theorem resultFor_validateAgainst (sha256 : List UInt8 → String) (envelope : AgentCommandEnvelope)
    (freshId : ResultId) (outcome : CommandOutcome) (now : Millis)
    (h : ∀ evidence, outcome = .succeeded evidence → evidenceMatches sha256 envelope evidence) :
    (resultFor envelope freshId outcome now).validateAgainst sha256 envelope = .ok () := by
  have hscope : scopeGenerationMatches envelope.scope
      (match envelope.scope with
        | .placement _ _ generation => some generation
        | .host => none) = true := by
    cases envelope.scope <;> simp [scopeGenerationMatches]
  cases outcome with
  | succeeded evidence =>
    simp [AgentCommandResult.validateAgainst, resultFor, hscope, h evidence rfl]
  | accepted _ | running _ | failed _ _ _ | uncertain _ _ =>
    simp [AgentCommandResult.validateAgainst, resultFor, hscope]

end Gridops.Fleet
