import Mathlib

/-!
# Agent command envelopes

The command the control plane seals for one host session, the operations it can
carry, and the checks both sides make on it (`protocol/agent.rs`). Identifiers
are UUIDs, which the code only ever compares, so they are numbers here; the hash
of an envelope is a parameter `digest`, because nothing modelled looks inside
SHA-256.
-/

namespace Gridops.Fleet

abbrev Millis := Int

abbrev HostId := Nat
abbrev SessionId := Nat
abbrev CommandId := Nat
abbrev OperationId := Nat
abbrev PlacementId := Nat
abbrev BackendId := Nat
abbrev AllocationId := Nat
abbrev EnvironmentId := Nat
abbrev ProfileId := Nat
abbrev Incarnation := Nat
abbrev BootstrapReference := Nat
abbrev ArtifactId := Nat
abbrev ReleaseManifestId := Nat

/-! ## Operations -/

inductive RunnerMode
  | ephemeral | persistent
deriving DecidableEq

inductive PreparedWorkload
  | ciRunner | fixSandbox
deriving DecidableEq

inductive RuntimeKind
  | docker | tartVm | nativeProcess
deriving DecidableEq

inductive ExecutionOs
  | linux | macos | windows
deriving DecidableEq

inductive Architecture
  | x64 | arm64
deriving DecidableEq

inductive CiTarget
  | githubRepository (installationId repositoryId : Nat)
  | githubOrganization (installationId organizationId : Nat)
  | bitbucketWorkspace (connectionId : String) (workspaceUuid : Nat)
  | bitbucketRepository (connectionId : String) (workspaceUuid repositoryUuid : Nat)
deriving DecidableEq

def CiTarget.isGithub : CiTarget → Bool
  | .githubRepository .. | .githubOrganization .. => true
  | _ => false

def CiTarget.isBitbucket (t : CiTarget) : Bool := !t.isGithub

def CiTarget.isGithubRepository : CiTarget → Bool
  | .githubRepository .. => true
  | _ => false

structure ResourceRequest where
  cpuMillis : Nat
  memoryMib : Nat
  diskBytes : Nat
deriving DecidableEq

structure ExecutionConfiguration where
  network : Option String := none
  sessionId : Option Nat := none
  requiresInteractive : Bool := false
  requiresDockerSocket : Bool := false
deriving DecidableEq

structure PrepareEnvironment where
  executionProfileId : ProfileId
  profileRevision : Nat
  workload : PreparedWorkload
  target : CiTarget
  runtimeKind : RuntimeKind
  executionOs : ExecutionOs
  architecture : Architecture
  mode : RunnerMode
  image : String
  labels : List String
  configuration : ExecutionConfiguration
  resourceRequest : ResourceRequest
  allocationIds : List AllocationId
deriving DecidableEq

inductive LocalResourceIdentity
  | docker (objectId : String)
  | tartVm (name : String)
  | nativeProcess (bootId : String) (processId : Nat) (startMarker : String)
deriving DecidableEq

def LocalResourceIdentity.isDocker : LocalResourceIdentity → Bool
  | .docker _ => true
  | _ => false

structure StartRunner where
  preparedEnvironmentId : EnvironmentId
  executionProfileId : ProfileId
  profileRevision : Nat
  bootstrapReference : BootstrapReference
  bootstrapExpiresAt : Millis
  resourceRequest : ResourceRequest
  allocationIds : List AllocationId
deriving DecidableEq

inductive StopMode
  | idleOnly | cancelBusy
deriving DecidableEq

inductive SandboxFileAction
  | read (path : String) (offset maxBytes : Nat)
  | write (path : String) (artifactId : ArtifactId) (expectedLength : Nat) (sha256 : String)
deriving DecidableEq

inductive SandboxArtifactAction
  | publish (path : String) (artifactId : ArtifactId)
  | fetch (artifactId : ArtifactId) (offset maxBytes : Nat)
deriving DecidableEq

inductive AgentOperation
  | prepareEnvironment (prepare : PrepareEnvironment)
  | startRunner (start : StartRunner)
  | inspectHost
  | drainHost
  | inspect (expectedResource : LocalResourceIdentity)
  | drain (expectedResource : LocalResourceIdentity)
  | stop (expectedResource : LocalResourceIdentity) (mode : StopMode)
  | cleanup (expectedResource : LocalResourceIdentity)
  | upgradeAgent (signedManifestReference : ReleaseManifestId)
      (expectedVersion currentVersion : String) (drainOperationId : OperationId)
  | executeSandbox (expectedResource : LocalResourceIdentity) (program : String)
      (argv : List String) (workingDirectory : Option String) (timeoutMs outputLimitBytes : Nat)
  | sandboxFile (expectedResource : LocalResourceIdentity) (action : SandboxFileAction)
  | sandboxArtifact (expectedResource : LocalResourceIdentity) (action : SandboxArtifactAction)
deriving DecidableEq

inductive CommandKind
  | prepareEnvironment | startRunner | inspect | drain | stop | cleanup | upgradeAgent
  | executeSandbox | sandboxFile | sandboxArtifact
deriving DecidableEq

def AgentOperation.databaseKind : AgentOperation → CommandKind
  | .prepareEnvironment _ => .prepareEnvironment
  | .startRunner _ => .startRunner
  | .inspectHost | .inspect _ => .inspect
  | .drainHost | .drain _ => .drain
  | .stop .. => .stop
  | .cleanup _ => .cleanup
  | .upgradeAgent .. => .upgradeAgent
  | .executeSandbox .. => .executeSandbox
  | .sandboxFile .. => .sandboxFile
  | .sandboxArtifact .. => .sandboxArtifact

inductive CommandScope
  | host
  | placement (placementId : PlacementId) (backendId : BackendId) (generation : Nat)
deriving DecidableEq

def CommandScope.placementId : CommandScope → Option PlacementId
  | .host => none
  | .placement p _ _ => some p

inductive CommandError
  | authority | scope | configuration | deadline | hash | serialization
deriving DecidableEq

def maxResourceDomainDepth : Nat := 64

def checkAllocations (ids : List AllocationId) : Except CommandError Unit :=
  if ids.isEmpty ∨ ids.length > maxResourceDomainDepth ∨ ids.dedup.length ≠ ids.length then
    .error .configuration
  else .ok ()

/-- The combinations `PrepareEnvironment` refuses. -/
def PrepareEnvironment.inconsistent (p : PrepareEnvironment) (revision : Nat) : Bool :=
  p.profileRevision != revision
    || p.labels.length > 100
    || p.configuration.requiresInteractive != p.configuration.sessionId.isSome
    || (p.workload == .fixSandbox
        && (p.runtimeKind != .docker || p.executionOs != .linux || !p.target.isGithubRepository))
    || (p.runtimeKind == .docker && p.executionOs != .linux)
    || (p.runtimeKind == .tartVm && (p.executionOs != .macos || p.architecture != .arm64))
    || (p.target.isBitbucket && p.mode != .persistent)
    || (p.target.isGithub && p.runtimeKind == .tartVm && p.mode != .ephemeral)
    || (p.target.isBitbucket && p.executionOs == .windows && p.architecture == .arm64)

def AgentOperation.isHostOperation : AgentOperation → Bool
  | .inspectHost | .drainHost | .upgradeAgent .. => true
  | _ => false

def AgentOperation.check (op : AgentOperation) (scope : CommandScope) (revision : Nat) :
    Except CommandError Unit :=
  if op.isHostOperation ≠ (scope == .host) then .error .scope
  else match op with
    | .prepareEnvironment p => do
      checkAllocations p.allocationIds
      if p.inconsistent revision then .error .configuration else .ok ()
    | .startRunner s => do
      checkAllocations s.allocationIds
      if s.profileRevision ≠ revision then .error .configuration else .ok ()
    | .executeSandbox expected _ argv _ _ _ =>
      if !expected.isDocker ∨ argv.length > 128 ∨ (argv.map (·.utf8ByteSize)).sum > 65536 then
        .error .configuration
      else .ok ()
    | .sandboxFile expected _ | .sandboxArtifact expected _ =>
      if !expected.isDocker then .error .configuration else .ok ()
    | _ => .ok ()

/-- The keys commands are issued under (`start:p`, `cleanup:p:minute`); `other` is any further text.
-/
inductive IdempotencyKey
  | prepare (p : PlacementId)
  | start (p : PlacementId)
  | cleanup (p : PlacementId) (minute : Int)
  | inspect (p : PlacementId) (bucket : Int)
  | other (text : String)
deriving DecidableEq

structure AgentCommandEnvelope where
  protocolVersion : Nat := 1
  commandId : CommandId
  operationId : OperationId
  idempotencyKey : IdempotencyKey
  hostId : HostId
  hostEpoch : Nat
  controlPlaneIncarnation : Incarnation
  authoritySessionId : SessionId
  scope : CommandScope
  expectedRevision : Nat
  issuedAt : Millis
  deadlineAt : Millis
  requestHash : String
  operation : AgentOperation
deriving DecidableEq

structure ExpectedAgentSession where
  hostId : HostId
  hostEpoch : Nat
  controlPlaneIncarnation : Incarnation
  authoritySessionId : SessionId
  authorityExpiresAt : Millis
deriving DecidableEq

def commandClockSkewMillis : Millis := 5000

namespace AgentCommandEnvelope

def durationCap (c : AgentCommandEnvelope) : Millis :=
  match c.operation with
  | .startRunner _ => 60000
  | _ => 3600000

def checkShape (c : AgentCommandEnvelope) : Except CommandError Unit := do
  c.operation.check c.scope c.expectedRevision
  let duration := c.deadlineAt - c.issuedAt
  if duration ≤ 0 ∨ duration > c.durationCap then .error .deadline
  else match c.operation with
    | .startRunner s => if c.deadlineAt > s.bootstrapExpiresAt then .error .deadline else .ok ()
    | _ => .ok ()

variable (digest : AgentCommandEnvelope → String)

variable (c : AgentCommandEnvelope)

def canonicalHash : String := digest { c with requestHash := "" }

def sealHash : Except CommandError AgentCommandEnvelope := do
  c.checkShape
  return { c with requestHash := c.canonicalHash digest }

/-- Everything `validateAgainst` checks except time. -/
def validateBinding (session : ExpectedAgentSession) :
    Except CommandError Unit := do
  c.checkShape
  if c.hostId ≠ session.hostId ∨ c.hostEpoch ≠ session.hostEpoch
      ∨ c.controlPlaneIncarnation ≠ session.controlPlaneIncarnation
      ∨ c.authoritySessionId ≠ session.authoritySessionId then .error .authority
  else if c.requestHash ≠ c.canonicalHash digest then .error .hash
  else .ok ()

def validateAgainst (session : ExpectedAgentSession) (now : Millis) :
    Except CommandError Unit := do
  c.validateBinding digest session
  if now < c.issuedAt ∨ now ≥ c.deadlineAt ∨ now ≥ session.authorityExpiresAt then .error .deadline
  else match c.operation with
    | .startRunner _ =>
      if c.deadlineAt > session.authorityExpiresAt then .error .deadline else .ok ()
    | _ => .ok ()

theorem validateBinding_ok {c : AgentCommandEnvelope} {session : ExpectedAgentSession}
    (h : c.validateBinding digest session = .ok ()) :
    c.hostId = session.hostId ∧ c.authoritySessionId = session.authoritySessionId ∧
      c.requestHash = c.canonicalHash digest := by
  unfold validateBinding at h
  cases hshape : c.checkShape with
  | error e => simp [hshape, bind, Except.bind] at h
  | ok _ =>
    simp only [hshape] at h
    split at h
    · cases h
    · next hsession =>
      split at h
      · cases h
      · next hhash =>
        push Not at hsession hhash
        exact ⟨hsession.1, hsession.2.2.2, hhash⟩

end AgentCommandEnvelope

end Gridops.Fleet
