import Gridops.Lib.Table
import Gridops.Fleet.Protocol.Outcomes

/-!
# The control plane's tables

The rows the fleet registry, admission and the reconciler share, as migrations 0022 to 0028 define
them. A transaction is a function from one `Store` to the next that fails without a store: the code
opens each with `BEGIN IMMEDIATE`, so transactions are serial, and one that returns an error is
rolled back.

Rows stand in insertion order, which is the order of the autoincrement cursors. Columns that no
modelled function reads are left out.
-/

namespace Gridops.Fleet

open Gridops.Lib

abbrev UserId := Nat
abbrev DomainId := Nat
abbrev CredentialId := Nat
abbrev RotationId := Nat
abbrev IntentId := Nat
abbrev RunnerId := Nat
abbrev Secret := String
abbrev Verifier := String

/-- The hash functions the code uses: of a sealed envelope, of transferred
bytes, of an encoded result and of a secret. -/
structure Hashing where
  envelope : AgentCommandEnvelope → String
  bytes : List UInt8 → String
  result : AgentCommandResult → String
  secret : Secret → Verifier

/-! ## Hosts, credentials and observation sessions -/

inductive EnrollmentState
  | pending | approved | revoked
deriving DecidableEq

inductive LifecycleState
  | active | paused | draining | maintenance | retired
deriving DecidableEq

inductive IntegrityState
  | unverified | verified | quarantined
deriving DecidableEq

structure Host where
  id : HostId
  epoch : Nat
  enrollmentState : EnrollmentState
  lifecycleState : LifecycleState
  integrityState : IntegrityState
  bootId : Option String
  agentSessionId : Option SessionId
  authorityIncarnation : Option Incarnation
  authorityExpiresAt : Option Millis
  currentCredentialGeneration : Option Nat
deriving DecidableEq

structure ControlPlane where
  incarnation : Incarnation
  protocolMin : Nat
  protocolMax : Nat
deriving DecidableEq

structure Credential where
  id : CredentialId
  hostId : HostId
  hostEpoch : Nat
  generation : Nat
  verifier : Verifier
  overlapExpiresAt : Option Millis
  acknowledgedAt : Option Millis
  revokedAt : Option Millis
deriving DecidableEq

inductive RotationPhase
  | requested | exchanged | acknowledged | revoked
deriving DecidableEq

structure Rotation where
  id : RotationId
  hostId : HostId
  oldCredentialId : CredentialId
  oldGeneration : Nat
  oldHostEpoch : Nat
  nextGeneration : Nat
  idempotencyKey : String
  requestedBy : UserId
  requestedGeneration : Nat
  phase : RotationPhase
  proposedVerifier : Option Verifier
  expiresAt : Millis
  exchangedAt : Option Millis
  overlapExpiresAt : Option Millis
  acknowledgedAt : Option Millis
  revokedAt : Option Millis
deriving DecidableEq

inductive ObservationState
  | observing | reconciling | ready | conflicted
deriving DecidableEq

structure ObservationSession where
  sessionId : SessionId
  hostId : HostId
  hostEpoch : Nat
  bootId : String
  incarnation : Incarnation
  currentCredentialId : CredentialId
  currentCredentialGeneration : Nat
  initialBodyDigest : String
  state : ObservationState
  endedAt : Option Millis
  leaseExpiresAt : Millis
  handshakeReceivedAt : Millis
deriving DecidableEq

structure AuthenticatedHost where
  hostId : HostId
  credentialId : CredentialId
  generation : Nat
  epoch : Nat
deriving DecidableEq

/-! ## Placements and their capacity -/

inductive PlacementState
  | reserved | preparing | registering | starting | running | draining | stopping | stopped
  | cleaned | retryable | failed | uncertain
deriving DecidableEq

structure Placement where
  id : PlacementId
  intentId : IntentId
  generation : Nat
  hostId : HostId
  backendId : BackendId
  hostEpoch : Nat
  profileRevision : Nat
  request : ResourceRequest
  state : PlacementState
  runnerId : Option RunnerId
  updatedAt : Millis
  localAbsenceProvenAt : Option Millis
  delayedStartsExcludedAt : Option Millis
deriving DecidableEq

inductive AllocationState
  | reserved | committed | releasing | uncertain | released
deriving DecidableEq

structure Allocation where
  id : AllocationId
  placementId : PlacementId
  hostId : HostId
  domainId : DomainId
  amount : ResourceRequest
  state : AllocationState
  updatedAt : Millis
  releasedAt : Option Millis
deriving DecidableEq

structure ResourceDomain where
  id : DomainId
  hostId : HostId
  parentDomainId : Option DomainId
  budget : ResourceRequest
deriving DecidableEq

/-! ## Commands and results -/

inductive CommandState
  | pending | delivered | accepted | running | succeeded | failed | uncertain | cancelled
deriving DecidableEq

/-- A row of `host_commands`; `payload` is the envelope in `payload_json`. -/
structure Command where
  id : CommandId
  placementId : Option PlacementId
  hostId : HostId
  hostEpoch : Nat
  kind : CommandKind
  state : CommandState
  payload : AgentCommandEnvelope
  issuedAt : Millis
  deadlineAt : Millis
  attemptCount : Nat
  idempotencyKey : IdempotencyKey
deriving DecidableEq

structure CommandAttempt where
  commandId : CommandId
  attempt : Nat
  state : CommandState
  recordedAt : Millis
deriving DecidableEq

inductive ResultDisposition
  | applied | stale
deriving DecidableEq

structure CommandResult where
  id : ResultId
  commandId : CommandId
  resultHash : String
  disposition : ResultDisposition
  result : AgentCommandResult
  receivedAt : Millis
deriving DecidableEq

structure BootstrapMaterial where
  reference : BootstrapReference
  placementId : PlacementId
  hostId : HostId
  sealed : Option String
  expiresAt : Millis
  claimedAt : Option Millis
  erasedAt : Option Millis
deriving DecidableEq

inductive Repair
  | reinspect | release
deriving DecidableEq

/-- What `audit_and_event` records: the action and its metadata. -/
inductive AuditAction
  | commandResult (kind : CommandKind) (state : CommandState)
  | commandUnreceived (kind : CommandKind)
  | placementRepaired (repair : Repair) (cancelled : List CommandKind)
  | sessionConflict (session : SessionId)
  | sessionEstablished (session : SessionId)
  | sessionCredentialAdvanced (session : SessionId) (generation : Nat)
  | rotationRequested (operation : RotationId) (oldGeneration nextGeneration : Nat)
  | rotationExchanged (operation : RotationId) (generation : Nat) (overlapExpiresAt : Millis)
  | rotationAcknowledged (operation : RotationId) (generation : Nat)
  | rotationExpired
deriving DecidableEq

structure AuditEvent where
  actor : Option UserId
  hostId : Option HostId
  target : Nat
  action : AuditAction
  recordedAt : Millis
deriving DecidableEq

/-! ## The store -/

inductive RegistryError
  | invalidCredential | notFound | forbidden | invalidRequest (reason : String) | database
  | staleGeneration | rotationConflict | rotationGone | idempotencyConflict | credential
deriving DecidableEq

structure Store where
  controlPlane : Option ControlPlane
  hosts : Table Host.id
  credentials : Table Credential.id
  rotations : Table Rotation.id
  sessions : Table ObservationSession.sessionId
  domains : Table ResourceDomain.id
  placements : Table Placement.id
  allocations : Table Allocation.id
  commands : Table Command.id
  attempts : Table fun a : CommandAttempt => (a.commandId, a.attempt)
  results : Table CommandResult.id
  bootstrap : Table BootstrapMaterial.reference
  events : List AuditEvent
deriving DecidableEq

namespace Store

def empty : Store where
  controlPlane := none
  hosts := .empty
  credentials := .empty
  rotations := .empty
  sessions := .empty
  domains := .empty
  placements := .empty
  allocations := .empty
  commands := .empty
  attempts := .empty
  results := .empty
  bootstrap := .empty
  events := []

def auditAndEvent (s : Store) (e : AuditEvent) : Store := { s with events := s.events ++ [e] }

def ensureAuthenticatedGeneration (s : Store) (auth : AuthenticatedHost) (now : Millis) :
    Except RegistryError Unit :=
  let live := s.credentials.rows.filter fun c =>
    c.id == auth.credentialId && c.hostId == auth.hostId && c.generation == auth.generation
      && c.hostEpoch == auth.epoch && c.revokedAt.isNone
      && c.overlapExpiresAt.all (now < ·)
      && s.hosts.rows.any fun h => h.id == c.hostId && h.epoch == auth.epoch
          && h.enrollmentState != .revoked && h.lifecycleState != .retired
  if live.length = 1 then .ok () else .error .invalidCredential

end Store

end Gridops.Fleet
