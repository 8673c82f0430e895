import Gridops.Lib.Run
import Gridops.Fleet.Registry.Commands

/-!
# Driving and repairing placements

The reconciler's side of a placement (`fleet/placement.rs`): issuing commands sealed to the host's
current session, marking a placement as starting, ending one that was never told to start, and the
guarded state change. Then the administrator's repair of unconfirmed placements
(`registry/unconfirmed.rs`).

`registry` is the machine of all these transactions.
-/

namespace Gridops.Fleet

inductive FleetError
  | invalidRequest (reason : String) | database | invariant (reason : String)
deriving DecidableEq

/-! ## Issuing commands -/

/-- The host a command for this placement can be sealed to right now: the one it
was placed on, in the same epoch, with live work authority. -/
def Store.issuingHost (s : Store) (p : Placement) (now : Millis) :
    Option (Host × SessionId × Incarnation) :=
  match s.hosts.find p.hostId with
  | none => none
  | some h =>
    if p.hostEpoch = h.epoch ∧ h.authorityExpiresAt.any (now < ·) then
      match h.agentSessionId, h.authorityIncarnation with
      | some session, some incarnation => some (h, session, incarnation)
      | _, _ => none
    else none

def placementEnvelope (p : Placement) (h : Host) (session : SessionId) (incarnation : Incarnation)
    (id : CommandId) (operation : AgentOperation) (key : IdempotencyKey) (ttl now : Millis) :
    AgentCommandEnvelope where
  commandId := id
  operationId := p.intentId
  idempotencyKey := key
  hostId := p.hostId
  hostEpoch := h.epoch
  controlPlaneIncarnation := incarnation
  authoritySessionId := session
  scope := .placement p.id p.backendId p.generation
  expectedRevision := p.profileRevision
  issuedAt := now - commandClockSkewMillis
  deadlineAt := now + ttl
  requestHash := ""
  operation := operation

def commandRow (p : Placement) (envelope : AgentCommandEnvelope) (now : Millis) : Command where
  id := envelope.commandId
  placementId := some p.id
  hostId := p.hostId
  hostEpoch := envelope.hostEpoch
  kind := envelope.operation.databaseKind
  state := .pending
  payload := envelope
  issuedAt := now
  deadlineAt := envelope.deadlineAt
  attemptCount := 0
  idempotencyKey := envelope.idempotencyKey

namespace Store

/-- `INSERT INTO host_commands .. ON CONFLICT(host_id,idempotency_key) DO NOTHING`. The row
checks that the command has time left; a command id that is taken fails it too. -/
def insertCommand (s : Store) (c : Command) : Except FleetError (Option CommandId × Store) :=
  if s.commands.rows.any fun d => d.hostId == c.hostId && d.idempotencyKey == c.idempotencyKey then
    .ok (none, s)
  else if c.deadlineAt ≤ c.issuedAt then .error .database
  else match s.commands.insert? c with
    | none => .error .database
    | some commands => .ok (some c.id, { s with commands := commands })

def issueCommand (H : Hashing) (s : Store) (placement : PlacementId) (operation : AgentOperation)
    (key : IdempotencyKey) (ttl : Millis) (freshId : CommandId) (now : Millis) :
    Except FleetError (Option CommandId × Store) :=
  match s.placements.find placement with
  | none => .ok (none, s)
  | some p =>
    match s.issuingHost p now with
    | none => .ok (none, s)
    | some (h, session, incarnation) =>
      match (placementEnvelope p h session incarnation freshId operation key ttl now).sealHash
          H.envelope with
      | .error _ => .error (.invalidRequest "command shape")
      | .ok envelope => s.insertCommand (commandRow p envelope now)

def markStarting (s : Store) (p : PlacementId) (runner : RunnerId) (now : Millis) : Store :=
  { s with
    placements := s.placements.update (·.id == p)
      (fun x => { x with state := .starting, runnerId := some runner, updatedAt := now })
      (fun _ => rfl) }

/-- Moves a placement to `next` when no command result already did. -/
def setState (s : Store) (p : PlacementId) (current next : PlacementState) (now : Millis) : Store :=
  s.setPlacementStateWhere p (· == current) next now

def isUnstarted : PlacementState → Bool
  | .preparing | .registering | .failed => true
  | _ => false

/-- The release trigger: both absence proofs are written for the placement. -/
def releaseProven (s : Store) (p : PlacementId) : Bool :=
  s.placements.rows.any fun x =>
    x.id == p && x.localAbsenceProvenAt.isSome && x.delayedStartsExcludedAt.isSome

def isCharged (s : Store) (p : PlacementId) : Bool :=
  s.allocations.rows.any fun a => a.placementId == p && a.state != .released

def startIssued (s : Store) (p : PlacementId) : Bool :=
  s.commands.rows.any fun c => c.placementId == some p && c.kind == .startRunner

/-- Ends a placement that was never told to start and frees its capacity. -/
def abandonUnstarted (s : Store) (p : PlacementId) (now : Millis) :
    Except FleetError (Bool × Store) :=
  if s.startIssued p then .ok (false, s)
  else
    let t := (s.proveAbsent p isUnstarted now).setPlacementStateWhere p isUnstarted .failed now
    if t.isCharged p && !t.releaseProven p then .error .database
    else .ok (t.isCharged p, t.releaseAllocations p now)

def knownStarted (s : Store) (x : Placement) (h : Host) : Bool :=
  x.hostEpoch == h.epoch && s.commands.rows.any fun c =>
    c.placementId == some x.id && c.kind == .startRunner && c.state == .succeeded

def isOpenForRepair : CommandState → Bool
  | .pending | .delivered | .uncertain => true
  | _ => false

def repairCancels (p : PlacementId) (c : Command) : Bool :=
  c.placementId == some p && isOpenForRepair c.state

def cancelOpen (s : Store) (p : PlacementId) : Store :=
  { s with
    commands := s.commands.update (repairCancels p) (fun c => { c with state := .cancelled })
      (fun _ => rfl) }

def repairOne (user : UserId) (hostId : HostId) (now : Millis)
    (acc : Store × List PlacementId) (p : PlacementId) : Store × List PlacementId :=
  let (s, repaired) := acc
  match s.placements.find p, s.hosts.find hostId with
  | some x, some h =>
    if x.hostId = hostId ∧ x.state = .uncertain then
      let started := s.knownStarted x h
      let cancelled := (s.commands.rows.filter (repairCancels p)).map (·.kind)
      let s := s.cancelOpen p
      let s := if started then s else (s.eraseBootstrap p now).release p now
      let s := s.setPlacementState p (if started then .running else .failed) now
      (s.auditAndEvent ⟨some user, some hostId, p,
        .placementRepaired (if started then .reinspect else .release) cancelled, now⟩,
        repaired ++ [p])
    else acc
  | _, _ => acc

def repairUnconfirmed (s : Store) (user : UserId) (hostId : HostId)
    (placements : List PlacementId) (now : Millis) : Store × List PlacementId :=
  placements.foldl (repairOne user hostId now) (s, [])

end Store

/-! ## The registry as a machine -/

/-- One call of a registry or reconciler transaction, with the arguments, the time
and the fresh identifier it runs with. -/
inductive Op
  | poll (auth : AuthenticatedHost) (session : SessionId) (now : Millis)
  | record (auth : AuthenticatedHost) (result : AgentCommandResult) (now : Millis)
  | settle (host : HostId) (epoch : Nat) (session : SessionId) (now : Millis)
  | repair (user : UserId) (host : HostId) (placements : List PlacementId) (now : Millis)
  | abandon (placement : PlacementId) (now : Millis)
  | issue (placement : PlacementId) (operation : AgentOperation) (key : IdempotencyKey)
      (ttl : Millis) (freshId : CommandId) (now : Millis)
  | markStarting (placement : PlacementId) (runner : RunnerId) (now : Millis)
  | setState (placement : PlacementId) (current next : PlacementState) (now : Millis)
deriving DecidableEq

/-- The store a transaction commits; one that fails is rolled back. -/
def committed {ε α : Type} (s : Store) : Except ε (α × Store) → Store
  | .ok (_, t) => t
  | .error _ => s

def Store.exec (H : Hashing) (s : Store) : Op → Store
  | .poll auth session now => committed s (s.pollCommands auth session now)
  | .record auth result now => committed s (s.recordCommandResult H auth result now)
  | .settle host epoch session now => s.settleUnreceived host epoch session now
  | .repair user host placements now => (s.repairUnconfirmed user host placements now).1
  | .abandon p now => committed s (s.abandonUnstarted p now)
  | .issue p operation key ttl freshId now =>
    committed s (s.issueCommand H p operation key ttl freshId now)
  | .markStarting p runner now => s.markStarting p runner now
  | .setState p current next now => s.setState p current next now

def registry (H : Hashing) : Lib.Machine Store Op := ⟨fun s op => some (s.exec H op)⟩

theorem registry_run (H : Hashing) (s : Store) (ops : List Op) :
    (registry H).Run s ops (ops.foldl (Store.exec H) s) := by
  induction ops generalizing s with
  | nil => exact .nil s
  | cons op ops ih => exact .cons trivial rfl (ih _)

/-! ## A small fleet

One approved host with live work authority and one admitted placement, on which
the runs below are evaluated. -/

namespace Sample

def hashing : Hashing where
  envelope _ := "sealed"
  bytes _ := "bytes"
  result r := match r.resultId with
    | 0 => "r0"
    | 1 => "r1"
    | 2 => "r2"
    | _ => "r"
  secret s := s

def auth : AuthenticatedHost := ⟨1, 1, 1, 1⟩

def host : Host where
  id := 1
  epoch := 1
  enrollmentState := .approved
  lifecycleState := .active
  integrityState := .verified
  bootId := some "boot"
  agentSessionId := some 10
  authorityIncarnation := some 7
  authorityExpiresAt := some 1000000
  currentCredentialGeneration := some 1

def request : ResourceRequest := ⟨1000, 1024, 0⟩

def placement : Placement where
  id := 1
  intentId := 1
  generation := 1
  hostId := 1
  backendId := 1
  hostEpoch := 1
  profileRevision := 1
  request := request
  state := .preparing
  runnerId := none
  updatedAt := 0
  localAbsenceProvenAt := none
  delayedStartsExcludedAt := none

def store : Store :=
  { Store.empty with
    controlPlane := some ⟨7, 1, 1⟩
    hosts := ⟨[host], by decide⟩
    credentials := ⟨[⟨1, 1, 1, 1, "secret", none, none, none⟩], by decide⟩
    domains := ⟨[⟨1, 1, none, ⟨4000, 8192, 0⟩⟩], by decide⟩
    placements := ⟨[placement], by decide⟩
    allocations := ⟨[⟨1, 1, 1, 1, request, .reserved, 0, none⟩], by decide⟩ }

def runner : LocalResourceIdentity := .docker "runner"

def prepare : PrepareEnvironment where
  executionProfileId := 1
  profileRevision := 1
  workload := .ciRunner
  target := .githubRepository 1 1
  runtimeKind := .docker
  executionOs := .linux
  architecture := .x64
  mode := .ephemeral
  image := "runner"
  labels := []
  configuration := {}
  resourceRequest := request
  allocationIds := [1]

def start : AgentOperation :=
  .startRunner ⟨1, 1, 1, 1, 600000, request, [1]⟩

def started : CommandOutcome := .succeeded (.runnerStarted 1 1 1 runner)

def cleaned : CommandOutcome :=
  .succeeded (.cleaned runner ⟨runner, 0, ⟨0, .runtime⟩⟩ ⟨runner, 0, ⟨0, .runtime⟩⟩)

def envelope (id : CommandId) (operation : AgentOperation) (key : IdempotencyKey)
    (ttl now : Millis) : AgentCommandEnvelope :=
  { placementEnvelope placement host 10 7 id operation key ttl now with requestHash := "sealed" }

def answer (id : CommandId) (operation : AgentOperation) (key : IdempotencyKey)
    (ttl now : Millis) (freshId : ResultId) (outcome : CommandOutcome) : AgentCommandResult :=
  resultFor (envelope id operation key ttl now) freshId outcome now

end Sample

end Gridops.Fleet
