import Gridops.Fleet.Store

/-!
# Command delivery and result intake

`registry/commands.rs`: an agent polls for the oldest command it may run now,
commands that can no longer be delivered are cancelled on the way, results are
recorded once by hash and move the placement forward, and a handshake settles
commands that a reconnecting agent never received.

The single-statement writes come first; each transaction is then written with
them in the order of the source.
-/

namespace Gridops.Fleet

def redeliveryMillis : Millis := 60000
def deliveryMarginMillis : Millis := 5000
def maxAttempts : Nat := 10

/-- Prepare and start are the commands whose failure means that nothing exists. -/
def CommandKind.creates : CommandKind → Bool
  | .prepareEnvironment | .startRunner => true
  | _ => false

/-- States in which a result is only kept, as `stale`. -/
def CommandState.isTerminal : CommandState → Bool
  | .succeeded | .failed | .uncertain | .cancelled => true
  | _ => false

def CommandOutcome.commandState : CommandOutcome → CommandState
  | .accepted _ => .accepted
  | .running _ => .running
  | .succeeded _ => .succeeded
  | .failed .. => .failed
  | .uncertain .. => .uncertain

variable (s : Store)

namespace Store

/-! ## Single statements -/

def setCommandState (id : CommandId) (next : CommandState) : Store :=
  { s with
    commands := s.commands.update (·.id == id) (fun c => { c with state := next })
      (fun _ => rfl) }

/-- `UPDATE workload_placements SET state=next WHERE id=p AND state IN allowed`. -/
def setPlacementStateWhere (p : PlacementId) (allowed : PlacementState → Bool)
    (next : PlacementState) (now : Millis) : Store :=
  { s with
    placements := s.placements.update (fun x => x.id == p && allowed x.state)
      (fun x => { x with state := next, updatedAt := now }) (fun _ => rfl) }

def setPlacementState (p : PlacementId) (next : PlacementState) (now : Millis) : Store :=
  s.setPlacementStateWhere p (fun _ => true) next now

/-- Registration material is single-use: once a start resolves it is erased. -/
def eraseBootstrap (p : PlacementId) (now : Millis) : Store :=
  { s with
    bootstrap := s.bootstrap.update (fun b => b.placementId == p && b.erasedAt.isNone)
      (fun b => { b with sealed := none, erasedAt := some now }) (fun _ => rfl) }

def proveAbsent (p : PlacementId) (allowed : PlacementState → Bool) (now : Millis) :
    Store :=
  { s with
    placements := s.placements.update (fun x => x.id == p && allowed x.state)
      (fun x => { x with
        localAbsenceProvenAt := x.localAbsenceProvenAt.or (some now)
        delayedStartsExcludedAt := x.delayedStartsExcludedAt.or (some now)
        updatedAt := now }) (fun _ => rfl) }

/-- `UPDATE capacity_allocations SET state='released' WHERE placement_id=p AND state!='released'`.
-/
def releaseAllocations (p : PlacementId) (now : Millis) : Store :=
  { s with
    allocations := s.allocations.update
      (fun a => a.placementId == p && a.state != .released)
      (fun a => { a with state := .released, releasedAt := some now, updatedAt := now })
      (fun _ => rfl) }

/-- Nothing of this placement exists on the host; its capacity is freed once the proofs are written.
-/
def release (p : PlacementId) (now : Millis) : Store :=
  (s.proveAbsent p (fun _ => true) now).releaseAllocations p now

def commitAllocations (p : PlacementId) (now : Millis) : Store :=
  { s with
    allocations := s.allocations.update
      (fun a => a.placementId == p && a.state == .reserved)
      (fun a => { a with state := .committed, updatedAt := now }) (fun _ => rfl) }

def placementIsUncertain (p : PlacementId) : Bool :=
  s.placements.rows.any fun x => x.id == p && x.state == .uncertain

/-- Some command that could have changed the placement's workload is unanswered. -/
def unsettled (p : PlacementId) : Bool :=
  s.commands.rows.any fun c => c.placementId == some p && c.state == .uncertain
    && c.kind != .inspect

def keepUncertainWhileUnsettled (p : PlacementId) (now : Millis) : Store :=
  s.setPlacementStateWhere p (fun st => st != .uncertain && s.unsettled p) .uncertain now

/-! ## Results -/

def applyToPlacement (p : PlacementId) (kind : CommandKind) (outcome : CommandOutcome)
    (now : Millis) : Store :=
  let s := if kind = .startRunner ∧ !outcome.isProgress then s.eraseBootstrap p now else s
  match outcome, kind with
  | .accepted _, _ | .running _, _ => s
  | .succeeded _, .prepareEnvironment => s.setPlacementState p .registering now
  | .succeeded _, .startRunner => (s.commitAllocations p now).setPlacementState p .running now
  | .succeeded _, .stop => s.setPlacementState p .stopped now
  | .succeeded evidence, .cleanup =>
    if evidence.isCleaned then (s.release p now).setPlacementState p .cleaned now else s
  | .succeeded _, _ => s
  | .failed .., .prepareEnvironment | .failed .., .startRunner =>
    (s.release p now).setPlacementState p .failed now
  | .failed .., _ => s
  | .uncertain .., .prepareEnvironment => (s.release p now).setPlacementState p .failed now
  | .uncertain .., .inspect => s
  | .uncertain .., _ => s.setPlacementState p .uncertain now

/-- A command that went uncertain without any applied result still waits for one. -/
def isLate (c : Command) : Bool :=
  c.state == .uncertain
    && !s.results.rows.any fun r => r.commandId == c.id && r.disposition == .applied

def isClosed (c : Command) : Bool := !s.isLate c && c.state.isTerminal

def recordAttempt (c : Command) (state : CommandState) (now : Millis) : Store :=
  { s with
    attempts := s.attempts.upsert ⟨c.id, max c.attemptCount 1, state, now⟩
      (fun a => { a with state := state, recordedAt := now }) (fun _ => rfl) }

def applyResult (c : Command) (late : Bool) (outcome : CommandOutcome) (now : Millis) :
    Store :=
  match c.placementId with
  | none => s
  | some p =>
    if !late then s.applyToPlacement p c.kind outcome now
    -- Only a placement still waiting on this answer moves.
    else if s.placementIsUncertain p then
      (s.applyToPlacement p c.kind outcome now).keepUncertainWhileUnsettled p now
    else s

/-- Everything an applied result writes besides its own row. -/
def settleCommand (c : Command) (hostId : HostId) (late : Bool) (outcome : CommandOutcome)
    (now : Millis) : Store :=
  let next := outcome.commandState
  let s := (s.setCommandState c.id next).recordAttempt c next now
  (s.applyResult c late outcome now).auditAndEvent
    ⟨none, some hostId, c.id, .commandResult c.kind next, now⟩

section

variable (H : Hashing)

def recorded (s : Store) (result : AgentCommandResult) : Option CommandResult :=
  s.results.rows.find? fun r => r.commandId == result.commandId && r.resultHash == H.result result

def recordCommandResult (s : Store) (auth : AuthenticatedHost) (result : AgentCommandResult)
    (now : Millis) : Except RegistryError (ResultDisposition × Store) := do
  s.ensureAuthenticatedGeneration auth now
  match (s.commands.find result.commandId).filter (·.hostId == auth.hostId) with
  | none => .error .notFound
  | some c =>
    match result.validateAgainst H.bytes c.payload with
    | .error _ => .error (.invalidRequest "result does not match its command")
    | .ok () =>
      match s.recorded H result with
      | some row => .ok (row.disposition, s)
      | none =>
        let disposition := if s.isClosed c then ResultDisposition.stale else .applied
        match s.results.insert? ⟨result.resultId, result.commandId, H.result result, disposition,
            result, now⟩ with
        | none => .error .database
        | some results =>
          let t := { s with results := results }
          .ok (disposition,
            if s.isClosed c then t
            else t.settleCommand c auth.hostId (s.isLate c) result.outcome now)

variable (s : Store)

end

def unreceived (hostId : HostId) (epoch : Nat) (session : SessionId) : List Command :=
  s.commands.rows.filter fun c =>
    c.hostId == hostId && c.hostEpoch == epoch
      && (c.state == .delivered || c.state == .uncertain)
      && c.payload.authoritySessionId != session
      && !s.results.rows.any fun r => r.commandId == c.id

/-- The states in which an unreceived prepare or start fails its placement. -/
def awaitsCreation : PlacementState → Bool
  | .preparing | .registering | .starting | .uncertain => true
  | _ => false

/-- The placement half of an unreceived command: a prepare or start that never
arrived created nothing. -/
def losePlacement (now : Millis) (s : Store) (c : Command) : Store :=
  match c.placementId with
  | none => s
  | some p =>
    if c.kind.creates then
      ((s.eraseBootstrap p now).release p now).setPlacementStateWhere p awaitsCreation .failed now
    else s

def settleRow (hostId : HostId) (now : Millis) (s : Store) (c : Command) : Store :=
  losePlacement now ((s.setCommandState c.id .cancelled).auditAndEvent
    ⟨none, some hostId, c.id, .commandUnreceived c.kind, now⟩) c

/-- The placement of a settled command that may have left it uncertain. An
unanswered inspect never did. -/
def touchedBy (c : Command) : Option PlacementId :=
  if c.kind.creates || c.kind == .inspect then none else c.placementId

def resumeTouched (now : Millis) (s : Store) (p : PlacementId) : Store :=
  (s.setPlacementStateWhere p (· == .uncertain) .running now).keepUncertainWhileUnsettled p now

def settleUnreceived (hostId : HostId) (epoch : Nat) (session : SessionId) (now : Millis) : Store :=
  let rows := s.unreceived hostId epoch session
  (rows.filterMap touchedBy).foldl (resumeTouched now) (rows.foldl (settleRow hostId now) s)

/-- The command is out of time for its state, or its session ended before it left
the outbox. -/
def Command.undeliverable (c : Command) (h : Host) (now : Millis) : Bool :=
  (c.state == .delivered && c.deadlineAt ≤ now)
    || (c.state == .pending && (c.deadlineAt ≤ now + deliveryMarginMillis
        || h.agentSessionId.isNone || some c.payload.authoritySessionId != h.agentSessionId
        || c.hostEpoch != h.epoch))

def undeliverable (hostId : HostId) (now : Millis) : List Command :=
  match s.hosts.find hostId with
  | none => []
  | some h => s.commands.rows.filter fun c => c.hostId == hostId && Command.undeliverable c h now

/-- A delivered command past its deadline is uncertain, because the agent may have
acted on it; a pending one never left the outbox. -/
def expiredState (c : Command) : CommandState :=
  if c.state == .delivered then .uncertain else .cancelled

def expirePlacement (now : Millis) (s : Store) (c : Command) : Store :=
  match c.placementId with
  | none => s
  | some p =>
    if c.state == .delivered && c.kind == .inspect then s
    else if c.state == .delivered && c.kind != .prepareEnvironment then
      s.setPlacementState p .uncertain now
    else if c.kind.creates then
      ((s.eraseBootstrap p now).release p now).setPlacementState p .failed now
    else s

def cancelRow (now : Millis) (s : Store) (c : Command) : Store :=
  expirePlacement now (s.setCommandState c.id (expiredState c)) c

def cancelUndeliverable (hostId : HostId) (now : Millis) : Store :=
  (s.undeliverable hostId now).foldl (cancelRow now) s

def authorized (hostId : HostId) (session : SessionId) (now : Millis) : Bool :=
  (s.hosts.find hostId).any fun h =>
    h.agentSessionId == some session && h.authorityExpiresAt.any (now < ·)

def deliverable (hostId : HostId) (session : SessionId) (now : Millis) (c : Command) :
    Bool :=
  c.hostId == hostId && now + deliveryMarginMillis < c.deadlineAt
    && c.payload.authoritySessionId == session
    && (c.state == .pending
      || (c.state == .delivered && c.attemptCount < maxAttempts
        && !s.attempts.rows.any fun a =>
            a.commandId == c.id && now - redeliveryMillis < a.recordedAt))

def markDelivered (c : Command) : Store :=
  { s with
    commands := s.commands.update (·.id == c.id)
      (fun d => { d with state := .delivered, attemptCount := c.attemptCount + 1 })
      (fun _ => rfl) }

def deliver (c : Command) (now : Millis) :
    Except RegistryError (List AgentCommandEnvelope × Store) :=
  match s.attempts.insert? ⟨c.id, c.attemptCount + 1, .delivered, now⟩ with
  | none => .error .database
  | some attempts => .ok ([c.payload], { s.markDelivered c with attempts := attempts })

def pollCommands (auth : AuthenticatedHost) (session : SessionId) (now : Millis) :
    Except RegistryError (List AgentCommandEnvelope × Store) := do
  s.ensureAuthenticatedGeneration auth now
  if !s.commands.rows.any fun c => c.hostId == auth.hostId
      && (c.state == .pending || c.state == .delivered) then
    return ([], s)
  let s := s.cancelUndeliverable auth.hostId now
  if !s.authorized auth.hostId session now then return ([], s)
  match s.commands.rows.find? (s.deliverable auth.hostId session now) with
  | none => return ([], s)
  | some c => s.deliver c now

end Store

end Gridops.Fleet
