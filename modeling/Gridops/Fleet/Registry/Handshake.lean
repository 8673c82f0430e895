import Gridops.Fleet.Capacity.Evolves

/-!
# The handshake

`registry/handshake.rs`: a handshake opens the observation session of a host. One from
the session that is already open is answered from its row; one from another boot while
the open session is alive is a conflict, which quarantines the host and is committed
together with the error; any other replaces the open session, and settles the commands
of earlier sessions if the agent declares that its results are flushed.

The backends and interactive sessions that a cleared observation resets are left out.
-/

namespace Gridops.Fleet

open Gridops.Lib

def observationLeaseMillis : Millis := 90000

structure HandshakeRequest where
  requestId : OperationId
  agentSessionId : SessionId
  bootId : String
  protocolMin : Nat
  protocolMax : Nat
  agentVersion : String
  expectedHostEpoch : Option Nat
  resultsFlushed : Bool
deriving DecidableEq

inductive ProtocolNegotiation
  | supported (version : Nat)
  | incompatible
deriving DecidableEq

structure HandshakeResponse where
  requestId : OperationId
  hostId : HostId
  hostEpoch : Nat
  controlPlaneIncarnation : Incarnation
  agentSessionId : SessionId
  bootId : String
  negotiatedProtocol : ProtocolNegotiation
  state : ObservationState
  leaseExpiresAt : Option Millis
  receivedAt : Millis
deriving DecidableEq

inductive HandshakeError
  | registry (error : RegistryError)
  | identityConflict | dependencyUnavailable | handshakeConflict | credentialConflict
  | sessionConflict
deriving DecidableEq

namespace Store

/-! ## Single writes -/

def openSession (s : Store) (hostId : HostId) : Option ObservationSession :=
  s.sessions.rows.find? fun o => o.hostId == hostId && o.endedAt.isNone

def clearHostObservation (s : Store) (hostId : HostId) : Store :=
  { s with
    hosts := s.hosts.update (·.id == hostId) (fun h => { h with authorityExpiresAt := none })
      (fun _ => rfl) }

def endSession (s : Store) (session : SessionId) (now : Millis) : Store :=
  { s with
    sessions := s.sessions.update (·.sessionId == session)
      (fun o => { o with endedAt := some now }) (fun _ => rfl) }

def quarantineHost (s : Store) (hostId : HostId) : Store :=
  { s with
    hosts := s.hosts.update (·.id == hostId)
      (fun h => { h with integrityState := .quarantined, lifecycleState := .paused })
      (fun _ => rfl) }

/-- Fences a session that another boot contests, and its host. -/
def conflictSession (s : Store) (hostId : HostId) (session : SessionId) (now : Millis) : Store :=
  let s := { s with
    sessions := s.sessions.update (·.sessionId == session)
      (fun o => { o with state := .conflicted, endedAt := some now }) (fun _ => rfl) }
  ((s.clearHostObservation hostId).quarantineHost hostId).auditAndEvent
    ⟨none, some hostId, hostId, .sessionConflict session, now⟩

/-- A session moves to the next credential only along an exchanged rotation from its
own. -/
def advanceRotatedSessionCredential (s : Store) (o : ObservationSession)
    (auth : AuthenticatedHost) (now : Millis) : Except HandshakeError Store :=
  let related := s.rotations.rows.any fun r =>
    r.hostId == auth.hostId && r.oldCredentialId == o.currentCredentialId
      && r.oldGeneration == o.currentCredentialGeneration && r.oldHostEpoch == auth.epoch
      && r.nextGeneration == auth.generation
      && (r.phase == .exchanged || r.phase == .acknowledged) && r.revokedAt.isNone
  let current (x : ObservationSession) := x.hostId == auth.hostId && x.sessionId == o.sessionId
    && x.currentCredentialId == o.currentCredentialId
    && x.currentCredentialGeneration == o.currentCredentialGeneration && x.endedAt.isNone
  if !related ∨ auth.credentialId = o.currentCredentialId
      ∨ o.currentCredentialGeneration ≥ auth.generation then .error .credentialConflict
  else if (s.sessions.rows.filter current).length ≠ 1 then .error .credentialConflict
  else .ok ({ s with
    sessions := s.sessions.update current (fun x => { x with
      currentCredentialId := auth.credentialId
      currentCredentialGeneration := auth.generation }) (fun _ => rfl) }.auditAndEvent
    ⟨none, some auth.hostId, auth.hostId,
      .sessionCredentialAdvanced o.sessionId auth.generation, now⟩)

/-! ## The transaction -/

def observing (auth : AuthenticatedHost) (epoch : Nat) (incarnation : Incarnation)
    (digest : String) (request : HandshakeRequest) (now : Millis) : ObservationSession where
  sessionId := request.agentSessionId
  hostId := auth.hostId
  hostEpoch := epoch
  bootId := request.bootId
  incarnation := incarnation
  currentCredentialId := auth.credentialId
  currentCredentialGeneration := auth.generation
  initialBodyDigest := digest
  state := .observing
  endedAt := none
  leaseExpiresAt := now + observationLeaseMillis
  handshakeReceivedAt := now

def assignSession (s : Store) (hostId : HostId) (incarnation : Incarnation)
    (request : HandshakeRequest) : Store :=
  { s with
    hosts := s.hosts.update (·.id == hostId)
      (fun h => { h with
        agentSessionId := some request.agentSessionId
        bootId := some request.bootId
        authorityIncarnation := some incarnation
        authorityExpiresAt := none }) (fun _ => rfl) }

/-- Settles the commands of earlier sessions if the request says that every result the
agent has was delivered. -/
def settleFlushed (s : Store) (hostId : HostId) (epoch : Nat) (request : HandshakeRequest)
    (now : Millis) : Store :=
  if request.resultsFlushed then s.settleUnreceived hostId epoch request.agentSessionId now else s

def establishSession (s : Store) (auth : AuthenticatedHost) (epoch : Nat)
    (incarnation : Incarnation) (digest : String) (request : HandshakeRequest) (now : Millis) :
    Except HandshakeError Store :=
  match s.sessions.insert? (observing auth epoch incarnation digest request now) with
  | none => .error (.registry .database)
  | some sessions =>
    let s := { s with sessions := sessions }.assignSession auth.hostId incarnation request
    .ok ((s.settleFlushed auth.hostId epoch request now).auditAndEvent
      ⟨none, some auth.hostId, auth.hostId, .sessionEstablished request.agentSessionId, now⟩)

def sameIdentity (o : ObservationSession) (h : Host) (incarnation : Incarnation)
    (request : HandshakeRequest) : Bool :=
  o.sessionId == request.agentSessionId && o.bootId == request.bootId && o.hostEpoch == h.epoch
    && o.incarnation == incarnation

def contested (o : ObservationSession) (h : Host) (incarnation : Incarnation)
    (request : HandshakeRequest) (now : Millis) : Bool :=
  o.hostEpoch == h.epoch && o.incarnation == incarnation && o.bootId != request.bootId
    && (now < o.leaseExpiresAt || h.authorityExpiresAt.any (now < ·))

/-- A handshake of the open session: no command is settled again. -/
def replaySession (s : Store) (o : ObservationSession) (auth : AuthenticatedHost)
    (digest : String) (now : Millis) : Except HandshakeError Store :=
  if o.initialBodyDigest ≠ digest then .error .handshakeConflict
  else if o.currentCredentialId ≠ auth.credentialId
      ∨ o.currentCredentialGeneration ≠ auth.generation then
    s.advanceRotatedSessionCredential o auth now
  else .ok s

def handshakeResponse (request : HandshakeRequest) (h : Host) (incarnation : Incarnation)
    (receivedAt : Millis) : HandshakeResponse where
  requestId := request.requestId
  hostId := h.id
  hostEpoch := h.epoch
  controlPlaneIncarnation := incarnation
  agentSessionId := request.agentSessionId
  bootId := request.bootId
  negotiatedProtocol := .supported 1
  state := .observing
  leaseExpiresAt := some (receivedAt + observationLeaseMillis)
  receivedAt := receivedAt

def incompatibleResponse (request : HandshakeRequest) (h : Host) (incarnation : Incarnation)
    (now : Millis) : HandshakeResponse :=
  { handshakeResponse request h incarnation now with
    negotiatedProtocol := .incompatible
    state := .conflicted
    leaseExpiresAt := none }

def answered (s : Store) (response : HandshakeResponse) :
    Except HandshakeError Store → Store × Except HandshakeError HandshakeResponse
  | .ok t => (t, .ok response)
  | .error e => (s, .error e)

def enterSession (s : Store) (h : Host) (incarnation : Incarnation) (auth : AuthenticatedHost)
    (digest : String) (request : HandshakeRequest) (now : Millis) :
    Store × Except HandshakeError HandshakeResponse :=
  match s.openSession auth.hostId with
  | none =>
    s.answered (handshakeResponse request h incarnation now)
      (s.establishSession auth h.epoch incarnation digest request now)
  | some o =>
    if sameIdentity o h incarnation request then
      s.answered (handshakeResponse request h incarnation o.handshakeReceivedAt)
        (s.replaySession o auth digest now)
    else if contested o h incarnation request now then
      (s.conflictSession auth.hostId o.sessionId now, .error .sessionConflict)
    else
      s.answered (handshakeResponse request h incarnation now)
        (((s.endSession o.sessionId now).clearHostObservation auth.hostId).establishSession auth
          h.epoch incarnation digest request now)

/-- The store a handshake commits and the answer it returns; `digest` is the hash of the
encoded request. -/
def handshake (digest : HandshakeRequest → String) (s : Store) (auth : AuthenticatedHost)
    (request : HandshakeRequest) (now : Millis) :
    Store × Except HandshakeError HandshakeResponse :=
  match s.ensureAuthenticatedGeneration auth now, s.hosts.find auth.hostId with
  | .error e, _ => (s, .error (.registry e))
  | .ok (), none => (s, .error (.registry .notFound))
  | .ok (), some h =>
    if request.expectedHostEpoch.any (· != h.epoch) then (s, .error .identityConflict)
    else match s.controlPlane with
      | none => (s, .error .dependencyUnavailable)
      | some control =>
        if request.protocolMin ≤ 1 ∧ 1 ≤ request.protocolMax
            ∧ control.protocolMin ≤ 1 ∧ 1 ≤ control.protocolMax then
          s.enterSession h control.incarnation auth (digest request) request now
        else (s, .ok (incompatibleResponse request h control.incarnation now))

/-! ## What it writes -/

/-- A write to sessions and hosts only, in which a host keeps its agent session or is given
to `session`. -/
structure SessionFrame (s t : Store) (hostId : HostId) (session : SessionId) : Prop where
  commands : t.commands = s.commands
  results : t.results = s.results
  placements : t.placements = s.placements
  allocations : t.allocations = s.allocations
  hosts : ∀ id y, t.hosts.find id = some y → ∃ x, s.hosts.find id = some x ∧
    (y.agentSessionId = x.agentSessionId ∨ id = hostId ∧ y.agentSessionId = some session)

namespace SessionFrame

variable {s t u : Store} {hostId : HostId} {session : SessionId} {now : Millis}

theorem of_hosts (hc : t.commands = s.commands) (hr : t.results = s.results)
    (hp : t.placements = s.placements) (ha : t.allocations = s.allocations)
    (hh : t.hosts = s.hosts) : SessionFrame s t hostId session :=
  ⟨hc, hr, hp, ha, fun _ y hy => ⟨y, hh ▸ hy, .inl rfl⟩⟩

theorem refl (s : Store) : SessionFrame s s hostId session := of_hosts rfl rfl rfl rfl rfl

theorem trans (h₁ : SessionFrame s t hostId session) (h₂ : SessionFrame t u hostId session) :
    SessionFrame s u hostId session where
  commands := h₂.commands.trans h₁.commands
  results := h₂.results.trans h₁.results
  placements := h₂.placements.trans h₁.placements
  allocations := h₂.allocations.trans h₁.allocations
  hosts id w hw := by
    obtain ⟨y, hy, hyw⟩ := h₂.hosts id w hw
    obtain ⟨x, hx, hxy⟩ := h₁.hosts id y hy
    refine ⟨x, hx, ?_⟩
    rcases hyw with hyw | hyw
    · exact hxy.imp hyw.trans fun h => ⟨h.1, hyw.trans h.2⟩
    · exact .inr hyw

theorem of_update {f : Host → Host} {hf : ∀ x, (f x).id = x.id}
    (hrow : ∀ x, (f x).agentSessionId = x.agentSessionId ∨ (f x).agentSessionId = some session) :
    SessionFrame s { s with hosts := s.hosts.update (·.id == hostId) f hf } hostId session where
  commands := rfl
  results := rfl
  placements := rfl
  allocations := rfl
  hosts id y hy := by
    rw [Table.find_update] at hy
    obtain ⟨x, hx, rfl⟩ := Option.map_eq_some_iff.mp hy
    refine ⟨x, hx, ?_⟩
    by_cases hid : x.id = hostId
    · rw [if_pos (by simpa using hid)]
      exact (hrow x).imp_right fun h => ⟨(Table.key_of_find hx).symm.trans hid, h⟩
    · rw [if_neg (by simpa using hid)]
      exact .inl rfl

theorem clearHostObservation (s : Store) :
    SessionFrame s (s.clearHostObservation hostId) hostId session :=
  of_update fun _ => .inl rfl

theorem quarantineHost (s : Store) :
    SessionFrame s (s.quarantineHost hostId) hostId session :=
  of_update fun _ => .inl rfl

theorem conflictSession (s : Store) (o : SessionId) :
    SessionFrame s (s.conflictSession hostId o now) hostId session := by
  have hsession : SessionFrame s { s with sessions := (s.conflictSession hostId o now).sessions }
      hostId session := .of_hosts rfl rfl rfl rfl rfl
  exact hsession.trans ((clearHostObservation _).trans ((quarantineHost _).trans
    (.of_hosts rfl rfl rfl rfl rfl)))

theorem replaySession {o : ObservationSession} {auth : AuthenticatedHost} {digest : String}
    (h : s.replaySession o auth digest now = .ok t) : SessionFrame s t hostId session := by
  obtain ⟨-, h⟩ := guard_eq_ok h
  split at h
  · unfold advanceRotatedSessionCredential at h
    dsimp only at h
    split at h
    · cases h
    · split at h
      · cases h
      · cases h
        exact .of_hosts rfl rfl rfl rfl rfl
  · cases h
    exact .refl s

end SessionFrame

theorem establishSession_cases {s t : Store} {auth : AuthenticatedHost} {epoch : Nat}
    {incarnation : Incarnation} {digest : String} {request : HandshakeRequest} {now : Millis}
    (h : s.establishSession auth epoch incarnation digest request now = .ok t) :
    ∃ u e, SessionFrame s u auth.hostId request.agentSessionId ∧
      t = (u.settleFlushed auth.hostId epoch request now).auditAndEvent e := by
  unfold establishSession at h
  split at h
  · cases h
  · next sessions _ =>
    cases h
    refine ⟨_, _, .trans (t := { s with sessions := sessions }) (.of_hosts rfl rfl rfl rfl rfl) ?_,
      rfl⟩
    exact .of_update fun _ => .inr rfl

/-- **What one handshake can do**: touch sessions and hosts only, or give the host to its session
and settle the others' commands. -/
theorem handshake_cases (digest : HandshakeRequest → String) (s : Store)
    (auth : AuthenticatedHost) (request : HandshakeRequest) (now : Millis) :
    SessionFrame s (s.handshake digest auth request now).1 auth.hostId request.agentSessionId ∨
      ∃ u epoch e, SessionFrame s u auth.hostId request.agentSessionId ∧
        (s.handshake digest auth request now).1 =
          (u.settleFlushed auth.hostId epoch request now).auditAndEvent e := by
  have henter : ∀ h incarnation,
      let t := (s.enterSession h incarnation auth (digest request) request now).1
      SessionFrame s t auth.hostId request.agentSessionId ∨
        ∃ u epoch e, SessionFrame s u auth.hostId request.agentSessionId ∧
          t = (u.settleFlushed auth.hostId epoch request now).auditAndEvent e := by
    intro h incarnation
    unfold enterSession
    split
    · unfold answered
      split
      · next t ht =>
        obtain ⟨u, e, hu, rfl⟩ := establishSession_cases ht
        exact .inr ⟨u, _, e, hu, rfl⟩
      · exact .inl (.refl s)
    · next o _ =>
      split
      · unfold answered
        split
        · next t ht => exact .inl (.replaySession ht)
        · exact .inl (.refl s)
      · split
        · exact .inl (.conflictSession s o.sessionId)
        · unfold answered
          split
          · next t ht =>
            obtain ⟨u, e, hu, rfl⟩ := establishSession_cases ht
            refine .inr ⟨u, _, e, .trans ?_ hu, rfl⟩
            exact .trans (t := s.endSession o.sessionId now) (.of_hosts rfl rfl rfl rfl rfl)
              (.clearHostObservation _)
          · exact .inl (.refl s)
  unfold handshake
  split
  · exact .inl (.refl s)
  · exact .inl (.refl s)
  · next h _ _ =>
    split
    · exact .inl (.refl s)
    · split
      · exact .inl (.refl s)
      · next control _ =>
        split
        · exact henter h control.incarnation
        · exact .inl (.refl s)

end Store

end Gridops.Fleet
