import Gridops.Fleet.Registry.Administration
import Gridops.Fleet.Registry.Handshake

/-!
# Observing a host

The handshake, inventories and heartbeats of an agent as they change the registry. A
handshake here is the one of the store with the inventory columns it clears; an
inventory makes the host's row complete for the session that sent it; a heartbeat
renews the lease, moves a reconciled session to ready and grants or withdraws work
authority for 90 seconds.

Samples and the pressure derived from them are left out.
-/

namespace Gridops.Fleet

open Gridops.Lib

def workAuthorityMillis : Millis := 90000

inductive ObservationError
  | handshake (error : HandshakeError)
  | inventory (error : InventoryError)
  | sequenceConflict | heartbeatConflict
deriving DecidableEq

structure ReportedSession where
  hostEpoch : Nat
  incarnation : Incarnation
  sessionId : SessionId
  bootId : String
deriving DecidableEq

structure InventoryRequest where
  session : ReportedSession
  sequence : Nat
  digest : String
  report : InventoryReport

structure InventoryResponse where
  sequence : Nat
  inventoryRevision : Nat
  digest : String
  receivedAt : Millis
  state : ObservationState
  leaseExpiresAt : Millis
deriving DecidableEq

structure HeartbeatRequest where
  session : ReportedSession
  sequence : Nat
  digest : String
deriving DecidableEq

structure HeartbeatResponse where
  sequence : Nat
  receivedAt : Millis
  state : ObservationState
  leaseExpiresAt : Millis
  pendingRotation : Option (RotationId × Nat)
  workAuthorityExpiresAt : Option Millis
deriving DecidableEq

def SessionReceipts.fresh (sessionId : SessionId) : SessionReceipts :=
  ⟨sessionId, 0, none, none, 0, none, none, none, none⟩

/-- The columns of a receipt are all there or all absent. -/
def SessionReceipts.inventoryOk (x : SessionReceipts) : Bool :=
  if x.inventorySequence = 0 then x.inventoryDigest.isNone && x.inventoryReceivedAt.isNone
  else x.inventoryDigest.isSome && x.inventoryReceivedAt.isSome

def SessionReceipts.heartbeatOk (x : SessionReceipts) : Bool :=
  if x.heartbeatSequence = 0 then
    x.heartbeatDigest.isNone && x.heartbeatReceivedAt.isNone && x.heartbeatLeaseExpiresAt.isNone
      && x.heartbeatState.isNone
  else
    x.heartbeatDigest.isSome && x.heartbeatReceivedAt.isSome && x.heartbeatLeaseExpiresAt.isSome
      && x.heartbeatState.isSome

variable (r : Registry)

namespace Registry

/-- The inventory half of `clear_host_observation`. -/
def clearedProfiles (hostId : HostId) : Table HostProfile.hostId :=
  r.profiles.update (·.hostId == hostId) (fun p => { p.invalidated with inventoryDigest := none })
    fun _ => rfl

theorem id_withdraw (h : Host) : { h with authorityExpiresAt := none }.id = h.id := rfl

theorem id_assign (incarnation : Incarnation) (request : HandshakeRequest) (h : Host) :
    { h with
      agentSessionId := some request.agentSessionId, bootId := some request.bootId
      authorityIncarnation := some incarnation, authorityExpiresAt := none }.id = h.id := rfl

/-- The host is given to a new session: what was reported before is incomplete or dropped. -/
def assignment (incarnation : Incarnation) (request : HandshakeRequest) : HostWrite where
  host h := { h with
    agentSessionId := some request.agentSessionId, bootId := some request.bootId
    authorityIncarnation := some incarnation, authorityExpiresAt := none }
  profile p := { p with inventoryComplete := false, lastInventoryAt := none }
  host_id := id_assign incarnation request
  profile_id _ := rfl

def establishSession (auth : AuthenticatedHost) (epoch : Nat) (incarnation : Incarnation)
    (digest : String) (request : HandshakeRequest) (now : Millis) :
    Except HandshakeError Registry :=
  match r.store.establishSession auth epoch incarnation digest request now with
  | .error e => .error e
  | .ok store =>
    .ok { r with
      store
      profiles := (r.updateHost auth.hostId (assignment incarnation request)).profiles
      receipts := r.receipts.upsert (.fresh request.agentSessionId) (fun x => .fresh x.sessionId)
        fun _ => rfl }

def endObservation (hostId : HostId) (session : SessionId) (now : Millis) :
    Registry :=
  { r with
    store := (r.store.endSession session now).clearHostObservation hostId
    profiles := r.clearedProfiles hostId }

def conflictSession (hostId : HostId) (session : SessionId) (now : Millis) :
    Registry :=
  { r with
    store := r.store.conflictSession hostId session now
    profiles := r.clearedProfiles hostId }

def replaySession (o : ObservationSession) (auth : AuthenticatedHost) (digest : String)
    (now : Millis) : Except HandshakeError Registry :=
  match r.store.replaySession o auth digest now with
  | .error e => .error e
  | .ok store => .ok { r with store }

def answered (response : HandshakeResponse) :
    Except HandshakeError Registry → Registry × Except HandshakeError HandshakeResponse
  | .ok t => (t, .ok response)
  | .error e => (r, .error e)

def enterSession (h : Host) (incarnation : Incarnation) (auth : AuthenticatedHost) (digest : String)
    (request : HandshakeRequest) (now : Millis) :
    Registry × Except HandshakeError HandshakeResponse :=
  match r.store.openSession auth.hostId with
  | none =>
    r.answered (Store.handshakeResponse request h incarnation now)
      (r.establishSession auth h.epoch incarnation digest request now)
  | some o =>
    if Store.sameIdentity o h incarnation request then
      r.answered (Store.handshakeResponse request h incarnation o.handshakeReceivedAt)
        (r.replaySession o auth digest now)
    else if Store.contested o h incarnation request now then
      (r.conflictSession auth.hostId o.sessionId now, .error .sessionConflict)
    else
      r.answered (Store.handshakeResponse request h incarnation now)
        ((r.endObservation auth.hostId o.sessionId now).establishSession auth h.epoch incarnation
          digest request now)

def handshake (digest : HandshakeRequest → String) (r : Registry) (auth : AuthenticatedHost)
    (request : HandshakeRequest) (now : Millis) :
    Registry × Except HandshakeError HandshakeResponse :=
  match r.store.ensureAuthenticatedGeneration auth now, r.store.hosts.find auth.hostId with
  | .error e, _ => (r, .error (.registry e))
  | .ok (), none => (r, .error (.registry .notFound))
  | .ok (), some h =>
    if request.expectedHostEpoch.any (· != h.epoch) then (r, .error .identityConflict)
    else match r.store.controlPlane with
      | none => (r, .error .dependencyUnavailable)
      | some control =>
        if request.protocolMin ≤ 1 ∧ 1 ≤ request.protocolMax
            ∧ control.protocolMin ≤ 1 ∧ 1 ≤ control.protocolMax then
          r.enterSession h control.incarnation auth (digest request) request now
        else (r, .ok (Store.incompatibleResponse request h control.incarnation now))

/-! ## The session of a report -/

/-- A report from another credential of the host moves its session along a rotation. -/
def presentCredential (o : ObservationSession) (auth : AuthenticatedHost) (now : Millis) :
    Except ObservationError Registry :=
  if o.currentCredentialId ≠ auth.credentialId
      ∨ o.currentCredentialGeneration ≠ auth.generation then
    match r.store.advanceRotatedSessionCredential o auth now with
    | .error e => .error (.handshake e)
    | .ok store => .ok { r with store }
  else .ok r

/-- The session of a report is open and agrees with it, and so does the host. -/
def matchSession (auth : AuthenticatedHost) (session : ReportedSession) :
    Except ObservationError ObservationSession :=
  match r.store.controlPlane with
  | none => .error (.handshake .dependencyUnavailable)
  | some control =>
    if control.incarnation ≠ session.incarnation then .error (.handshake .identityConflict)
    else
      match (r.store.sessions.find session.sessionId).filter fun o =>
          o.hostId == auth.hostId && o.endedAt.isNone, r.store.hosts.find auth.hostId with
      | some o, some h =>
        if h.agentSessionId ≠ some session.sessionId ∨ h.bootId ≠ some session.bootId
            ∨ h.authorityIncarnation ≠ some session.incarnation then
          .error (.handshake .identityConflict)
        else if o.hostEpoch ≠ session.hostEpoch ∨ o.bootId ≠ session.bootId
            ∨ o.incarnation ≠ session.incarnation then
          .error (.handshake .identityConflict)
        else .ok o
      | _, _ => .error (.handshake .identityConflict)

/-- What the session sent last; a session that sent nothing has the columns' defaults. -/
def receiptsOf (session : SessionId) : SessionReceipts :=
  (r.receipts.find session).getD (.fresh session)

/-- The session of a report that matches it, after the credential was presented. -/
def liveSession (o : ObservationSession) (now : Millis) :
    Except ObservationError (Registry × ObservationSession × SessionReceipts) :=
  if o.state = .conflicted ∨ o.leaseExpiresAt ≤ now then .error (.handshake .sessionConflict)
  else if !(r.receiptsOf o.sessionId).inventoryOk then .error .sequenceConflict
  else if !(r.receiptsOf o.sessionId).heartbeatOk then .error .heartbeatConflict
  else .ok (r, o, r.receiptsOf o.sessionId)

def loadCurrentSession (auth : AuthenticatedHost) (session : ReportedSession) (now : Millis) :
    Except ObservationError (Registry × ObservationSession × SessionReceipts) :=
  match r.store.ensureAuthenticatedGeneration auth now with
  | .error e => .error (.handshake (.registry e))
  | .ok () =>
    if session.hostEpoch ≠ auth.epoch ∨ session.bootId = "" then
      .error (.handshake .identityConflict)
    else do
      let o ← r.matchSession auth session
      let r ← r.presentCredential o auth now
      r.liveSession o now

def inventoryWrite (auth : AuthenticatedHost) (request : InventoryRequest) (revision : Nat)
    (now : Millis) : HostWrite where
  host h := h
  profile p := { p with
    inventoryRevision := revision, inventoryDigest := some request.digest
    inventoryEpoch := some auth.epoch, inventorySessionId := some request.session.sessionId
    inventoryBootId := some request.session.bootId, inventoryComplete := true
    lastInventoryAt := some now }
  host_id _ := rfl
  profile_id _ := rfl

def renewSession (hostId : HostId) (session : SessionId) (state : ObservationState) (now : Millis) :
    Registry :=
  { r with
    store := { r.store with
      sessions := r.store.sessions.update (fun o => o.sessionId == session && o.hostId == hostId)
        (fun o => { o with state, leaseExpiresAt := now + observationLeaseMillis }) fun _ => rfl } }

def acceptInventory (auth : AuthenticatedHost) (o : ObservationSession) (request : InventoryRequest)
    (freshDomain : String → DomainId) (freshBackend : String → BackendId) (now : Millis) :
    Except ObservationError (InventoryResponse × Registry) :=
  match r.toFleetStore.reconcileInventory auth.hostId request.report freshDomain freshBackend with
  | .error e => .error (.inventory e)
  | .ok fleet =>
    match r.profiles.find auth.hostId with
    | none => .error (.inventory .database)
    | some p =>
      let revision := p.inventoryRevision + 1
      let lease := now + observationLeaseMillis
      match r.snapshots.insert? ⟨auth.hostId, o.sessionId, auth.epoch, o.incarnation,
          request.sequence, request.digest, now, lease, .reconciling, revision⟩ with
      | none => .error (.inventory .database)
      | some snapshots =>
        let r : Registry := { r with toFleetStore := fleet, snapshots }
        let r := r.updateHost auth.hostId (inventoryWrite auth request revision now)
        let r := r.renewSession auth.hostId o.sessionId .reconciling now
        let r := { r with
          receipts := r.receipts.update (·.sessionId == o.sessionId)
            (fun x => { x with
              inventorySequence := request.sequence, inventoryDigest := some request.digest
              inventoryReceivedAt := some now }) fun _ => rfl }
        .ok (⟨request.sequence, revision, request.digest, now, .reconciling, lease⟩,
          -- Only a session's first inventory is an event.
          if request.sequence = 1 then
            r.audit ⟨none, some auth.hostId, auth.hostId,
              .inventoryReceived request.sequence revision, now⟩
          else r)

/-- Stores a complete inventory; the last one sent again is answered from its snapshot. -/
def submitInventory (auth : AuthenticatedHost) (request : InventoryRequest)
    (freshDomain : String → DomainId) (freshBackend : String → BackendId) (now : Millis) :
    Except ObservationError (InventoryResponse × Registry) := do
  let (r, o, x) ← r.loadCurrentSession auth request.session now
  if request.sequence ≤ x.inventorySequence then
    if request.sequence = x.inventorySequence ∧ x.inventoryDigest = some request.digest then
      match (r.snapshots.find (auth.hostId, o.sessionId, request.sequence)).filter
          (·.digest == request.digest) with
      | none => .error .sequenceConflict
      | some i =>
        return (⟨i.sequence, i.inventoryRevision, i.digest, i.receivedAt, i.receiptState,
          i.receiptLeaseExpiresAt⟩, r)
    else .error .sequenceConflict
  else r.acceptInventory auth o request freshDomain freshBackend now

/-! ## Heartbeats and work authority -/

/-- The host has a complete inventory of this session and nothing that waits for review. -/
def reconciled (hostId : HostId) (session : SessionId) : Bool :=
  (r.profiles.find hostId).any (fun p =>
      p.inventoryComplete && p.inventorySessionId == some session)
    && !r.store.placements.rows.any fun x => x.hostId == hostId && x.state == .uncertain

def mayWork (p : HostProfile) (session : SessionId) (h : Host) : Bool :=
  h.enrollmentState == .approved && h.lifecycleState.works && h.integrityState == .verified
    && p.inventoryComplete && p.inventorySessionId == some session

/-- The host may not work for this session. A missing inventory session decides nothing:
its comparison is unknown. -/
def mayNotWork (p : HostProfile) (session : SessionId) (h : Host) : Bool :=
  !(h.enrollmentState == .approved && h.lifecycleState.works && h.integrityState == .verified
    && p.inventoryComplete && p.inventorySessionId.all (· == session))

/-- Renews the authority of a ready session whose host may work, and withdraws it otherwise. -/
def grantAuthority (hostId : HostId) (session : SessionId) (ready : Bool) (now : Millis) :
    Registry :=
  match r.profiles.find hostId with
  | none => r
  | some p =>
    let current (h : Host) := h.id == hostId && h.agentSessionId == some session
    let hosts := r.store.hosts.update (fun h => current h && (!ready || mayWork p session h))
      (fun h => { h with
        authorityExpiresAt := if ready then some (now + workAuthorityMillis) else none })
      fun _ => rfl
    { r with
      store := { r.store with
        hosts := hosts.update
          (fun h => current h && h.authorityExpiresAt.isSome && mayNotWork p session h)
          (fun h => { h with authorityExpiresAt := none }) id_withdraw } }

def workAuthority (hostId : HostId) (session : SessionId) : Option Millis :=
  ((r.store.hosts.find hostId).filter (·.agentSessionId == some session)).bind
    (·.authorityExpiresAt)

def heartbeatState (o : ObservationSession) : ObservationState :=
  if o.state = .reconciling ∧ r.reconciled o.hostId o.sessionId then .ready else o.state

def acceptHeartbeat (auth : AuthenticatedHost) (o : ObservationSession) (request : HeartbeatRequest)
    (now : Millis) : HeartbeatResponse × Registry :=
  let state := r.heartbeatState o
  let lease := now + observationLeaseMillis
  let r := r.renewSession auth.hostId o.sessionId state now
  let r := { r with
    receipts := r.receipts.update (·.sessionId == o.sessionId)
      (fun x => { x with
        heartbeatSequence := request.sequence, heartbeatDigest := some request.digest
        heartbeatReceivedAt := some now, heartbeatLeaseExpiresAt := some lease
        heartbeatState := some state }) fun _ => rfl }
  let rotation := r.store.pendingRotation auth.hostId now
  let r := r.grantAuthority auth.hostId o.sessionId (state == .ready) now
  (⟨request.sequence, now, state, lease, rotation, r.workAuthority auth.hostId o.sessionId⟩, r)

/-- Renews the observation lease; the last heartbeat sent again only reads. -/
def heartbeat (auth : AuthenticatedHost) (request : HeartbeatRequest) (now : Millis) :
    Except ObservationError (HeartbeatResponse × Registry) := do
  let (r, o, x) ← r.loadCurrentSession auth request.session now
  if request.sequence ≤ x.heartbeatSequence then
    if request.sequence = x.heartbeatSequence ∧ x.heartbeatDigest = some request.digest then
      match x.heartbeatReceivedAt, x.heartbeatState, x.heartbeatLeaseExpiresAt with
      | some received, some state, some lease =>
        return (⟨request.sequence, received, state, lease, r.store.pendingRotation auth.hostId now,
          r.workAuthority auth.hostId o.sessionId⟩, r)
      | _, _, _ => .error .heartbeatConflict
    else .error .heartbeatConflict
  else return r.acceptHeartbeat auth o request now

/-! ## What the calls do -/

variable {r t u : Registry} {auth : AuthenticatedHost} {now : Millis}

variable {o : ObservationSession} {digest : String}

theorem replaySession_cases (h : r.replaySession o auth digest now = .ok t) :
    ∃ store, r.store.replaySession o auth digest now = .ok store ∧ t = { r with store } := by
  unfold replaySession at h
  split at h
  · cases h
  next store hstore =>
  cases h
  exact ⟨store, hstore, rfl⟩

theorem establishSession_cases {epoch : Nat} {incarnation : Incarnation}
    {request : HandshakeRequest}
    (h : r.establishSession auth epoch incarnation digest request now = .ok t) :
    ∃ store receipts,
      r.store.establishSession auth epoch incarnation digest request now = .ok store ∧
      t = { r with
        store
        profiles := (r.updateHost auth.hostId (assignment incarnation request)).profiles
        receipts } := by
  unfold establishSession at h
  split at h
  · cases h
  next store hstore =>
  cases h
  exact ⟨store, _, hstore, rfl⟩

/-- How a handshake can end: with nothing new, the open session advanced, a conflict, or a session
of its own. -/
inductive Enters (r : Registry) (auth : AuthenticatedHost) (digest : String)
    (request : HandshakeRequest) (now : Millis) : Registry → Prop
  | same : Enters r auth digest request now r
  | replayed {o : ObservationSession} {t : Registry}
      (hreplay : r.replaySession o auth digest now = .ok t) : Enters r auth digest request now t
  | conflicted {o : ObservationSession} (hopen : r.store.openSession auth.hostId = some o) :
      Enters r auth digest request now (r.conflictSession auth.hostId o.sessionId now)
  | opened {h : Host} {incarnation : Incarnation} {t : Registry}
      (hhost : r.store.hosts.find auth.hostId = some h)
      (hopen : r.store.openSession auth.hostId = none)
      (hestablish : r.establishSession auth h.epoch incarnation digest request now = .ok t) :
      Enters r auth digest request now t
  | replaced {h : Host} {incarnation : Incarnation} {o : ObservationSession} {t : Registry}
      (hhost : r.store.hosts.find auth.hostId = some h)
      (hopen : r.store.openSession auth.hostId = some o)
      (hestablish : (r.endObservation auth.hostId o.sessionId now).establishSession auth h.epoch
        incarnation digest request now = .ok t) :
      Enters r auth digest request now t

theorem enterSession_enters {h : Host} {incarnation : Incarnation} {request : HandshakeRequest}
    (hhost : r.store.hosts.find auth.hostId = some h) :
    Enters r auth digest request now
      (r.enterSession h incarnation auth digest request now).1 := by
  unfold enterSession answered
  split
  · next hopen =>
    split
    · next t ht => exact .opened hhost hopen ht
    · exact .same
  · next o hopen =>
    split
    · split
      · next t ht => exact .replayed ht
      · exact .same
    · split
      · exact .conflicted hopen
      · split
        · next t ht => exact .replaced hhost hopen ht
        · exact .same

theorem handshake_enters (digest : HandshakeRequest → String) (r : Registry)
    (auth : AuthenticatedHost) (request : HandshakeRequest) (now : Millis) :
    Enters r auth (digest request) request now (r.handshake digest auth request now).1 := by
  unfold handshake
  split
  · exact .same
  · exact .same
  · next hhost =>
    split
    · exact .same
    · split
      · exact .same
      · split
        · exact enterSession_enters hhost
        · exact .same

/-- **The registry's handshake is the store's**, with the inventory columns beside it. -/
theorem handshake_store (digest : HandshakeRequest → String) (r : Registry)
    (auth : AuthenticatedHost) (request : HandshakeRequest) (now : Millis) :
    (r.handshake digest auth request now).map (·.store) id
      = r.store.handshake digest auth request now := by
  have hestablish : ∀ (r : Registry) epoch incarnation body,
      (r.establishSession auth epoch incarnation body request now).map (·.store)
        = r.store.establishSession auth epoch incarnation body request now := by
    intro r epoch incarnation body
    unfold establishSession
    cases r.store.establishSession auth epoch incarnation body request now <;> rfl
  have hreplay : ∀ (r : Registry) o body,
      (r.replaySession o auth body now).map (·.store) = r.store.replaySession o auth body now := by
    intro r o body
    unfold replaySession
    cases r.store.replaySession o auth body now <;> rfl
  have hanswered : ∀ (r : Registry) response (x : Except HandshakeError Registry),
      (r.answered response x).map (·.store) id
        = r.store.answered response (x.map (·.store)) := by
    intro r response x
    cases x <;> rfl
  have henter : ∀ h incarnation body,
      (r.enterSession h incarnation auth body request now).map (·.store) id
        = r.store.enterSession h incarnation auth body request now := by
    intro h incarnation body
    unfold enterSession Store.enterSession
    cases r.store.openSession auth.hostId with
    | none => rw [hanswered, hestablish]
    | some o =>
      dsimp only
      split_ifs
      · rw [hanswered, hreplay]
      · rfl
      · rw [hanswered, hestablish]
        rfl
  unfold handshake Store.handshake
  cases r.store.ensureAuthenticatedGeneration auth now with
  | error e => rfl
  | ok _ =>
    cases r.store.hosts.find auth.hostId with
    | none => rfl
    | some h =>
      dsimp only
      split_ifs with hepoch
      · rfl
      · cases r.store.controlPlane with
        | none => rfl
        | some control =>
          dsimp only
          split_ifs
          · exact henter h control.incarnation (digest request)
          · rfl

theorem presentCredential_cases (h : r.presentCredential o auth now = .ok t) :
    t = r ∨ ∃ store, r.store.advanceRotatedSessionCredential o auth now = .ok store ∧
      t = { r with store } := by
  unfold presentCredential at h
  split at h
  · split at h
    · cases h
    next store hstore =>
    cases h
    exact .inr ⟨store, hstore, rfl⟩
  · cases h
    exact .inl rfl

theorem matchSession_ok {session : ReportedSession} (h : r.matchSession auth session = .ok o) :
    o ∈ r.store.sessions ∧ o.sessionId = session.sessionId ∧ o.hostId = auth.hostId ∧
      o.endedAt = none ∧ o.hostEpoch = session.hostEpoch ∧
      ∃ x, r.store.hosts.find auth.hostId = some x ∧
        x.agentSessionId = some session.sessionId := by
  unfold matchSession at h
  split at h
  · cases h
  split at h
  · cases h
  split at h
  · next o' x ho hx =>
    split at h
    · cases h
    next hhost =>
    split at h
    · cases h
    next hsession =>
    cases h
    push Not at hhost hsession
    obtain ⟨hfind, hopen⟩ := Option.filter_eq_some_iff.mp ho
    simp only [Bool.and_eq_true, beq_iff_eq, Option.isNone_iff_eq_none] at hopen
    exact ⟨Table.mem_of_find hfind, Table.key_of_find hfind, hopen.1, hopen.2, hsession.1, x, hx,
      hhost.1⟩
  · cases h

theorem loadCurrentSession_cases {session : ReportedSession} {x : SessionReceipts}
    (h : r.loadCurrentSession auth session now = .ok (u, o, x)) :
    r.store.ensureAuthenticatedGeneration auth now = .ok () ∧ session.hostEpoch = auth.epoch ∧
      r.matchSession auth session = .ok o ∧ r.presentCredential o auth now = .ok u := by
  unfold loadCurrentSession at h
  split at h
  · cases h
  next hauth =>
  split at h
  · cases h
  next hclaim =>
  obtain ⟨o', hmatch, h⟩ := bind_eq_ok h
  obtain ⟨u', hpresent, h⟩ := bind_eq_ok h
  push Not at hclaim
  unfold liveSession at h
  split at h
  · cases h
  split at h
  · cases h
  split at h
  · cases h
  cases h
  exact ⟨hauth, hclaim.1, hmatch, hpresent⟩

theorem acceptInventory_cases {request : InventoryRequest} {freshDomain : String → DomainId}
    {freshBackend : String → BackendId} {response : InventoryResponse}
    (h : r.acceptInventory auth o request freshDomain freshBackend now = .ok (response, t)) :
    ∃ fleet revision snapshots receipts audits,
      r.toFleetStore.reconcileInventory auth.hostId request.report freshDomain freshBackend
        = .ok fleet ∧
      let y : Registry := { r with toFleetStore := fleet, snapshots }
      t = { (y.updateHost auth.hostId (inventoryWrite auth request revision now)).renewSession
        auth.hostId o.sessionId .reconciling now with receipts, audits } := by
  unfold acceptInventory at h
  split at h
  · cases h
  next fleet hfleet =>
  split at h
  · cases h
  dsimp only at h
  split at h
  · cases h
  next snapshots hsnapshots =>
  split at h <;> cases h
  · exact ⟨fleet, _, snapshots, _, _, hfleet, rfl⟩
  · exact ⟨fleet, _, snapshots, _, _, hfleet, rfl⟩

theorem submitInventory_cases {request : InventoryRequest} {freshDomain : String → DomainId}
    {freshBackend : String → BackendId} {response : InventoryResponse}
    (h : r.submitInventory auth request freshDomain freshBackend now = .ok (response, t)) :
    ∃ u o x, r.loadCurrentSession auth request.session now = .ok (u, o, x) ∧
      (t = u ∨ u.acceptInventory auth o request freshDomain freshBackend now
        = .ok (response, t)) := by
  obtain ⟨⟨u, o, x⟩, hload, h⟩ := bind_eq_ok h
  refine ⟨u, o, x, hload, ?_⟩
  dsimp only at h
  split at h
  · split at h
    · split at h <;> cases h
      exact .inl rfl
    · cases h
  · exact .inr h

theorem heartbeat_cases {request : HeartbeatRequest} {response : HeartbeatResponse}
    (h : r.heartbeat auth request now = .ok (response, t)) :
    ∃ u o x, r.loadCurrentSession auth request.session now = .ok (u, o, x) ∧
      (t = u ∨ t = (u.acceptHeartbeat auth o request now).2) := by
  obtain ⟨⟨u, o, x⟩, hload, h⟩ := bind_eq_ok h
  refine ⟨u, o, x, hload, ?_⟩
  dsimp only at h
  split at h
  · split at h
    · split at h <;> cases h
      exact .inl rfl
    · cases h
  · cases h
    exact .inr rfl

end Registry

end Gridops.Fleet
