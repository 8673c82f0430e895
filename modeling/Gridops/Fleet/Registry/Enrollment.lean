import Gridops.Fleet.Directory
import Gridops.Fleet.Registry.Inventory
import Gridops.Fleet.Registry.Rotation

/-!
# Enrollment and recovery

An administrator issues a code for a set of targets; whoever presents it becomes a host with its
first credential. A lost host is recovered with a code bound to its epoch and revision: the epoch
rises, every older credential is revoked, and the host waits for approval again.

The columns of `fleet_hosts` and `fleet_observation_sessions` that only these and the administrative
calls read stand in tables of their own beside the store, under the same key. `updateHost` is
`UPDATE fleet_hosts` with the trigger that drops an inventory whose epoch, session, boot or
incarnation is no longer the host's.
-/

namespace Gridops.Fleet

open Gridops.Lib

abbrev EnrollmentId := Nat

def defaultEnrollmentTtlMillis : Millis := 600000
def maxEnrollmentTtlMillis : Millis := 3600000

/-! ## Rows -/

/-- What a code is for. A recovery code is bound to one host at one epoch and revision. -/
inductive EnrollmentMode
  | normal
  | recovery (hostId : HostId) (expectedEpoch expectedRevision : Nat)
deriving DecidableEq

inductive EnrollmentRequest
  | issue (scope : EnrollmentScope) (intendedHostId : Option HostId) (ttl : Millis)
  | recover (hostId : HostId) (expectedRevision : Nat)
deriving DecidableEq

/-- A row of `host_enrollments`; `consumed` is when it was used and by which host. -/
structure Enrollment where
  id : EnrollmentId
  codeVerifier : Verifier
  mode : EnrollmentMode
  scope : EnrollmentScope
  issuedBy : UserId
  idempotencyKey : String
  request : EnrollmentRequest
  expiresAt : Millis
  consumed : Option (Millis × HostId)
  revokedAt : Option Millis
deriving DecidableEq

structure HostProfile where
  hostId : HostId
  revision : Nat
  inventoryComplete : Bool
  inventoryRevision : Nat
  inventoryDigest : Option String
  inventoryEpoch : Option Nat
  inventorySessionId : Option SessionId
  inventoryBootId : Option String
  lastInventoryAt : Option Millis
  currentEnrollmentId : Option EnrollmentId
  currentEnrollmentEpoch : Option Nat
deriving DecidableEq

/-- The last inventory and heartbeat of a session: the columns of
`fleet_observation_sessions` beside those of `ObservationSession`. -/
structure SessionReceipts where
  sessionId : SessionId
  inventorySequence : Nat
  inventoryDigest : Option String
  inventoryReceivedAt : Option Millis
  heartbeatSequence : Nat
  heartbeatDigest : Option String
  heartbeatReceivedAt : Option Millis
  heartbeatLeaseExpiresAt : Option Millis
  heartbeatState : Option ObservationState
deriving DecidableEq

structure Snapshot where
  hostId : HostId
  sessionId : SessionId
  hostEpoch : Nat
  incarnation : Incarnation
  sequence : Nat
  digest : String
  receivedAt : Millis
  receiptLeaseExpiresAt : Millis
  receiptState : ObservationState
  inventoryRevision : Nat
deriving DecidableEq

structure TargetGrant where
  hostId : HostId
  targetId : TargetId
  allowSchedule : Bool
  allowNative : Bool
  allowInteractive : Bool
  allowDockerSocket : Bool
  revision : Nat
  revokedAt : Option Millis
  grantedBy : UserId
deriving DecidableEq

/-- What `audit_and_event` records of these calls. -/
inductive AdminAction
  | enrollmentIssued (expiresAt : Millis) (scope : EnrollmentScope)
  | enrollmentRevoked
  | enrollmentConsumed (enrollment : EnrollmentId) (generation : Nat)
  | recoveryIssued (expiresAt : Millis) (expectedEpoch expectedRevision : Nat)
  | hostRecovered (enrollment : EnrollmentId) (epoch generation : Nat)
  | rotationRevoked | rotationRevokedByRecovery
  | credentialRevoked (generation : Nat)
  | lifecycleChanged (state : LifecycleState)
  | hostRetired
  | grantChanged (target : TargetId) (allowSchedule allowNative allowDockerSocket : Bool)
  | hostApproved (inventoryRevision : Nat) (targets : EnrollmentScope)
  | inventoryReceived (sequence revision : Nat)
deriving DecidableEq

structure AdminEvent where
  actor : Option UserId
  hostId : Option HostId
  target : Nat
  action : AdminAction
  recordedAt : Millis
deriving DecidableEq

structure Registry extends FleetStore where
  profiles : Table HostProfile.hostId
  receipts : Table SessionReceipts.sessionId
  snapshots : Table fun x : Snapshot => (x.hostId, x.sessionId, x.sequence)
  enrollments : Table Enrollment.id
  grants : Table fun g : TargetGrant => (g.hostId, g.targetId)
  audits : List AdminEvent

structure EnrollmentMetadata where
  id : EnrollmentId
  expiresAt : Millis
  consumed : Option (Millis × HostId)
  revokedAt : Option Millis
deriving DecidableEq

inductive EnrollmentIssue
  | created (id : EnrollmentId) (code : Secret) (expiresAt : Millis)
  | replay (metadata : EnrollmentMetadata)
deriving DecidableEq

def EnrollmentIssue.code : EnrollmentIssue → Option Secret
  | .created _ code _ => some code
  | .replay _ => none

structure EnrollmentReceipt where
  hostId : HostId
  credentialId : CredentialId
  credentialGeneration : Nat
  credential : Secret
deriving DecidableEq

def Enrollment.metadata (e : Enrollment) : EnrollmentMetadata :=
  ⟨e.id, e.expiresAt, e.consumed, e.revokedAt⟩

structure FreshCode where
  id : EnrollmentId
  code : Secret
deriving DecidableEq

structure FreshHost where
  hostId : HostId
  rootDomainId : DomainId
  credentialId : CredentialId
  credential : Secret
deriving DecidableEq

/-! ## Single writes -/

def Host.authority (h : Host) : Nat × Option SessionId × Option String × Option Incarnation :=
  (h.epoch, h.agentSessionId, h.bootId, h.authorityIncarnation)

namespace HostProfile

def invalidated (p : HostProfile) : HostProfile :=
  { p with
    inventoryComplete := false, lastInventoryAt := none, inventoryEpoch := none
    inventorySessionId := none, inventoryBootId := none }

def enrolled (hostId : HostId) (enrollment : EnrollmentId) : HostProfile where
  hostId := hostId
  revision := 1
  inventoryComplete := false
  inventoryRevision := 0
  inventoryDigest := none
  inventoryEpoch := none
  inventorySessionId := none
  inventoryBootId := none
  lastInventoryAt := none
  currentEnrollmentId := some enrollment
  currentEnrollmentEpoch := some 1

@[simp] theorem enrolled_hostId (hostId : HostId) (enrollment : EnrollmentId) :
    (enrolled hostId enrollment).hostId = hostId := rfl

end HostProfile

/-- A write to both halves of a row of `fleet_hosts`. -/
structure HostWrite where
  host : Host → Host
  profile : HostProfile → HostProfile
  host_id : ∀ h, (host h).id = h.id
  profile_id : ∀ p, (profile p).hostId = p.hostId

/-- The write sets an epoch, session, boot or incarnation the host does not have. -/
def HostWrite.moves (w : HostWrite) (h : Option Host) : Bool :=
  h.any fun h => (w.host h).authority != h.authority

def HostWrite.settled (w : HostWrite) (h : Option Host) (p : HostProfile) : HostProfile :=
  if w.moves h then (w.profile p).invalidated else w.profile p

theorem Credential.id_revoke (now : Millis) (c : Credential) :
    { c with revokedAt := some now }.id = c.id := rfl

theorem Rotation.id_revoke (now : Millis) (x : Rotation) :
    { x with phase := .revoked, revokedAt := some now }.id = x.id := rfl

def Store.revokeCredentials (s : Store) (hostId : HostId) (which : Credential → Bool)
    (now : Millis) : Store :=
  { s with
    credentials := s.credentials.update
      (fun c => c.hostId == hostId && which c && c.revokedAt.isNone)
      (fun c => { c with revokedAt := some now }) (Credential.id_revoke now) }

namespace Registry

variable (r : Registry)

def audit (e : AdminEvent) : Registry := { r with audits := r.audits ++ [e] }

def updateHost (id : HostId) (w : HostWrite) : Registry :=
  { r with
    store := { r.store with hosts := r.store.hosts.update (·.id == id) w.host w.host_id }
    profiles := r.profiles.update (·.hostId == id) (w.settled (r.store.hosts.find id))
      fun p => by unfold HostWrite.settled; split <;> exact w.profile_id p }

def revokeOpenRotations (hostId : HostId) (actor : Option UserId) (action : AdminAction)
    (now : Millis) : Registry :=
  let isOpen (x : Rotation) := x.hostId == hostId && (x.phase == .requested || x.phase == .exchanged)
  { r with
    store := { r.store with
      rotations := r.store.rotations.update isOpen
        (fun x => { x with phase := .revoked, revokedAt := some now }) (Rotation.id_revoke now) }
    audits := r.audits ++ (r.store.rotations.rows.filter isOpen).map fun x =>
      ⟨actor, some hostId, x.id, action, now⟩ }

def markConsumed (id : EnrollmentId) (hostId : HostId) (now : Millis) : Registry :=
  { r with
    enrollments := r.enrollments.update
      (fun e => e.id == id && e.consumed.isNone && e.revokedAt.isNone && decide (now < e.expiresAt))
      (fun e => { e with consumed := some (now, hostId) }) fun _ => rfl }

/-- `INSERT INTO host_enrollments`, whose code verifiers are unique, and whose idempotency
keys are for each issuer. -/
def insertEnrollment (e : Enrollment) : Option (Table Enrollment.id) :=
  if r.enrollments.rows.any fun e' => e'.codeVerifier == e.codeVerifier
      || e'.issuedBy == e.issuedBy && e'.idempotencyKey == e.idempotencyKey then none
  else r.enrollments.insert? e

/-! ## Issuing and revoking codes -/

variable (H : Hashing)

def ttlMillis (ttl : Option Millis) : Except AdminError Millis :=
  let ttl := ttl.getD defaultEnrollmentTtlMillis
  if 60000 ≤ ttl ∧ ttl ≤ maxEnrollmentTtlMillis then .ok ttl else .error (.input .invalidTtl)

def validKey (key : String) : Except AdminError Unit :=
  if Store.validateIdempotencyKey key then .ok ()
  else .error (.registry (.invalidRequest "idempotency key is malformed"))

variable (r : Registry)

def issuedUnder (user : UserId) (key : String) : Option Enrollment :=
  r.enrollments.rows.find? fun e => e.issuedBy == user && e.idempotencyKey == key

def issue (user : UserId) (key : String) (mode : EnrollmentMode) (scope : EnrollmentScope)
    (request : EnrollmentRequest) (fresh : FreshCode) (expiresAt : Millis) (event : AdminEvent) :
    Except AdminError (EnrollmentIssue × Registry) :=
  match r.insertEnrollment ⟨fresh.id, H.secret fresh.code, mode, scope, user, key, request,
      expiresAt, none, none⟩ with
  | none => .error (.registry .database)
  | some enrollments =>
    .ok (.created fresh.id fresh.code expiresAt, { r with enrollments }.audit event)

def issueEnrollment (d : Directory) (user : UserId) (key : String) (scope : EnrollmentScope)
    (intendedHostId : Option HostId) (ttl : Option Millis) (fresh : FreshCode) (now : Millis) :
    Except AdminError (EnrollmentIssue × Registry) := do
  validKey key
  let ttl ← ttlMillis ttl
  d.ensureSystemAdmin user
  d.ensureScopeAdmin user scope
  match r.issuedUnder user key with
  | some e =>
    if e.request ≠ .issue scope intendedHostId ttl then .error (.registry .idempotencyConflict)
    else return (.replay e.metadata, r)
  | none =>
    if intendedHostId.isSome then
      .error (.registry (.invalidRequest "existing hosts require explicit recovery"))
    else
      r.issue H user key .normal scope (.issue scope intendedHostId ttl) fresh (now + ttl)
        ⟨some user, none, fresh.id, .enrollmentIssued (now + ttl) scope, now⟩

def revokeEnrollment (d : Directory) (user : UserId) (id : EnrollmentId) (now : Millis) :
    Except AdminError Registry := do
  d.ensureSystemAdmin user
  match r.enrollments.find id with
  | none => .error (.registry .notFound)
  | some e =>
    if e.revokedAt.isSome then return r
    else if e.consumed.isSome then .error .enrollmentGone
    else
      return { r with
        enrollments := r.enrollments.update
          (fun e => e.id == id && e.revokedAt.isNone && e.consumed.isNone)
          (fun e => { e with revokedAt := some now }) fun _ => rfl
        }.audit ⟨some user, none, id, .enrollmentRevoked, now⟩

/-! ## Consuming a code -/

def pendingHost (id : HostId) : Host where
  id := id
  epoch := 1
  enrollmentState := .pending
  lifecycleState := .paused
  integrityState := .unverified
  bootId := none
  agentSessionId := none
  authorityIncarnation := none
  authorityExpiresAt := none
  currentCredentialGeneration := some 1

def enroll (e : Enrollment) (fresh : FreshHost) (now : Millis) :
    Except AdminError (EnrollmentReceipt × Registry) :=
  match r.store.hosts.insert? (pendingHost fresh.hostId),
      r.store.domains.insert? ⟨fresh.rootDomainId, fresh.hostId, none, ⟨0, 0, 0⟩⟩,
      r.store.insertCredential ⟨fresh.credentialId, fresh.hostId, 1, 1,
        H.secret fresh.credential, none, none, none⟩ with
  | some hosts, some domains, some credentials =>
    let r := { r with
      store := { r.store with hosts, domains, credentials }
      profiles := r.profiles.upsert (.enrolled fresh.hostId e.id)
        (fun p => .enrolled p.hostId e.id) fun _ => HostProfile.enrolled_hostId _ _ }
    .ok (⟨fresh.hostId, fresh.credentialId, 1, fresh.credential⟩,
      (r.markConsumed e.id fresh.hostId now).audit
        ⟨none, some fresh.hostId, fresh.hostId, .enrollmentConsumed e.id 1, now⟩)
  | _, _, _ => .error (.registry .database)

/-- The host starts over in the next epoch, without session, authority or inventory. -/
def renewal (epoch generation : Nat) (enrollment : EnrollmentId) : HostWrite where
  host h := { h with
    epoch, enrollmentState := .pending, lifecycleState := .paused, integrityState := .unverified
    agentSessionId := none, bootId := none, authorityExpiresAt := none
    currentCredentialGeneration := some generation }
  profile p := { p with
    revision := p.revision + 1, inventoryComplete := false, inventoryRevision := 0
    inventoryDigest := none, currentEnrollmentId := some enrollment
    currentEnrollmentEpoch := some epoch }
  host_id _ := rfl
  profile_id _ := rfl

/-- The host is back where a new one starts, one epoch later. -/
def startOver (e : Enrollment) (hostId : HostId) (epoch generation : Nat) (now : Millis) :
    Registry :=
  let r := r.revokeOpenRotations hostId none .rotationRevokedByRecovery now
  let r := { r with store := r.store.revokeCredentials hostId (fun _ => true) now }
  let r := r.markConsumed e.id hostId now
  r.updateHost hostId (renewal epoch generation e.id)

/-- A recovery code raises the epoch of its host and replaces every credential. -/
def recover (e : Enrollment) (hostId : HostId) (epoch revision : Nat) (fresh : FreshHost)
    (now : Millis) : Except AdminError (EnrollmentReceipt × Registry) :=
  match r.store.hosts.find hostId, r.profiles.find hostId with
  | some h, some p =>
    if h.epoch ≠ epoch ∨ p.revision ≠ revision ∨ h.enrollmentState = .revoked then
      .error .enrollmentScopeMismatch
    else if h.lifecycleState = .retired then .error (.registry .forbidden)
    else
      let generation := r.store.nextGeneration hostId
      let r := r.startOver e hostId (epoch + 1) generation now
      match r.store.insertCredential ⟨fresh.credentialId, hostId, epoch + 1, generation,
          H.secret fresh.credential, none, none, none⟩ with
      | none => .error (.registry .database)
      | some credentials =>
        .ok (⟨hostId, fresh.credentialId, generation, fresh.credential⟩,
          { r with store := { r.store with credentials } }.audit
            ⟨none, some hostId, hostId, .hostRecovered e.id (epoch + 1) generation, now⟩)
  | _, _ => .error .enrollmentScopeMismatch

/-- Uses a code. The checks at the top are the guards of the later updates. -/
def consumeEnrollment (d : Directory) (code : Secret) (fresh : FreshHost) (now : Millis) :
    Except AdminError (EnrollmentReceipt × Registry) :=
  if !validateSecretText code then .error (.registry .credential)
  else
    match r.enrollments.rows.find? fun e => e.codeVerifier == H.secret code with
    | none => .error .enrollmentGone
    | some e =>
      if e.expiresAt ≤ now ∨ e.consumed.isSome ∨ e.revokedAt.isSome then .error .enrollmentGone
      else do
        d.ensureScopeAdmin e.issuedBy e.scope
        match e.mode with
        | .recovery hostId epoch revision => r.recover H e hostId epoch revision fresh now
        | .normal => r.enroll H e fresh now

/-! ## Recovery codes -/

def lineage (hostId : HostId) : Option Enrollment :=
  ((r.profiles.find hostId).bind (·.currentEnrollmentId)).bind fun id =>
    (r.enrollments.find id).filter fun e => e.consumed.any (·.2 == hostId)

def activeTargets (hostId : HostId) : List TargetId :=
  (r.grants.rows.filter fun g => g.hostId == hostId && g.revokedAt.isNone).map (·.targetId)

/-- What a recovered host may ask for again: the scope of its code while it waits for
approval, and its grants afterwards. -/
def recoveryScope (h : Host) : Except AdminError EnrollmentScope :=
  if h.enrollmentState = .pending then
    match r.lineage h.id with
    | none => .error .enrollmentScopeMismatch
    | some e => .ok e.scope
  else
    match EnrollmentScope.new (r.activeTargets h.id) with
    | .error e => .error (.input e)
    | .ok scope => .ok scope

def recoverHost (d : Directory) (user : UserId) (hostId : HostId) (expectedRevision : Nat)
    (key : String) (fresh : FreshCode) (now : Millis) :
    Except AdminError (EnrollmentIssue × Registry) := do
  validKey key
  d.ensureSystemAdmin user
  match r.issuedUnder user key with
  | some e =>
    if e.request ≠ .recover hostId expectedRevision ∨ e.mode = .normal then
      .error (.registry .idempotencyConflict)
    else
      d.ensureScopeAdmin user e.scope
      return (.replay e.metadata, r)
  | none =>
    match (r.store.hosts.find hostId).filter (·.enrollmentState != .revoked),
        r.profiles.find hostId with
    | some h, some p =>
      if h.lifecycleState = .retired then .error (.registry .forbidden)
      else if p.revision ≠ expectedRevision then .error .staleRevision
      else
        let scope ← r.recoveryScope h
        d.ensureScopeAdmin user scope
        let expiresAt := now + defaultEnrollmentTtlMillis
        r.issue H user key (.recovery hostId h.epoch p.revision) scope
          (.recover hostId expectedRevision) fresh expiresAt
          ⟨some user, some hostId, hostId, .recoveryIssued expiresAt h.epoch p.revision, now⟩
    | _, _ => .error (.registry .notFound)

/-! ## What the calls do -/

variable {H} {r t : Registry} {d : Directory} {user : UserId} {key : String} {fresh : FreshCode}
  {answer : EnrollmentIssue} {now : Millis}

/-- An issuing call answers from the row of its key, or adds a row for a new code and
gives the code away once. -/
inductive Issues (H : Hashing) (r : Registry) (user : UserId) (key : String) :
    EnrollmentIssue → Registry → Prop
  | replay {e : Enrollment} (he : e ∈ r.enrollments) (huser : e.issuedBy = user)
      (hkey : e.idempotencyKey = key) : Issues H r user key (.replay e.metadata) r
  | created {e : Enrollment} {code : Secret} {enrollments : Table Enrollment.id}
      {event : AdminEvent} (huser : e.issuedBy = user) (hkey : e.idempotencyKey = key)
      (hcode : e.codeVerifier = H.secret code)
      (hnew : ∀ e' ∈ r.enrollments, e'.codeVerifier ≠ e.codeVerifier ∧
        ¬ (e'.issuedBy = user ∧ e'.idempotencyKey = key))
      (hinsert : r.enrollments.insert? e = some enrollments) :
      Issues H r user key (.created e.id code e.expiresAt) ({ r with enrollments }.audit event)

theorem issue_issues {mode : EnrollmentMode} {scope : EnrollmentScope}
    {request : EnrollmentRequest} {expiresAt : Millis} {event : AdminEvent}
    (h : r.issue H user key mode scope request fresh expiresAt event = .ok (answer, t)) :
    Issues H r user key answer t := by
  unfold issue at h
  split at h
  · cases h
  next enrollments hins =>
  cases h
  unfold insertEnrollment at hins
  split at hins
  · cases hins
  next hfree =>
  refine .created (e := ⟨fresh.id, H.secret fresh.code, mode, scope, user, key, request,
    expiresAt, none, none⟩) rfl rfl rfl (fun e' he' => ?_) hins
  simp only [List.any_eq_true, Bool.or_eq_true, Bool.and_eq_true, beq_iff_eq, not_exists,
    not_and, not_or] at hfree
  exact ⟨(hfree e' he').1, fun hsame => (hfree e' he').2 hsame.1 hsame.2⟩

theorem issuedUnder_some {e : Enrollment} (h : r.issuedUnder user key = some e) :
    e ∈ r.enrollments ∧ e.issuedBy = user ∧ e.idempotencyKey = key := by
  have hkey := List.find?_some h
  simp only [Bool.and_eq_true, beq_iff_eq] at hkey
  exact ⟨List.mem_of_find?_eq_some h, hkey⟩

theorem issueEnrollment_issues {scope : EnrollmentScope} {intendedHostId : Option HostId}
    {ttl : Option Millis}
    (h : r.issueEnrollment H d user key scope intendedHostId ttl fresh now = .ok (answer, t)) :
    Issues H r user key answer t := by
  obtain ⟨-, -, h⟩ := bind_eq_ok h
  obtain ⟨ttl, -, h⟩ := bind_eq_ok h
  obtain ⟨-, -, h⟩ := bind_eq_ok h
  obtain ⟨-, -, h⟩ := bind_eq_ok h
  split at h
  · next e he =>
    split at h <;> cases h
    obtain ⟨hmem, huser, hkey⟩ := issuedUnder_some he
    exact .replay hmem huser hkey
  · split at h
    · cases h
    · exact issue_issues h

theorem recoverHost_issues {hostId : HostId} {expectedRevision : Nat}
    (h : r.recoverHost H d user hostId expectedRevision key fresh now = .ok (answer, t)) :
    Issues H r user key answer t := by
  obtain ⟨-, -, h⟩ := bind_eq_ok h
  obtain ⟨-, -, h⟩ := bind_eq_ok h
  split at h
  · next e he =>
    split at h
    · cases h
    obtain ⟨-, -, h⟩ := bind_eq_ok h
    cases h
    obtain ⟨hmem, huser, hkey⟩ := issuedUnder_some he
    exact .replay hmem huser hkey
  · split at h
    · split at h
      · cases h
      split at h
      · cases h
      obtain ⟨scope, -, h⟩ := bind_eq_ok h
      obtain ⟨-, -, h⟩ := bind_eq_ok h
      exact issue_issues h
    · cases h

theorem revokeEnrollment_cases {id : EnrollmentId}
    (h : r.revokeEnrollment d user id now = .ok t) :
    (∃ e, r.enrollments.find id = some e ∧ e.revokedAt.isSome ∧ t = r) ∨
    ∃ e event, r.enrollments.find id = some e ∧ e.consumed = none ∧ e.revokedAt = none ∧
      t = { r with
        enrollments := r.enrollments.update
          (fun e => e.id == id && e.revokedAt.isNone && e.consumed.isNone)
          (fun e => { e with revokedAt := some now }) fun _ => rfl }.audit event := by
  obtain ⟨-, -, h⟩ := bind_eq_ok h
  split at h
  · cases h
  next e he =>
  split at h
  · next hrevoked =>
    cases h
    exact .inl ⟨e, he, hrevoked, rfl⟩
  next hrevoked =>
  split at h
  · cases h
  next hconsumed =>
  cases h
  exact .inr ⟨e, _, he, by simpa using hconsumed, by simpa using hrevoked, rfl⟩

variable {e : Enrollment} {host : FreshHost} {receipt : EnrollmentReceipt}

theorem enroll_cases (h : r.enroll H e host now = .ok (receipt, t)) :
    ∃ hosts domains credentials event,
      receipt = ⟨host.hostId, host.credentialId, 1, host.credential⟩ ∧
      r.store.hosts.insert? (pendingHost host.hostId) = some hosts ∧
      r.store.insertCredential ⟨host.credentialId, host.hostId, 1, 1,
        H.secret host.credential, none, none, none⟩ = some credentials ∧
      t = ({ r with
        store := { r.store with hosts, domains, credentials }
        profiles := r.profiles.upsert (.enrolled host.hostId e.id)
          (fun p => .enrolled p.hostId e.id) fun _ => HostProfile.enrolled_hostId _ _ }.markConsumed e.id host.hostId
          now).audit event := by
  unfold enroll at h
  split at h
  · next hosts domains credentials hhosts hdomains hcredentials =>
    cases h
    exact ⟨hosts, domains, credentials, _, rfl, hhosts, hcredentials, rfl⟩
  · cases h

theorem recover_cases {hostId : HostId} {epoch revision : Nat}
    (h : r.recover H e hostId epoch revision host now = .ok (receipt, t)) :
    ∃ x p credentials event, r.store.hosts.find hostId = some x ∧
      r.profiles.find hostId = some p ∧ x.epoch = epoch ∧ p.revision = revision ∧
      x.lifecycleState ≠ .retired ∧
      receipt = ⟨hostId, host.credentialId, r.store.nextGeneration hostId, host.credential⟩ ∧
      let u := r.startOver e hostId (epoch + 1) (r.store.nextGeneration hostId) now
      u.store.insertCredential ⟨host.credentialId, hostId, epoch + 1,
        r.store.nextGeneration hostId, H.secret host.credential, none, none, none⟩
        = some credentials ∧
      t = { u with store := { u.store with credentials } }.audit event := by
  unfold recover at h
  split at h
  · next x p hx hp =>
    split at h
    · cases h
    next hmatch =>
    split at h
    · cases h
    next hretired =>
    dsimp only at h
    split at h
    · cases h
    next credentials hins =>
    cases h
    push Not at hmatch
    exact ⟨x, p, credentials, _, hx, hp, hmatch.1, hmatch.2.1, hretired, rfl, hins, rfl⟩
  · cases h

theorem consumeEnrollment_cases {code : Secret}
    (h : r.consumeEnrollment H d code host now = .ok (receipt, t)) :
    ∃ e ∈ r.enrollments, e.codeVerifier = H.secret code ∧ now < e.expiresAt ∧
      e.consumed = none ∧ e.revokedAt = none ∧
      (e.mode = .normal ∧ r.enroll H e host now = .ok (receipt, t) ∨
        ∃ hostId epoch revision, e.mode = .recovery hostId epoch revision ∧
          r.recover H e hostId epoch revision host now = .ok (receipt, t)) := by
  unfold consumeEnrollment at h
  split at h
  · cases h
  split at h
  · cases h
  next e he =>
  split at h
  · cases h
  next hlive =>
  obtain ⟨-, -, h⟩ := bind_eq_ok h
  push Not at hlive
  refine ⟨e, List.mem_of_find?_eq_some he, by simpa using List.find?_some he, hlive.1,
    by simpa using hlive.2.1, by simpa using hlive.2.2, ?_⟩
  split at h
  · next hostId epoch revision hmode => exact .inr ⟨hostId, epoch, revision, hmode, h⟩
  · next hmode => exact .inl ⟨hmode, h⟩

end Registry

end Gridops.Fleet
