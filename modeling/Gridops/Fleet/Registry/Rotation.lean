import Gridops.Lib.Run
import Gridops.Fleet.Store

/-!
# Host credentials and their rotation

A host authenticates with a secret whose hash is stored. An administrator requests a rotation; the
host proposes the next secret with its old credential (`exchange_rotation`), which leaves the old
one valid for five more minutes, and acknowledges it with the new one (`acknowledge_rotation`),
which revokes every older generation.

`Store.Rotates` is the state of a host's credentials between these transactions.
-/

namespace Gridops.Fleet

open Gridops.Lib

def base64url : List Char :=
  "ABCDEFGHIJKLMNOPQRSTUVWXYZabcdefghijklmnopqrstuvwxyz0123456789-_".toList

/-- 43 base64url digits that encode 32 bytes: the last digit has only four bits to carry. -/
def validateSecretText (secret : Secret) : Bool :=
  let digits := secret.toList
  digits.length == 43 && digits.all (base64url.contains ·) &&
    digits.getLast?.all fun last => base64url.idxOf last % 4 == 0

def rotationOverlapMillis : Millis := 300000
def rotationTtlMillis : Millis := 900000

def Credential.isLive (c : Credential) (now : Millis) : Bool :=
  c.revokedAt.isNone && c.overlapExpiresAt.all (now < ·)

def Host.mayAuthenticate (h : Host) : Bool :=
  h.enrollmentState != .revoked && h.lifecycleState != .retired

def Rotation.isOpen (x : Rotation) : Bool :=
  (x.phase == .requested || x.phase == .exchanged) && x.revokedAt.isNone && x.acknowledgedAt.isNone

/-- The credential a rotation replaces, while it is not revoked. -/
def Rotation.isOld (x : Rotation) (c : Credential) : Bool :=
  c.id == x.oldCredentialId && c.hostId == x.hostId && c.generation == x.oldGeneration
    && c.hostEpoch == x.oldHostEpoch && c.revokedAt.isNone

namespace Store

variable (H : Hashing)

variable (s : Store)

def authenticate (hostId : HostId) (secret : Secret) (now : Millis) :
    Except RegistryError AuthenticatedHost :=
  if !validateSecretText secret then .error .credential
  else
    match s.hosts.find hostId, s.credentials.rows.find? fun c =>
        c.hostId == hostId && c.isLive now && c.verifier == H.secret secret with
    | some h, some c =>
      if h.mayAuthenticate && c.hostEpoch == h.epoch then
        .ok { hostId, credentialId := c.id, generation := c.generation, epoch := h.epoch }
      else .error .invalidCredential
    | _, _ => .error .invalidCredential

/-! ## Requesting a rotation -/

/-- `IdempotencyKey::parse`: 1 to 128 printable ASCII characters. -/
def validateIdempotencyKey (key : String) : Bool :=
  key.toList != [] && key.toList.length ≤ 128 &&
    key.toList.all fun c => 0x21 ≤ c.toNat && c.toNat ≤ 0x7e

structure RotationRequestReceipt where
  operationId : RotationId
  hostId : HostId
  oldGeneration : Nat
  nextGeneration : Nat
  expiresAt : Millis
deriving DecidableEq

def Rotation.receipt (x : Rotation) : RotationRequestReceipt :=
  ⟨x.id, x.hostId, x.oldGeneration, x.nextGeneration, x.expiresAt⟩

/-- A request that was never exchanged and is past its lifetime. -/
def isExpired (hostId : HostId) (now : Millis) (x : Rotation) : Bool :=
  x.hostId == hostId && x.phase == .requested && x.expiresAt ≤ now

def revokeExpiredRotations (hostId : HostId) (user : UserId) (now : Millis) : Store :=
  { s with
    rotations := s.rotations.update (isExpired hostId now)
      (fun x => { x with phase := .revoked, revokedAt := some now }) fun _ => rfl
    events := s.events ++ (s.rotations.rows.filter (isExpired hostId now)).map fun x =>
      ⟨some user, some hostId, x.id, .rotationExpired, now⟩ }

def nextGeneration (hostId : HostId) : Nat :=
  let used := (s.credentials.rows.filter fun c => c.hostId == hostId).map (·.generation)
  let reserved := (s.rotations.rows.filter fun x => x.hostId == hostId).map (·.nextGeneration)
  max (used.max?.getD 0) (reserved.max?.getD 0) + 1

/-- The part of `request_rotation` behind its idempotency check. -/
def openRotation (user : UserId) (hostId : HostId) (expected : Nat) (key : String)
    (operationId : RotationId) (now : Millis) :
    Except RegistryError (RotationRequestReceipt × Store) :=
  match s.hosts.find hostId with
  | none => .error .notFound
  | some h =>
    if !h.mayAuthenticate then .error .forbidden
    else if h.currentCredentialGeneration.any (· != expected) then .error .staleGeneration
    else
      let s := s.revokeExpiredRotations hostId user now
      if s.rotations.rows.any fun x => x.hostId == hostId && x.isOpen then .error .rotationConflict
      else
        match s.credentials.rows.find? fun c =>
            c.hostId == hostId && c.generation == expected && c.hostEpoch == h.epoch
              && c.isLive now with
        | none => .error .staleGeneration
        | some old =>
          let x : Rotation :=
            { id := operationId, hostId, oldCredentialId := old.id, oldGeneration := old.generation
              oldHostEpoch := old.hostEpoch, nextGeneration := s.nextGeneration hostId
              idempotencyKey := key, requestedBy := user, requestedGeneration := expected
              phase := .requested, proposedVerifier := none, expiresAt := now + rotationTtlMillis
              exchangedAt := none, overlapExpiresAt := none, acknowledgedAt := none
              revokedAt := none }
          match s.rotations.insert? x with
          | none => .error .database
          | some rotations =>
            .ok (Rotation.receipt x, { s with rotations }.auditAndEvent
              ⟨some user, some hostId, hostId,
                .rotationRequested x.id x.oldGeneration x.nextGeneration, now⟩)

def requestRotation (isSystemAdmin : Bool) (user : UserId) (hostId : HostId) (expected : Nat)
    (key : String) (operationId : RotationId) (now : Millis) :
    Except RegistryError (RotationRequestReceipt × Store) :=
  if !validateIdempotencyKey key then .error (.invalidRequest "idempotency key is malformed")
  else if !isSystemAdmin then .error .forbidden
  else
    match s.rotations.rows.find? fun x => x.hostId == hostId && x.idempotencyKey == key with
    | some x =>
      if x.requestedBy = user ∧ x.requestedGeneration = expected then .ok (Rotation.receipt x, s)
      else .error .idempotencyConflict
    | none => s.openRotation user hostId expected key operationId now

/-- What a heartbeat tells the host: its open rotation, unless it expired unexchanged. -/
def pendingRotation (hostId : HostId) (now : Millis) : Option (RotationId × Nat) :=
  let pending := s.rotations.rows.filter fun x =>
    x.hostId == hostId && x.revokedAt.isNone
      && (x.phase == .exchanged || x.phase == .requested && now < x.expiresAt)
  pending.getLast?.map fun x => (x.id, x.nextGeneration)

/-! ## Exchanging and acknowledging -/

structure RotationExchangeReceipt where
  operationId : RotationId
  credentialId : CredentialId
  generation : Nat
  overlapExpiresAt : Millis
deriving DecidableEq

/-- The rotation an exchange is for, if the caller may still exchange it. -/
def rotationToExchange (auth : AuthenticatedHost) (operationId : RotationId) (now : Millis) :
    Except RegistryError Rotation :=
  match s.rotations.find operationId with
  | none => .error .notFound
  | some x =>
    if x.hostId ≠ auth.hostId then .error .forbidden
    else if x.oldGeneration ≠ auth.generation then .error .staleGeneration
    else if x.oldCredentialId ≠ auth.credentialId ∨ x.oldHostEpoch ≠ auth.epoch then
      .error .staleGeneration
    else if x.phase = .revoked ∨ x.phase = .requested ∧ x.expiresAt ≤ now then .error .rotationGone
    else .ok x

/-- `INSERT INTO host_credentials`, whose verifiers are unique, and whose generations
are within a host. -/
def insertCredential (c : Credential) : Option (Table Credential.id) :=
  if s.credentials.rows.any fun c' =>
      c'.verifier == c.verifier || c'.hostId == c.hostId && c'.generation == c.generation then none
  else s.credentials.insert? c

/-- A first exchange: the new credential, the overlap of the old one, and the rotation. -/
def exchangeNew (x : Rotation) (verifier : Verifier) (credentialId : CredentialId) (now : Millis) :
    Except RegistryError (RotationExchangeReceipt × Store) :=
  let overlap := now + rotationOverlapMillis
  match s.hosts.find x.hostId with
  | none => .error .rotationConflict
  | some h =>
    match s.insertCredential ⟨credentialId, x.hostId, h.epoch, x.nextGeneration, verifier,
        none, none, none⟩ with
    | none => .error .database
    | some credentials =>
      if !credentials.rows.any x.isOld then .error .staleGeneration
      else if x.phase ≠ .requested ∨ x.revokedAt.isSome ∨ x.expiresAt ≤ now then
        .error .rotationConflict
      else
        .ok (⟨x.id, credentialId, x.nextGeneration, overlap⟩,
          { s with
            credentials := credentials.update x.isOld
              (fun c => { c with overlapExpiresAt := some overlap }) fun _ => rfl
            rotations := s.rotations.update (·.id == x.id)
              (fun r => { r with
                phase := .exchanged, proposedVerifier := some verifier
                exchangedAt := some now, overlapExpiresAt := some overlap }) fun _ => rfl
            }.auditAndEvent ⟨none, some x.hostId, x.hostId,
              .rotationExchanged x.id x.nextGeneration overlap, now⟩)

def exchangeRotation (auth : AuthenticatedHost) (operationId : RotationId) (nextSecret : Secret)
    (credentialId : CredentialId) (now : Millis) :
    Except RegistryError (RotationExchangeReceipt × Store) := do
  if !validateSecretText nextSecret then .error .credential
  s.ensureAuthenticatedGeneration auth now
  let x ← s.rotationToExchange auth operationId now
  match x.proposedVerifier with
  | none => s.exchangeNew x (H.secret nextSecret) credentialId now
  | some existing =>
    if existing ≠ H.secret nextSecret then .error .rotationConflict
    else
      match s.credentials.rows.find? fun c =>
          c.hostId == x.hostId && c.generation == x.nextGeneration, x.overlapExpiresAt with
      | none, _ => .error .database
      | _, none => .error .rotationConflict
      | some c, some overlap => .ok (⟨x.id, c.id, x.nextGeneration, overlap⟩, s)

structure RotationAckReceipt where
  operationId : RotationId
  hostId : HostId
  generation : Nat
  acknowledgedAt : Millis
deriving DecidableEq

def acknowledgeRotation (auth : AuthenticatedHost) (operationId : RotationId) (now : Millis) :
    Except RegistryError (RotationAckReceipt × Store) := do
  s.ensureAuthenticatedGeneration auth now
  match s.rotations.find operationId with
  | none => .error .notFound
  | some x =>
    if x.hostId ≠ auth.hostId ∨ x.nextGeneration ≠ auth.generation then .error .staleGeneration
    else if x.phase = .revoked ∨ x.exchangedAt = none then .error .rotationGone
    else
      match x.acknowledgedAt with
      | some at' => .ok (⟨x.id, auth.hostId, auth.generation, at'⟩, s)
      | none =>
        let isNew : Credential → Bool := fun c =>
          c.hostId == auth.hostId && c.generation == auth.generation && c.revokedAt.isNone
        if x.phase ≠ .exchanged ∨ x.revokedAt.isSome then .error .rotationConflict
        else if !s.credentials.rows.any isNew then .error .staleGeneration
        else
          .ok (⟨x.id, auth.hostId, auth.generation, now⟩,
            { s with
              rotations := s.rotations.update (·.id == x.id)
                (fun r => { r with phase := .acknowledged, acknowledgedAt := some now })
                fun _ => rfl
              credentials := (s.credentials.update isNew
                (fun c => { c with acknowledgedAt := some now }) fun _ => rfl).update
                (fun c => c.hostId == auth.hostId && decide (c.generation < auth.generation)
                  && c.revokedAt.isNone)
                (fun c => { c with revokedAt := some now }) fun _ => rfl
              hosts := s.hosts.update (·.id == auth.hostId)
                (fun h => { h with currentCredentialGeneration := some auth.generation })
                fun _ => rfl
              }.auditAndEvent ⟨none, some auth.hostId, auth.hostId,
                .rotationAcknowledged x.id auth.generation, now⟩)

/-! ## What the transactions do -/

variable {H} {s t : Store} {now : Millis}

variable {auth : AuthenticatedHost}

theorem authenticate_cases {hostId : HostId} {secret : Secret}
    (h : s.authenticate H hostId secret now = .ok auth) :
    validateSecretText secret ∧ ∃ r c, s.hosts.find hostId = some r ∧ c ∈ s.credentials ∧
      c.hostId = hostId ∧ c.isLive now ∧ c.verifier = H.secret secret ∧ r.mayAuthenticate ∧
      c.hostEpoch = r.epoch ∧ auth =
        { hostId, credentialId := c.id, generation := c.generation, epoch := r.epoch } := by
  unfold authenticate at h
  split at h
  · cases h
  next hvalid =>
  split at h
  · next r c hr hfind =>
    obtain ⟨hmay, h⟩ := check_eq_ok h
    cases h
    have hc := List.find?_some hfind
    simp only [Bool.and_eq_true, beq_iff_eq] at hc hmay
    exact ⟨by simpa using hvalid, r, c, hr, List.mem_of_find?_eq_some hfind, hc.1.1, hc.1.2,
      hc.2, hmay.1, hmay.2, rfl⟩
  · cases h

theorem insertCredential_some {c : Credential} {credentials : Table Credential.id}
    (h : s.insertCredential c = some credentials) :
    (∀ c' ∈ s.credentials, c'.verifier ≠ c.verifier ∧
      ¬ (c'.hostId = c.hostId ∧ c'.generation = c.generation)) ∧
    s.credentials.insert? c = some credentials := by
  unfold insertCredential at h
  split at h
  · cases h
  next hfree =>
  refine ⟨fun c' hc' => ?_, h⟩
  simp only [List.any_eq_true, Bool.or_eq_true, Bool.and_eq_true, beq_iff_eq, not_exists,
    not_and, not_or] at hfree
  exact ⟨(hfree c' hc').1, fun hsame => (hfree c' hc').2 hsame.1 hsame.2⟩

theorem exchangeNew_cases {x : Rotation} {verifier : Verifier} {credentialId : CredentialId}
    {receipt : RotationExchangeReceipt}
    (h : s.exchangeNew x verifier credentialId now = .ok (receipt, t)) :
    ∃ r credentials event, s.hosts.find x.hostId = some r ∧
      s.insertCredential ⟨credentialId, x.hostId, r.epoch, x.nextGeneration, verifier,
        none, none, none⟩ = some credentials ∧
      (∃ c ∈ credentials, x.isOld c) ∧ x.phase = .requested ∧
      t = { s with
        credentials := credentials.update x.isOld
          (fun c => { c with overlapExpiresAt := some (now + rotationOverlapMillis) }) fun _ => rfl
        rotations := s.rotations.update (·.id == x.id)
          (fun r => { r with
            phase := .exchanged, proposedVerifier := some verifier
            exchangedAt := some now
            overlapExpiresAt := some (now + rotationOverlapMillis) }) fun _ => rfl
        }.auditAndEvent event := by
  unfold exchangeNew at h
  split at h
  · cases h
  next r hr =>
  split at h
  · cases h
  next credentials hins =>
  split at h
  · cases h
  next hany =>
  split at h
  · cases h
  next hreq =>
  cases h
  simp only [Bool.not_eq_true, Bool.not_eq_false', List.any_eq_true] at hany
  exact ⟨r, credentials, _, hr, hins, hany, by_contra fun hp => hreq (.inl hp), rfl⟩

theorem exchangeRotation_cases {operationId : RotationId} {next : Secret}
    {credentialId : CredentialId} {receipt : RotationExchangeReceipt}
    (h : s.exchangeRotation H auth operationId next credentialId now = .ok (receipt, t)) :
    ∃ x ∈ s.rotations, x.hostId = auth.hostId ∧
      (t = s ∨ s.exchangeNew x (H.secret next) credentialId now = .ok (receipt, t)) := by
  unfold exchangeRotation at h
  split at h
  · cases h
  obtain ⟨-, -, h⟩ := bind_eq_ok h
  obtain ⟨x, hfind, h⟩ := bind_eq_ok h
  have hx : x ∈ s.rotations ∧ x.hostId = auth.hostId := by
    unfold rotationToExchange at hfind
    split at hfind
    · cases hfind
    next y hy =>
    split at hfind
    · cases hfind
    next hown =>
    split at hfind
    · cases hfind
    split at hfind
    · cases hfind
    split at hfind
    · cases hfind
    cases hfind
    exact ⟨Table.mem_of_find hy, not_not.mp hown⟩
  refine ⟨x, hx.1, hx.2, ?_⟩
  split at h
  · exact .inr h
  · split at h
    · cases h
    · split at h <;> cases h
      exact .inl rfl

theorem acknowledgeRotation_cases {operationId : RotationId} {receipt : RotationAckReceipt}
    (h : s.acknowledgeRotation auth operationId now = .ok (receipt, t)) :
    ∃ x ∈ s.rotations, x.id = operationId ∧ x.hostId = auth.hostId ∧
      x.nextGeneration = auth.generation ∧
      receipt.hostId = auth.hostId ∧ receipt.generation = auth.generation ∧
      (x.acknowledgedAt.isSome ∧ t = s ∨
        x.phase = .exchanged ∧
        (∃ c ∈ s.credentials, c.hostId = auth.hostId ∧ c.generation = auth.generation) ∧
        ∃ event, t = { s with
          rotations := s.rotations.update (·.id == x.id)
            (fun r => { r with phase := .acknowledged, acknowledgedAt := some now }) fun _ => rfl
          credentials := (s.credentials.update
            (fun c => c.hostId == auth.hostId && c.generation == auth.generation
              && c.revokedAt.isNone)
            (fun c => { c with acknowledgedAt := some now }) fun _ => rfl).update
            (fun c => c.hostId == auth.hostId && decide (c.generation < auth.generation)
              && c.revokedAt.isNone)
            (fun c => { c with revokedAt := some now }) fun _ => rfl
          hosts := s.hosts.update (·.id == auth.hostId)
            (fun h => { h with currentCredentialGeneration := some auth.generation }) fun _ => rfl
          }.auditAndEvent event) := by
  obtain ⟨-, -, h⟩ := bind_eq_ok h
  split at h
  · cases h
  next x hx =>
  split at h
  · cases h
  next hown =>
  split at h
  · cases h
  simp only [not_or, not_not] at hown
  refine ⟨x, Table.mem_of_find hx, Table.key_of_find hx, hown.1, hown.2, ?_⟩
  split at h
  · next hat =>
    cases h
    exact ⟨rfl, rfl, .inl ⟨by simp [hat], rfl⟩⟩
  dsimp only at h
  split at h
  · cases h
  next hphase =>
  split at h
  · cases h
  next hany =>
  cases h
  simp only [not_or, not_not] at hphase
  simp only [Bool.not_eq_true, Bool.not_eq_false', List.any_eq_true, Bool.and_eq_true,
    beq_iff_eq] at hany
  obtain ⟨c, hc, ⟨hhost, hgen⟩, -⟩ := hany
  exact ⟨rfl, rfl, .inr ⟨hphase.1, ⟨c, hc, hhost, hgen⟩, _, rfl⟩⟩

end Store

end Gridops.Fleet
