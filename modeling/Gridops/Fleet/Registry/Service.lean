import Gridops.Fleet.Registry.Observation

/-!
# The registry as a service

Every call that writes hosts, their credentials, sessions, codes or grants, in any order
and at any time. Each call is one transaction under the write lock; one that fails is
rolled back and is no step, except a handshake, which commits a conflict it refuses. The
rest of the control plane (admission, results, the reconciler) is the step `elsewhere`.

`IdentityFrame` says that a write leaves hosts, credentials, rotations and sessions
alone, as everything about commands and placements does.
-/

namespace Gridops.Fleet

open Gridops.Lib

/-! ## Writes about work only -/

theorem FleetStore.reconcileInventory_store {y z : FleetStore} {host : HostId}
    {report : InventoryReport} {freshDomain : String → DomainId}
    {freshBackend : String → BackendId}
    (h : y.reconcileInventory host report freshDomain freshBackend = .ok z) :
    ∃ domains, z.store = { y.store with domains } := by
  obtain ⟨-, -, h⟩ := bind_eq_ok h
  split at h
  · cases h
  obtain ⟨acc, hacc, h⟩ := bind_eq_ok h
  have htrans : ∀ a b c : Store, (∃ domains, b = { a with domains }) →
      (∃ domains, c = { b with domains }) → ∃ domains, c = { a with domains } := by
    rintro a b c ⟨domains, rfl⟩ ⟨domains', rfl⟩
    exact ⟨domains', rfl⟩
  have hdomains : ∃ domains, acc.1.store = { y.store with domains } := by
    refine foldlM_rel (R := fun a b : FleetStore × List (String × DomainId) =>
      ∃ domains, b.1.store = { a.1.store with domains }) (fun a => ⟨a.1.store.domains, rfl⟩)
      (fun a b c => htrans _ _ _) (fun a d b hab => ?_) hacc
    obtain ⟨id, -, hab⟩ := bind_eq_ok hab
    obtain ⟨store, hstore, hab⟩ := bind_eq_ok hab
    obtain ⟨observed, -, hab⟩ := bind_eq_ok hab
    cases hab
    unfold FleetStore.attachDomain at hstore
    split at hstore
    · cases hstore
      exact ⟨_, rfl⟩
    split at hstore
    · cases hstore
    split at hstore
    · unfold FleetStore.insertDomain at hstore
      split at hstore
      · cases hstore
      split at hstore <;> cases hstore
      exact ⟨_, rfl⟩
    split at hstore
    · cases hstore
    split at hstore <;> cases hstore
    exact ⟨_, rfl⟩
  refine htrans _ _ _ hdomains (foldlM_rel (R := fun a b : FleetStore =>
    ∃ domains, b.store = { a.store with domains }) (fun a => ⟨a.store.domains, rfl⟩)
    (fun a b c => htrans _ _ _) (fun a b c habc => ?_) h)
  unfold FleetStore.upsertBackend at habc
  split at habc
  · cases habc
  obtain ⟨id, -, habc⟩ := bind_eq_ok habc
  obtain ⟨backends, -, habc⟩ := bind_eq_ok habc
  obtain ⟨observed, -, habc⟩ := bind_eq_ok habc
  cases habc
  exact ⟨_, rfl⟩

structure IdentityFrame (s t : Store) : Prop where
  hosts : t.hosts = s.hosts
  credentials : t.credentials = s.credentials
  rotations : t.rotations = s.rotations
  sessions : t.sessions = s.sessions

namespace IdentityFrame

variable {s t u : Store} {now : Millis}

theorem refl (s : Store) : IdentityFrame s s := ⟨rfl, rfl, rfl, rfl⟩

theorem trans (h₁ : IdentityFrame s t) (h₂ : IdentityFrame t u) : IdentityFrame s u :=
  ⟨h₂.hosts.trans h₁.hosts, h₂.credentials.trans h₁.credentials,
    h₂.rotations.trans h₁.rotations, h₂.sessions.trans h₁.sessions⟩

theorem of_writes {P : PlacementId → Prop} {N : PlacementState → Prop} (h : Writes P N s t) :
    IdentityFrame s t :=
  h.rel refl (fun _ _ _ => trans) fun _ _ hw => by cases hw <;> exact ⟨rfl, rfl, rfl, rfl⟩

theorem settleFlushed (s : Store) (hostId : HostId) (epoch : Nat) (request : HandshakeRequest)
    (now : Millis) :
    IdentityFrame s (s.settleFlushed hostId epoch request now) := by
  unfold Store.settleFlushed
  split
  · exact of_writes (.settleUnreceived s hostId epoch request.agentSessionId now)
  · exact refl s

end IdentityFrame

/-! ## The calls -/

namespace Registry

variable (H : Hashing)

variable (r : Registry)

def requestRotation (d : Directory) (user : UserId) (hostId : HostId) (expected : Nat)
    (key : String) (operationId : RotationId) (now : Millis) :
    Except RegistryError (Store.RotationRequestReceipt × Registry) := do
  let (receipt, store) ← r.store.requestRotation (d.ensureSystemAdmin user).isOk user hostId
    expected key operationId now
  return (receipt, { r with store })

def exchangeRotation (auth : AuthenticatedHost) (operationId : RotationId) (nextSecret : Secret)
    (credentialId : CredentialId) (now : Millis) :
    Except RegistryError (Store.RotationExchangeReceipt × Registry) := do
  let (receipt, store) ← r.store.exchangeRotation H auth operationId nextSecret credentialId now
  return (receipt, { r with store })

theorem hostId_revise (p : HostProfile) :
    { p with revision := p.revision + 1 }.hostId = p.hostId := rfl

/-- An acknowledgement that is not a replay is a new revision of the host. -/
def acknowledgeRotation (auth : AuthenticatedHost) (operationId : RotationId) (now : Millis) :
    Except RegistryError (Store.RotationAckReceipt × Registry) := do
  let (receipt, store) ← r.store.acknowledgeRotation auth operationId now
  if (r.store.rotations.find operationId).any (·.acknowledgedAt.isSome) then
    return (receipt, { r with store })
  else
    return (receipt, { r with
      store
      profiles := r.profiles.update (·.hostId == auth.hostId)
        (fun p => { p with revision := p.revision + 1 }) hostId_revise })

def pollCommands (auth : AuthenticatedHost) (session : SessionId) (now : Millis) :
    Except RegistryError (List AgentCommandEnvelope × Registry) := do
  let (commands, store) ← r.store.pollCommands auth session now
  return (commands, { r with store })

def initial (control : Option ControlPlane) : Registry where
  store := { Store.empty with controlPlane := control }
  backends := .empty
  observedDomains := .empty
  observedBackends := .empty
  profiles := .empty
  receipts := .empty
  snapshots := .empty
  enrollments := .empty
  grants := .empty
  audits := []

end Registry

structure RegistryService where
  db : Registry
  now : Millis

/-- One call; a directory is the one the call finds, and a poll reads the clock before it
waits for the write lock. -/
inductive RegistryCall
  | issueEnrollment (d : Directory) (user : UserId) (key : String) (scope : EnrollmentScope)
      (intendedHostId : Option HostId) (ttl : Option Millis) (fresh : FreshCode)
  | revokeEnrollment (d : Directory) (user : UserId) (id : EnrollmentId)
  | consumeEnrollment (d : Directory) (code : Secret) (fresh : FreshHost)
  | recoverHost (d : Directory) (user : UserId) (hostId : HostId) (expectedRevision : Nat)
      (key : String) (fresh : FreshCode)
  | approveHost (d : Directory) (user : UserId) (request : ApproveHost)
  | setHostGrant (d : Directory) (user : UserId) (hostId : HostId) (target : TargetId)
      (allowSchedule allowNative allowDockerSocket : Bool)
  | setHostLifecycle (d : Directory) (user : UserId) (hostId : HostId) (expectedRevision : Nat)
      (intent : LifecycleState)
  | retireHost (d : Directory) (user : UserId) (hostId : HostId) (expectedRevision : Nat)
  | revokeCredential (d : Directory) (user : UserId) (hostId : HostId) (generation : Nat)
  | requestRotation (d : Directory) (user : UserId) (hostId : HostId) (expected : Nat)
      (key : String) (operationId : RotationId)
  | exchangeRotation (auth : AuthenticatedHost) (operationId : RotationId) (nextSecret : Secret)
      (credentialId : CredentialId)
  | acknowledgeRotation (auth : AuthenticatedHost) (operationId : RotationId)
  | handshake (auth : AuthenticatedHost) (request : HandshakeRequest)
  | submitInventory (auth : AuthenticatedHost) (request : InventoryRequest)
      (freshDomain : String → DomainId) (freshBackend : String → BackendId)
  | heartbeat (auth : AuthenticatedHost) (request : HeartbeatRequest)
  | pollCommands (auth : AuthenticatedHost) (session : SessionId) (readAt : Millis)
  | elsewhere (store : Store)
  | advance (millis : Nat)

/-- The rest of the control plane writes neither hosts nor what they authenticate and
observe with. -/
def leavesIdentity (s t : Store) : Bool :=
  t.hosts == s.hosts && t.credentials == s.credentials && t.rotations == s.rotations
    && t.sessions == s.sessions

theorem IdentityFrame.of_leaves {s t : Store} (h : leavesIdentity s t) : IdentityFrame s t := by
  simp only [leavesIdentity, Bool.and_eq_true, beq_iff_eq] at h
  exact ⟨h.1.1.1, h.1.1.2, h.1.2, h.2⟩

namespace RegistryService

variable (H : Hashing) (digest : HandshakeRequest → String)

def initial (control : Option ControlPlane) (now : Millis) : RegistryService :=
  ⟨.initial control, now⟩

def call (s : RegistryService) : RegistryCall → Option Registry
  | .issueEnrollment d user key scope intendedHostId ttl fresh =>
    (s.db.issueEnrollment H d user key scope intendedHostId ttl fresh s.now).toOption.map (·.2)
  | .revokeEnrollment d user id => (s.db.revokeEnrollment d user id s.now).toOption
  | .consumeEnrollment d code fresh =>
    (s.db.consumeEnrollment H d code fresh s.now).toOption.map (·.2)
  | .recoverHost d user hostId expectedRevision key fresh =>
    (s.db.recoverHost H d user hostId expectedRevision key fresh s.now).toOption.map (·.2)
  | .approveHost d user request => (s.db.approveHost d user request s.now).toOption
  | .setHostGrant d user hostId target allowSchedule allowNative allowDockerSocket =>
    (s.db.setHostGrant d user hostId target allowSchedule allowNative allowDockerSocket
      s.now).toOption
  | .setHostLifecycle d user hostId expectedRevision intent =>
    (s.db.setHostLifecycle d user hostId expectedRevision intent s.now).toOption
  | .retireHost d user hostId expectedRevision =>
    (s.db.retireHost d user hostId expectedRevision s.now).toOption
  | .revokeCredential d user hostId generation =>
    (s.db.revokeCredential d user hostId generation s.now).toOption
  | .requestRotation d user hostId expected key operationId =>
    (s.db.requestRotation d user hostId expected key operationId s.now).toOption.map (·.2)
  | .exchangeRotation auth operationId nextSecret credentialId =>
    (s.db.exchangeRotation H auth operationId nextSecret credentialId s.now).toOption.map (·.2)
  | .acknowledgeRotation auth operationId =>
    (s.db.acknowledgeRotation auth operationId s.now).toOption.map (·.2)
  | .handshake auth request => some (s.db.handshake digest auth request s.now).1
  | .submitInventory auth request freshDomain freshBackend =>
    (s.db.submitInventory auth request freshDomain freshBackend s.now).toOption.map (·.2)
  | .heartbeat auth request => (s.db.heartbeat auth request s.now).toOption.map (·.2)
  | .pollCommands auth session readAt =>
    if readAt ≤ s.now then (s.db.pollCommands auth session readAt).toOption.map (·.2) else none
  | .elsewhere store => if leavesIdentity s.db.store store then some { s.db with store } else none
  | .advance _ => some s.db

def step (s : RegistryService) (a : RegistryCall) : Option RegistryService :=
  (s.call H digest a).map fun db => ⟨db, match a with
    | .advance millis => s.now + millis
    | _ => s.now⟩

variable {H digest} {s t : RegistryService} {a : RegistryCall}

theorem ok_of_map_toOption {ε α : Type} {x : Except ε (α × Registry)} {r : Registry}
    (h : x.toOption.map (·.2) = some r) : ∃ answer, x = .ok (answer, r) := by
  obtain ⟨⟨answer, r'⟩, hx, rfl⟩ := Option.map_eq_some_iff.mp h
  exact ⟨answer, ok_of_toOption hx⟩

end RegistryService

def registryService (H : Hashing) (digest : HandshakeRequest → String) :
    Machine RegistryService RegistryCall where
  step := RegistryService.step H digest

/-! ## A first host

One administrator, one target, and a code for it that becomes host 1. -/

namespace Sample

def directory : Directory where
  users := ⟨[⟨1, .admin⟩], by decide⟩
  targets := ⟨[⟨1, .githubRepository 1 1⟩], by decide⟩
  installations := ⟨[⟨1, 1, none⟩], by decide⟩
  repositories := ⟨[⟨1, 1⟩], by decide⟩
  connections := .empty
  userInstallations := ⟨[⟨1, 1, .admin⟩], by decide⟩
  bitbucketUserGrants := .empty

def scope : EnrollmentScope := ⟨[1], by decide, by decide⟩

def enrollmentCode : Secret := "CCCCCCCCCCCCCCCCCCCCCCCCCCCCCCCCCCCCCCCCCCA"
def recoveryCode : Secret := "DDDDDDDDDDDDDDDDDDDDDDDDDDDDDDDDDDDDDDDDDDA"
def firstSecret : Secret := "EEEEEEEEEEEEEEEEEEEEEEEEEEEEEEEEEEEEEEEEEEA"
def secondSecret : Secret := "FFFFFFFFFFFFFFFFFFFFFFFFFFFFFFFFFFFFFFFFFFA"

def enrollCalls : List RegistryCall :=
  [.issueEnrollment directory 1 "issue" scope none none ⟨1, enrollmentCode⟩,
    .consumeEnrollment directory enrollmentCode ⟨1, 1, 1, firstSecret⟩]

def recoverCalls : List RegistryCall :=
  enrollCalls ++ [.advance 60000, .recoverHost directory 1 1 1 "recover" ⟨2, recoveryCode⟩]

def control : ControlPlane := ⟨7, 1, 1⟩
def handshakeRequest : HandshakeRequest := ⟨1, 10, "boot", 1, 1, "1", none, false⟩
def session : ReportedSession := ⟨1, 7, 10, "boot"⟩
def inventoryDigest : String := "GGGGGGGGGGGGGGGGGGGGGGGGGGGGGGGGGGGGGGGGGGA"

def inventoryRequest : InventoryRequest :=
  ⟨session, 1, inventoryDigest,
    ⟨[⟨"root", none, .physical, none, none, ⟨none, none, none⟩⟩], [], by decide⟩⟩

def approveCalls : List RegistryCall :=
  enrollCalls ++ [.handshake auth handshakeRequest,
    .submitInventory auth inventoryRequest (fun _ => 9) (fun _ => 9),
    .approveHost directory 1 ⟨1, 1, 1, inventoryDigest, scope⟩]

def workCalls : List RegistryCall :=
  approveCalls ++ [.setHostLifecycle directory 1 1 2 .active, .heartbeat auth ⟨session, 1, "h"⟩]

end Sample

end Gridops.Fleet
