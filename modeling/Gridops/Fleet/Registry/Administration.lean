import Gridops.Fleet.Registry.Enrollment

/-!
# Administering a host

What an administrator does with an enrolled host: approve it for exact targets, grant
it more, change its lifecycle, revoke one of its credentials or retire it. Every call
that changes policy names the revision it was decided on.
-/

namespace Gridops.Fleet

open Gridops.Lib

structure ApproveHost where
  hostId : HostId
  expectedRevision : Nat
  expectedInventoryRevision : Nat
  expectedInventoryDigest : String
  scope : EnrollmentScope
deriving DecidableEq

def inventoryFreshMillis : Millis := 45000

def LifecycleState.works : LifecycleState → Bool
  | .active | .draining => true
  | _ => false

def PlacementState.isOver : PlacementState → Bool
  | .cleaned | .failed => true
  | _ => false

namespace Registry

/-! ## Lifecycle and retirement -/

def lifecycleWrite (state : LifecycleState) : HostWrite where
  host h := { h with
    lifecycleState := state
    authorityExpiresAt := if state.works then h.authorityExpiresAt else none }
  profile p := { p with revision := p.revision + 1 }
  host_id _ := rfl
  profile_id _ := rfl

variable (r : Registry)

def setHostLifecycle (d : Directory) (user : UserId) (hostId : HostId) (expectedRevision : Nat)
    (intent : LifecycleState) (now : Millis) :
    Except AdminError Registry :=
  if intent = .retired then
    .error (.registry (.invalidRequest "retire hosts through retirement"))
  else do
    d.ensureSystemAdmin user
    match r.store.hosts.find hostId, r.profiles.find hostId with
    | some h, some p =>
      if h.enrollmentState ≠ .approved ∨ h.lifecycleState = .retired then
        .error (.registry (.invalidRequest "host is not approved"))
      else if p.revision ≠ expectedRevision then .error .staleRevision
      else if h.lifecycleState = intent then return r
      else
        return (r.updateHost hostId (lifecycleWrite intent)).audit
          ⟨some user, some hostId, hostId, .lifecycleChanged intent, now⟩
    | _, _ => .error (.registry .notFound)

def retirement : HostWrite where
  host h := { h with lifecycleState := .retired, authorityExpiresAt := none }
  profile p := { p with revision := p.revision + 1 }
  host_id _ := rfl
  profile_id _ := rfl

def retireHost (d : Directory) (user : UserId) (hostId : HostId) (expectedRevision : Nat)
    (now : Millis) : Except AdminError Registry := do
  d.ensureSystemAdmin user
  match r.store.hosts.find hostId, r.profiles.find hostId with
  | some h, some p =>
    if h.lifecycleState = .retired then return r
    else if p.revision ≠ expectedRevision then .error .staleRevision
    else if r.store.placements.rows.any fun x => x.hostId == hostId && !x.state.isOver then
      .error (.registry (.invalidRequest "the machine still runs work; drain it first"))
    else
      let r := r.updateHost hostId retirement
      return { r with store := r.store.revokeCredentials hostId (fun _ => true) now }.audit
        ⟨some user, some hostId, hostId, .hostRetired, now⟩
  | _, _ => .error (.registry .notFound)

def quarantine : HostWrite where
  host h := { h with
    lifecycleState := .paused, integrityState := .quarantined
    agentSessionId := none, bootId := none, authorityExpiresAt := none }
  profile p := { p with
    revision := p.revision + 1, inventoryComplete := false, inventoryRevision := 0
    inventoryDigest := none }
  host_id _ := rfl
  profile_id _ := rfl

def revokeCredential (d : Directory) (user : UserId) (hostId : HostId) (generation : Nat)
    (now : Millis) : Except AdminError Registry := do
  d.ensureSystemAdmin user
  match r.store.hosts.find hostId with
  | none => .error (.registry .notFound)
  | some h =>
    if !r.store.credentials.rows.any fun c =>
        c.hostId == hostId && c.generation == generation && c.revokedAt.isNone then
      .error (.registry .notFound)
    else
      let r := { r with
        store := r.store.revokeCredentials hostId (·.generation == generation) now }
      let r := r.revokeOpenRotations hostId (some user) .rotationRevoked now
      let r := if h.lifecycleState = .retired then r else r.updateHost hostId quarantine
      return r.audit ⟨some user, some hostId, hostId, .credentialRevoked generation, now⟩

/-- Sets what a host may run for one target; a revoked grant becomes active again. -/
def setHostGrant (d : Directory) (user : UserId) (hostId : HostId) (target : TargetId)
    (allowSchedule allowNative allowDockerSocket : Bool) (now : Millis) :
    Except AdminError Registry := do
  d.ensureSystemAdmin user
  if !(r.store.hosts.find hostId).any (·.lifecycleState != .retired)
      || (d.targets.find target).isNone then
    .error (.registry .notFound)
  else
    return { r with
      grants := r.grants.upsert
        ⟨hostId, target, allowSchedule, allowNative, false, allowDockerSocket, 1, none, user⟩
        (fun g => { g with
          allowSchedule, allowNative, allowDockerSocket, revision := g.revision + 1
          revokedAt := none, grantedBy := user }) fun _ => rfl
      }.audit ⟨some user, some hostId, hostId,
        .grantChanged target allowSchedule allowNative allowDockerSocket, now⟩

/-- The inventory an approval was decided on is the host's current one. -/
def inventoryIsCurrent (h : Host) (p : HostProfile) (request : ApproveHost) (now : Millis) : Bool :=
  p.revision == request.expectedRevision
    && p.inventoryRevision == request.expectedInventoryRevision
    && 0 < request.expectedInventoryRevision
    && p.inventoryDigest == some request.expectedInventoryDigest
    && p.inventoryDigest.any validateSecretText
    && p.inventoryComplete
    && p.inventoryEpoch == some h.epoch
    && p.inventorySessionId == h.agentSessionId
    && p.inventoryBootId == h.bootId
    && h.authorityIncarnation == r.store.controlPlane.map (·.incarnation)
    && p.lastInventoryAt.any fun received =>
        decide (received ≤ now) && decide (now - received < inventoryFreshMillis)

/-- The session, its last inventory and its credential are the ones of this host row. -/
def isObservation (h : Host) (p : HostProfile) (request : ApproveHost) (now : Millis)
    (o : ObservationSession) (x : SessionReceipts) (i : Snapshot) (c : Credential) : Bool :=
  x.sessionId == o.sessionId && i.hostId == o.hostId && i.sessionId == o.sessionId
    && i.sequence == x.inventorySequence
    && c.hostId == o.hostId && c.id == o.currentCredentialId
    && c.generation == o.currentCredentialGeneration && c.hostEpoch == o.hostEpoch
    && o.hostId == request.hostId && some o.sessionId == h.agentSessionId
    && o.hostEpoch == h.epoch && some o.bootId == h.bootId
    && some o.incarnation == h.authorityIncarnation
    && o.endedAt.isNone && o.state != .conflicted && decide (now < o.leaseExpiresAt)
    && x.inventoryDigest == some request.expectedInventoryDigest
    && x.inventoryReceivedAt.isSome && x.inventoryReceivedAt == p.lastInventoryAt
    && i.hostEpoch == o.hostEpoch && i.incarnation == o.incarnation && 0 < i.sequence
    && some i.digest == x.inventoryDigest && some i.receivedAt == x.inventoryReceivedAt
    && i.inventoryRevision == request.expectedInventoryRevision && c.isLive now

/-- How many rows the join of sessions, snapshots and credentials has. -/
def observations (h : Host) (p : HostProfile) (request : ApproveHost) (now : Millis) : Nat :=
  (r.store.sessions.rows.flatMap fun o => r.receipts.rows.flatMap fun x =>
    r.snapshots.rows.flatMap fun i =>
      r.store.credentials.rows.filter (isObservation h p request now o x i)).length

def revokeUnrequested (hostId : HostId) (scope : EnrollmentScope) (now : Millis) :
    Registry :=
  { r with
    grants := r.grants.update
      (fun g => g.hostId == hostId && g.revokedAt.isNone && !scope.targetIds.contains g.targetId)
      (fun g => { g with revokedAt := some now }) fun _ => rfl }

/-- Makes the grant of one requested target active. A new or reactivated one has no
special permission; an active one is left as it is. -/
def activateGrant (user : UserId) (hostId : HostId) (r : Registry) (target : TargetId) :
    Registry :=
  match r.grants.find (hostId, target) with
  | none =>
    { r with
      grants := (r.grants.insert? ⟨hostId, target, true, false, false, false, 1, none, user⟩).getD
        r.grants }
  | some _ =>
    { r with
      grants := r.grants.update
        (fun g => g.hostId == hostId && g.targetId == target && g.revokedAt.isSome)
        (fun g => { g with
          allowSchedule := false, allowNative := false, allowInteractive := false
          allowDockerSocket := false, revision := g.revision + 1, revokedAt := none
          grantedBy := user }) fun _ => rfl }

def approval : HostWrite where
  host h := { h with
    enrollmentState := .approved, lifecycleState := .paused, integrityState := .verified }
  profile p := { p with revision := p.revision + 1 }
  host_id _ := rfl
  profile_id _ := rfl

def approve (user : UserId) (request : ApproveHost) (now : Millis) : Registry :=
  let r := r.revokeUnrequested request.hostId request.scope now
  let r := request.scope.targetIds.foldl (activateGrant user request.hostId) r
  (r.updateHost request.hostId approval).audit
    ⟨some user, some request.hostId, request.hostId,
      .hostApproved request.expectedInventoryRevision request.scope, now⟩

/-- The host's code covers the requested targets, which its issuer and the approving user still
administer. -/
def authorizeApproval (d : Directory) (user : UserId) (request : ApproveHost) :
    Except AdminError Unit :=
  match r.lineage request.hostId with
  | none => .error .enrollmentScopeMismatch
  | some e => do
    d.ensureScopeAdmin e.issuedBy e.scope
    if !request.scope.isSubset e.scope then .error .enrollmentScopeMismatch
    else
      d.ensureScopeAdmin user request.scope
      request.scope.targetIds.forM (d.ensureTargetAdmin user)
      (r.activeTargets request.hostId).forM (d.ensureTargetAdmin user)

def approveHost (d : Directory) (user : UserId) (request : ApproveHost) (now : Millis) :
    Except AdminError Registry := do
  d.ensureSystemAdmin user
  match r.store.hosts.find request.hostId, r.profiles.find request.hostId with
  | some h, some p =>
    if h.enrollmentState = .revoked ∨ h.lifecycleState = .retired then
      .error (.registry .forbidden)
    else if h.enrollmentState ≠ .pending then .error .staleRevision
    else if !r.inventoryIsCurrent h p request now then .error .staleRevision
    else if r.observations h p request now ≠ 1 then .error .staleRevision
    else
      r.authorizeApproval d user request
      return r.approve user request now
  | _, _ => .error (.registry .notFound)

/-! ## What the calls do -/

variable {r t : Registry} {d : Directory} {user : UserId} {hostId : HostId} {now : Millis}

theorem setHostLifecycle_cases {expectedRevision : Nat} {intent : LifecycleState}
    (h : r.setHostLifecycle d user hostId expectedRevision intent now = .ok t) :
    t = r ∨ ∃ x event, r.store.hosts.find hostId = some x ∧ x.enrollmentState = .approved ∧
      x.lifecycleState ≠ .retired ∧
      t = (r.updateHost hostId (lifecycleWrite intent)).audit event := by
  unfold setHostLifecycle at h
  split at h
  · cases h
  obtain ⟨-, -, h⟩ := bind_eq_ok h
  split at h
  · next x p hx hp =>
    split at h
    · cases h
    next happroved =>
    split at h
    · cases h
    split at h
    · cases h
      exact .inl rfl
    cases h
    push Not at happroved
    exact .inr ⟨x, _, hx, happroved.1, happroved.2, rfl⟩
  · cases h

theorem retireHost_cases {expectedRevision : Nat}
    (h : r.retireHost d user hostId expectedRevision now = .ok t) :
    ∃ x, r.store.hosts.find hostId = some x ∧
      (x.lifecycleState = .retired ∧ t = r ∨
        x.lifecycleState ≠ .retired ∧
        (∀ y ∈ r.store.placements, y.hostId = hostId → y.state.isOver) ∧ ∃ event,
          let u := r.updateHost hostId retirement
          t = { u with store := u.store.revokeCredentials hostId (fun _ => true) now }.audit
            event) := by
  obtain ⟨-, -, h⟩ := bind_eq_ok h
  split at h
  · next x p hx hp =>
    refine ⟨x, hx, ?_⟩
    split at h
    · next hretired =>
      cases h
      exact .inl ⟨hretired, rfl⟩
    next hlive =>
    split at h
    · cases h
    split at h
    · cases h
    next hidle =>
    cases h
    refine .inr ⟨hlive, fun y hy hhost => ?_, _, rfl⟩
    simp only [List.any_eq_true, Bool.and_eq_true, beq_iff_eq, Bool.not_eq_true', not_exists,
      not_and, Bool.not_eq_false] at hidle
    exact hidle y hy hhost
  · cases h

theorem revokeCredential_cases {generation : Nat}
    (h : r.revokeCredential d user hostId generation now = .ok t) :
    ∃ x event, r.store.hosts.find hostId = some x ∧
      let u := ({ r with
        store := r.store.revokeCredentials hostId (·.generation == generation) now
        }.revokeOpenRotations hostId (some user) .rotationRevoked now)
      t = (if x.lifecycleState = .retired then u else u.updateHost hostId quarantine).audit
        event := by
  obtain ⟨-, -, h⟩ := bind_eq_ok h
  split at h
  · cases h
  next x hx =>
  split at h
  · cases h
  cases h
  exact ⟨x, _, hx, rfl⟩

theorem activateGrants_others (user : UserId) (hostId : HostId) (targets : List TargetId)
    (r : Registry) : ∃ grants, targets.foldl (activateGrant user hostId) r = { r with grants } ∧
      ∀ id, id ≠ hostId → grants.rows.filter (·.hostId == id)
        = r.grants.rows.filter (·.hostId == id) := by
  induction targets generalizing r with
  | nil => exact ⟨r.grants, rfl, fun _ _ => rfl⟩
  | cons target targets ih =>
    obtain ⟨grants, hgrants, hothers⟩ := ih (activateGrant user hostId r target)
    rw [List.foldl_cons, hgrants]
    refine ⟨grants, by unfold activateGrant; split <;> rfl, fun id hid => (hothers id hid).trans ?_⟩
    have hother : (hostId == id) = false := beq_eq_false_iff_ne.mpr (Ne.symm hid)
    unfold activateGrant
    split
    · cases hins : r.grants.insert? ⟨hostId, target, true, false, false, false, 1, none, user⟩ with
      | none => rfl
      | some grants' => exact Table.filter_insert? hins hother
    · refine Table.filter_update (fun _ => by rfl) fun g hg => ?_
      simp only [Bool.and_eq_true, beq_iff_eq] at hg
      simp [hg.1.1, hother]

theorem approve_grants (r : Registry) (user : UserId) (request : ApproveHost) (now : Millis) :
    ∃ grants event, r.approve user request now
        = ({ r with grants }.updateHost request.hostId approval).audit event ∧
      ∀ id, id ≠ request.hostId → grants.rows.filter (·.hostId == id)
        = r.grants.rows.filter (·.hostId == id) := by
  obtain ⟨grants, hgrants, hothers⟩ := activateGrants_others user request.hostId
    request.scope.targetIds (r.revokeUnrequested request.hostId request.scope now)
  refine ⟨grants, _, by rw [approve, hgrants]; rfl, fun id hid => (hothers id hid).trans ?_⟩
  refine Table.filter_update (fun _ => by rfl) fun g hg => ?_
  simp only [Bool.and_eq_true, beq_iff_eq] at hg
  simp [hg.1.1, Ne.symm hid]

theorem approveHost_cases {request : ApproveHost}
    (h : r.approveHost d user request now = .ok t) :
    ∃ x p e, r.store.hosts.find request.hostId = some x ∧
      r.profiles.find request.hostId = some p ∧ x.enrollmentState = .pending ∧
      x.lifecycleState ≠ .retired ∧ r.inventoryIsCurrent x p request now ∧
      r.lineage request.hostId = some e ∧ request.scope.isSubset e.scope ∧
      t = r.approve user request now := by
  obtain ⟨-, -, h⟩ := bind_eq_ok h
  split at h
  · next x p hx hp =>
    split at h
    · cases h
    next hfenced =>
    split at h
    · cases h
    next hpending =>
    split at h
    · cases h
    next hcurrent =>
    split at h
    · cases h
    obtain ⟨_, hauth, h⟩ := bind_eq_ok h
    cases h
    unfold authorizeApproval at hauth
    split at hauth
    · cases hauth
    next e he =>
    obtain ⟨-, -, hauth⟩ := bind_eq_ok hauth
    split at hauth
    · cases hauth
    next hsubset =>
    push Not at hfenced hpending
    exact ⟨x, p, e, hx, hp, hpending, hfenced.2, by simpa using hcurrent, he,
      by simpa using hsubset, rfl⟩
  · cases h

end Registry

end Gridops.Fleet
