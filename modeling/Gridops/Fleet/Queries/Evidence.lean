import Gridops.Fleet.Protocol.Primitives
import Gridops.Fleet.Registry.Service

/-!
# Approval evidence

What a host read tells an administrator about an approval: the revision, inventory and digest it
would have to name (`inventory_evidence` and `approval_evidence` in `queries.rs`). The evidence and
`approve_host` are two conjunctions over the same rows, written apart. The keys of the tables make
them the same question, up to the times the evidence has to show.
-/

namespace Gridops.Fleet

open Gridops.Lib

inductive QueryError
  | database | forbidden | notFound | invalidRequest (reason : String) | invalidCursor
  | cursorExpired | cursorGap | dependencyUnavailable | malformedData | contract
deriving DecidableEq

structure ReadSnapshot where
  userId : UserId
  systemAdmin : Bool
  incarnation : Incarnation
  now : Millis
deriving DecidableEq

def malformed {α : Type} (x : Except ContractError α) : Except QueryError α :=
  x.mapError fun _ => .malformedData

def contract {α : Type} (x : Except ContractError α) : Except QueryError α :=
  x.mapError fun _ => .contract

def wireTimestamp (value : Millis) : Except QueryError WireTimestamp :=
  malformed (WireTimestamp.fromMillis value)

inductive InventoryEvidence
  | current (inventoryRevision : BrowserCounter) (digest : Sha256Digest)
      (receivedAt : WireTimestamp)
  | stale (inventoryRevision : Option BrowserCounter) (digest : Option Sha256Digest)
      (receivedAt : Option WireTimestamp)
  | missing
deriving DecidableEq

inductive ApprovalUnavailableReason
  | requiresSystemAdmin | pendingHost | retiredHost | missingControlPlane | missingObservation
  | observationExpired | observationConflicted | staleInventory | invalidInventoryReceipt
deriving DecidableEq

inductive ApprovalEvidence
  | available (expectedRevision expectedInventoryRevision : BrowserCounter)
      (expectedInventoryDigest : Sha256Digest)
      (inventoryReceivedAt observationLeaseExpiresAt : WireTimestamp)
  | unavailable (reason : ApprovalUnavailableReason)
deriving DecidableEq

namespace Registry

def openSnapshot (r : Registry) (d : Directory) (user : UserId) (now : Millis) :
    Except QueryError ReadSnapshot :=
  match d.users.find user with
  | none => .error .forbidden
  | some u =>
    match r.store.controlPlane with
    | none => .error .dependencyUnavailable
    | some control => .ok ⟨user, u.role == .admin, control.incarnation, now⟩

/-- A snapshot of the session's last inventory, as the host row shows it. -/
def isReceiptSnapshot (p : HostProfile) (o : ObservationSession) (x : SessionReceipts)
    (i : Snapshot) : Bool :=
  i.hostId == o.hostId && i.sessionId == o.sessionId && i.sequence == x.inventorySequence
    && i.hostEpoch == o.hostEpoch && i.incarnation == o.incarnation
    && i.inventoryRevision == p.inventoryRevision && some i.digest == p.inventoryDigest
    && some i.receivedAt == p.lastInventoryAt

/-- The join of session, credential and host that makes an inventory current. -/
def isCurrentReceipt (r : Registry) (s : ReadSnapshot) (h : Host) (p : HostProfile)
    (sessionId : SessionId) (o : ObservationSession) (x : SessionReceipts) (c : Credential) :
    Bool :=
  x.sessionId == o.sessionId
    && c.hostId == o.hostId && c.id == o.currentCredentialId
    && c.generation == o.currentCredentialGeneration && c.hostEpoch == o.hostEpoch
    && c.isLive s.now
    && o.hostId == h.id && o.sessionId == sessionId && o.endedAt.isNone
    && o.state != .conflicted && decide (s.now < o.leaseExpiresAt)
    && o.hostEpoch == h.epoch && some o.bootId == h.bootId && some o.bootId == p.inventoryBootId
    && some o.incarnation == h.authorityIncarnation && o.incarnation == s.incarnation
    && p.inventoryComplete && p.inventoryEpoch == some h.epoch
    && p.inventorySessionId == some o.sessionId && h.agentSessionId == some o.sessionId
    && p.lastInventoryAt.any (fun t =>
      decide (t ≤ s.now) && decide (s.now - t < inventoryFreshMillis))
    && 0 < x.inventorySequence
    && x.inventoryDigest.isSome && x.inventoryDigest == p.inventoryDigest
    && x.inventoryReceivedAt.isSome && x.inventoryReceivedAt == p.lastInventoryAt
    && r.snapshots.rows.any (isReceiptSnapshot p o x)

def currentInventoryReceipt (r : Registry) (s : ReadSnapshot) (h : Host) (p : HostProfile) :
    Bool :=
  p.inventorySessionId.any fun sessionId =>
    r.store.sessions.rows.any fun o => r.receipts.rows.any fun x =>
      r.store.credentials.rows.any (isCurrentReceipt r s h p sessionId o x)

/-- A host that reported no inventory has revision 0, which is not shown. -/
def wireRevision (revision : Nat) : Except QueryError (Option BrowserCounter) :=
  if 0 < revision then (contract (BoundedInteger.new revision)).map some else .ok none

def inventoryEvidence (r : Registry) (s : ReadSnapshot) (h : Host) (p : HostProfile) :
    Except QueryError InventoryEvidence := do
  let digest ← p.inventoryDigest.mapM fun text => malformed (Sha256Digest.tryFrom text)
  let revision ← wireRevision p.inventoryRevision
  let fresh := p.lastInventoryAt.any fun t =>
    decide (t ≤ s.now) && decide (s.now - t < inventoryFreshMillis)
  if p.inventoryComplete && revision.isSome && digest.isSome && fresh
      && r.currentInventoryReceipt s h p then
    match revision, digest, p.lastInventoryAt with
    | some revision, some digest, some t => return .current revision digest (← wireTimestamp t)
    | _, _, _ => throw .malformedData
  else if revision.isSome || digest.isSome || p.lastInventoryAt.isSome then
    return .stale revision digest (← p.lastInventoryAt.mapM wireTimestamp)
  else return .missing

/-- The lease of the session the inventory came over, while it is open. -/
def observationLease (r : Registry) (s : ReadSnapshot) (hostId : HostId) (sessionId : SessionId) :
    Option Millis :=
  ((r.store.sessions.find sessionId).filter fun o => o.hostId == hostId && o.endedAt.isNone
    && o.state != .conflicted && decide (s.now < o.leaseExpiresAt)).map (·.leaseExpiresAt)

def approvalEvidence (r : Registry) (s : ReadSnapshot) (h : Host) (p : HostProfile)
    (inventory : InventoryEvidence) : Except QueryError ApprovalEvidence :=
  if !s.systemAdmin then return .unavailable .requiresSystemAdmin
  else if h.lifecycleState = .retired then return .unavailable .retiredHost
  else if h.enrollmentState ≠ .pending then return .unavailable .pendingHost
  else match inventory with
    | .current inventoryRevision digest receivedAt =>
      match p.inventorySessionId with
      | none => return .unavailable .missingObservation
      | some sessionId =>
        match r.observationLease s h.id sessionId with
        | none => return .unavailable .observationExpired
        | some lease => do
          let revision ← contract (BoundedInteger.new p.revision)
          return .available revision inventoryRevision digest receivedAt (← wireTimestamp lease)
    | _ => return .unavailable .staleInventory

def readApprovalEvidence (r : Registry) (d : Directory) (user : UserId) (hostId : HostId)
    (now : Millis) : Except QueryError ApprovalEvidence := do
  let s ← r.openSnapshot d user now
  match r.store.hosts.find hostId, r.profiles.find hostId with
  | some h, some p => r.approvalEvidence s h p (← r.inventoryEvidence s h p)
  | _, _ => throw .notFound

/-! ## What the evidence says -/

variable {r : Registry} {d : Directory} {user : UserId} {s : ReadSnapshot} {h : Host}
  {p : HostProfile} {now : Millis}

theorem malformed_ok {α : Type} {x : Except ContractError α} {a : α} :
    malformed x = .ok a ↔ x = .ok a := by
  cases x <;> simp [malformed, Except.mapError]

theorem contract_ok {α : Type} {x : Except ContractError α} {a : α} :
    contract x = .ok a ↔ x = .ok a := by
  cases x <;> simp [contract, Except.mapError]

theorem wireTimestamp_ok {value : Millis} {t : WireTimestamp} :
    wireTimestamp value = .ok t ↔ t.millis = value :=
  malformed_ok.trans WireTimestamp.fromMillis_ok

theorem wireRevision_some {revision : Nat} {i : BrowserCounter} :
    wireRevision revision = .ok (some i) ↔ i.value = revision := by
  unfold wireRevision
  split
  · rw [← BoundedInteger.new_ok (b := i), ← contract_ok]
    cases contract (BoundedInteger.new revision) <;> simp [Except.map]
  · next hzero =>
    simp only [Except.ok.injEq, reduceCtorEq, false_iff]
    rintro rfl
    exact hzero i.bounds.1

def ShowsCurrent (r : Registry) (s : ReadSnapshot) (h : Host) (p : HostProfile) : Prop :=
  p.inventoryComplete = true ∧
    p.lastInventoryAt.any (fun t =>
      decide (t ≤ s.now) && decide (s.now - t < inventoryFreshMillis)) = true ∧
    r.currentInventoryReceipt s h p = true

theorem mapM_some {α β : Type} {f : α → Except QueryError β} {x : Option α} {b : β} :
    x.mapM f = .ok (some b) ↔ ∃ a, x = some a ∧ f a = .ok b := by
  cases x with
  | none => simp [pure, Except.pure]
  | some a => cases hf : f a <;> simp [hf, Except.map]

theorem inventoryEvidence_current {i : BrowserCounter} {digest : Sha256Digest}
    {t : WireTimestamp} :
    r.inventoryEvidence s h p = .ok (.current i digest t) ↔
      i.value = p.inventoryRevision ∧ p.inventoryDigest = some digest.text ∧
        p.lastInventoryAt = some t.millis ∧ r.ShowsCurrent s h p := by
  unfold inventoryEvidence ShowsCurrent
  constructor
  · intro hread
    obtain ⟨shown, hdigest, hrest⟩ := bind_eq_ok hread
    obtain ⟨counted, hrevision, hshow⟩ := bind_eq_ok hrest
    dsimp only at hshow
    split at hshow
    · next hcurrent =>
      simp only [Bool.and_eq_true] at hcurrent
      split at hshow
      · next received hreceived =>
        obtain ⟨shownTime, ht, hshow⟩ := bind_eq_ok hshow
        cases hshow
        obtain ⟨text, htext, hparsed⟩ := mapM_some.mp hdigest
        rw [malformed_ok, Sha256Digest.tryFrom_ok] at hparsed
        exact ⟨wireRevision_some.mp hrevision, by rw [htext, hparsed],
          by rw [hreceived, wireTimestamp_ok.mp ht], hcurrent.1.1.1.1, hcurrent.1.2, hcurrent.2⟩
      · cases hshow
    · split at hshow
      · obtain ⟨_, -, hshow⟩ := bind_eq_ok hshow
        cases hshow
      · cases hshow
  · rintro ⟨hrevision, hdigest, hreceived, hcomplete, hfresh, hreceipt⟩
    have hshown : (p.inventoryDigest.mapM fun text => malformed (Sha256Digest.tryFrom text)) =
        .ok (some digest) :=
      mapM_some.mpr ⟨_, hdigest, malformed_ok.mpr (Sha256Digest.tryFrom_ok.mpr rfl)⟩
    have hcounted : wireRevision p.inventoryRevision = .ok (some i) :=
      wireRevision_some.mpr hrevision
    have htime : wireTimestamp t.millis = .ok t := wireTimestamp_ok.mpr rfl
    rw [hreceived] at hfresh
    rw [hshown, hcounted]
    simp only [bind, Except.bind, hcomplete, hfresh, hreceipt, hreceived, htime]
    rfl

/-- The evidence is available for a pending host with a current inventory over an open session. -/
theorem approvalEvidence_available {inventory : InventoryEvidence}
    {revision i : BrowserCounter} {digest : Sha256Digest} {t lease : WireTimestamp} :
    r.approvalEvidence s h p inventory = .ok (.available revision i digest t lease) ↔
      s.systemAdmin = true ∧ h.lifecycleState ≠ .retired ∧ h.enrollmentState = .pending ∧
        inventory = .current i digest t ∧ revision.value = p.revision ∧
        ∃ sessionId, p.inventorySessionId = some sessionId ∧
          r.observationLease s h.id sessionId = some lease.millis := by
  unfold approvalEvidence
  constructor
  · intro hread
    split at hread
    · cases hread
    next hadmin =>
    split at hread
    · cases hread
    next hretired =>
    split at hread
    · cases hread
    next hpending =>
    split at hread
    · split at hread
      · cases hread
      next sessionId hsession =>
      split at hread
      · cases hread
      next lease' hlease =>
      obtain ⟨revision', hrevision, hread⟩ := bind_eq_ok hread
      obtain ⟨shown, hshown, hread⟩ := bind_eq_ok hread
      cases hread
      rw [wireTimestamp_ok] at hshown
      exact ⟨by simpa using hadmin, hretired, not_not.mp hpending, rfl,
        BoundedInteger.new_ok.mp (contract_ok.mp hrevision), sessionId, hsession,
        by rw [hlease, hshown]⟩
    · cases hread
  · rintro ⟨hadmin, hretired, hpending, rfl, hrevision, sessionId, hsession, hlease⟩
    have hcounted : contract (BoundedInteger.new p.revision) = .ok revision :=
      contract_ok.mpr (BoundedInteger.new_ok.mpr hrevision)
    have htime : wireTimestamp lease.millis = .ok lease := wireTimestamp_ok.mpr rfl
    simp only [hadmin, hretired, hpending, hsession, hlease, hcounted, htime]
    rfl

/-! ## What an approval asks -/

section

variable {request : ApproveHost}

theorem isObservation_keys {o : ObservationSession} {x : SessionReceipts} {i : Snapshot}
    {c : Credential} (hobs : isObservation h p request now o x i c = true) :
    some o.sessionId = h.agentSessionId ∧ x.sessionId = o.sessionId ∧
      (i.hostId, i.sessionId, i.sequence) = (o.hostId, o.sessionId, x.inventorySequence) ∧
      c.id = o.currentCredentialId := by
  simp only [isObservation] at hobs
  simp_all

theorem observations_eq_one : r.observations h p request now = 1 ↔
    ∃ o ∈ r.store.sessions, ∃ x ∈ r.receipts, ∃ i ∈ r.snapshots, ∃ c ∈ r.store.credentials,
      isObservation h p request now o x i c = true := by
  unfold observations
  constructor
  · intro hone
    obtain ⟨c, hc⟩ := List.exists_mem_of_length_pos (by rw [hone]; exact Nat.one_pos)
    simp only [List.mem_flatMap, List.mem_filter] at hc
    obtain ⟨o, ho, x, hx, i, hi, hmem, hobs⟩ := hc
    exact ⟨o, ho, x, hx, i, hi, c, hmem, hobs⟩
  · rintro ⟨o, ho, x, hx, i, hi, c, hc, hobs⟩
    refine le_antisymm ?_ (List.length_pos_of_mem (a := c) ?_)
    · refine Table.length_flatMap_le_one (fun o _ => ?_) fun o₁ _ o₂ _ h₁ h₂ => ?_
      · refine Table.length_flatMap_le_one (fun x _ => ?_) fun x₁ _ x₂ _ h₁ h₂ => ?_
        · refine Table.length_flatMap_le_one (fun i _ => ?_) fun i₁ _ i₂ _ h₁ h₂ => ?_
          · exact Table.length_filter_le_one fun c₁ _ c₂ _ h₁ h₂ =>
              (isObservation_keys h₁).2.2.2.trans (isObservation_keys h₂).2.2.2.symm
          · obtain ⟨c₁, h₁⟩ := List.exists_mem_of_ne_nil _ h₁
            obtain ⟨c₂, h₂⟩ := List.exists_mem_of_ne_nil _ h₂
            rw [List.mem_filter] at h₁ h₂
            exact (isObservation_keys h₁.2).2.2.1.trans (isObservation_keys h₂.2).2.2.1.symm
        · obtain ⟨c₁, h₁⟩ := List.exists_mem_of_ne_nil _ h₁
          obtain ⟨c₂, h₂⟩ := List.exists_mem_of_ne_nil _ h₂
          simp only [List.mem_flatMap, List.mem_filter] at h₁ h₂
          obtain ⟨i₁, -, -, h₁⟩ := h₁
          obtain ⟨i₂, -, -, h₂⟩ := h₂
          exact (isObservation_keys h₁).2.1.trans (isObservation_keys h₂).2.1.symm
      · obtain ⟨c₁, h₁⟩ := List.exists_mem_of_ne_nil _ h₁
        obtain ⟨c₂, h₂⟩ := List.exists_mem_of_ne_nil _ h₂
        simp only [List.mem_flatMap, List.mem_filter] at h₁ h₂
        obtain ⟨x₁, -, i₁, -, -, h₁⟩ := h₁
        obtain ⟨x₂, -, i₂, -, -, h₂⟩ := h₂
        exact Option.some.inj ((isObservation_keys h₁).1.trans (isObservation_keys h₂).1.symm)
    · simp only [List.mem_flatMap, List.mem_filter]
      exact ⟨o, ho, x, hx, i, hi, hc, hobs⟩

theorem ensureTargetAdmin_ne_stale (target : TargetId) :
    d.ensureTargetAdmin user target ≠ .error .staleRevision := by
  unfold Directory.ensureTargetAdmin
  split
  · simp
  · split <;> simp

theorem ensureScopeAdmin_ne_stale (scope : EnrollmentScope) :
    d.ensureScopeAdmin user scope ≠ .error .staleRevision := by
  refine bind_ne_error ?_ fun _ => forM_ne_error ensureTargetAdmin_ne_stale
  unfold Directory.ensureSystemAdmin
  split <;> simp

theorem authorizeApproval_ne_stale :
    r.authorizeApproval d user request ≠ .error .staleRevision := by
  unfold authorizeApproval
  split
  · simp
  · refine bind_ne_error (ensureScopeAdmin_ne_stale _) fun _ => ?_
    split
    · simp
    · exact bind_ne_error (ensureScopeAdmin_ne_stale _) fun _ =>
        bind_ne_error (forM_ne_error ensureTargetAdmin_ne_stale) fun _ =>
          forM_ne_error ensureTargetAdmin_ne_stale

/-- For a pending host, an approval is stale unless the inventory it names is current and
was observed. -/
theorem approveHost_ne_stale (hadmin : d.ensureSystemAdmin user = .ok ())
    (hh : r.store.hosts.find request.hostId = some h)
    (hp : r.profiles.find request.hostId = some p) (hpending : h.enrollmentState = .pending)
    (hretired : h.lifecycleState ≠ .retired) :
    r.approveHost d user request now ≠ .error .staleRevision ↔
      r.inventoryIsCurrent h p request now = true ∧ r.observations h p request now = 1 := by
  unfold approveHost
  simp only [hadmin, hh, hp, hpending, hretired, bind, Except.bind]
  rw [if_neg (by simp), if_neg (by simp)]
  by_cases hcurrent : r.inventoryIsCurrent h p request now = true
  · rw [if_neg (by simp [hcurrent])]
    by_cases hone : r.observations h p request now = 1
    · rw [if_neg (by simp [hone])]
      refine iff_of_true ?_ ⟨hcurrent, hone⟩
      exact bind_ne_error authorizeApproval_ne_stale fun _ => by simp [pure, Except.pure]
    · simp [hone]
  · simp [hcurrent]

/-- What the host row shows is current exactly when an approval that names it finds one observation.
-/
theorem showsCurrent_iff (request : ApproveHost) (hid : h.id = request.hostId) (hnow : s.now = now)
    (hincarnation : r.store.controlPlane.map (·.incarnation) = some s.incarnation)
    (hrevision : request.expectedRevision = p.revision)
    (hinventory : request.expectedInventoryRevision = p.inventoryRevision)
    (hpos : 0 < p.inventoryRevision)
    (hdigest : p.inventoryDigest = some request.expectedInventoryDigest)
    (hcanonical : validateSecretText request.expectedInventoryDigest = true) :
    r.ShowsCurrent s h p ↔
      r.inventoryIsCurrent h p request now = true ∧ r.observations h p request now = 1 := by
  rw [observations_eq_one]
  constructor
  · rintro ⟨-, -, hreceipt⟩
    obtain ⟨sessionId, -, hreceipt⟩ := (Option.any_eq_true _ _).mp hreceipt
    simp only [List.any_eq_true, isCurrentReceipt, Bool.and_eq_true] at hreceipt
    obtain ⟨o, ho, x, hx, c, hc, hjoin, i, hi, hsnap⟩ := hreceipt
    simp only [isReceiptSnapshot] at hjoin hsnap
    refine ⟨?_, o, ho, x, hx, i, hi, c, hc, ?_⟩
    · simp only [inventoryIsCurrent]
      grind
    · simp only [isObservation]
      grind
  · rintro ⟨hcurrent, o, ho, x, hx, i, hi, c, hc, hobs⟩
    simp only [inventoryIsCurrent, beq_iff_eq] at hcurrent
    simp only [isObservation] at hobs
    refine ⟨by grind, by grind, (Option.any_eq_true _ _).mpr ⟨o.sessionId, by grind, ?_⟩⟩
    simp only [List.any_eq_true, isCurrentReceipt, isReceiptSnapshot, Bool.and_eq_true]
    refine ⟨o, ho, x, hx, c, hc, ?_, i, hi, ?_⟩
    · grind
    · grind

end

/-! ## The two together -/

/-- Both times of the evidence can be shown: when the inventory came in, and how long its
session is leased. -/
def showsTimes (r : Registry) (h : Host) (p : HostProfile) : Bool :=
  p.lastInventoryAt.any (fun t => decide (WireTimestamp.Carries t)) &&
    r.store.sessions.rows.any fun o => o.hostId == h.id && p.inventorySessionId == some o.sessionId
      && decide (WireTimestamp.Carries o.leaseExpiresAt)

theorem showsTimes_iff : r.showsTimes h p = true ↔
    (∃ t, p.lastInventoryAt = some t ∧ WireTimestamp.Carries t) ∧
      ∃ o ∈ r.store.sessions, o.hostId = h.id ∧ p.inventorySessionId = some o.sessionId ∧
        WireTimestamp.Carries o.leaseExpiresAt := by
  simp [showsTimes, Option.any_eq_true, and_assoc, Table.mem_rows]

theorem observationLease_some {sessionId : SessionId} {lease : Millis}
    (hlease : r.observationLease s h.id sessionId = some lease) :
    ∃ o ∈ r.store.sessions, o.hostId = h.id ∧ o.sessionId = sessionId ∧
      o.leaseExpiresAt = lease := by
  obtain ⟨o, hopen, rfl⟩ := Option.map_eq_some_iff.mp hlease
  obtain ⟨hfind, hopen⟩ := Option.filter_eq_some_iff.mp hopen
  simp only [Bool.and_eq_true, beq_iff_eq] at hopen
  exact ⟨o, Table.mem_of_find hfind, hopen.1.1.1, Table.key_of_find hfind, rfl⟩

theorem ShowsCurrent.lease (hcurrent : r.ShowsCurrent s h p) {o : ObservationSession}
    (ho : o ∈ r.store.sessions) (hsession : p.inventorySessionId = some o.sessionId) :
    r.observationLease s h.id o.sessionId = some o.leaseExpiresAt := by
  obtain ⟨sessionId, -, hreceipt⟩ := (Option.any_eq_true _ _).mp hcurrent.2.2
  simp only [List.any_eq_true] at hreceipt
  obtain ⟨o', ho', x, -, c, -, hjoin⟩ := hreceipt
  simp only [isCurrentReceipt] at hjoin
  obtain rfl : o = o' := Table.eq_of_key ho ho' (by grind)
  have hopen : (r.store.sessions.find o.sessionId).filter (fun y => y.hostId == h.id
      && y.endedAt.isNone && y.state != .conflicted && decide (s.now < y.leaseExpiresAt)) =
      some o := by
    refine Option.filter_eq_some_iff.mpr ⟨Table.find_key ho, ?_⟩
    grind
  rw [observationLease, hopen]
  rfl

theorem readApprovalEvidence_ok {hostId : HostId} {e : ApprovalEvidence}
    (hread : r.readApprovalEvidence d user hostId now = .ok e) :
    ∃ s h p inventory, r.openSnapshot d user now = .ok s ∧ r.store.hosts.find hostId = some h ∧
      r.profiles.find hostId = some p ∧ r.inventoryEvidence s h p = .ok inventory ∧
      r.approvalEvidence s h p inventory = .ok e := by
  obtain ⟨s, hs, hread⟩ := bind_eq_ok hread
  split at hread
  · next h p hh hp =>
    obtain ⟨inventory, hinventory, hread⟩ := bind_eq_ok hread
    exact ⟨s, h, p, inventory, hs, hh, hp, hinventory, hread⟩
  · cases hread

theorem openSnapshot_ok (hs : r.openSnapshot d user now = .ok s) :
    s.now = now ∧ r.store.controlPlane.map (·.incarnation) = some s.incarnation ∧
      ∃ u, d.users.find user = some u ∧ s.systemAdmin = (u.role == .admin) := by
  unfold openSnapshot at hs
  split at hs
  · cases hs
  next u hu =>
  split at hs
  · cases hs
  next control hcontrol =>
  cases hs
  exact ⟨rfl, by rw [hcontrol]; rfl, u, hu, rfl⟩

theorem ensureSystemAdmin_ok : d.ensureSystemAdmin user = .ok () ↔
    ∃ u, d.users.find user = some u ∧ u.role = .admin := by
  unfold Directory.ensureSystemAdmin
  split
  · next hadmin =>
    obtain ⟨u, hu, hrole⟩ := (Option.any_eq_true _ _).mp hadmin
    exact iff_of_true rfl ⟨u, hu, by simpa using hrole⟩
  · next hadmin =>
    refine iff_of_false (by simp) ?_
    rintro ⟨u, hu, hrole⟩
    exact hadmin ((Option.any_eq_true _ _).mpr ⟨u, hu, by simp [hrole]⟩)

theorem controlPlane_of_observation {request : ApproveHost}
    (hcurrent : r.inventoryIsCurrent h p request now = true)
    (hone : r.observations h p request now = 1) :
    ∃ control, r.store.controlPlane = some control := by
  obtain ⟨o, -, x, -, i, -, c, -, hobs⟩ := observations_eq_one.mp hone
  simp only [inventoryIsCurrent] at hcurrent
  simp only [isObservation] at hobs
  have hsome : some o.incarnation = r.store.controlPlane.map (·.incarnation) := by grind
  obtain ⟨control, hcontrol, -⟩ := Option.map_eq_some_iff.mp hsome.symm
  exact ⟨control, hcontrol⟩

/-- **Approval evidence means the approval can go through**, for a pending host where the times
shown are in the years of the wire format. -/
theorem approval_evidence_iff (r : Registry) (d : Directory) (user : UserId) (hostId : HostId)
    (now : Millis) (scope : EnrollmentScope) (revision inventoryRevision : BrowserCounter)
    (digest : Sha256Digest) (hadmin : d.ensureSystemAdmin user = .ok ()) :
    (∃ receivedAt lease, r.readApprovalEvidence d user hostId now =
        .ok (.available revision inventoryRevision digest receivedAt lease)) ↔
      r.approveHost d user
          ⟨hostId, revision.value, inventoryRevision.value, digest.text, scope⟩ now ≠
        .error .staleRevision ∧
      ∃ h p, r.store.hosts.find hostId = some h ∧ r.profiles.find hostId = some p ∧
        h.enrollmentState = .pending ∧ h.lifecycleState ≠ .retired ∧ r.showsTimes h p = true := by
  constructor
  · rintro ⟨receivedAt, lease, hread⟩
    obtain ⟨s, h, p, inventory, hs, hh, hp, hinventory, happroval⟩ := readApprovalEvidence_ok hread
    obtain ⟨-, hretired, hpending, rfl, hrevision, sessionId, hsession, hlease⟩ :=
      approvalEvidence_available.mp happroval
    obtain ⟨hcount, hdigest, hreceived, hcurrent⟩ := inventoryEvidence_current.mp hinventory
    obtain ⟨hnow, hcontrol, -⟩ := openSnapshot_ok hs
    have hpos : 0 < p.inventoryRevision := by
      rw [← hcount]
      exact inventoryRevision.bounds.1
    refine ⟨(approveHost_ne_stale hadmin hh hp hpending hretired).mpr ?_,
      h, p, hh, hp, hpending, hretired,
      showsTimes_iff.mpr ⟨⟨_, hreceived, receivedAt.years⟩, ?_⟩⟩
    · exact (showsCurrent_iff ⟨hostId, revision.value, inventoryRevision.value, digest.text, scope⟩
        (Table.key_of_find hh) hnow hcontrol hrevision hcount hpos hdigest
        digest.canonical).mp hcurrent
    · obtain ⟨o, ho, hhost, rfl, hend⟩ := observationLease_some hlease
      exact ⟨o, ho, hhost, hsession, by rw [hend]; exact lease.years⟩
  · rintro ⟨hstale, h, p, hh, hp, hpending, hretired, htimes⟩
    obtain ⟨⟨t, hreceived, ht⟩, o, ho, -, hsession, hlease⟩ := showsTimes_iff.mp htimes
    obtain ⟨hcurrent, hone⟩ := (approveHost_ne_stale hadmin hh hp hpending hretired).mp hstale
    obtain ⟨control, hcontrol⟩ := controlPlane_of_observation hcurrent hone
    obtain ⟨u, hu, hrole⟩ := ensureSystemAdmin_ok.mp hadmin
    have hs : r.openSnapshot d user now = .ok ⟨user, true, control.incarnation, now⟩ := by
      simp [openSnapshot, hu, hcontrol, hrole]
    have hnamed := hcurrent
    simp only [inventoryIsCurrent, Bool.and_eq_true, beq_iff_eq] at hnamed
    obtain ⟨⟨⟨⟨hrevision, hcount⟩, hpos⟩, hdigest⟩, -⟩ := hnamed.1.1.1.1.1.1
    have hshows : r.ShowsCurrent ⟨user, true, control.incarnation, now⟩ h p := by
      refine (showsCurrent_iff
        ⟨hostId, revision.value, inventoryRevision.value, digest.text, scope⟩
        (Table.key_of_find hh) rfl ?_ hrevision.symm hcount.symm ?_ hdigest digest.canonical).mpr
          ⟨hcurrent, hone⟩
      · rw [hcontrol]
        rfl
      · rw [hcount]
        exact inventoryRevision.bounds.1
    have hinventory : r.inventoryEvidence ⟨user, true, control.incarnation, now⟩ h p =
        .ok (.current inventoryRevision digest ⟨t, ht⟩) :=
      inventoryEvidence_current.mpr ⟨hcount.symm, hdigest, hreceived, hshows⟩
    refine ⟨⟨t, ht⟩, ⟨o.leaseExpiresAt, hlease⟩, ?_⟩
    unfold readApprovalEvidence
    simp only [hs, hh, hp, hinventory, bind, Except.bind]
    exact approvalEvidence_available.mpr ⟨rfl, hretired, hpending, rfl, hrevision.symm,
      o.sessionId, hsession, hshows.lease ho hsession⟩

end Registry

namespace Sample

def reportCalls : List RegistryCall :=
  enrollCalls ++ [.handshake auth handshakeRequest,
    .submitInventory auth inventoryRequest (fun _ => 9) (fun _ => 9)]

def reportedDigest : Sha256Digest := ⟨inventoryDigest, by decide⟩

def firstRevision : BrowserCounter := ⟨1, by decide⟩

def firstApproval : ApproveHost := ⟨1, 1, 1, inventoryDigest, scope⟩

end Sample

theorem approval_evidence_first_host :
    ∃ s, (registryService Sample.hashing fun _ => "").exec (.initial (some Sample.control) 0)
        Sample.reportCalls = some s ∧
      (s.db.approveHost Sample.directory 1 Sample.firstApproval s.now).toOption.isSome ∧
      ∃ receivedAt lease, s.db.readApprovalEvidence Sample.directory 1 1 s.now =
        .ok (.available Sample.firstRevision Sample.firstRevision Sample.reportedDigest receivedAt
          lease) := by
  have hreported : ((registryService Sample.hashing fun _ => "").exec
      (.initial (some Sample.control) 0) Sample.reportCalls).any (fun s =>
        (s.db.approveHost Sample.directory 1 Sample.firstApproval s.now).toOption.isSome &&
          (s.db.store.hosts.find 1).any fun h => (s.db.profiles.find 1).any fun p =>
            h.enrollmentState == .pending && h.lifecycleState != .retired &&
              s.db.showsTimes h p) = true := by
    decide +kernel
  obtain ⟨s, hs, hshown⟩ := (Option.any_eq_true _ _).mp hreported
  rw [Bool.and_eq_true] at hshown
  obtain ⟨h, hh, hhost⟩ := (Option.any_eq_true _ _).mp hshown.2
  obtain ⟨p, hp, hrow⟩ := (Option.any_eq_true _ _).mp hhost
  simp only [Bool.and_eq_true, beq_iff_eq, bne_iff_ne] at hrow
  refine ⟨s, hs, hshown.1, (Registry.approval_evidence_iff s.db Sample.directory 1 1 s.now
    Sample.scope Sample.firstRevision Sample.firstRevision Sample.reportedDigest rfl).mpr
      ⟨fun hstale => ?_, h, p, hh, hp, hrow.1.1, hrow.1.2, hrow.2⟩⟩
  have hfails : (s.db.approveHost Sample.directory 1 Sample.firstApproval s.now).toOption = none :=
    congrArg Except.toOption hstale
  rw [hfails] at hshown
  cases hshown.1

/-- Ten seconds before the year 10000 the same host can be approved, but its evidence cannot be
read. -/
theorem approval_evidence_unreadable :
    ((registryService Sample.hashing fun _ => "").exec
      (.initial (some Sample.control) 253402300790000) Sample.reportCalls).any (fun s =>
        (s.db.approveHost Sample.directory 1 Sample.firstApproval s.now).toOption.isSome &&
          (s.db.store.hosts.find 1).any (fun h =>
            h.enrollmentState == .pending && h.lifecycleState != .retired) &&
          (s.db.readApprovalEvidence Sample.directory 1 1 s.now).toOption.isNone) = true := by
  decide +kernel

end Gridops.Fleet
