import Gridops.Fleet.Placement
import Gridops.Fleet.Registry.Inventory

/-!
# Admission

An intent is admitted on the first candidate backend whose domain, and every domain
above it, has room for the whole request (`fleet/admission.rs`). The same transaction
then inserts the placement, one allocation in each of these domains, and the command
that prepares the environment.

The candidates are the rows of a query over hosts, backends and the intent's profile,
in its order, each with the reason for which it is not eligible, if any (grants, probes,
selectors, the pool's own limits): none of these looks at capacity in a domain.
-/

namespace Gridops.Fleet

open Gridops.Lib

def prepareDeadlineMillis : Millis := 1200000
def maxAmount : Nat := 2 ^ 63 - 1

inductive Resource
  | cpuMillis | memoryMib | diskBytes
deriving DecidableEq

namespace ResourceRequest

def of (q : ResourceRequest) : Resource → Nat
  | .cpuMillis => q.cpuMillis
  | .memoryMib => q.memoryMib
  | .diskBytes => q.diskBytes

/-- `ResourceAmount::new`: every figure fits a signed 64-bit integer. -/
def isAmount (q : ResourceRequest) : Bool :=
  decide (q.cpuMillis ≤ maxAmount) && decide (q.memoryMib ≤ maxAmount)
    && decide (q.diskBytes ≤ maxAmount)

def checkedAdd (a b : ResourceRequest) : Option ResourceRequest :=
  let sum : ResourceRequest :=
    ⟨a.cpuMillis + b.cpuMillis, a.memoryMib + b.memoryMib, a.diskBytes + b.diskBytes⟩
  if sum.isAmount then some sum else none

def checkedSub (a b : ResourceRequest) : Option ResourceRequest :=
  if b.cpuMillis ≤ a.cpuMillis ∧ b.memoryMib ≤ a.memoryMib ∧ b.diskBytes ≤ a.diskBytes then
    some ⟨a.cpuMillis - b.cpuMillis, a.memoryMib - b.memoryMib, a.diskBytes - b.diskBytes⟩
  else none

def fitsRequest (a request : ResourceRequest) : Bool :=
  decide (request.cpuMillis ≤ a.cpuMillis) && decide (request.memoryMib ≤ a.memoryMib)
    && decide (request.diskBytes ≤ a.diskBytes)

end ResourceRequest

namespace Store

/-! ## The domains a request has to fit -/

/-- From a domain to its host's root; `depth` more domains may follow. -/
def climbDomains (s : Store) (host : HostId) :
    Nat → List DomainId → DomainId → Except FleetError (List ResourceDomain)
  | 0, _, _ => .error (.invariant "resource domain topology is cyclic or too deep")
  | depth + 1, seen, id =>
    if id ∈ seen then .error (.invariant "resource domain topology is cyclic or too deep")
    else
      match (s.domains.find id).filter (·.hostId == host) with
      | none => .error (.invariant "resource domain is missing or cross-host")
      | some d =>
        match d.parentDomainId with
        | none => .ok [d]
        | some parent => (s.climbDomains host depth (id :: seen) parent).map (d :: ·)

def domainPath (s : Store) (leaf : DomainId) (host : HostId) :
    Except FleetError (List ResourceDomain) :=
  s.climbDomains host maxResourceDomainDepth [] leaf

def used (s : Store) (host : HostId) (d : ResourceDomain) : List ResourceRequest :=
  (s.allocations.rows.filter fun a =>
    a.domainId == d.id && a.hostId == host && a.state != .released).map (·.amount)

def addAllocation (sum row : ResourceRequest) : Except FleetError ResourceRequest :=
  if !row.isAmount then .error (.invariant "allocation exceeds integer bounds")
  else
    match sum.checkedAdd row with
    | none => .error (.invariant "allocation aggregate overflow")
    | some sum => .ok sum

def aggregate (rows : List ResourceRequest) : Except FleetError ResourceRequest :=
  rows.foldlM addAllocation ⟨0, 0, 0⟩

def exhausted (d : ResourceDomain) : String :=
  if d.parentDomainId.isNone then "physical_resource_exhausted" else "child_resource_exhausted"

def domainRefuses (s : Store) (host : HostId) (request : ResourceRequest) (d : ResourceDomain) :
    Except FleetError (Option String) := do
  let sum ← aggregate (s.used host d)
  if !d.budget.isAmount then .error (.invariant "budget exceeds integer bounds")
  else
    match d.budget.checkedSub sum with
    | none => .ok (some (exhausted d))
    | some remaining =>
      .ok (if remaining.fitsRequest request then none else some (exhausted d))

def firstRefusal (s : Store) (host : HostId) (request : ResourceRequest) :
    List ResourceDomain → Except FleetError (Option String)
  | [] => .ok none
  | d :: path => do
    match ← s.domainRefuses host request d with
    | some reason => .ok (some reason)
    | none => s.firstRefusal host request path

def domainsFit (s : Store) (leaf : DomainId) (host : HostId) (request : ResourceRequest) :
    Except FleetError (Option String) := do
  let path ← s.domainPath leaf host
  if !request.isAmount then .error (.invariant "profile resource exceeds integer bounds")
  else s.firstRefusal host request path

end Store

/-! ## Admitting an intent -/

/-- A row of the candidate query. `prepare` is what the profile makes of the command,
and `refusal` why the candidate is not eligible. -/
structure Candidate where
  hostId : HostId
  backendId : BackendId
  domainId : DomainId
  hostEpoch : Nat
  authoritySessionId : SessionId
  incarnation : Incarnation
  profileRevision : Nat
  request : ResourceRequest
  prepare : PrepareEnvironment
  refusal : Option String
deriving DecidableEq

structure Intent where
  id : IntentId
  generation : Nat
deriving DecidableEq

structure Fresh where
  placement : PlacementId
  command : CommandId
  allocation : Nat → AllocationId

namespace Store

/-- `INSERT INTO capacity_allocations`, one row a domain; their figures must be positive. -/
def insertAllocations (p : Placement) (fresh : Nat → AllocationId) (now : Millis) :
    Nat → Table Allocation.id → List ResourceDomain → Option (Table Allocation.id)
  | _, allocations, [] => some allocations
  | i, allocations, d :: path =>
    if p.request.cpuMillis = 0 ∨ p.request.memoryMib = 0
        ∨ allocations.rows.any fun a => a.placementId == p.id && a.domainId == d.id then none
    else
      (allocations.insert? ⟨fresh i, p.id, p.hostId, d.id, p.request, .reserved, now, none⟩).bind
        fun allocations => insertAllocations p fresh now (i + 1) allocations path

def placementFor (intent : Intent) (c : Candidate) (id : PlacementId) (now : Millis) :
    Placement where
  id := id
  intentId := intent.id
  generation := intent.generation
  hostId := c.hostId
  backendId := c.backendId
  hostEpoch := c.hostEpoch
  profileRevision := c.profileRevision
  request := c.request
  state := .preparing
  runnerId := none
  updatedAt := now
  localAbsenceProvenAt := none
  delayedStartsExcludedAt := none

/-- The prepare command of a placement, sealed to the session the candidate was found in. -/
def prepareEnvelope (H : Hashing) (p : Placement) (c : Candidate) (allocationIds : List AllocationId)
    (id : CommandId) (now : Millis) : Except FleetError AgentCommandEnvelope :=
  let envelope : AgentCommandEnvelope :=
    { commandId := id
      operationId := p.intentId
      idempotencyKey := .prepare p.id
      hostId := p.hostId
      hostEpoch := c.hostEpoch
      controlPlaneIncarnation := c.incarnation
      authoritySessionId := c.authoritySessionId
      scope := .placement p.id p.backendId p.generation
      expectedRevision := c.profileRevision
      issuedAt := now - commandClockSkewMillis
      deadlineAt := now + prepareDeadlineMillis
      requestHash := ""
      operation := .prepareEnvironment
        { c.prepare with
          profileRevision := c.profileRevision, resourceRequest := c.request, allocationIds } }
  match envelope.sealHash H.envelope with
  | .error _ => .error (.invariant "invalid prepare command envelope")
  | .ok envelope => .ok envelope

/-- The prepare command of a new placement cannot be a repetition, so a taken key fails. -/
def insertPrepare (s : Store) (p : Placement) (envelope : AgentCommandEnvelope) (now : Millis) :
    Except FleetError Store :=
  match s.insertCommand (commandRow p envelope now) with
  | .ok (some _, t) => .ok t
  | .ok (none, _) => .error .database
  | .error e => .error e

def insertAdmission (H : Hashing) (s : Store) (intent : Intent) (c : Candidate) (fresh : Fresh)
    (now : Millis) : Except FleetError Store :=
  let p := placementFor intent c fresh.placement now
  match s.placements.insert? p with
  | none => .error .database
  | some placements => do
    let path ← { s with placements }.domainPath c.domainId c.hostId
    match insertAllocations p fresh.allocation now 0 s.allocations path with
    | none => .error .database
    | some allocations => do
      let envelope ← prepareEnvelope H p c ((List.range path.length).map fresh.allocation)
        fresh.command now
      { s with placements, allocations }.insertPrepare p envelope now

inductive AdmissionOutcome
  | admitted | queued (reason : Option String)
deriving DecidableEq

/-- Tries the candidates in order; the last reason is the one an operator is shown. -/
def admitOperation (H : Hashing) (s : Store) (intent : Intent) (fresh : Fresh) (now : Millis) :
    Option String → List Candidate → Except FleetError (AdmissionOutcome × Store)
  | reason, [] => .ok (.queued reason, s)
  | _, c :: candidates =>
    match c.refusal with
    | some reason => s.admitOperation H intent fresh now (some reason) candidates
    | none => do
      match ← s.domainsFit c.domainId c.hostId c.request with
      | some reason => s.admitOperation H intent fresh now (some reason) candidates
      | none => do
        let t ← s.insertAdmission H intent c fresh now
        return (.admitted, t)

end Store

end Gridops.Fleet
