import Gridops.Lib.Run
import Gridops.Fleet.Store

/-!
# Inventories

A host reports its resource domains and the backends in them by keys of its own.
`reconcile_inventory` maps each key to a row that stays the same from then on: a
domain never changes host or parent, a backend never changes domain, two keys of a host
never share a row, and a budget is only filled in while it is zero.

Interactive sessions and the columns of a probe (readiness, capabilities) are left out.
-/

namespace Gridops.Fleet

open Gridops.Lib

/-! ## Reports and the tables they fill -/

inductive DomainKind
  | physical | virtualMachine | container
deriving DecidableEq

/-- What a host says a domain has; a figure may be missing. -/
structure ObservedCapacity where
  cpuMillis : Option Nat
  memoryMib : Option Nat
  diskBytes : Option Nat
deriving DecidableEq

structure ObservedDomain where
  localKey : String
  parentLocalKey : Option String
  kind : DomainKind
  runtimeIdentity : Option String
  knownId : Option DomainId
  capacity : ObservedCapacity
deriving DecidableEq

structure ObservedBackend where
  localKey : String
  domainLocalKey : String
  runtimeKind : RuntimeKind
  executionOs : ExecutionOs
  architecture : Architecture
  runtimeIdentity : Option String
  knownId : Option BackendId
deriving DecidableEq

/-- A report; one with a repeated key is refused when it is parsed. -/
structure InventoryReport where
  domains : List ObservedDomain
  backends : List ObservedBackend
  domainKeys : (domains.map (·.localKey)).Nodup

structure Backend where
  id : BackendId
  hostId : HostId
  domainId : DomainId
  runtimeKind : RuntimeKind
  executionOs : ExecutionOs
  architecture : Architecture
deriving DecidableEq

structure DomainMapping where
  hostId : HostId
  localKey : String
  domainId : DomainId
  parentLocalKey : Option String
  kind : DomainKind
  runtimeIdentity : Option String
deriving DecidableEq

structure BackendMapping where
  hostId : HostId
  localKey : String
  backendId : BackendId
  domainLocalKey : String
  runtimeKind : RuntimeKind
  executionOs : ExecutionOs
  architecture : Architecture
  runtimeIdentity : Option String
deriving DecidableEq

/-- The store together with the tables only inventories write. -/
structure FleetStore where
  store : Store
  backends : Table Backend.id
  observedDomains : Table fun o : DomainMapping => (o.hostId, o.localKey)
  observedBackends : Table fun o : BackendMapping => (o.hostId, o.localKey)

inductive InventoryError
  | rootConflict | mappingConflict | invalidDomainGraph | domainDepth | database
deriving DecidableEq

namespace InventoryReport

def byKey (r : InventoryReport) (key : String) : Option ObservedDomain :=
  r.domains.find? (·.localKey == key)

/-- Climbs from a domain to the root, at most `fuel` steps. -/
def climb (r : InventoryReport) : Nat → List String → ObservedDomain → Except InventoryError Unit
  | fuel, seen, current =>
    match current.parentLocalKey with
    | none => .ok ()
    | some parent =>
      if parent ∈ seen then .error .invalidDomainGraph
      else
        match r.byKey parent, fuel with
        | none, _ => .error .invalidDomainGraph
        | some _, 0 => .error .domainDepth
        | some next, fuel + 1 => r.climb fuel (parent :: seen) next

/-- One physical root, and every domain below it at a depth of at most 64. -/
def validateRootAndDepth (r : InventoryReport) : Except InventoryError Unit :=
  match r.domains.filter (·.parentLocalKey.isNone) with
  | [root] => if root.kind ≠ .physical then .error .rootConflict else r.domains.forM (r.climb 63 [])
  | _ => .error .rootConflict

/-- How many parents a key has; no report that passed has more than 64. -/
def depth (r : InventoryReport) : Nat → String → Nat
  | 0, _ => 0
  | fuel + 1, key =>
    match (r.byKey key).bind (·.parentLocalKey) with
    | none => 0
    | some parent => r.depth fuel parent + 1

def pending (r : InventoryReport) : List ObservedDomain :=
  r.domains.insertionSort fun a b => r.depth 64 a.localKey ≤ r.depth 64 b.localKey

end InventoryReport

namespace FleetStore

/-- The row a reported domain stands for: the one it was mapped to before, the host's
root, or a new one. -/
def domainFor (z : FleetStore) (host : HostId) (root : DomainId) (fresh : String → DomainId)
    (d : ObservedDomain) : Except InventoryError DomainId :=
  match z.observedDomains.find (host, d.localKey) with
  | some m =>
    if d.knownId.any (· != m.domainId) || m.kind != d.kind || m.parentLocalKey != d.parentLocalKey
        || m.runtimeIdentity != d.runtimeIdentity then .error .mappingConflict
    else .ok m.domainId
  | none =>
    if d.parentLocalKey.isNone then
      if d.knownId.any (· != root) then .error .mappingConflict else .ok root
    else if d.knownId.isSome then .error .mappingConflict
    else .ok (fresh d.localKey)

/-- `INSERT INTO host_resource_domains` below a parent of the same host, with no budget. -/
def insertDomain (s : Store) (host : HostId) (id parent : DomainId) :
    Except InventoryError Store :=
  if parent = id ∨ !s.domains.rows.any fun d => d.id == parent && d.hostId == host then
    .error .database
  else
    match s.domains.insert? ⟨id, host, some parent, ⟨0, 0, 0⟩⟩ with
    | none => .error .database
    | some domains => .ok { s with domains }

/-- Puts a reported child below its parent, unless it already is there. -/
def attachDomain (s : Store) (host : HostId) (id : DomainId) (known : List (String × DomainId))
    (d : ObservedDomain) : Except InventoryError Store :=
  match d.parentLocalKey with
  | none => .ok s
  | some key =>
    match known.lookup key with
    | none => .error .mappingConflict
    | some parent =>
      match (s.domains.find id).filter (·.hostId == host) with
      | none => insertDomain s host id parent
      | some row =>
        match row.parentDomainId with
        | none => .error .database
        | some p => if p = parent then .ok s else .error .mappingConflict

def share (value : Option Nat) : Nat := value.elim 0 fun v => v / 5 * 4

/-- A budget nobody has set yet starts at the reported share; a set one is never changed. -/
def fillBudget (s : Store) (host : HostId) (id : DomainId) (c : ObservedCapacity) : Store :=
  { s with
    domains := s.domains.update
      (fun d => d.id == id && d.hostId == host && d.budget == ⟨0, 0, 0⟩
        && decide (0 < share c.cpuMillis) && decide (0 < share c.memoryMib))
      (fun d => { d with budget := ⟨share c.cpuMillis, share c.memoryMib, share c.diskBytes⟩ })
      fun _ => rfl }

/-- `INSERT INTO fleet_observed_domains`, where a known key keeps its row's id and no other
key of the host may have it. -/
def recordDomain (z : FleetStore) (m : DomainMapping) :
    Except InventoryError (Table fun o : DomainMapping => (o.hostId, o.localKey)) :=
  match z.observedDomains.upsertUnique (fun o => (o.hostId, o.domainId)) m
      (fun o => { o with
        parentLocalKey := m.parentLocalKey, runtimeIdentity := m.runtimeIdentity }) fun _ => rfl with
  | none => .error .database
  | some observed => .ok observed

/-- One domain of the report. `known` maps the keys handled before to their rows. -/
def reconcileDomain (host : HostId) (root : DomainId) (fresh : String → DomainId)
    (acc : FleetStore × List (String × DomainId)) (d : ObservedDomain) :
    Except InventoryError (FleetStore × List (String × DomainId)) := do
  let id ← acc.1.domainFor host root fresh d
  let store ← attachDomain acc.1.store host id acc.2 d
  let observedDomains ← acc.1.recordDomain
    ⟨host, d.localKey, id, d.parentLocalKey, d.kind, d.runtimeIdentity⟩
  return ({ acc.1 with store := fillBudget store host id d.capacity, observedDomains },
    (d.localKey, id) :: acc.2)

def backendFor (z : FleetStore) (host : HostId) (fresh : String → BackendId)
    (b : ObservedBackend) : Except InventoryError BackendId :=
  match z.observedBackends.find (host, b.localKey) with
  | some m =>
    if b.knownId.any (· != m.backendId) || m.domainLocalKey != b.domainLocalKey
        || m.runtimeKind != b.runtimeKind || m.executionOs != b.executionOs
        || m.architecture != b.architecture || m.runtimeIdentity != b.runtimeIdentity then
      .error .mappingConflict
    else .ok m.backendId
  | none => if b.knownId.isSome then .error .mappingConflict else .ok (fresh b.localKey)

/-- A known backend must be in the domain it was first reported in. -/
def attachBackend (z : FleetStore) (host : HostId) (id : BackendId) (domain : DomainId)
    (b : ObservedBackend) : Except InventoryError (Table Backend.id) :=
  match (z.backends.find id).filter (·.hostId == host) with
  | some row =>
    if row.domainId != domain || row.runtimeKind != b.runtimeKind
        || row.executionOs != b.executionOs || row.architecture != b.architecture then
      .error .mappingConflict
    else .ok z.backends
  | none =>
    if !z.store.domains.rows.any fun d => d.id == domain && d.hostId == host then .error .database
    else
      match z.backends.insert? ⟨id, host, domain, b.runtimeKind, b.executionOs, b.architecture⟩ with
      | none => .error .database
      | some backends => .ok backends

/-- `INSERT INTO fleet_observed_backends`, under the same rule. -/
def recordBackend (z : FleetStore) (m : BackendMapping) :
    Except InventoryError (Table fun o : BackendMapping => (o.hostId, o.localKey)) :=
  match z.observedBackends.upsertUnique (fun o => (o.hostId, o.backendId)) m
      (fun o => { o with
        domainLocalKey := m.domainLocalKey, runtimeIdentity := m.runtimeIdentity }) fun _ => rfl with
  | none => .error .database
  | some observed => .ok observed

def upsertBackend (host : HostId) (fresh : String → BackendId) (known : List (String × DomainId))
    (z : FleetStore) (b : ObservedBackend) : Except InventoryError FleetStore :=
  match known.lookup b.domainLocalKey with
  | none => .error .mappingConflict
  | some domain => do
    let id ← z.backendFor host fresh b
    let backends ← z.attachBackend host id domain b
    let observedBackends ← z.recordBackend ⟨host, b.localKey, id, b.domainLocalKey, b.runtimeKind,
      b.executionOs, b.architecture, b.runtimeIdentity⟩
    return { z with backends, observedBackends }

def reconcileInventory (z : FleetStore) (host : HostId) (report : InventoryReport)
    (freshDomain : String → DomainId) (freshBackend : String → BackendId) :
    Except InventoryError FleetStore := do
  report.validateRootAndDepth
  match z.store.domains.rows.find? fun d => d.hostId == host && d.parentDomainId.isNone with
  | none => .error .mappingConflict
  | some root =>
    let acc ← report.pending.foldlM (reconcileDomain host root.id freshDomain) (z, [])
    report.backends.foldlM (upsertBackend host freshBackend acc.2) acc.1

end FleetStore

end Gridops.Fleet
