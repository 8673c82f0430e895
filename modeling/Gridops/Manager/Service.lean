import Gridops.Manager.Capacity

/-!
# The manager's requests as a machine

`reserve_capacity`, `release_capacity`, `provision_runner`, `create_sandbox`, `control_runner` and
the two deletions, over the containers Docker holds.

A request that takes `provision_lock` is not one step: it enters its section with the checks it
makes first, calls Docker, and leaves. Whatever needs no lock (releases, stops, pauses, deletions,
containers that exit, leases that expire) may come between. A request may also be dropped at any
call to Docker, by the route's `TimeoutLayer` or by its client: it then frees the lock and goes no
further.

Docker takes each call as a whole.
-/

namespace Gridops.Manager

open Lib

/-! ## Requests -/

def Provider.parse : String → Option Provider
  | "docker" => some .docker
  | "tart" => some .tart
  | _ => none

def validIdentifier (id : String) : Bool := !id.isEmpty && id.utf8ByteSize ≤ 128

structure CapacityRequest where
  runnerId : String
  poolId : String
  provider : String
  cpuLimit : ℚ
  memoryLimitMb : ℤ
deriving DecidableEq

def parseProvider (provider : String) : Except ManagerError Provider :=
  match Provider.parse provider with
  | some provider => .ok provider
  | none => .error (.badRequest "Runner provider must be Docker or Tart.")

def CapacityRequest.validate (input : CapacityRequest) : Except ManagerError (Provider × Demand) :=
  if !validIdentifier input.runnerId || !validIdentifier input.poolId then
    .error (.badRequest "Runner and pool identifiers are invalid.")
  else do
    let demand ← Demand.check input.cpuLimit input.memoryLimitMb
    let provider ← parseProvider input.provider
    .ok (provider, demand)

/-- `detailsError` is the verdict of the checks on the name, the image, the runtime, the
platform and the registration secrets. -/
structure ProvisionRunner where
  runnerId : String
  poolId : String
  name : String
  provider : String
  mode : Mode
  network : String
  cpuLimit : ℚ
  memoryLimitMb : ℤ
  capacityLease : LeaseId
  detailsError : Option String
deriving DecidableEq

def ProvisionRunner.validate (input : ProvisionRunner) : Except ManagerError LeaseClaim :=
  if input.runnerId.isEmpty || input.poolId.isEmpty || !validIdentifier input.capacityLease then
    .error (.badRequest "Runner, pool, and capacity lease identifiers are required.")
  else
    match input.detailsError with
    | some message => .error (.badRequest message)
    | none => do
      let provider ← parseProvider input.provider
      let demand ← Demand.check input.cpuLimit input.memoryLimitMb
      .ok ⟨input.capacityLease, input.runnerId, input.poolId, provider, demand⟩

/-- `detailsError` is the verdict of the checks on the identifier, the image and the network. -/
structure CreateSandbox where
  sandboxId : String
  network : String
  cpuLimit : ℚ
  memoryLimitMb : ℤ
  capacityLease : LeaseId
  detailsError : Option String
deriving DecidableEq

def sandboxPoolId : String := "gridops-agent"

def sandboxContainerName (sandboxId : String) : String := "gridops-agent-" ++ sandboxId

def CreateSandbox.validate (input : CreateSandbox) : Except ManagerError LeaseClaim :=
  match input.detailsError with
  | some message => .error (.badRequest message)
  | none =>
    if h : (1 / 4 ≤ input.cpuLimit ∧ input.cpuLimit ≤ 64) ∧
        256 ≤ input.memoryLimitMb ∧ input.memoryLimitMb ≤ 262144 then
      if !validIdentifier input.capacityLease then
        .error (.badRequest "Sandbox capacity lease identifier is required.")
      else
        .ok {
          leaseId := input.capacityLease
          runnerId := input.sandboxId
          poolId := sandboxPoolId
          provider := .docker
          demand := ⟨input.cpuLimit, input.memoryLimitMb.toNat,
            lt_of_lt_of_le (by norm_num) h.1.1, by omega⟩ }
    else .error (.badRequest ("Sandbox CPU must be between 0.25 and 64 and memory between " ++
      "256 and 262144 MB."))

/-- A request inside `provision_lock`, by what it has still to do. -/
inductive Section where
  /-- `reserve_capacity` has measured the host. -/
  | reserving (input : CapacityRequest) (provider : Provider) (demand : Demand)
      (budget : CapacityBudget) (active : CapacityUsage)
  /-- A provisioning request holds a valid lease. -/
  | provisioning (claim : LeaseClaim) (name : String) (workload : Workload)
  | created (leaseId : LeaseId) (id : ContainerId)
  /-- The `start` of an inactive container has measured the host. -/
  | admitting (id : ContainerId) (requested active : CapacityUsage)
  | starting (id : ContainerId)
  | resuming (id : ContainerId)
  | restarting (id : ContainerId)
deriving DecidableEq

def Section.heldLease : Section → Option LeaseId
  | .provisioning claim _ _ => some claim.leaseId
  | .created leaseId _ => some leaseId
  | _ => none

structure ManagerState where
  containers : Containers
  reservations : Reservations
  provisioningPaused : Bool
  provisionLock : Option Section
  now : Instant
deriving DecidableEq

namespace ContainerState

def start : ContainerState → ContainerState
  | .created | .exited => .running
  | s => s

def restart : ContainerState → ContainerState
  | .removing => .removing
  | .dead => .dead
  | _ => .running

def unpause : ContainerState → ContainerState
  | .paused => .running
  | s => s

def pause : ContainerState → ContainerState
  | .running => .paused
  | s => s

def stop : ContainerState → ContainerState
  | .running | .restarting | .paused => .exited
  | s => s

end ContainerState

namespace ManagerState

variable (s : ManagerState)

def setState (id : ContainerId) (f : ContainerState → ContainerState) :
    ManagerState :=
  { s with
    containers := s.containers.update (·.id == id) (fun c => { c with state := f c.state })
      (fun _ => rfl) }

/-- `reservations.retain(|_, reservation| reservation.expires_at > Instant::now())`. -/
def retainUnexpired : ManagerState :=
  { s with reservations := s.reservations.retain fun r => decide (s.now < r.expiresAt) }

def removeLease (leaseId : LeaseId) : ManagerState :=
  { s with reservations := s.reservations.retain (·.leaseId != leaseId) }

/-- Takes the lock for a request that passed its first checks; a refused one leaves it free. -/
def enter (request : Except ManagerError Section) : Option ManagerState :=
  match s.provisionLock with
  | some _ => none
  | none => some { s with provisionLock := request.toOption }

def leave : ManagerState := { s with provisionLock := none }

def ensureProvisioningEnabled : Except ManagerError Unit :=
  if s.provisioningPaused then
    .error (.guardrail "provisioning_paused" "Runner provisioning is globally paused.")
  else .ok ()

def tartProviderDisabled : ManagerError :=
  .upstream "tart_provider_disabled" "The Tart macOS runner provider is not configured."

/-- `agent` is the answer of the Tart agent's health route, `none` without one. -/
def measure (limits : ManagerLimits) (s : ManagerState) (input : CapacityRequest)
    (agent : Option (CapacityBudget × CapacityUsage)) : Except ManagerError Section := do
  let (provider, demand) ← input.validate
  s.ensureProvisioningEnabled
  match provider with
  | .docker => .ok (.reserving input .docker demand limits.dockerBudget
      (dockerActiveCapacity s.containers))
  | .tart =>
    match agent with
    | some (budget, active) => .ok (.reserving input .tart demand budget active)
    | none => .error tartProviderDisabled

/-- `Duration::from_mins(5)`, in seconds. -/
def leaseSeconds : Instant := 300

def reserve (leaseId : LeaseId) (disk : DiskCapacity) : Option ManagerState :=
  match s.provisionLock with
  | some (.reserving input provider demand budget active) =>
    let s := s.retainUnexpired
    match enforceCapacity budget active (providerReservations s.reservations provider)
        demand.usage (if provider = .docker then some disk else none) with
    | .error _ => some s.leave
    | .ok () => do
      let reservations ← s.reservations.insert?
        ⟨leaseId, input.runnerId, input.poolId, provider, demand, s.now + leaseSeconds⟩
      some { s.leave with reservations }
  | _ => none

def validateCapacityLease (reservations : Reservations) (claim : LeaseClaim) :
    Except ManagerError Unit :=
  match reservations.find claim.leaseId with
  | none => .error (.guardrail "capacity_lease_invalid"
      "Runner capacity reservation is missing or expired.")
  | some r =>
    if claim.agrees r then .ok ()
    else .error (.forbidden
      "Runner capacity reservation does not match the provisioning request.")

/-- What `provision_runner` and `create_sandbox` check in the same way. -/
def claimLease (limits : ManagerLimits) (s : ManagerState) (claim : LeaseClaim) (network : String)
    (networkError : String) : Except ManagerError Unit := do
  s.ensureProvisioningEnabled
  if network ≠ limits.runnerNetwork then .error (.forbidden networkError)
  else validateCapacityLease s.reservations claim

def provisionRunner (limits : ManagerLimits) (s : ManagerState) (input : ProvisionRunner) :
    Except ManagerError Section := do
  let claim ← input.validate
  s.claimLease limits claim input.network
    "Runner containers may only join the configured GridOps runner network."
  .ok (.provisioning claim input.name (.runner input.runnerId input.poolId input.mode))

def createSandbox (limits : ManagerLimits) (s : ManagerState) (input : CreateSandbox) :
    Except ManagerError Section := do
  let claim ← input.validate
  s.claimLease limits claim input.network
    "Agent sandboxes may only join the configured GridOps runner network."
  .ok (.provisioning claim (sandboxContainerName input.sandboxId) (.sandbox input.sandboxId))

/-- `create_container`. A request for the Tart provider is forwarded and creates none. -/
def createContainer (id : ContainerId) : Option ManagerState :=
  match s.provisionLock with
  | some (.provisioning claim name workload) =>
    if claim.provider = .docker ∧ s.containers.rows.all (·.name != name) then do
      let containers ← s.containers.insert?
        ⟨id, name, workload, .created, claim.demand.nanoCpus, claim.demand.memoryBytes⟩
      some { s with containers, provisionLock := some (.created claim.leaseId id) }
    else none
  | _ => none

def startCreated : Option ManagerState :=
  match s.provisionLock with
  | some (.created _ id) => some (s.setState id .start)
  | _ => none

/-- However provisioning went, its lease is gone afterwards. -/
def finishProvision : Option ManagerState :=
  match s.provisionLock with
  | some (.provisioning claim _ _) => some (s.removeLease claim.leaseId).leave
  | some (.created leaseId _) => some (s.removeLease leaseId).leave
  | _ => none

def managedContainer (id : ContainerId) : Except ManagerError (Container × Mode) :=
  match s.containers.find id with
  | none => .error (.notFound "No such container.")
  | some c =>
    match c.workload with
    | .runner _ _ mode => .ok (c, mode)
    | .sandbox _ => .error (.forbidden
        "GridOps can only control containers carrying its managed-runner label.")

def refuseEphemeral (mode : Mode) : Except ManagerError Unit :=
  if mode = .ephemeral then
    .error (.conflict
      "Ephemeral runners cannot be started or restarted; rebuild the runner instead.")
  else .ok ()

/-- `start` checks capacity for a container that is not active. -/
def startRunner (id : ContainerId) : Except ManagerError Section := do
  let (c, mode) ← s.managedContainer id
  refuseEphemeral mode
  s.ensureProvisioningEnabled
  if c.active then .ok (.starting id)
  else .ok (.admitting id c.usage (dockerActiveCapacity s.containers))

/-- `restart` makes no such check. -/
def restartRunner (id : ContainerId) : Except ManagerError Section := do
  let (_, mode) ← s.managedContainer id
  refuseEphemeral mode
  s.ensureProvisioningEnabled
  .ok (.restarting id)

def resumeRunner (id : ContainerId) : Except ManagerError Section := do
  let _ ← s.managedContainer id
  s.ensureProvisioningEnabled
  .ok (.resuming id)

def admitStart (limits : ManagerLimits) (s : ManagerState) (disk : DiskCapacity) :
    Option ManagerState :=
  match s.provisionLock with
  | some (.admitting id requested active) =>
    let s := s.retainUnexpired
    match enforceCapacity limits.dockerBudget active
        (providerReservations s.reservations .docker) requested (some disk) with
    | .error _ => some s.leave
    | .ok () => some { s with provisionLock := some (.starting id) }
  | _ => none

/-- The Docker call that ends a `start`, `resume` or `restart`. -/
def control : Option ManagerState :=
  match s.provisionLock with
  | some (.starting id) => some (s.setState id .start).leave
  | some (.resuming id) => some (s.setState id .unpause).leave
  | some (.restarting id) => some (s.setState id .restart).leave
  | _ => none

/-- `stop` and `pause` take no lock. -/
def controlUnlocked (id : ContainerId) (f : ContainerState → ContainerState) :
    ManagerState :=
  match s.managedContainer id with
  | .ok _ => s.setState id f
  | .error _ => s

def removeContainer (id : ContainerId) : ManagerState :=
  { s with containers := s.containers.retain (·.id != id) }

end ManagerState

/-! ## What a request has checked when it holds the lock -/

namespace ManagerState

variable {limits : ManagerLimits} {s t : ManagerState} {sec : Section} {id : ContainerId}

theorem enter_cases {request : Except ManagerError Section} (h : s.enter request = some t) :
    s.provisionLock = none ∧
      (t = s ∨ ∃ sec, request = .ok sec ∧ t = { s with provisionLock := some sec }) := by
  unfold enter at h
  split at h
  · cases h
  · next hfree =>
    refine ⟨hfree, ?_⟩
    cases request with
    | error e =>
      left
      rw [← Option.some.inj h, Except.toOption, ← hfree]
    | ok sec => exact .inr ⟨sec, rfl, (Option.some.inj h).symm⟩

theorem measure_cases {input : CapacityRequest} {agent : Option (CapacityBudget × CapacityUsage)}
    (h : s.measure limits input agent = .ok sec) :
    ∃ provider demand budget active, sec = .reserving input provider demand budget active ∧
      (provider = .docker →
        budget = limits.dockerBudget ∧ active = dockerActiveCapacity s.containers) := by
  obtain ⟨⟨provider, demand⟩, -, h⟩ := bind_eq_ok h
  obtain ⟨-, -, h⟩ := bind_eq_ok h
  cases provider with
  | docker =>
    cases h
    exact ⟨_, _, _, _, rfl, fun _ => ⟨rfl, rfl⟩⟩
  | tart =>
    rcases agent with _ | ⟨budget, active⟩
    · cases h
    · cases h
      exact ⟨_, _, _, _, rfl, fun hdocker => by cases hdocker⟩

theorem claimLease_cases {claim : LeaseClaim} {network message : String}
    (h : s.claimLease limits claim network message = .ok ()) :
    ∃ r, s.reservations.find claim.leaseId = some r ∧ claim.agrees r := by
  obtain ⟨-, -, h⟩ := bind_eq_ok h
  obtain ⟨-, h⟩ := guard_eq_ok h
  unfold validateCapacityLease at h
  split at h
  · cases h
  · next r hfind =>
    split at h
    · next hagrees => exact ⟨r, hfind, hagrees⟩
    · cases h

theorem provisioning_cases {validated : Except ManagerError LeaseClaim}
    {network message name : String} {workload : Workload}
    (h : (do
      let claim ← validated
      s.claimLease limits claim network message
      Except.ok (Section.provisioning claim name workload)) = .ok sec) :
    ∃ claim name workload r, sec = .provisioning claim name workload ∧
      s.reservations.find claim.leaseId = some r ∧ claim.agrees r := by
  obtain ⟨claim, -, h⟩ := bind_eq_ok h
  obtain ⟨⟨⟩, hlease, h⟩ := bind_eq_ok h
  obtain ⟨r, hfind, hagrees⟩ := claimLease_cases hlease
  cases h
  exact ⟨claim, _, _, r, rfl, hfind, hagrees⟩

theorem managedContainer_cases {c : Container} {mode : Mode}
    (h : s.managedContainer id = .ok (c, mode)) : s.containers.find id = some c := by
  unfold managedContainer at h
  split at h
  · cases h
  · next c' hfind =>
    split at h
    · cases h
      exact hfind
    · cases h

theorem startRunner_cases (h : s.startRunner id = .ok sec) :
    ∃ c, s.containers.find id = some c ∧
      (c.active ∧ sec = .starting id ∨
        sec = .admitting id c.usage (dockerActiveCapacity s.containers)) := by
  obtain ⟨⟨c, mode⟩, hc, h⟩ := bind_eq_ok h
  obtain ⟨-, -, h⟩ := bind_eq_ok h
  obtain ⟨-, -, h⟩ := bind_eq_ok h
  refine ⟨c, managedContainer_cases hc, ?_⟩
  split at h
  · next hactive =>
    cases h
    exact .inl ⟨hactive, rfl⟩
  · cases h
    exact .inr rfl

theorem restartRunner_cases (h : s.restartRunner id = .ok sec) : sec = .restarting id := by
  obtain ⟨⟨c, mode⟩, -, h⟩ := bind_eq_ok h
  obtain ⟨-, -, h⟩ := bind_eq_ok h
  obtain ⟨-, -, h⟩ := bind_eq_ok h
  cases h
  rfl

theorem resumeRunner_cases (h : s.resumeRunner id = .ok sec) : sec = .resuming id := by
  obtain ⟨-, -, h⟩ := bind_eq_ok h
  obtain ⟨-, -, h⟩ := bind_eq_ok h
  cases h
  rfl

theorem reserve_cases {leaseId : LeaseId} {disk : DiskCapacity}
    (h : s.reserve leaseId disk = some t) :
    ∃ input provider demand budget active,
      s.provisionLock = some (.reserving input provider demand budget active) ∧
      (t = s.retainUnexpired.leave ∨ ∃ disk reservations,
        enforceCapacity budget active (providerReservations s.retainUnexpired.reservations provider)
          demand.usage disk = .ok () ∧
        s.retainUnexpired.reservations.insert? ⟨leaseId, input.runnerId, input.poolId, provider,
          demand, s.now + leaseSeconds⟩ = some reservations ∧
        t = { s.retainUnexpired.leave with reservations }) := by
  unfold reserve at h
  split at h
  · next input provider demand budget active hlock =>
    refine ⟨input, provider, demand, budget, active, hlock, ?_⟩
    dsimp only at h
    split at h
    · cases h
      exact .inl rfl
    · next hfits =>
      obtain ⟨reservations, hinsert, h⟩ := Option.bind_eq_some_iff.mp h
      cases h
      exact .inr ⟨_, reservations, hfits, hinsert, rfl⟩
  · cases h

theorem createContainer_cases (h : s.createContainer id = some t) :
    ∃ claim name workload containers,
      s.provisionLock = some (.provisioning claim name workload) ∧ claim.provider = .docker ∧
      s.containers.insert? ⟨id, name, workload, .created, claim.demand.nanoCpus,
        claim.demand.memoryBytes⟩ = some containers ∧
      t = { s with containers, provisionLock := some (.created claim.leaseId id) } := by
  unfold createContainer at h
  split at h
  · next claim name workload hlock =>
    split at h
    · next hnew =>
      obtain ⟨containers, hinsert, h⟩ := Option.bind_eq_some_iff.mp h
      cases h
      exact ⟨claim, name, workload, containers, hlock, hnew.1, hinsert, rfl⟩
    · cases h
  · cases h

theorem finishProvision_cases (h : s.finishProvision = some t) :
    ∃ sec leaseId, s.provisionLock = some sec ∧ sec.heldLease = some leaseId ∧
      t = (s.removeLease leaseId).leave := by
  unfold finishProvision at h
  split at h
  · next claim _ _ hlock =>
    cases h
    exact ⟨_, claim.leaseId, hlock, rfl, rfl⟩
  · next leaseId _ hlock =>
    cases h
    exact ⟨_, leaseId, hlock, rfl, rfl⟩
  · cases h

theorem admitStart_cases {disk : DiskCapacity} (h : s.admitStart limits disk = some t) :
    ∃ id requested active, s.provisionLock = some (.admitting id requested active) ∧
      (t = s.retainUnexpired.leave ∨
        enforceCapacity limits.dockerBudget active
          (providerReservations s.retainUnexpired.reservations .docker) requested (some disk)
            = .ok () ∧
        t = { s.retainUnexpired with provisionLock := some (.starting id) }) := by
  unfold admitStart at h
  split at h
  · next id requested active hlock =>
    refine ⟨id, requested, active, hlock, ?_⟩
    dsimp only at h
    split at h
    · cases h
      exact .inl rfl
    · next hfits =>
      cases h
      exact .inr ⟨hfits, rfl⟩
  · cases h

theorem control_cases (h : s.control = some t) :
    ∃ id, (s.provisionLock = some (.starting id) ∧ t = (s.setState id .start).leave) ∨
      (s.provisionLock = some (.resuming id) ∧ t = (s.setState id .unpause).leave) ∨
      (s.provisionLock = some (.restarting id) ∧ t = (s.setState id .restart).leave) := by
  unfold control at h
  split at h
  · next id hlock => exact ⟨id, .inl ⟨hlock, (Option.some.inj h).symm⟩⟩
  · next id hlock => exact ⟨id, .inr (.inl ⟨hlock, (Option.some.inj h).symm⟩)⟩
  · next id hlock => exact ⟨id, .inr (.inr ⟨hlock, (Option.some.inj h).symm⟩)⟩
  · cases h

end ManagerState

/-! ## The machine -/

inductive Action where
  | measure (input : CapacityRequest) (agent : Option (CapacityBudget × CapacityUsage))
  | reserve (leaseId : LeaseId) (disk : DiskCapacity)
  | release (leaseId : LeaseId)
  | provisionRunner (input : ProvisionRunner)
  | createSandbox (input : CreateSandbox)
  | createContainer (id : ContainerId)
  | startCreated
  | finishProvision
  | startRunner (id : ContainerId)
  | admitStart (disk : DiskCapacity)
  | resumeRunner (id : ContainerId)
  | restartRunner (id : ContainerId)
  | control
  | stop (id : ContainerId)
  | pause (id : ContainerId)
  /-- `delete_runner`, `delete_sandbox`, or the cleanup after a failed start. -/
  | remove (id : ContainerId)
  | exit (id : ContainerId)
  | abandon
  | setPolicy (provisioningPaused : Bool)
  | elapse (seconds : Instant)
deriving DecidableEq

namespace ManagerState

def step (limits : ManagerLimits) (s : ManagerState) : Action → Option ManagerState
  | .measure input agent => s.enter (s.measure limits input agent)
  | .reserve leaseId disk => s.reserve leaseId disk
  | .release leaseId => some (s.removeLease leaseId)
  -- Expired leases are dropped before one is looked up.
  | .provisionRunner input =>
    s.retainUnexpired.enter (s.retainUnexpired.provisionRunner limits input)
  | .createSandbox input => s.retainUnexpired.enter (s.retainUnexpired.createSandbox limits input)
  | .createContainer id => s.createContainer id
  | .startCreated => s.startCreated
  | .finishProvision => s.finishProvision
  | .startRunner id => s.enter (s.startRunner id)
  | .admitStart disk => s.admitStart limits disk
  | .resumeRunner id => s.enter (s.resumeRunner id)
  | .restartRunner id => s.enter (s.restartRunner id)
  | .control => s.control
  | .stop id => some (s.controlUnlocked id .stop)
  | .pause id => some (s.controlUnlocked id .pause)
  | .remove id => some (s.removeContainer id)
  | .exit id => some (s.setState id fun _ => .exited)
  | .abandon => some s.leave
  | .setPolicy paused => some { s with provisioningPaused := paused }
  | .elapse seconds => some { s with now := s.now + seconds }

end ManagerState

def manager (limits : ManagerLimits) : Machine ManagerState Action :=
  ⟨ManagerState.step limits⟩

def ManagerState.initial (provisioningPaused : Bool) (now : Instant) : ManagerState where
  containers := .empty
  reservations := .empty
  provisioningPaused := provisioningPaused
  provisionLock := none
  now := now

structure ManagerState.WithinBudget (limits : ManagerLimits) (s : ManagerState) : Prop where
  runners : (dockerActiveCapacity s.containers).activeRunners ≤ limits.maxRunners
  cpu : (dockerActiveCapacity s.containers).cpu ≤ limits.cpuBudget
  memory : (dockerActiveCapacity s.containers).memoryMb ≤ limits.memoryBudgetMb

instance (limits : ManagerLimits) (s : ManagerState) : Decidable (s.WithinBudget limits) :=
  decidable_of_iff
    ((dockerActiveCapacity s.containers).activeRunners ≤ limits.maxRunners ∧
      (dockerActiveCapacity s.containers).cpu ≤ limits.cpuBudget ∧
      (dockerActiveCapacity s.containers).memoryMb ≤ limits.memoryBudgetMb)
    ⟨fun h => ⟨h.1, h.2.1, h.2.2⟩, fun h => ⟨h.runners, h.cpu, h.memory⟩⟩

namespace Sample

def limits : ManagerLimits where
  cpuBudget := 2
  memoryBudgetMb := 4096
  maxRunners := 1
  runnerNetwork := "gridops-runners"
  cpuBudget_pos := by norm_num
  maxRunners_le := by norm_num

def disk : DiskCapacity := ⟨50000, 10240⟩

def capacityRequest (runnerId : String) : CapacityRequest :=
  ⟨runnerId, "pool", "docker", 2, 4096⟩

def provisionRequest (runnerId leaseId : String) : ProvisionRunner :=
  ⟨runnerId, "pool", runnerId, "docker", .persistent, "gridops-runners", 2, 4096, leaseId, none⟩

def provision (runnerId leaseId id : String) : List Action :=
  [.measure (capacityRequest runnerId) none, .reserve leaseId disk,
    .provisionRunner (provisionRequest runnerId leaseId), .createContainer id, .startCreated,
    .finishProvision]

def restartCalls : List Action :=
  provision "first" "lease-1" "c1" ++ [.stop "c1"] ++ provision "second" "lease-2" "c2" ++
    [.restartRunner "c1", .control]

def startCalls : List Action :=
  provision "first" "lease-1" "c1" ++
    [.stop "c1", .measure (capacityRequest "second") none, .reserve "lease-2" disk,
      .release "lease-2", .startRunner "c1", .elapse 10, .admitStart disk, .control,
      .restartRunner "c1", .control]

end Sample

end Gridops.Manager
