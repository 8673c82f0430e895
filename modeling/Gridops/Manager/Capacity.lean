import Gridops.Lib.Run
import Gridops.Lib.Tally

/-!
# Capacity of the Docker host

`gridops-manager/src/main.rs`: what a managed container takes of the host, how the
capacity in use and the capacity reserved are added up, and the check that admits a
new runner or sandbox. A CPU amount is an exact rational here, where the source
has an `f64`; `epsilon` is the tolerance its comparisons allow.

Usages form an ordered monoid, component by component, so that a bound on a usage
is a bound on the number of runners, on the CPU and on the memory at once.
-/

namespace Gridops.Manager

open Lib

abbrev Instant := ℕ

/-- `f64::EPSILON`. -/
def epsilon : ℚ := 1 / 4503599627370496

/-! ## Usages -/

@[ext] structure CapacityUsage where
  activeRunners : ℕ
  cpu : ℚ
  memoryMb : ℕ
deriving DecidableEq

structure CapacityBudget where
  cpu : ℚ
  memoryMb : ℕ
  maxRunners : ℕ
deriving DecidableEq

namespace CapacityUsage

instance : Zero CapacityUsage := ⟨⟨0, 0, 0⟩⟩

instance : Add CapacityUsage :=
  ⟨fun a b => ⟨a.activeRunners + b.activeRunners, a.cpu + b.cpu, a.memoryMb + b.memoryMb⟩⟩

instance : LE CapacityUsage :=
  ⟨fun a b => a.activeRunners ≤ b.activeRunners ∧ a.cpu ≤ b.cpu ∧ a.memoryMb ≤ b.memoryMb⟩

variable {a b c : CapacityUsage}

@[simp] theorem activeRunners_zero : (0 : CapacityUsage).activeRunners = 0 := rfl
@[simp] theorem cpu_zero : (0 : CapacityUsage).cpu = 0 := rfl
@[simp] theorem memoryMb_zero : (0 : CapacityUsage).memoryMb = 0 := rfl
@[simp] theorem activeRunners_add : (a + b).activeRunners = a.activeRunners + b.activeRunners := rfl
@[simp] theorem cpu_add : (a + b).cpu = a.cpu + b.cpu := rfl
@[simp] theorem memoryMb_add : (a + b).memoryMb = a.memoryMb + b.memoryMb := rfl

theorem le_def : a ≤ b ↔
    a.activeRunners ≤ b.activeRunners ∧ a.cpu ≤ b.cpu ∧ a.memoryMb ≤ b.memoryMb := Iff.rfl

instance : AddCommMonoid CapacityUsage where
  add_assoc a b c := by ext <;> simp [add_assoc]
  zero_add a := by ext <;> simp
  add_zero a := by ext <;> simp
  add_comm a b := by ext <;> simp [add_comm]
  nsmul := nsmulRec

instance : PartialOrder CapacityUsage where
  le_refl _ := ⟨le_rfl, le_rfl, le_rfl⟩
  le_trans _ _ _ h h' := ⟨h.1.trans h'.1, h.2.1.trans h'.2.1, h.2.2.trans h'.2.2⟩
  le_antisymm _ _ h h' := CapacityUsage.ext (h.1.antisymm h'.1) (h.2.1.antisymm h'.2.1)
    (h.2.2.antisymm h'.2.2)

instance : IsOrderedAddMonoid CapacityUsage where
  add_le_add_left _ _ h c := ⟨Nat.add_le_add_right h.1 _, by simpa using h.2.1,
    Nat.add_le_add_right h.2.2 _⟩

def wholeUnits (unit : ℚ) : AddSubmonoid CapacityUsage where
  carrier := { u | ∃ n : ℕ, u.cpu = n * unit }
  zero_mem' := ⟨0, by simp⟩
  add_mem' := by
    rintro a b ⟨n, hn⟩ ⟨m, hm⟩
    exact ⟨n + m, by simp [hn, hm, add_mul]⟩

end CapacityUsage

inductive ManagerError where
  | forbidden (message : String)
  | badRequest (message : String)
  | conflict (message : String)
  | guardrail (code message : String)
  | notFound (message : String)
  | upstream (code message : String)
deriving DecidableEq

/-- A number with two decimals, ties to even: `{:.2}`. -/
def fixed2 (x : ℚ) : String :=
  let scaled := x * 100
  let below := scaled.floor
  let half := scaled - below - 1 / 2
  let rounded := if 0 < half ∨ half = 0 ∧ below % 2 = 1 then below + 1 else below
  let cents := (rounded % 100).toNat
  toString (rounded / 100) ++ "." ++ (if cents < 10 then "0" else "") ++ toString cents

/-- The part of `ManagerLimits` that admission reads, with what `from_environment` checks. -/
structure ManagerLimits where
  cpuBudget : ℚ
  memoryBudgetMb : ℕ
  maxRunners : ℕ
  runnerNetwork : String
  cpuBudget_pos : 0 < cpuBudget
  maxRunners_le : maxRunners ≤ 1000

def ManagerLimits.dockerBudget (limits : ManagerLimits) : CapacityBudget where
  cpu := limits.cpuBudget
  memoryMb := limits.memoryBudgetMb
  maxRunners := limits.maxRunners

/-- A CPU and a memory limit that passed the check that both are positive. -/
structure Demand where
  cpuLimit : ℚ
  memoryLimitMb : ℕ
  cpuLimit_pos : 0 < cpuLimit
  memoryLimitMb_pos : 0 < memoryLimitMb
deriving DecidableEq

namespace Demand

/-- The check on `cpu_limit` and `memory_limit_mb` that every request makes. -/
def check (cpuLimit : ℚ) (memoryLimitMb : ℤ) : Except ManagerError Demand :=
  if h : 0 < cpuLimit ∧ 0 < memoryLimitMb then
    .ok ⟨cpuLimit, memoryLimitMb.toNat, h.1, by omega⟩
  else .error (.badRequest "Runner CPU and memory must be positive values.")

def usage (d : Demand) : CapacityUsage := ⟨1, d.cpuLimit, d.memoryLimitMb⟩

theorem usage_nonneg (d : Demand) : 0 ≤ d.usage :=
  ⟨Nat.zero_le _, d.cpuLimit_pos.le, Nat.zero_le _⟩

/-- The CPU limit given to Docker: `(cpu_limit * 1_000_000_000.0) as i64`. -/
def nanoCpus (d : Demand) : ℕ := (d.cpuLimit * 1000000000).floor.toNat

def memoryBytes (d : Demand) : ℕ := d.memoryLimitMb * 1024 * 1024

end Demand

/-! ## Managed containers -/

inductive ContainerState where
  | created | running | restarting | paused | exited | removing | dead
deriving DecidableEq

def activeContainerState : ContainerState → Bool
  | .created | .running | .restarting | .paused => true
  | .exited | .removing | .dead => false

inductive Mode where
  | ephemeral | persistent
deriving DecidableEq

inductive Workload where
  | runner (runnerId poolId : String) (mode : Mode)
  | sandbox (sandboxId : String)
deriving DecidableEq

abbrev ContainerId := String

structure Container where
  id : ContainerId
  name : String
  workload : Workload
  state : ContainerState
  nanoCpus : ℕ
  memory : ℕ
deriving DecidableEq

namespace Container

variable (c : Container)

def active : Bool := activeContainerState c.state

def isSandbox : Bool :=
  match c.workload with
  | .runner .. => false
  | .sandbox _ => true

/-- One container's part of `containers_usage`. -/
def usage : CapacityUsage :=
  ⟨1, c.nanoCpus / 1000000000, c.memory / 1024 / 1024⟩

theorem usage_nonneg : 0 ≤ c.usage :=
  ⟨Nat.zero_le _, by unfold usage; positivity, Nat.zero_le _⟩

end Container

abbrev Containers := Table Container.id

structure DockerUsage where
  runners : CapacityUsage
  sandboxes : CapacityUsage

def DockerUsage.total (u : DockerUsage) : CapacityUsage := u.runners + u.sandboxes

variable (containers : Containers)

def dockerActiveUsage : DockerUsage where
  runners := (containers.retain fun c => c.active && !c.isSandbox).tally Container.usage
  sandboxes := (containers.retain fun c => c.active && c.isSandbox).tally Container.usage

def dockerActiveCapacity : CapacityUsage :=
  (dockerActiveUsage containers).total

theorem dockerActiveCapacity_eq :
    dockerActiveCapacity containers = containers.tally fun c => if c.active then c.usage else 0 := by
  simp only [dockerActiveCapacity, DockerUsage.total, dockerActiveUsage, Table.tally_retain,
    ← Table.tally_add]
  congr 1
  funext c
  by_cases ha : c.active <;> by_cases hs : c.isSandbox <;> simp [hs]

inductive Provider where
  | docker | tart
deriving DecidableEq

abbrev LeaseId := String

structure CapacityReservation where
  leaseId : LeaseId
  runnerId : String
  poolId : String
  provider : Provider
  demand : Demand
  expiresAt : Instant
deriving DecidableEq

abbrev Reservations := Table CapacityReservation.leaseId

def providerReservations (reservations : Reservations) (provider : Provider) : CapacityUsage :=
  (reservations.retain (·.provider == provider)).tally (·.demand.usage)

/-- What a provisioning request says its capacity lease was reserved for. -/
structure LeaseClaim where
  leaseId : LeaseId
  runnerId : String
  poolId : String
  provider : Provider
  demand : Demand
deriving DecidableEq

def LeaseClaim.agrees (claim : LeaseClaim) (r : CapacityReservation) : Bool :=
  r.runnerId == claim.runnerId && r.poolId == claim.poolId && r.provider == claim.provider
    && decide (|r.demand.cpuLimit - claim.demand.cpuLimit| ≤ epsilon)
    && r.demand.memoryLimitMb == claim.demand.memoryLimitMb

structure DiskCapacity where
  availableMb : ℕ
  minimumFreeMb : ℕ
deriving DecidableEq

def DiskCapacity.enforce (disk : DiskCapacity) : Except ManagerError Unit :=
  if disk.availableMb < disk.minimumFreeMb then
    .error (.guardrail "host_disk_guardrail"
      ("Runner provisioning stopped because only " ++ toString disk.availableMb ++
        " MB disk space remains; " ++ toString disk.minimumFreeMb ++ " MB is reserved."))
  else .ok ()

/-- `disk` is `none` for providers whose host enforces its own disk reserve. -/
def enforceCapacity (budget : CapacityBudget) (active reserved requested : CapacityUsage)
    (disk : Option DiskCapacity) : Except ManagerError Unit := do
  disk.elim (.ok ()) DiskCapacity.enforce
  let projected := active + reserved + requested
  if projected.activeRunners > budget.maxRunners then
    .error (.guardrail "host_capacity_exhausted"
      ("Host runner limit reached (" ++ toString projected.activeRunners ++ "/" ++
        toString budget.maxRunners ++ " including reservations)."))
  else if projected.cpu > budget.cpu + epsilon then
    .error (.guardrail "host_capacity_exhausted"
      ("Host CPU budget would be exceeded (" ++ fixed2 projected.cpu ++ "/" ++
        fixed2 budget.cpu ++ " CPUs including reservations)."))
  else if projected.memoryMb > budget.memoryMb then
    .error (.guardrail "host_capacity_exhausted"
      ("Host memory budget would be exceeded (" ++ toString projected.memoryMb ++ "/" ++
        toString budget.memoryMb ++ " MB including reservations)."))
  else .ok ()

theorem enforceCapacity_ok {budget : CapacityBudget} {active reserved requested : CapacityUsage}
    {disk : Option DiskCapacity} (h : enforceCapacity budget active reserved requested disk = .ok ()) :
    active + reserved + requested ≤ ⟨budget.maxRunners, budget.cpu + epsilon, budget.memoryMb⟩ := by
  obtain ⟨-, -, h⟩ := bind_eq_ok h
  obtain ⟨hrunners, h⟩ := guard_eq_ok h
  obtain ⟨hcpu, h⟩ := guard_eq_ok h
  split at h
  · cases h
  · next hmemory => exact ⟨not_lt.mp hrunners, not_lt.mp hcpu, not_lt.mp hmemory⟩

end Gridops.Manager
