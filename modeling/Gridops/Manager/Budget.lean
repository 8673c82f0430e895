import Gridops.Manager.Service

/-!
# The Docker budget is never over-committed

What counts against the budget is more than what is active: a lease stands for a
container that may still be created, and a request inside the lock for one that it is
about to create or start. `ManagerState.committed` adds all of it up. No step of
the manager raises it except the two that were admitted against the budget, and the
tolerance of each comparison is paid for once per lease.

A `restart` is the exception: it starts a stopped container without asking for room.
-/

namespace Gridops.Manager

open Lib

/-! ## What is committed -/

def slack : CapacityUsage := ⟨0, epsilon, 0⟩

/-- The container a request is about to start, active or not. -/
def Section.target : Section → Option ContainerId
  | .created _ id | .starting id => some id
  | _ => none

def Section.pending : Section → CapacityUsage
  | .provisioning claim _ _ => if claim.provider = .docker then claim.demand.usage else 0
  | _ => 0

def chargedContainer (target : Option ContainerId) (c : Container) : CapacityUsage :=
  if c.active ∨ target = some c.id then c.usage else 0

def chargedLease (now : Instant) (held : Option LeaseId) (r : CapacityReservation) :
    CapacityUsage :=
  if (r.provider = .docker ∧ now < r.expiresAt) ∧ held ≠ some r.leaseId then
    r.demand.usage + slack
  else 0

namespace ManagerState

variable (s : ManagerState)

def target : Option ContainerId := s.provisionLock.bind Section.target
def heldLease : Option LeaseId := s.provisionLock.bind Section.heldLease
def pending : CapacityUsage := s.provisionLock.elim 0 Section.pending

def committed : CapacityUsage :=
  s.containers.tally (chargedContainer s.target) +
    s.reservations.tally (chargedLease s.now s.heldLease) + s.pending

end ManagerState

/-- The budget, with the tolerance of every lease it can hold. -/
def ManagerLimits.ceiling (limits : ManagerLimits) : CapacityUsage :=
  ⟨limits.maxRunners, limits.cpuBudget + (limits.maxRunners + 1) * epsilon, limits.memoryBudgetMb⟩

theorem epsilon_nonneg : 0 ≤ epsilon := by norm_num [epsilon]

theorem slack_nonneg : 0 ≤ slack := ⟨le_rfl, epsilon_nonneg, le_rfl⟩

theorem chargedContainer_nonneg (target : Option ContainerId) (c : Container) :
    0 ≤ chargedContainer target c := by
  unfold chargedContainer
  split
  · exact c.usage_nonneg
  · exact le_rfl

theorem chargedContainer_le (target : Option ContainerId) (c : Container) :
    chargedContainer target c ≤ c.usage := by
  unfold chargedContainer
  split
  · exact le_rfl
  · exact c.usage_nonneg

theorem chargedContainer_mono {target target' : Option ContainerId} {c c' : Container}
    (husage : c'.usage = c.usage)
    (h : c'.active ∨ target' = some c'.id → c.active ∨ target = some c.id) :
    chargedContainer target' c' ≤ chargedContainer target c := by
  unfold chargedContainer
  split
  · next hc' => rw [if_pos (h hc'), husage]
  · exact chargedContainer_nonneg target c

theorem chargedLease_nonneg (now : Instant) (held : Option LeaseId) (r : CapacityReservation) :
    0 ≤ chargedLease now held r := by
  unfold chargedLease
  split
  · exact add_nonneg r.demand.usage_nonneg slack_nonneg
  · exact le_rfl

theorem chargedLease_mono {now now' : Instant} {held held' : Option LeaseId}
    {r : CapacityReservation} (hnow : now ≤ now')
    (hheld : held' ≠ some r.leaseId → held ≠ some r.leaseId) :
    chargedLease now' held' r ≤ chargedLease now held r := by
  unfold chargedLease
  split
  · next h => rw [if_pos ⟨⟨h.1.1, hnow.trans_lt h.1.2⟩, hheld h.2⟩]
  · exact chargedLease_nonneg now held r

theorem Section.pending_nonneg (sec : Section) : 0 ≤ sec.pending := by
  cases sec with
  | provisioning claim =>
    simp only [pending]
    split
    · exact claim.demand.usage_nonneg
    · exact le_rfl
  | _ => exact le_rfl

theorem ManagerState.pending_nonneg (s : ManagerState) : 0 ≤ s.pending := by
  unfold pending
  cases s.provisionLock with
  | none => exact le_rfl
  | some sec => exact sec.pending_nonneg

theorem dockerActiveCapacity_eq_charged (containers : Containers) :
    dockerActiveCapacity containers = containers.tally (chargedContainer none) := by
  rw [dockerActiveCapacity_eq]
  congr 1
  funext c
  simp [chargedContainer]

theorem active_le_committed (s : ManagerState) :
    dockerActiveCapacity s.containers ≤ s.committed := by
  rw [dockerActiveCapacity_eq_charged]
  have hcontainers : s.containers.tally (chargedContainer none) ≤
      s.containers.tally (chargedContainer s.target) :=
    Table.tally_mono fun c _ => chargedContainer_mono rfl fun hc => .inl (by simpa using hc)
  have hleases : 0 ≤ s.reservations.tally (chargedLease s.now s.heldLease) :=
    Table.tally_nonneg fun r _ => chargedLease_nonneg _ _ r
  calc
    _ ≤ s.containers.tally (chargedContainer s.target) := hcontainers
    _ ≤ _ := le_add_of_nonneg_right hleases
    _ ≤ _ := le_add_of_nonneg_right s.pending_nonneg

/-! ## Containers that only lose charge -/

/-- Every container left is one of before, and none is charged more. -/
structure Lighter (containers containers' : Containers) : Prop where
  charged : ∀ target, containers'.tally (chargedContainer target) ≤
    containers.tally (chargedContainer target)
  known : ∀ c' ∈ containers', ∃ c ∈ containers, c.id = c'.id ∧ c.usage = c'.usage

namespace Lighter

theorem refl (containers : Containers) : Lighter containers containers :=
  ⟨fun _ => le_rfl, fun c hc => ⟨c, hc, rfl, rfl⟩⟩

theorem retain (containers : Containers) (p : Container → Bool) :
    Lighter containers (containers.retain p) where
  charged target := by
    rw [Table.tally_retain]
    refine Table.tally_mono fun c _ => ?_
    split
    · exact le_rfl
    · exact chargedContainer_nonneg target c
  known c hc := ⟨c, (Table.mem_retain.mp hc).1, rfl, rfl⟩

theorem setState (s : ManagerState) (id : ContainerId) {f : ContainerState → ContainerState}
    (hf : ∀ st, activeContainerState (f st) → activeContainerState st) :
    Lighter s.containers (s.setState id f).containers where
  charged target := by
    rw [ManagerState.setState, Table.tally_update]
    refine Table.tally_mono fun c _ => ?_
    split
    · exact chargedContainer_mono rfl fun h => h.imp_left (hf c.state)
    · exact le_rfl
  known c' hc' := by
    simp only [ManagerState.setState, Table.mem_update] at hc'
    obtain ⟨c, hc, rfl⟩ := hc'
    refine ⟨c, hc, ?_⟩
    split
    · exact ⟨rfl, rfl⟩
    · exact ⟨rfl, rfl⟩

theorem active {containers containers' : Containers} (h : Lighter containers containers') :
    dockerActiveCapacity containers' ≤ dockerActiveCapacity containers := by
  simpa only [dockerActiveCapacity_eq_charged] using h.charged none

end Lighter

/-- The leases of a list, each with its tolerance, against the sum that admission sees. -/
theorem leases_with_slack (p : CapacityReservation → Prop) [DecidablePred p]
    (l : List CapacityReservation) :
    (l.map fun r => if p r then r.demand.usage + slack else 0).sum =
      (l.map fun r => if p r then r.demand.usage else 0).sum +
        ⟨0, (l.map fun r => if p r then r.demand.usage else 0).sum.activeRunners * epsilon, 0⟩ := by
  induction l with
  | nil => ext <;> simp
  | cons r l ih =>
    simp only [List.map_cons, List.sum_cons, ih]
    split
    · ext
      · simp [slack]
      · simp only [slack, Demand.usage, CapacityUsage.cpu_add, CapacityUsage.activeRunners_add]
        push_cast
        ring
      · simp [slack]
    · ext <;> simp

/-- With no lease claimed, the unexpired leases are charged what `provider_reservations`
adds up for Docker and a tolerance each. -/
theorem charged_leases (s : ManagerState) :
    s.retainUnexpired.reservations.tally (chargedLease s.now none) =
      providerReservations s.retainUnexpired.reservations .docker +
        ⟨0, (providerReservations s.retainUnexpired.reservations .docker).activeRunners * epsilon,
          0⟩ := by
  have hcharge : s.retainUnexpired.reservations.tally (chargedLease s.now none) =
      (s.retainUnexpired.reservations.rows.map fun r =>
        if r.provider = .docker then r.demand.usage + slack else 0).sum := by
    refine congrArg List.sum (List.map_congr_left fun r hr => ?_)
    have hnow : s.now < r.expiresAt := of_decide_eq_true (Table.mem_retain.mp hr).2
    simp [chargedLease, hnow]
  have hreserved : providerReservations s.retainUnexpired.reservations .docker =
      (s.retainUnexpired.reservations.rows.map fun r =>
        if r.provider = .docker then r.demand.usage else 0).sum := by
    rw [providerReservations, Table.tally_retain, Table.tally]
    simp
  rw [hcharge, leases_with_slack, ← hreserved]

/-- **Admission.** What `enforce_capacity` lets in stays below the ceiling, with a tolerance for it
and for every lease. -/
theorem admitted_le_ceiling {limits : ManagerLimits} {used active reserved requested : CapacityUsage}
    {disk : Option DiskCapacity}
    (h : enforceCapacity limits.dockerBudget active reserved requested disk = .ok ())
    (hused : used ≤ active) (hone : requested.activeRunners = 1) :
    used + (reserved + ⟨0, reserved.activeRunners * epsilon, 0⟩) + (requested + slack) ≤
      limits.ceiling := by
  obtain ⟨hrunners, hcpu, hmemory⟩ := enforceCapacity_ok h
  obtain ⟨hused₁, hused₂, hused₃⟩ := hused
  simp only [CapacityUsage.activeRunners_add, CapacityUsage.cpu_add, CapacityUsage.memoryMb_add,
    ManagerLimits.dockerBudget] at hrunners hcpu hmemory
  simp only [CapacityUsage.le_def, CapacityUsage.activeRunners_add, CapacityUsage.cpu_add,
    CapacityUsage.memoryMb_add, slack, ManagerLimits.ceiling]
  have hleases : (reserved.activeRunners + 1 : ℚ) ≤ limits.maxRunners := by
    exact_mod_cast (by omega : reserved.activeRunners + 1 ≤ limits.maxRunners)
  have htolerance := mul_le_mul_of_nonneg_right hleases epsilon_nonneg
  refine ⟨by omega, ?_, by omega⟩
  linarith

theorem tally_retainUnexpired (s : ManagerState) (held : Option LeaseId) :
    s.retainUnexpired.reservations.tally (chargedLease s.now held) =
      s.reservations.tally (chargedLease s.now held) := by
  rw [ManagerState.retainUnexpired, Table.tally_retain]
  congr 1
  funext r
  by_cases hnow : s.now < r.expiresAt <;> simp [chargedLease, hnow]

/-! ## The invariant -/

/-- A measurement that a request in the lock still relies on is not too small. -/
def Section.Measured (limits : ManagerLimits) (containers : Containers) : Section → Prop
  | .reserving _ provider _ budget active =>
    provider = .docker →
      budget = limits.dockerBudget ∧ dockerActiveCapacity containers ≤ active
  | .admitting id requested active =>
    dockerActiveCapacity containers ≤ active ∧ requested.activeRunners = 1 ∧ 0 ≤ requested ∧
      ∀ c ∈ containers, c.id = id → c.usage ≤ requested
  | _ => True

/-- What is committed fits, and so did what was measured. -/
structure Covered (limits : ManagerLimits) (s : ManagerState) : Prop where
  committed : s.committed ≤ limits.ceiling
  measured : ∀ sec, s.provisionLock = some sec → sec.Measured limits s.containers

theorem Section.Measured.lighter {limits : ManagerLimits} {containers containers' : Containers}
    {sec : Section} (h : sec.Measured limits containers) (hlight : Lighter containers containers') :
    sec.Measured limits containers' := by
  cases sec with
  | reserving _ provider _ budget active =>
    exact fun hdocker => (h hdocker).imp_right hlight.active.trans
  | admitting id requested active =>
    obtain ⟨hactive, hone, hnonneg, hcontainer⟩ := h
    refine ⟨hlight.active.trans hactive, hone, hnonneg, fun c hc hid => ?_⟩
    obtain ⟨c', hc', hid', husage⟩ := hlight.known c hc
    exact husage ▸ hcontainer c' hc' (hid'.trans hid)
  | provisioning | created | starting | resuming | restarting => trivial

theorem leases_retain_le (reservations : Reservations) (p : CapacityReservation → Bool)
    (now : Instant) (held : Option LeaseId) :
    (reservations.retain p).tally (chargedLease now held) ≤
      reservations.tally (chargedLease now held) := by
  rw [Table.tally_retain]
  refine Table.tally_mono fun r _ => ?_
  split
  · exact le_rfl
  · exact chargedLease_nonneg now held r

theorem LeaseClaim.usage_le {claim : LeaseClaim} {r : CapacityReservation}
    (h : claim.agrees r) : claim.demand.usage ≤ r.demand.usage + slack := by
  simp only [agrees, Bool.and_eq_true, decide_eq_true_eq, beq_iff_eq] at h
  obtain ⟨⟨-, hcpu⟩, hmemory⟩ := h
  have := (abs_le.mp hcpu).1
  refine ⟨le_rfl, ?_, hmemory.ge⟩
  simp only [Demand.usage, CapacityUsage.cpu_add, slack]
  linarith

theorem LeaseClaim.provider_eq {claim : LeaseClaim} {r : CapacityReservation}
    (h : claim.agrees r) : r.provider = claim.provider := by
  simp only [agrees, Bool.and_eq_true, beq_iff_eq] at h
  exact h.1.1.2

/-- Docker is never told to give a container more than was asked for. -/
theorem Container.usage_le_demand {c : Container} {d : Demand} (hcpu : c.nanoCpus = d.nanoCpus)
    (hmemory : c.memory = d.memoryBytes) : c.usage ≤ d.usage := by
  refine ⟨le_rfl, ?_, ?_⟩
  · have hnonneg : 0 ≤ (d.cpuLimit * 1000000000).floor :=
      Rat.le_floor_iff.mpr (by simpa using d.cpuLimit_pos.le)
    have hfloor : ((d.nanoCpus : ℕ) : ℚ) ≤ d.cpuLimit * 1000000000 := by
      rw [Demand.nanoCpus, ← Int.cast_natCast, Int.toNat_of_nonneg hnonneg]
      exact Rat.floor_le _
    simp only [usage, Demand.usage, hcpu]
    linarith
  · simp only [usage, Demand.usage, hmemory, Demand.memoryBytes]
    omega

namespace Covered

variable {limits : ManagerLimits} {s t : ManagerState}

theorem initial (paused : Bool) (now : Instant) : Covered limits (.initial paused now) where
  committed := by
    have hzero : (ManagerState.initial paused now).committed = 0 := by
      simp [ManagerState.committed, ManagerState.initial, ManagerState.pending]
    rw [hzero]
    refine ⟨Nat.zero_le _, ?_, Nat.zero_le _⟩
    have htolerance : (0 : ℚ) ≤ (limits.maxRunners + 1) * epsilon :=
      mul_nonneg (by positivity) epsilon_nonneg
    exact add_nonneg limits.cpuBudget_pos.le htolerance
  measured sec h := by cases h

theorem shrink (h : Covered limits s) (hlock : t.provisionLock = s.provisionLock)
    (hcontainers : Lighter s.containers t.containers)
    (hleases : ∀ held, t.reservations.tally (chargedLease t.now held) ≤
      s.reservations.tally (chargedLease s.now held)) : Covered limits t where
  committed := by
    refine le_trans ?_ h.committed
    simp only [ManagerState.committed, ManagerState.target, ManagerState.heldLease,
      ManagerState.pending, hlock]
    gcongr
    · exact hcontainers.charged _
    · exact hleases _
  measured sec hsec := (h.measured sec (hlock ▸ hsec)).lighter hcontainers

theorem retainUnexpired (h : Covered limits s) : Covered limits s.retainUnexpired :=
  h.shrink rfl (.refl _) fun held => leases_retain_le _ _ _ held

theorem removeLease (h : Covered limits s) (leaseId : LeaseId) :
    Covered limits (s.removeLease leaseId) :=
  h.shrink rfl (.refl _) fun held => leases_retain_le _ _ _ held

theorem elapse (h : Covered limits s) (seconds : Instant) :
    Covered limits { s with now := s.now + seconds } :=
  h.shrink rfl (.refl _) fun _ =>
    Table.tally_mono fun _ _ => chargedLease_mono (Nat.le_add_right _ _) id

theorem setState (h : Covered limits s) (id : ContainerId) {f : ContainerState → ContainerState}
    (hf : ∀ st, activeContainerState (f st) → activeContainerState st) :
    Covered limits (s.setState id f) :=
  h.shrink rfl (.setState s id hf) fun _ => le_rfl

theorem controlUnlocked (h : Covered limits s) (id : ContainerId)
    {f : ContainerState → ContainerState}
    (hf : ∀ st, activeContainerState (f st) → activeContainerState st) :
    Covered limits (s.controlUnlocked id f) := by
  unfold ManagerState.controlUnlocked
  split
  · exact h.setState id hf
  · exact h

theorem leave (h : Covered limits s) (hheld : s.heldLease = none) : Covered limits s.leave where
  committed := by
    refine le_trans ?_ h.committed
    refine add_le_add (add_le_add ?_ ?_) s.pending_nonneg
    · exact Table.tally_mono fun c _ =>
        chargedContainer_mono rfl fun hc => .inl (hc.resolve_right (by simp [ManagerState.target,
          ManagerState.leave]))
    · exact Table.tally_mono fun r _ => by rw [hheld]; exact le_rfl
  measured sec hsec := by cases hsec

/-! ## Entering a section -/

theorem lock {sec : Section} (h : Covered limits s) (hfree : s.provisionLock = none)
    (htarget : ∀ c ∈ s.containers, sec.target = some c.id → c.active)
    (hheld : sec.heldLease = none) (hpending : sec.pending = 0)
    (hmeasured : sec.Measured limits s.containers) :
    Covered limits { s with provisionLock := some sec } where
  committed := by
    refine le_trans ?_ h.committed
    simp only [ManagerState.committed, ManagerState.heldLease, ManagerState.pending, hfree,
      Option.bind_some, Option.bind_none, Option.elim_some, Option.elim_none, hheld, hpending]
    gcongr
    exact Table.tally_mono fun c hc => chargedContainer_mono rfl fun hcharged =>
      .inl (hcharged.elim id (htarget c hc))
  measured sec' hsec' := by
    cases hsec'
    exact hmeasured

theorem claim {claim : LeaseClaim} {r : CapacityReservation} {name : String} {workload : Workload}
    (h : Covered limits s) (hfree : s.provisionLock = none)
    (hfind : s.reservations.find claim.leaseId = some r) (hagrees : claim.agrees r)
    (hnow : s.now < r.expiresAt) :
    Covered limits { s with provisionLock := some (.provisioning claim name workload) } where
  committed := by
    refine le_trans ?_ h.committed
    obtain ⟨hr, hkey⟩ := Table.find_some_iff.mp hfind
    -- The lease leaves the tally of leases and comes back as what is pending.
    have hrest : s.reservations.tally (chargedLease s.now (some claim.leaseId)) =
        s.reservations.tally fun r' =>
          if r'.leaseId = r.leaseId then 0 else chargedLease s.now none r' := by
      congr 1
      funext r'
      simp only [chargedLease, hkey]
      by_cases heq : r'.leaseId = claim.leaseId
      · simp [heq]
      · simp [heq, Ne.symm heq]
    have hpending : (Section.provisioning claim name workload).pending ≤
        chargedLease s.now none r := by
      simp only [Section.pending]
      split
      · next hdocker =>
        have hprovider : r.provider = .docker := (LeaseClaim.provider_eq hagrees).trans hdocker
        simpa [chargedLease, hprovider, hnow] using LeaseClaim.usage_le hagrees
      · exact chargedLease_nonneg _ _ _
    simp only [ManagerState.committed, ManagerState.target, ManagerState.heldLease,
      ManagerState.pending, hfree, Option.bind_some, Option.bind_none, Option.elim_none,
        Section.heldLease]
    rw [hrest, Table.tally_split (w := chargedLease s.now none) hr, add_zero, add_assoc]
    refine add_le_add le_rfl ?_
    rw [add_comm]
    exact add_le_add hpending le_rfl
  measured sec hsec := by
    cases hsec
    trivial

/-! ## Leaving a section with something new -/

theorem createContainer {id : ContainerId} (h : Covered limits s)
    (hstep : s.createContainer id = some t) : Covered limits t := by
  obtain ⟨claim, name, workload, containers, hlock, hdocker, hinsert, rfl⟩ :=
    ManagerState.createContainer_cases hstep
  refine ⟨le_trans ?_ h.committed, fun sec hsec => by cases hsec; trivial⟩
  have hfresh := (Table.insert?_some.mp hinsert).1
  have hothers : s.containers.tally (chargedContainer (some id)) ≤
      s.containers.tally (chargedContainer none) := by
    refine Table.tally_mono fun c hc => chargedContainer_mono rfl fun hcharged => ?_
    refine hcharged.imp_right fun heq => ?_
    exact absurd (List.mem_map_of_mem (f := Container.id) hc) (Option.some.inj heq ▸ hfresh)
  simp only [ManagerState.committed, ManagerState.target, ManagerState.heldLease,
    ManagerState.pending, hlock, Option.elim_some, Section.pending, hdocker]
  rw [Table.tally_insert? hinsert, add_zero, add_right_comm (s.containers.tally _)]
  refine add_le_add (add_le_add hothers le_rfl) ?_
  exact (chargedContainer_le _ _).trans (Container.usage_le_demand rfl rfl)

theorem finishProvision (h : Covered limits s) (hstep : s.finishProvision = some t) :
    Covered limits t := by
  obtain ⟨sec, leaseId, hlock, hheld, rfl⟩ := ManagerState.finishProvision_cases hstep
  refine ⟨le_trans ?_ h.committed, fun sec hsec => by cases hsec⟩
  simp only [ManagerState.committed, ManagerState.target, ManagerState.heldLease,
    ManagerState.pending, ManagerState.leave, ManagerState.removeLease, hlock, Option.bind_some,
      hheld]
  refine add_le_add (add_le_add ?_ ?_) sec.pending_nonneg
  · exact Table.tally_mono fun c _ =>
      chargedContainer_mono rfl fun hc => .inl (hc.resolve_right (by simp))
  · rw [Table.tally_retain]
    refine Table.tally_mono fun r _ => ?_
    split
    · next hother =>
      exact chargedLease_mono le_rfl fun _ heq => by
        simp [Option.some.inj heq] at hother
    · exact chargedLease_nonneg _ _ _

theorem admitted {active requested : CapacityUsage} {disk : Option DiskCapacity}
    (hfits : enforceCapacity limits.dockerBudget active
      (providerReservations s.retainUnexpired.reservations .docker) requested disk = .ok ())
    (hactive : dockerActiveCapacity s.containers ≤ active) (hone : requested.activeRunners = 1) :
    dockerActiveCapacity s.containers + s.reservations.tally (chargedLease s.now none) +
      (requested + slack) ≤ limits.ceiling := by
  rw [← tally_retainUnexpired, charged_leases]
  exact admitted_le_ceiling hfits hactive hone

theorem reserve {leaseId : LeaseId} {disk : DiskCapacity} (h : Covered limits s)
    (hstep : s.reserve leaseId disk = some t) : Covered limits t := by
  obtain ⟨input, provider, demand, budget, active, hlock, ht⟩ := ManagerState.reserve_cases hstep
  have hheld : s.retainUnexpired.heldLease = none := by
    simp [ManagerState.heldLease, ManagerState.retainUnexpired, hlock, Section.heldLease]
  have hleft := h.retainUnexpired.leave hheld
  obtain rfl | ⟨disk, reservations, hfits, hinsert, rfl⟩ := ht
  · exact hleft
  · refine ⟨?_, fun sec hsec => by cases hsec⟩
    have hsum : ({ s.retainUnexpired.leave with reservations } : ManagerState).committed =
        dockerActiveCapacity s.containers + s.reservations.tally (chargedLease s.now none) +
          chargedLease s.now none ⟨leaseId, input.runnerId, input.poolId, provider, demand,
            s.now + ManagerState.leaseSeconds⟩ := by
      rw [dockerActiveCapacity_eq_charged, add_assoc, ← tally_retainUnexpired,
        ← Table.tally_insert? hinsert, ManagerState.committed]
      exact add_zero _
    rw [hsum]
    cases provider with
    | docker =>
      obtain ⟨rfl, hactive⟩ := h.measured _ hlock rfl
      refine le_trans (add_le_add le_rfl ?_) (admitted hfits hactive rfl)
      simp [chargedLease, ManagerState.leaseSeconds]
    | tart =>
      refine le_trans (le_of_eq ?_) hleft.committed
      simp only [dockerActiveCapacity_eq_charged, ← tally_retainUnexpired]
      rfl

theorem admitStart {disk : DiskCapacity} (h : Covered limits s)
    (hstep : s.admitStart limits disk = some t) : Covered limits t := by
  obtain ⟨id, requested, active, hlock, ht⟩ := ManagerState.admitStart_cases hstep
  have hheld : s.retainUnexpired.heldLease = none := by
    simp [ManagerState.heldLease, ManagerState.retainUnexpired, hlock, Section.heldLease]
  obtain rfl | ⟨hfits, rfl⟩ := ht
  · exact h.retainUnexpired.leave hheld
  · refine ⟨?_, fun sec hsec => by cases hsec; trivial⟩
    obtain ⟨hactive, hone, hnonneg, hcontainer⟩ := h.measured _ hlock
    have hcontainers : s.containers.tally (chargedContainer (some id)) ≤
        dockerActiveCapacity s.containers + requested := by
      rw [dockerActiveCapacity_eq_charged]
      refine Table.tally_le_add (k := id) hnonneg (fun c hc hid => ?_) fun c hc hne => ?_
      · exact ((chargedContainer_le _ c).trans (hcontainer c hc hid)).trans
          (le_add_of_nonneg_left (chargedContainer_nonneg _ c))
      · exact chargedContainer_mono rfl fun hcharged =>
          hcharged.imp_right fun heq => absurd (Option.some.inj heq).symm hne
    refine le_trans ?_ (admitted hfits hactive hone)
    simp only [ManagerState.committed, ManagerState.pending, Option.elim_some, Section.pending,
      add_zero]
    calc
      _ ≤ dockerActiveCapacity s.containers + requested +
          s.reservations.tally (chargedLease s.now none) :=
        add_le_add hcontainers (tally_retainUnexpired s none).le
      _ = dockerActiveCapacity s.containers + s.reservations.tally (chargedLease s.now none) +
          requested := add_right_comm _ _ _
      _ ≤ _ := add_le_add le_rfl (le_add_of_nonneg_right slack_nonneg)

theorem start {id : ContainerId} (h : Covered limits s)
    (hlock : s.provisionLock = some (.starting id)) :
    Covered limits (s.setState id .start).leave where
  committed := by
    refine le_trans ?_ h.committed
    simp only [ManagerState.committed, ManagerState.target, ManagerState.heldLease,
      ManagerState.pending, ManagerState.leave, ManagerState.setState, hlock, Option.bind_some,
        Section.target]
    refine add_le_add (add_le_add ?_ le_rfl) le_rfl
    rw [Table.tally_update]
    refine Table.tally_mono fun c _ => ?_
    split
    · next hid =>
      refine chargedContainer_mono rfl fun _ => .inr ?_
      rw [beq_iff_eq.mp hid]
    · exact chargedContainer_mono rfl fun hc => .inl (hc.resolve_right (by simp))
  measured sec hsec := by cases hsec

end Covered

/-! ## Runs -/

/-- The check that `start` makes and `restart` does not. -/
def HasRoom (limits : ManagerLimits) (s : ManagerState) (c : Container) : Prop :=
  enforceCapacity limits.dockerBudget (dockerActiveCapacity s.containers)
    (providerReservations s.retainUnexpired.reservations .docker) c.usage none = .ok ()

/-- A `restart` finds its container active or room for it, and a claimed provisioning is not
dropped. -/
def Permitted (limits : ManagerLimits) (s : ManagerState) : Action → Prop
  | .control => ∀ c ∈ s.containers.rows, s.provisionLock = some (.restarting c.id) →
      c.active ∨ HasRoom limits s c
  | .abandon => s.heldLease = none
  | _ => True

namespace Covered

variable {limits : ManagerLimits} {s t : ManagerState}

theorem restart {id : ContainerId} (h : Covered limits s)
    (hlock : s.provisionLock = some (.restarting id))
    (hroom : ∀ c ∈ s.containers, c.id = id → c.active ∨ HasRoom limits s c) :
    Covered limits (s.setState id .restart).leave := by
  have hheld : s.heldLease = none := by simp [ManagerState.heldLease, hlock, Section.heldLease]
  have hcommitted : (s.setState id .restart).leave.committed =
      (s.setState id .restart).containers.tally (chargedContainer none) +
        s.reservations.tally (chargedLease s.now none) := add_zero _
  refine ⟨?_, fun sec hsec => by cases hsec⟩
  rw [hcommitted, ManagerState.setState, Table.tally_update]
  by_cases hactive : ∀ c ∈ s.containers, c.id = id → c.active
  · -- The container was charged already.
    refine le_trans (add_le_add ?_ le_rfl) ((add_zero _).ge.trans (h.leave hheld).committed)
    refine Table.tally_mono fun c hc => ?_
    split
    · next hid => exact chargedContainer_mono rfl fun _ => .inl (hactive c hc (beq_iff_eq.mp hid))
    · exact le_rfl
  · push Not at hactive
    obtain ⟨c, hc, rfl, hinactive⟩ := hactive
    have hfits : HasRoom limits s c := (hroom c hc rfl).resolve_left hinactive
    have hcontainers : (s.containers.tally fun c' => chargedContainer none
        (if c'.id == c.id then { c' with state := c'.state.restart } else c')) ≤
        dockerActiveCapacity s.containers + c.usage := by
      rw [dockerActiveCapacity_eq_charged]
      refine Table.tally_le_add (k := c.id) c.usage_nonneg (fun c' hc' hid => ?_)
        fun c' hc' hne => ?_
      · cases Table.eq_of_key hc' hc hid
        rw [if_pos (beq_self_eq_true _)]
        exact (chargedContainer_le none _).trans
          (le_add_of_nonneg_left (chargedContainer_nonneg none _))
      · rw [if_neg (by simpa using hne)]
    calc
      _ ≤ dockerActiveCapacity s.containers + c.usage +
          s.reservations.tally (chargedLease s.now none) := add_le_add hcontainers le_rfl
      _ = dockerActiveCapacity s.containers + s.reservations.tally (chargedLease s.now none) +
          c.usage := add_right_comm _ _ _
      _ ≤ _ := add_le_add le_rfl (le_add_of_nonneg_right slack_nonneg)
      _ ≤ _ := admitted hfits le_rfl rfl

theorem control (h : Covered limits s) (hok : Permitted limits s .control)
    (hstep : s.control = some t) : Covered limits t := by
  obtain ⟨id, ⟨hlock, rfl⟩ | ⟨hlock, rfl⟩ | ⟨hlock, rfl⟩⟩ := ManagerState.control_cases hstep
  · exact h.start hlock
  · refine (h.setState id ?_).leave ?_
    · intro st
      cases st <;> simp [ContainerState.unpause, activeContainerState]
    · simp [ManagerState.heldLease, ManagerState.setState, hlock, Section.heldLease]
  · exact h.restart hlock fun c hc hid => hok c hc (hid ▸ hlock)

theorem startCreated (h : Covered limits s) (hstep : s.startCreated = some t) :
    Covered limits t := by
  unfold ManagerState.startCreated at hstep
  split at hstep
  · next leaseId id hlock =>
    cases hstep
    refine ⟨le_trans ?_ h.committed, fun sec hsec => ?_⟩
    · simp only [ManagerState.committed, ManagerState.target, ManagerState.heldLease,
        ManagerState.pending, ManagerState.setState, hlock, Option.bind_some, Section.target]
      refine add_le_add (add_le_add ?_ le_rfl) le_rfl
      rw [Table.tally_update]
      refine Table.tally_mono fun c _ => ?_
      split
      · next hid => exact chargedContainer_mono rfl fun _ => .inr (by rw [beq_iff_eq.mp hid])
      · exact le_rfl
    · cases hlock.symm.trans hsec
      trivial
  · cases hstep

theorem startRunner {id : ContainerId} {sec : Section} (h : Covered limits s)
    (hfree : s.provisionLock = none) (hsec : s.startRunner id = .ok sec) :
    Covered limits { s with provisionLock := some sec } := by
  obtain ⟨c, hfind, ⟨hactive, rfl⟩ | rfl⟩ := ManagerState.startRunner_cases hsec
  · refine h.lock hfree (fun c' hc' htarget => ?_) rfl rfl trivial
    have hid : c'.id = c.id := (Option.some.inj htarget).symm.trans (Table.key_of_find hfind).symm
    exact Table.eq_of_key hc' (Table.mem_of_find hfind) hid ▸ hactive
  · refine h.lock hfree (fun c' _ htarget => by cases htarget) rfl rfl
      ⟨le_rfl, rfl, c.usage_nonneg, fun c' hc' hid => ?_⟩
    have hsame := Table.eq_of_key hc' (Table.mem_of_find hfind)
      (hid.trans (Table.key_of_find hfind).symm)
    rw [hsame]

/-- **One step.** Every permitted step of the manager keeps its commitments covered. -/
theorem step {a : Action} (h : Covered limits s) (hok : Permitted limits s a)
    (hstep : s.step limits a = some t) : Covered limits t := by
  cases a with
  | measure input agent =>
    obtain ⟨hfree, rfl | ⟨sec, hsec, rfl⟩⟩ := ManagerState.enter_cases hstep
    · exact h
    · obtain ⟨provider, -, budget, active, rfl, hdocker⟩ := ManagerState.measure_cases hsec
      exact h.lock hfree (fun _ _ htarget => by cases htarget) rfl rfl
        fun hprovider => (hdocker hprovider).imp_right fun heq => heq.ge
  | reserve leaseId disk => exact h.reserve hstep
  | release leaseId =>
    cases hstep
    exact h.removeLease leaseId
  | provisionRunner input | createSandbox input =>
    obtain ⟨hfree, rfl | ⟨sec, hsec, rfl⟩⟩ := ManagerState.enter_cases hstep
    · exact h.retainUnexpired
    · obtain ⟨claim, -, -, r, rfl, hfind, hagrees⟩ :=
        ManagerState.provisioning_cases hsec
      have hnow := (Table.mem_retain.mp (Table.mem_of_find hfind)).2
      exact h.retainUnexpired.claim hfree hfind hagrees (of_decide_eq_true hnow)
  | createContainer id => exact h.createContainer hstep
  | startCreated => exact h.startCreated hstep
  | finishProvision => exact h.finishProvision hstep
  | startRunner id =>
    obtain ⟨hfree, rfl | ⟨sec, hsec, rfl⟩⟩ := ManagerState.enter_cases hstep
    · exact h
    · exact h.startRunner hfree hsec
  | admitStart disk => exact h.admitStart hstep
  | resumeRunner id =>
    obtain ⟨hfree, rfl | ⟨sec, hsec, rfl⟩⟩ := ManagerState.enter_cases hstep
    · exact h
    · cases ManagerState.resumeRunner_cases hsec
      exact h.lock hfree (fun _ _ htarget => by cases htarget) rfl rfl trivial
  | restartRunner id =>
    obtain ⟨hfree, rfl | ⟨sec, hsec, rfl⟩⟩ := ManagerState.enter_cases hstep
    · exact h
    · cases ManagerState.restartRunner_cases hsec
      exact h.lock hfree (fun _ _ htarget => by cases htarget) rfl rfl trivial
  | control => exact h.control hok hstep
  | stop id =>
    cases hstep
    exact h.controlUnlocked id fun st => by
      cases st <;> simp [ContainerState.stop, activeContainerState]
  | pause id =>
    cases hstep
    exact h.controlUnlocked id fun st => by
      cases st <;> simp [ContainerState.pause, activeContainerState]
  | remove id =>
    cases hstep
    exact h.shrink rfl (.retain _ _) fun _ => le_rfl
  | exit id =>
    cases hstep
    exact h.setState id fun st hactive => by cases hactive
  | abandon =>
    cases hstep
    exact h.leave hok
  | setPolicy paused =>
    cases hstep
    exact h.shrink rfl (.refl _) fun _ => le_rfl
  | elapse seconds =>
    cases hstep
    exact h.elapse seconds

end Covered

/-- Docker's CPU limits are whole numbers of nano-CPUs, and so is their sum. -/
theorem dockerActiveCapacity_cpu (containers : Containers) :
    dockerActiveCapacity containers ∈ CapacityUsage.wholeUnits (1 / 1000000000) := by
  rw [dockerActiveCapacity_eq]
  refine Table.tally_mem _ fun c _ => ?_
  split
  · exact ⟨c.nanoCpus, div_eq_mul_one_div _ _⟩
  · exact zero_mem _

/-- Commitments that are covered leave the active containers within the budget: the
tolerances together are less than one nano-CPU. -/
theorem Covered.withinBudget {limits : ManagerLimits} {s : ManagerState} (h : Covered limits s)
    (hnano : ∃ n : ℕ, limits.cpuBudget = n / 1000000000) : s.WithinBudget limits := by
  obtain ⟨hrunners, hcpu, hmemory⟩ := (active_le_committed s).trans h.committed
  refine ⟨hrunners, ?_, hmemory⟩
  obtain ⟨n, hn⟩ := dockerActiveCapacity_cpu s.containers
  obtain ⟨m, hm⟩ := hnano
  rw [ManagerLimits.ceiling, hm] at hcpu
  have hmax : (limits.maxRunners : ℚ) ≤ 1000 := by exact_mod_cast limits.maxRunners_le
  have htolerance : (limits.maxRunners + 1) * epsilon < 1 / 1000000000 := by
    calc
      (limits.maxRunners + 1) * epsilon ≤ 1001 * epsilon :=
        mul_le_mul_of_nonneg_right (by linarith) epsilon_nonneg
      _ < 1 / 1000000000 := by norm_num [epsilon]
  have hlt : (n : ℚ) < m + 1 := by linarith
  have hle : n ≤ m := Nat.lt_succ_iff.mp (by exact_mod_cast hlt)
  have : (n : ℚ) ≤ m := by exact_mod_cast hle
  linarith

/-- **The budget** is kept while the steps are permitted, for one of a whole number of nano-CPUs. -/
theorem docker_budget_kept (limits : ManagerLimits)
    (hnano : ∃ n : ℕ, limits.cpuBudget = n / 1000000000) {paused : Bool} {now : Instant}
    {actions : List Action} {s : ManagerState}
    (hrun : (manager limits).Runs (Permitted limits) (.initial paused now) actions s) :
    s.WithinBudget limits :=
  (hrun.inv (fun _ _ _ hok hstep hs => Covered.step hs hok hstep) (.initial paused now)).withinBudget
    hnano

/-- After the `restart` of a stopped runner, two run on a host for one. -/
theorem restart_overcommits : ∃ s,
    (manager Sample.limits).exec (.initial false 0) Sample.restartCalls = some s ∧
      ¬s.WithinBudget Sample.limits := by
  exact Machine.exists_exec (by decide +kernel)

instance (limits : ManagerLimits) (s : ManagerState) (c : Container) :
    Decidable (HasRoom limits s c) :=
  inferInstanceAs (Decidable (_ = _))

instance (limits : ManagerLimits) (s : ManagerState) (a : Action) :
    Decidable (Permitted limits s a) := by
  cases a <;> unfold Permitted <;> infer_instance

theorem docker_budget_kept_sample : ∃ s,
    (manager Sample.limits).Runs (Permitted Sample.limits) (.initial false 0) Sample.startCalls s ∧
      (dockerActiveCapacity s.containers).activeRunners = 1 ∧ s.WithinBudget Sample.limits := by
  refine Machine.exists_runs (by decide +kernel) fun s hrun => ?_
  exact docker_budget_kept Sample.limits ⟨2000000000, by norm_num [Sample.limits]⟩ hrun

end Gridops.Manager
