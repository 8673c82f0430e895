import Gridops.Autoscaling.ScaleUp

/-!
# Taking a runner from where it is spare

`surplus_runner` of the reconciler picks an idle runner to delete when a repository or a provider
is short. It asks that the runner's repository or its provider has one to spare, not both.
-/

namespace Gridops.Autoscaling

structure PoolRunner extends Runner where
  ciPlatform : String
deriving DecidableEq

def inSurplus (active busy queued factor : Int) : Bool :=
  active > saturating (busy + saturating (queued * factor))

structure Rebalance where
  runners : List PoolRunner
  capacities : List RepositoryCapacity
  providerCapacities : List ProviderCapacity
  providers : List String
  factor : Int
  provider : Option String

namespace Rebalance

variable (b : Rebalance)

def needsCapacity : Bool :=
  b.capacities.any (repositoryCapacityDeficit · b.factor > 0)
    || b.providerCapacities.any (providerCapacityDeficit · b.factor > 0)

def isCandidate (r : PoolRunner) : Bool :=
  let surplus := (b.capacities.filter fun c => inSurplus c.active c.busy c.queued b.factor).map
    (·.repositoryId)
  let providerSurplus := (b.providerCapacities.filter fun c =>
    inSurplus c.active c.busy c.queued b.factor).map (·.provider)
  let membership := b.capacities.map (·.repositoryId)
  r.ciPlatform != "bitbucket" && !r.busy && r.status.counted && b.provider.all (r.provider == ·)
    && (providerSurplus.contains r.provider || !b.providers.contains r.provider
      || r.targetRepositoryId.any fun id => surplus.contains id || !membership.contains id)

def surplusRunner : Option PoolRunner :=
  if !b.needsCapacity then none else b.runners.find? b.isCandidate

def Described : Prop :=
  (∀ c ∈ b.capacities, c.active = b.runners.countP (fun r =>
      r.targetRepositoryId == some c.repositoryId && r.status.counted) ∧
    c.busy = b.runners.countP fun r =>
      r.targetRepositoryId == some c.repositoryId && r.status.counted && r.busy) ∧
  ∀ c ∈ b.providerCapacities, c.active = b.runners.countP (fun r =>
      r.provider == c.provider && r.status.counted) ∧
    c.busy = b.runners.countP fun r => r.provider == c.provider && r.status.counted && r.busy

/-- The runner is idle, and where it is from no job waits for lack of it. -/
structure Spares (r : PoolRunner) : Prop where
  active : r.status.counted = true
  idle : r.busy = false
  platform : r.ciPlatform ≠ "bitbucket"
  repository : ∀ c ∈ b.capacities, r.targetRepositoryId = some c.repositoryId →
    repositoryCapacityDeficit { c with active := c.active - 1 } b.factor ≤ 0
  provider : r.provider ∈ b.providers → ∀ c ∈ b.providerCapacities, c.provider = r.provider →
    providerCapacityDeficit { c with active := c.active - 1 } b.factor ≤ 0

/-- Both the repository and the provider of the runner have one to spare. -/
def BothSpare (r : PoolRunner) : Prop :=
  (∀ c ∈ b.capacities, r.targetRepositoryId = some c.repositoryId →
    inSurplus c.active c.busy c.queued b.factor) ∧
  (r.provider ∈ b.providers → ∀ c ∈ b.providerCapacities, c.provider = r.provider →
    inSurplus c.active c.busy c.queued b.factor)

variable {b} {r : PoolRunner}

theorem deficit_iff_inSurplus {active busy queued factor : Int} :
    saturating (saturating (busy + saturating (queued * factor)) - (active - 1)) ≤ 0 ↔
      inSurplus active busy queued factor := by
  rw [inSurplus, decide_eq_true_iff]
  unfold saturating
  omega

theorem spares_iff (hcounts : b.Described) (hr : r ∈ b.runners) (hcandidate : b.isCandidate r) :
    b.Spares r ↔ b.BothSpare r := by
  simp only [isCandidate, Bool.and_eq_true, bne_iff_ne, Bool.not_eq_true'] at hcandidate
  obtain ⟨⟨⟨⟨hplatform, hidle⟩, hactive⟩, -⟩, -⟩ := hcandidate
  have hone : ∀ c ∈ b.capacities, r.targetRepositoryId = some c.repositoryId →
      ((c.active - 1 : ℕ) : Int) = c.active - 1 := by
    intro c hc hown
    have hpos : 0 < c.active := by
      rw [(hcounts.1 c hc).1]
      exact List.countP_pos_iff.mpr ⟨r, hr, by simp [hown, hactive]⟩
    omega
  constructor
  · intro h
    refine ⟨fun c hc hown => deficit_iff_inSurplus.mp ?_,
      fun hin c hc hown => deficit_iff_inSurplus.mp (h.provider hin c hc hown)⟩
    rw [← hone c hc hown]
    exact h.repository c hc hown
  · rintro ⟨hrepository, hprovider⟩
    refine ⟨hactive, hidle, hplatform, fun c hc hown => ?_,
      fun hin c hc hown => deficit_iff_inSurplus.mpr (hprovider hin c hc hown)⟩
    rw [repositoryCapacityDeficit, hone c hc hown]
    exact deficit_iff_inSurplus.mpr (hrepository c hc hown)

end Rebalance

namespace Sample

def parked (id : String) (repository : Ci.RepositoryId) : PoolRunner :=
  ⟨⟨id, "pool", "docker", .idle, false, none, some repository⟩, "github"⟩

def queuedAt (repository : Ci.RepositoryId) (queued active : ℕ) : RepositoryCapacity :=
  ⟨repository, 1, "octo", "repo", queued, active, 0, 0, none⟩

def tartShort : Rebalance where
  runners := [parked "a" 10, parked "b" 12]
  capacities := [queuedAt 10 1 1, queuedAt 11 1 0, queuedAt 12 0 1]
  providerCapacities := [⟨"docker", 1, 2, 0⟩, ⟨"tart", 1, 0, 0⟩]
  providers := ["docker", "tart"]
  factor := 1
  provider := none

end Sample

theorem tartShort_described : Sample.tartShort.Described := by
  unfold Rebalance.Described
  decide

end Gridops.Autoscaling
