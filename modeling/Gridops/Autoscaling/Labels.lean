import Gridops.Autoscaling.Webhook

/-!
# The statements' label rules and the program's

`queued_job_assignments` asks in SQL whether a pool runs a job with these labels. The
program asks it in two functions: `provider_supports_labels` for the built-in host and
`platform_supports_labels` (`fleet/targets.rs`) for the platforms of its machines. They
agree, so the statement gives a job to the first pool that one of the two accepts it for.
-/

namespace Gridops.Autoscaling

open Lib
open Fleet (ExecutionOs Architecture)

def platformSupportsLabels (os : ExecutionOs) (arch : Architecture)
    (requested configured : List String) : Bool :=
  requested.all fun label =>
    eqIgnoreAsciiCase label "self-hosted" || eqIgnoreAsciiCase label (osLabel os) ||
      eqIgnoreAsciiCase label (architectureLabel arch) ||
      (!isRunnerSystemLabel label && configured.any (eqIgnoreAsciiCase · label))

namespace Database

variable (d : Database) (archLabel : String)

/-- A runner of the pool takes such a job, by the program's rules. -/
def supports (labels : List String) (pool : RunnerPool) : Bool :=
  (!d.machinesOnly pool && pool.providers.any fun provider =>
      providerSupportsLabels archLabel provider labels pool.labels) ||
    d.profiles.rows.any fun p => p.poolId == pool.id && p.enabled && p.archivedAt.isNone &&
      platformSupportsLabels p.executionOs p.architecture labels pool.labels

/-- The first of the pools that serve the repository and support the job. -/
structure IsFirst (e : Entry) (pool : RunnerPool) : Prop where
  mem : pool ∈ d.pools
  serves : d.serves pool e.repo
  supports : d.supports archLabel e.job.labels pool
  first : ∀ other ∈ d.pools, d.serves other e.repo → d.supports archLabel e.job.labels other →
    poolBefore pool other

end Database

/-! ## One label -/

section Labels

variable {d : Database} {archLabel : String}

theorem platform_supports_label (os : ExecutionOs) (arch : Architecture) (pool : RunnerPool)
    (label : String) :
    (eqIgnoreAsciiCase label "self-hosted" || eqIgnoreAsciiCase label (osLabel os) ||
      eqIgnoreAsciiCase label (architectureLabel arch) ||
      (!isRunnerSystemLabel label && pool.labels.any (eqIgnoreAsciiCase · label))) =
    (poolHasLabel pool label || (⟨osLabel os, architectureLabel arch⟩ : Platform).has label) := by
  have hself : lower "self-hosted" = "self-hosted" := by decide +kernel
  have hos : lower (osLabel os) = osLabel os := by cases os <;> decide +kernel
  have harch : lower (architectureLabel arch) = architectureLabel arch := by
    cases arch <;> decide +kernel
  rw [isRunnerSystemLabel_eq, poolHasLabel, Platform.has]
  simp only [eqIgnoreAsciiCase, hself, hos, harch]
  by_cases hhosted : lower label = "self-hosted"
  · simp [hhosted]
  · by_cases hlabel : lower label ∈ platformLabels <;>
      simp [hhosted, beq_eq_decide, Bool.or_comm]

/-- **The statement's clause is the program's rule.** -/
theorem admitsByPlatform_eq_supports (harch : lower archLabel ∈ platformLabels)
    {pool : RunnerPool} (hproviders : ∀ provider ∈ pool.providers,
      provider = "docker" ∨ provider = "tart") (labels : List String) :
    d.admitsByPlatform archLabel labels pool = d.supports archLabel labels pool := by
  have hlower : lower "docker" = "docker" ∧ lower "tart" = "tart" := by decide +kernel
  rw [Database.admitsByPlatform, List.any_append, Database.supports]
  congr 1
  · rw [Database.builtInPlatforms]
    cases d.machinesOnly pool
    · simp only [Bool.false_eq_true, if_false, Bool.not_false, Bool.true_and]
      rw [List.any_filterMap, Bool.eq_iff_iff]
      simp only [List.any_eq_true]
      refine exists_congr fun provider => and_congr_right fun hprovider => ?_
      have hknown := hproviders provider hprovider
      have hlowered : lower provider = "docker" ∨ lower provider = "tart" := by
        rcases hknown with rfl | rfl <;> simp [hlower]
      obtain ⟨platform, hplatform, hhas⟩ := builtInPlatform_has archLabel hlowered
      simp only [hplatform, providerSupportsLabels, supports_label harch hknown, hhas,
        Bool.or_assoc]
    · simp
  · rw [Database.fleetPlatforms, List.any_map, List.any_filter]
    simp only [platformSupportsLabels, platform_supports_label, Function.comp_apply]

end Labels

/-! ## The first pool -/

section First

variable {d : Database} {archLabel : String}

theorem poolBefore_iff {a b : RunnerPool} : Database.poolBefore a b ↔
    toLex (Database.poolRank a, toLex (a.createdAt, a.id)) ≤
      toLex (Database.poolRank b, toLex (b.createdAt, b.id)) := by
  rw [Database.poolBefore, Prod.Lex.toLex_le_toLex, Prod.Lex.toLex_le_toLex, not_lt]

theorem find?_orderedPools {p : RunnerPool → Bool} {pool : RunnerPool} :
    d.orderedPools.find? p = some pool ↔
      pool ∈ d.pools ∧ p pool ∧ ∀ other ∈ d.pools, p other → Database.poolBefore pool other := by
  have : Std.Total Database.poolBefore := ⟨fun a b => by
    simpa only [poolBefore_iff] using le_total _ _⟩
  have : IsTrans RunnerPool Database.poolBefore := ⟨fun a b c => by
    simpa only [poolBefore_iff] using le_trans⟩
  have hmem : ∀ {x}, x ∈ d.orderedPools ↔ x ∈ d.pools := List.mem_insertionSort _
  -- the pool that is found stands before all others that match
  have hfirst : ∀ {x}, d.orderedPools.find? p = some x → x ∈ d.pools ∧ p x ∧
      ∀ other ∈ d.pools, p other → Database.poolBefore x other := by
    intro x hx
    obtain ⟨hp, before, after, hsplit, hnone⟩ := List.find?_eq_some_iff_append.mp hx
    have hsorted : d.orderedPools.Pairwise Database.poolBefore := List.pairwise_insertionSort _ _
    refine ⟨hmem.mp (List.mem_of_find?_eq_some hx), hp, fun other hother hpother => ?_⟩
    rw [hsplit] at hsorted
    rw [← hmem, hsplit, List.mem_append, List.mem_cons] at hother
    rcases hother with hbefore | rfl | hafter
    · exact absurd hpother (by simpa using hnone other hbefore)
    · exact poolBefore_iff.mpr le_rfl
    · exact (List.pairwise_cons.mp (List.pairwise_append.mp hsorted).2.1).1 other hafter
  refine ⟨hfirst, fun ⟨hpool, hp, hbefore⟩ => ?_⟩
  obtain ⟨x, hx⟩ := Option.isSome_iff_exists.mp
    (List.find?_isSome.mpr ⟨pool, hmem.mpr hpool, hp⟩)
  obtain ⟨hxmem, hxp, hxbefore⟩ := hfirst hx
  have hsame := le_antisymm (poolBefore_iff.mp (hbefore x hxmem hxp))
    (poolBefore_iff.mp (hxbefore pool hpool hp))
  have hid : pool.id = x.id := by simpa using (congrArg (fun k => (ofLex (ofLex k).2).2) hsame)
  rw [hx, Table.eq_of_key hpool hxmem hid]

end First

/-- **The SQL and Rust label rules agree** where providers are `docker` or `tart` and the host's
architecture is one that has a label. -/
theorem queued_jobs_go_to_first_pool (d : Database) {archLabel : String}
    (harch : archLabel ∈ ["x64", "arm64", "x86", "arm"])
    (hproviders : ∀ pool ∈ d.pools, ∀ provider ∈ pool.providers,
      provider = "docker" ∨ provider = "tart") (e : Entry) (p : PoolId) :
    e ∈ d.assignedEntries archLabel p ↔
      e ∈ d.queue ∧ ∃ pool, pool.id = p ∧ d.IsFirst archLabel e pool := by
  have hlabel : lower archLabel ∈ platformLabels := by
    simp only [List.mem_cons, List.not_mem_nil, or_false] at harch
    rcases harch with rfl | rfl | rfl | rfl <;> decide +kernel
  have hadmits : ∀ pool ∈ d.pools, d.admitsByPlatform archLabel e.job.labels pool =
      d.supports archLabel e.job.labels pool := fun pool hpool =>
    admitsByPlatform_eq_supports hlabel (hproviders pool hpool) _
  rw [Database.assignedEntries, List.mem_filter, Option.any_eq_true]
  refine and_congr_right fun _ => ?_
  simp only [Database.assigned, Database.firstPool, find?_orderedPools, Bool.and_eq_true,
    beq_iff_eq]
  constructor
  · rintro ⟨pool, ⟨hpool, ⟨hserves, hsupports⟩, hfirst⟩, hid⟩
    refine ⟨pool, hid, hpool, hserves, hadmits pool hpool ▸ hsupports, fun other hother h₁ h₂ => ?_⟩
    exact hfirst other hother ⟨h₁, (hadmits other hother).symm ▸ h₂⟩
  · rintro ⟨pool, hid, hpool, hserves, hsupports, hfirst⟩
    refine ⟨pool, ⟨hpool, ⟨hserves, (hadmits pool hpool).symm ▸ hsupports⟩, ?_⟩, hid⟩
    exact fun other hother h => hfirst other hother h.1 (hadmits other hother ▸ h.2)

theorem queued_jobs_go_to_first_pool_fleet : ∃ e ∈ Sample.fleet.assignedEntries "x64" "linux",
    e.job.id = 700 ∧ ∃ pool, pool.id = "linux" ∧ Sample.fleet.IsFirst "x64" e pool := by
  obtain ⟨e, he, hid⟩ : ∃ e ∈ Sample.fleet.assignedEntries "x64" "linux", e.job.id = 700 := by
    decide +kernel
  refine ⟨e, he, hid, ((queued_jobs_go_to_first_pool Sample.fleet (by simp) ?_ e _).mp he).2⟩
  intro pool hpool
  obtain rfl := List.mem_singleton.mp hpool
  decide

end Gridops.Autoscaling
