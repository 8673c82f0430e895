import Gridops.Autoscaling.Agreement

/-!
# Scaling for a queued job

`scale_for_queued_job` of `gridops-api/src/webhooks.rs` raises the desired count of one pool
when GitHub reports a queued job. It walks the pools that serve the job's repository in the
order of the assignments and stops at the first with a compatible provider. That test knows
the two built-in providers only, so the pool it stops at is the pool the job is assigned to
where the two tests agree up to that pool.
-/

namespace Gridops.Autoscaling

open Lib
open Ci (JobId RepositoryId)

def saturating (n : Int) : Int := max (-2 ^ 63) (min (2 ^ 63 - 1) n)

structure ProviderCapacity where
  provider : String
  queued : Int
  active : Int
  busy : Int
deriving DecidableEq

def providerCapacityDeficit (capacity : ProviderCapacity) (factor : Int) : Int :=
  saturating (saturating (capacity.busy + saturating (capacity.queued * factor)) - capacity.active)

def scaleUpTarget (desired busy queued factor maximum : Int) : Int :=
  min maximum (max desired (saturating (busy + saturating (queued * factor))))

def amend (provider : String) (change : ProviderCapacity → ProviderCapacity) :
    List ProviderCapacity → List ProviderCapacity
  | [] => []
  | c :: cs => if c.provider = provider then change c :: cs else c :: amend provider change cs

/-! ## The webhook -/

structure Payload where
  repositoryId : Option RepositoryId
  jobId : JobId
  labels : List String
deriving DecidableEq

structure RunnerEvent where
  poolId : PoolId
  level : String
  event : String
  message : String
  jobId : JobId
  labels : List String
  desiredCount : Int
  createdAt : Millis
deriving DecidableEq

structure AuditEvent where
  actorLabel : String
  action : String
  targetType : String
  targetId : PoolId
  jobId : JobId
  desiredCount : Int
  createdAt : Millis
deriving DecidableEq

/-- The tables after the call, with the events it inserted. -/
structure Scaling where
  database : Database
  events : List RunnerEvent
  audits : List AuditEvent
deriving DecidableEq

namespace Database

variable (d : Database) (archLabel : String)

def providerCapacities (pool : RunnerPool) (now : Millis) : List ProviderCapacity :=
  let empty := pool.providers.map fun provider => (⟨provider, 0, 0, 0⟩ : ProviderCapacity)
  let queued := (d.queuedJobAssignments archLabel pool.id now).foldl
    (fun capacities job =>
      match compatibleRunnerProvider archLabel pool.providers job.labels pool.labels with
      | some provider => amend provider (fun c => { c with queued := saturating (c.queued + 1) })
          capacities
      | none => capacities) empty
  let runners := d.activeRunners pool.id
  -- One row for each provider of an active runner, as `GROUP BY provider` returns it.
  (runners.map (·.provider)).dedup.foldl
    (fun capacities provider =>
      let own := runners.filter (·.provider == provider)
      amend provider (fun c => { c with
        active := own.length
        busy := (own.filter (·.busy)).length }) capacities) queued

def busyCount (poolId : PoolId) : ℕ :=
  (d.runners.rows.filter fun r => r.poolId == poolId && r.deletedAt.isNone && r.busy &&
    (r.status == .online || r.status == .idle || r.status == .busy)).length

def scaleTarget (pool : RunnerPool) (now : Millis) : Int :=
  let capacities := d.providerCapacities archLabel pool now
  let factor := pool.queueScaleFactor
  let active := (capacities.map (·.active)).sum
  let placementNeeded := (capacities.map fun c => max (providerCapacityDeficit c factor) 0).sum
  min pool.maxCount
    (max (scaleUpTarget pool.desiredCount (d.busyCount pool.id)
        (d.assignedQueuedJobs archLabel pool.id) factor pool.maxCount)
      (saturating (active + placementNeeded)))

def candidates (repositoryId : Option RepositoryId) : List RunnerPool :=
  match repositoryId.bind d.repositories.find with
  | none => []
  | some repo => d.orderedPools.filter fun pool => d.serves pool repo

def compatible (labels : List String) (pool : RunnerPool) : Bool :=
  (compatibleRunnerProvider archLabel pool.providers labels pool.labels).isSome

def considered (payload : Payload) : Option RunnerPool :=
  (d.candidates payload.repositoryId).find? (compatible archLabel payload.labels)

def scaleForQueuedJob (payload : Payload) (now : Millis) : Scaling :=
  match d.considered archLabel payload with
  | none => ⟨d, [], []⟩
  | some pool =>
    let desired := pool.desiredCount
    let target := d.scaleTarget archLabel pool now
    if target ≤ desired then ⟨d, [], []⟩
    else
      { database := { d with
          pools := d.pools.update (·.id == pool.id)
            (fun row => { row with desiredCount := target, state := "scaling", updatedAt := now })
            fun _ => rfl }
        events := [{
          poolId := pool.id
          level := "info"
          event := "Autoscale requested"
          message := s!"Queued job raised desired capacity from {desired} to {target}"
          jobId := payload.jobId
          labels := payload.labels
          desiredCount := target
          createdAt := now }]
        audits := [{
          actorLabel := "system"
          action := "runner_pool.autoscaled"
          targetType := "runner_pool"
          targetId := pool.id
          jobId := payload.jobId
          desiredCount := target
          createdAt := now }] }

end Database

/-- A queued job that the webhook has stored, under a run of the repository that the payload names.
-/
structure Handled (d : Database) where
  payload : Payload
  job : WorkflowJob
  run : WorkflowRun
  repo : Repository
  hjob : d.jobs.find payload.jobId = some job
  hqueued : job.status = .queued
  hlabels : job.labels = payload.labels
  hrun : d.runs.find job.runId = some run
  hrepo : d.repositories.find run.repositoryId = some repo
  hnamed : ∀ id, payload.repositoryId = some id → id = repo.id

section Property

variable (d : Database) (archLabel : String) (now : Millis)

/-- `queued_job_assignments` lists the job for the pool. -/
def Database.AssignedTo (job : WorkflowJob) (p : PoolId) : Prop :=
  ∃ e ∈ d.assignedEntries archLabel p, e.job = job

/-- The call scales no pool but the one the job is assigned to, and it considers that pool. -/
structure ScalesAssigned (h : Handled d) : Prop where
  only : ∀ p, ((d.scaleForQueuedJob archLabel h.payload now).database.pools.find p).map
      RunnerPool.desiredCount ≠ (d.pools.find p).map RunnerPool.desiredCount →
    d.AssignedTo archLabel h.job p
  considered : ∀ p, d.AssignedTo archLabel h.job p →
    (d.considered archLabel h.payload).map RunnerPool.id = some p

def Handled.serving {d : Database} (h : Handled d) : List RunnerPool :=
  d.orderedPools.filter fun pool => d.serves pool h.repo

/-- The run is unfinished, the payload names the repository, and the first pool that one test admits
is admitted by both. -/
def Handled.Aligned {d : Database} (h : Handled d) : Prop :=
  h.run.status ≠ .completed ∧ h.payload.repositoryId ≠ none ∧
    ∀ pool, h.serving.find? (fun pool => d.admitsByPlatform archLabel h.payload.labels pool ||
        Database.compatible archLabel h.payload.labels pool) = some pool →
      d.admitsByPlatform archLabel h.payload.labels pool = true ∧
        Database.compatible archLabel h.payload.labels pool = true

/-- No pool admits the job by its platforms or the run is finished, and the first pool with a
compatible provider has the count its load asks for. -/
def Handled.Idle {d : Database} (h : Handled d) : Prop :=
  (h.run.status = .completed ∨
      ∀ pool ∈ h.serving, d.admitsByPlatform archLabel h.payload.labels pool = false) ∧
    (h.payload.repositoryId = none ∨
      ∀ pool, h.serving.find? (Database.compatible archLabel h.payload.labels) = some pool →
        d.scaleTarget archLabel pool now ≤ pool.desiredCount)

end Property

/-- Two searches agree exactly when the first element that one test admits is admitted by both. -/
theorem find?_eq_iff {α : Type} (a b : α → Bool) (l : List α) :
    l.find? a = l.find? b ↔
      ∀ x, l.find? (fun x => a x || b x) = some x → a x = true ∧ b x = true := by
  induction l with
  | nil => simp
  | cons x l ih =>
    cases ha : a x <;> cases hb : b x <;>
      simp only [List.find?_cons, ha, hb]
    · exact ih
    · constructor
      · intro h
        simp [List.find?_some h] at ha
      · intro h
        simp [(h x rfl).1] at ha
    · constructor
      · intro h
        simp [List.find?_some h.symm] at hb
      · intro h
        simp [(h x rfl).2] at hb
    · simp [ha, hb]

/-! ## Who is considered, and who is assigned -/

theorem Database.entry_job {d : Database} {job : WorkflowJob} {e : Entry}
    (h : d.entry job = some e) : e.job = job := by
  simp only [Database.entry, Option.bind_eq_bind, Option.bind_eq_some_iff,
    Option.ite_none_right_eq_some] at h
  obtain ⟨-, -, repo, -, -, he⟩ := h
  cases he
  rfl

section Handled

variable {d : Database} {archLabel : String} {now : Millis} (h : Handled d)

theorem Handled.considered_iff {pool : RunnerPool} :
    d.considered archLabel h.payload = some pool ↔ h.payload.repositoryId ≠ none ∧
      h.serving.find? (Database.compatible archLabel h.payload.labels) = some pool := by
  cases hid : h.payload.repositoryId with
  | none => simp [Database.considered, Database.candidates, hid]
  | some id =>
    have hrepo : d.repositories.find id = some h.repo := by
      rw [h.hnamed id hid]
      exact Table.find_key (Table.mem_of_find h.hrepo)
    simp [Database.considered, Database.candidates, hid, hrepo, Handled.serving]

theorem Handled.entry_eq :
    d.entry h.job = if h.run.status = .completed then none else some ⟨h.job, h.repo⟩ := by
  by_cases hrun : h.run.status = .completed <;>
    simp [Database.entry, h.hrun, h.hrepo, h.hqueued]

theorem Handled.serving_find {p : RunnerPool → Bool} :
    d.firstPool h.repo p = h.serving.find? p := by
  rw [Database.firstPool, Handled.serving]
  simp

theorem Handled.assignedTo_iff {p : PoolId} :
    d.AssignedTo archLabel h.job p ↔ h.run.status ≠ .completed ∧
      ∃ pool, h.serving.find? (d.admitsByPlatform archLabel h.payload.labels) = some pool ∧
        pool.id = p := by
  have hmem : h.job ∈ d.jobs := Table.mem_of_find h.hjob
  simp only [Database.AssignedTo, Database.assignedEntries, Database.queue, List.mem_filter,
    List.mem_filterMap, Option.any_eq_true, beq_iff_eq, Database.assigned]
  constructor
  · rintro ⟨e, ⟨⟨job, -, hentry⟩, pool, hpool, hid⟩, hjob⟩
    rw [← Database.entry_job hentry, hjob, h.entry_eq] at hentry
    split at hentry
    · cases hentry
    · next hrun =>
      cases hentry
      rw [h.serving_find, h.hlabels] at hpool
      exact ⟨hrun, pool, hpool, hid⟩
  · rintro ⟨hrun, pool, hpool, hid⟩
    refine ⟨⟨h.job, h.repo⟩, ⟨⟨h.job, hmem, ?_⟩, pool, ?_, hid⟩, rfl⟩
    · rw [h.entry_eq, if_neg hrun]
    · rw [h.serving_find, h.hlabels, hpool]

theorem Handled.mem_serving {pool : RunnerPool} (hpool : pool ∈ h.serving) : pool ∈ d.pools :=
  (List.mem_insertionSort _).mp (List.mem_filter.mp hpool).1

theorem Handled.unassigned_iff :
    (¬∃ p, d.AssignedTo archLabel h.job p) ↔ h.run.status = .completed ∨
      ∀ pool ∈ h.serving, d.admitsByPlatform archLabel h.payload.labels pool = false := by
  simp only [h.assignedTo_iff]
  constructor
  · intro hnone
    refine or_iff_not_imp_left.mpr fun hrun => ?_
    have hfind : h.serving.find? (d.admitsByPlatform archLabel h.payload.labels) = none :=
      Option.eq_none_iff_forall_ne_some.mpr fun pool hpool =>
        hnone ⟨pool.id, hrun, pool, hpool, rfl⟩
    intro pool hpool
    exact Bool.eq_false_of_not_eq_true (List.find?_eq_none.mp hfind pool hpool)
  · rintro (hrun | hnone) ⟨p, hgoing, pool, hpool, -⟩
    · exact hgoing hrun
    · have := hnone pool (List.mem_of_find?_eq_some hpool)
      rw [List.find?_some hpool] at this
      cases this

end Handled

section Scale

variable {d : Database} {archLabel : String} {now : Millis}

theorem considered_mem {payload : Payload} {pool : RunnerPool}
    (h : d.considered archLabel payload = some pool) : pool ∈ d.pools := by
  have hmem : pool ∈ d.candidates payload.repositoryId := List.mem_of_find?_eq_some h
  unfold Database.candidates at hmem
  split at hmem
  · cases hmem
  · exact (List.mem_insertionSort _).mp (List.mem_filter.mp hmem).1

/-- The call changes the desired count of the pool it considers, where the load of that pool asks
for more, and no other. -/
theorem desiredCount_scale (payload : Payload) (p : PoolId) :
    ((d.scaleForQueuedJob archLabel payload now).database.pools.find p).map
        RunnerPool.desiredCount ≠ (d.pools.find p).map RunnerPool.desiredCount ↔
      ∃ pool, d.considered archLabel payload = some pool ∧ pool.id = p ∧
        pool.desiredCount < d.scaleTarget archLabel pool now := by
  cases hc : d.considered archLabel payload with
  | none => simp [Database.scaleForQueuedJob, hc]
  | some pool =>
    have hpool : pool ∈ d.pools := considered_mem hc
    by_cases htarget : d.scaleTarget archLabel pool now ≤ pool.desiredCount
    · simp [Database.scaleForQueuedJob, hc, htarget]
    · simp only [Database.scaleForQueuedJob, hc, htarget, if_false, Table.find_update,
        Option.some.injEq]
      constructor
      · intro hne
        refine ⟨pool, rfl, ?_, not_le.mp htarget⟩
        by_contra hid
        apply hne
        cases hrow : d.pools.find p with
        | none => rfl
        | some row =>
          have hrow : row.id ≠ pool.id := by
            rw [Table.key_of_find hrow]
            exact Ne.symm hid
          simp [hrow]
      · rintro ⟨_, rfl, rfl, hlt⟩
        rw [Table.find_key hpool]
        simp [hlt.ne']

end Scale

/-! ## Built-in providers -/

section BuiltIn

variable {d : Database} {archLabel : String}

theorem any_eqIgnoreAsciiCase (labels : List String) (label : String) :
    labels.any (eqIgnoreAsciiCase · label) = (labels.map lower).contains (lower label) := by
  induction labels with
  | nil => rfl
  | cons l labels ih =>
    rw [List.any_cons, ih, List.map_cons, List.contains_cons, eqIgnoreAsciiCase, Bool.beq_comm]

theorem isRunnerSystemLabel_eq (label : String) :
    isRunnerSystemLabel label = ("self-hosted" :: platformLabels).contains (lower label) := by
  have hlower : ("self-hosted" :: platformLabels).map lower = "self-hosted" :: platformLabels := by
    decide +kernel
  rw [isRunnerSystemLabel, any_eqIgnoreAsciiCase, hlower]

theorem runnerSupportsSystemLabel_eq {provider : String}
    (hprovider : provider = "docker" ∨ provider = "tart") (label : String) :
    runnerSupportsSystemLabel archLabel provider label =
      (lower label == "self-hosted" ||
        (lower provider == "docker" && ["linux", lower archLabel].contains (lower label)) ||
        (lower provider == "tart" && ["macos", "arm64"].contains (lower label))) := by
  have hself : lower "self-hosted" = "self-hosted" := by decide +kernel
  have hdocker : lower "docker" = "docker" ∧ lower "linux" = "linux" := by decide +kernel
  have htart : lower "tart" = "tart" ∧ lower "macOS" = "macos" ∧ lower "ARM64" = "arm64" := by
    decide +kernel
  rw [runnerSupportsSystemLabel, any_eqIgnoreAsciiCase]
  obtain rfl | rfl := hprovider
  · simp [runnerSystemLabels, hself, hdocker, beq_eq_decide]
  · simp [runnerSystemLabels, hself, htart, beq_eq_decide]

theorem supports_label {provider : String} (harch : lower archLabel ∈ platformLabels)
    (hprovider : provider = "docker" ∨ provider = "tart") (pool : RunnerPool) (label : String) :
    (if eqIgnoreAsciiCase label "self-hosted" then true
      else if isRunnerSystemLabel label then runnerSupportsSystemLabel archLabel provider label
      else pool.labels.any (eqIgnoreAsciiCase · label)) =
    (poolHasLabel pool label ||
        (lower provider == "docker" && ["linux", lower archLabel].contains (lower label)) ||
        (lower provider == "tart" && ["macos", "arm64"].contains (lower label))) := by
  have hself : lower "self-hosted" = "self-hosted" := by decide +kernel
  rw [isRunnerSystemLabel_eq, runnerSupportsSystemLabel_eq hprovider, eqIgnoreAsciiCase, hself,
    poolHasLabel]
  by_cases hhosted : lower label = "self-hosted"
  · simp [hhosted]
  by_cases hlabel : lower label ∈ platformLabels
  · simp [hhosted, hlabel]
  · -- A label of its own: no platform has it.
    have hother : ∀ own : List String, (∀ l ∈ own, l ∈ platformLabels) →
        own.contains (lower label) = false := by
      intro own hown
      rw [← Bool.not_eq_true, List.contains_iff_mem]
      exact fun hmem => hlabel (hown _ hmem)
    rw [hother ["linux", lower archLabel] (by simpa using ⟨by decide, harch⟩),
      hother ["macos", "arm64"] (by decide)]
    simp [hhosted, hlabel, eqIgnoreAsciiCase]

/-- The pools run on the built-in host only, by providers and for an architecture it knows. -/
def Database.BuiltInOnly (d : Database) (archLabel : String) : Prop :=
  lower archLabel ∈ platformLabels ∧ ∀ pool ∈ d.pools,
    (∀ p ∈ d.profiles, ¬(p.poolId = pool.id ∧ p.enabled ∧ p.archivedAt = none)) ∧
    ∀ provider ∈ pool.providers, provider = "docker" ∨ provider = "tart"

theorem Database.BuiltInOnly.providersOnly (h : d.BuiltInOnly archLabel) : d.ProvidersOnly := by
  have hlower : lower "docker" = "docker" ∧ lower "tart" = "tart" := by decide +kernel
  intro pool hpool
  obtain ⟨hprofiles, hproviders⟩ := h.2 pool hpool
  refine ⟨hprofiles, fun provider hprovider => ?_⟩
  obtain rfl | rfl := hproviders provider hprovider
  · exact .inl hlower.1
  · exact .inr hlower.2

theorem Database.BuiltInOnly.compatible_eq (h : d.BuiltInOnly archLabel) {pool : RunnerPool}
    (hpool : pool ∈ d.pools) (labels : List String) :
    Database.compatible archLabel labels pool = d.admitsByPlatform archLabel labels pool := by
  rw [admitsByPlatform_eq h.providersOnly hpool, Database.compatible, compatibleRunnerProvider,
    List.isSome_find?, Database.admitsByProvider, Bool.eq_iff_iff]
  simp only [List.any_eq_true, providerSupportsLabels, List.all_eq_true]
  refine exists_congr fun provider => and_congr_right fun hprovider => forall₂_congr ?_
  intro label _
  rw [supports_label h.1 ((h.2 pool hpool).2 provider hprovider)]

end BuiltIn

/-! ## The webhook scales the assigned pool -/

theorem scalesAssigned_iff {d : Database} {archLabel : String} {now : Millis} (h : Handled d) :
    ScalesAssigned d archLabel now h ↔ h.Aligned archLabel ∨ h.Idle archLabel now := by
  constructor
  · intro hs
    by_cases hassigned : ∃ p, d.AssignedTo archLabel h.job p
    · obtain ⟨p, hp⟩ := hassigned
      obtain ⟨hrun, pool, hpool, rfl⟩ := h.assignedTo_iff.mp hp
      obtain ⟨pool', hc, hid⟩ := Option.map_eq_some_iff.mp (hs.considered _ hp)
      have hsame : pool' = pool :=
        Table.eq_of_key (considered_mem hc) (h.mem_serving (List.mem_of_find?_eq_some hpool)) hid
      obtain ⟨hnamed, hcompatible⟩ := h.considered_iff.mp (hsame ▸ hc)
      exact .inl ⟨hrun, hnamed, (find?_eq_iff _ _ _).mp (hpool.trans hcompatible.symm)⟩
    · refine .inr ⟨h.unassigned_iff.mp hassigned, or_iff_not_imp_left.mpr ?_⟩
      intro hnamed pool hpool
      by_contra hlt
      have hc := h.considered_iff.mpr ⟨hnamed, hpool⟩
      exact hassigned ⟨pool.id, hs.only _
        ((desiredCount_scale _ _).mpr ⟨pool, hc, rfl, not_le.mp hlt⟩)⟩
  · rintro (⟨hrun, hnamed, hfirst⟩ | ⟨hunassigned, hidle⟩)
    · have hsame := (find?_eq_iff _ _ _).mpr hfirst
      constructor
      · intro p hne
        obtain ⟨pool, hc, rfl, -⟩ := (desiredCount_scale _ _).mp hne
        exact h.assignedTo_iff.mpr ⟨hrun, pool, hsame.trans (h.considered_iff.mp hc).2, rfl⟩
      · intro p hp
        obtain ⟨-, pool, hpool, rfl⟩ := h.assignedTo_iff.mp hp
        rw [h.considered_iff.mpr ⟨hnamed, hsame.symm.trans hpool⟩, Option.map_some]
    · constructor
      · intro p hne
        obtain ⟨pool, hc, rfl, hlt⟩ := (desiredCount_scale _ _).mp hne
        obtain ⟨hnamed, hcompatible⟩ := h.considered_iff.mp hc
        obtain hunnamed | hfull := hidle
        · exact absurd hunnamed hnamed
        · exact absurd hlt (not_lt.mpr (hfull pool hcompatible))
      · intro p hp
        exact absurd ⟨p, hp⟩ (h.unassigned_iff.mpr hunassigned)

/-- **The webhook scales the pool that the job is assigned to** exactly when the two tests agree up
to that pool, or there is nothing to scale. -/
theorem webhook_scales_assigned (d : Database) (archLabel : String) (now : Millis)
    (h : Handled d) :
    (ScalesAssigned d archLabel now h ↔ h.Aligned archLabel ∨ h.Idle archLabel now) ∧
      (d.BuiltInOnly archLabel → h.run.status ≠ .completed → h.payload.repositoryId ≠ none →
        ScalesAssigned d archLabel now h) := by
  refine ⟨scalesAssigned_iff h, fun hbuiltIn hrun hnamed => ?_⟩
  refine (scalesAssigned_iff h).mpr (.inl ⟨hrun, hnamed, fun pool hpool => ?_⟩)
  have hmem := h.mem_serving (List.mem_of_find?_eq_some hpool)
  have hadmits := List.find?_some hpool
  simpa [hbuiltIn.compatible_eq hmem] using hadmits

/-! ## A pool of machines -/

namespace Sample

def machinePool : RunnerPool := { dockerPool with id := "machines", providers := ["tart"] }

def orgPool : RunnerPool :=
  { dockerPool with id := "shared", repositoryId := none, scope := .organization, createdAt := 1 }

def twoPools : Database where
  pools := ⟨[machinePool, orgPool], by decide⟩
  members := .empty
  priorityRepositories := .empty
  priorities := .empty
  profiles := ⟨[⟨"profile", "machines", true, none, .machines, .linux, .x64⟩], by decide⟩
  repositories := ⟨[repo, { repo with id := 8, name := "site" }], by decide⟩
  runs := ⟨[⟨70, 7, .queued⟩, ⟨80, 8, .queued⟩], by decide⟩
  jobs := ⟨[⟨700, 70, .queued, ["self-hosted", "linux"], 0⟩,
    ⟨800, 80, .queued, ["self-hosted", "linux"], 0⟩], by decide⟩
  runners := .empty

def queuedJob : Handled twoPools where
  payload := ⟨some 7, 700, ["self-hosted", "linux"]⟩
  job := ⟨700, 70, .queued, ["self-hosted", "linux"], 0⟩
  run := ⟨70, 7, .queued⟩
  repo := repo
  hjob := by decide
  hqueued := rfl
  hlabels := rfl
  hrun := by decide
  hrepo := by decide
  hnamed := by
    intro id hid
    cases hid
    rfl

end Sample

/-- The job is assigned to the pool of machines; the webhook raises the docker pool's count. -/
theorem webhook_scales_other_pool :
    (Sample.twoPools.queuedJobAssignments "x64" "machines" 0).length = 1 ∧
      (Sample.twoPools.considered "x64" Sample.queuedJob.payload).map (·.id) = some "shared" ∧
      ((Sample.twoPools.scaleForQueuedJob "x64" Sample.queuedJob.payload 0).database.pools.find
        "shared").map (·.desiredCount) = some 1 ∧
      ¬ScalesAssigned Sample.twoPools "x64" 0 Sample.queuedJob := by
  have hconsidered : (Sample.twoPools.considered "x64" Sample.queuedJob.payload).map
      RunnerPool.id = some "shared" := by
    decide +kernel
  have hassigned : Sample.twoPools.AssignedTo "x64" Sample.queuedJob.job "machines" :=
    ⟨⟨Sample.queuedJob.job, Sample.queuedJob.repo⟩, by decide +kernel, rfl⟩
  refine ⟨by decide +kernel, hconsidered, by decide +kernel, fun h => ?_⟩
  have hsame := hconsidered.symm.trans (h.considered "machines" hassigned)
  exact absurd hsame (by decide)

end Gridops.Autoscaling
