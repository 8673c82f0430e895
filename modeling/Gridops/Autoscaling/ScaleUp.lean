import Gridops.Autoscaling.Webhook

/-!
# Scaling up while others write

Two writers raise the desired count of a pool: `maybe_scale_up` of the reconciler and
`scale_for_queued_job` of the webhook. Each reads the pool's row, reads the queue and the runners in
statements of their own, computes a target from all of it, and writes the target to the row by its
id alone. An operator may edit the counts between any two of these statements, and so may the other
writer.

`scaling` interleaves any number of scale-ups with operator edits and with changes of the tables
that leave the counts alone. A write only raises the stored count, and stays below the stored
maximum, while the counts have not moved against what the scale-up read.
-/

namespace Gridops.Autoscaling

open Lib

/-! ## What the load asks for -/

def repositoryCapacityDeficit (capacity : RepositoryCapacity) (factor : Int) : Int :=
  saturating (saturating (capacity.busy + saturating (capacity.queued * factor)) - capacity.active)

namespace Database

variable (d : Database) (archLabel : String)

def poolRunners (poolId : PoolId) : List Runner :=
  d.runners.rows.filter fun r => r.poolId == poolId && r.deletedAt.isNone

def providersQueued (pool : RunnerPool) (now : Millis) : List ProviderCapacity :=
  let empty := pool.providers.map fun provider => (⟨provider, 0, 0, 0⟩ : ProviderCapacity)
  (d.queuedJobAssignments archLabel pool.id now).foldl
    (fun capacities job =>
      match compatibleRunnerProvider archLabel pool.providers job.labels pool.labels with
      | some provider => amend provider (fun c => { c with queued := saturating (c.queued + 1) })
          capacities
      | none => capacities) empty

def providersActive (poolId : PoolId) (queued : List ProviderCapacity) : List ProviderCapacity :=
  let runners := d.activeRunners poolId
  (runners.map (·.provider)).dedup.foldl
    (fun capacities provider =>
      let own := runners.filter (·.provider == provider)
      amend provider (fun c => { c with
        active := own.length
        busy := (own.filter (·.busy)).length }) capacities) queued

/-- The runners that a pool of repositories lacks, over its repositories. -/
def repositoryPlacementNeeded (pool : RunnerPool) (now : Millis) : Int :=
  match pool.scope with
  | .repository =>
    ((d.repositoryCapacities archLabel pool.id now).map fun c =>
      max (repositoryCapacityDeficit c pool.queueScaleFactor) 0).sum
  | .organization => 0

end Database

def providerPlacementNeeded (capacities : List ProviderCapacity) (factor : Int) : Int :=
  (capacities.map fun c => max (providerCapacityDeficit c factor) 0).sum

def pollingTarget (pool : RunnerPool) (runners : List Runner) (queued : ℕ)
    (repositoryNeeded : Int) (capacities : List ProviderCapacity) : Int :=
  let busy := (runners.filter fun r => r.busy && r.status.counted).length
  let active := (runners.filter fun r => r.status.counted).length
  let aggregate :=
    scaleUpTarget pool.desiredCount busy queued pool.queueScaleFactor pool.maxCount
  let providerNeeded := providerPlacementNeeded capacities pool.queueScaleFactor
  min pool.maxCount
    (max (max aggregate (saturating (active + repositoryNeeded)))
      (saturating (active + providerNeeded)))

def webhookTarget (pool : RunnerPool) (busy queued : ℕ) (capacities : List ProviderCapacity) :
    Int :=
  let active := (capacities.map (·.active)).sum
  min pool.maxCount
    (max (scaleUpTarget pool.desiredCount busy queued pool.queueScaleFactor pool.maxCount)
      (saturating (active + providerPlacementNeeded capacities pool.queueScaleFactor)))

theorem pollingTarget_le (pool : RunnerPool) (runners : List Runner) (queued : ℕ)
    (repositoryNeeded : Int) (capacities : List ProviderCapacity) :
    pollingTarget pool runners queued repositoryNeeded capacities ≤ pool.maxCount :=
  min_le_left _ _

theorem webhookTarget_le (pool : RunnerPool) (busy queued : ℕ)
    (capacities : List ProviderCapacity) :
    webhookTarget pool busy queued capacities ≤ pool.maxCount :=
  min_le_left _ _

/-! ## A scale-up under way -/

/-- How far a scale-up has come, with the pool's row as it was read first. -/
inductive ScaleUp where
  | loaded (pool : RunnerPool)
  | listed (pool : RunnerPool) (runners : List Runner)
  | polledQueue (pool : RunnerPool) (runners : List Runner) (queued : ℕ)
  | polledRepositories (pool : RunnerPool) (runners : List Runner) (queued : ℕ)
      (repositoryNeeded : Int)
  | polledAssignments (pool : RunnerPool) (runners : List Runner) (queued : ℕ)
      (repositoryNeeded : Int) (capacities : List ProviderCapacity)
  /-- The webhook has stopped at its candidate, whose busy runners the statement counted. -/
  | found (pool : RunnerPool) (busy : ℕ)
  | countedQueue (pool : RunnerPool) (busy queued : ℕ)
  | countedAssignments (pool : RunnerPool) (busy queued : ℕ) (capacities : List ProviderCapacity)
  | sized (pool : RunnerPool) (target : Int)
  | finished
deriving DecidableEq

/-- `if target <= desired { return }`. -/
def ScaleUp.size (pool : RunnerPool) (target : Int) : ScaleUp :=
  if target ≤ pool.desiredCount then .finished else .sized pool target

/-- `UPDATE runner_pools SET desired_count=?,state='scaling',updated_at=? WHERE id=?`. -/
def Database.writeDesired (d : Database) (poolId : PoolId) (target : Int) (now : Millis) :
    Database :=
  { d with
    pools := d.pools.update (·.id == poolId)
      (fun row => { row with desiredCount := target, state := "scaling", updatedAt := now })
      fun _ => rfl }

def ScaleUp.next (d : Database) (archLabel : String) (now : Millis) : ScaleUp → ScaleUp
  | .loaded pool =>
    if pool.autoscalingEnabled && !pool.paused then .listed pool (d.poolRunners pool.id)
    else .finished
  | .listed pool runners =>
    let queued := d.assignedQueuedJobs archLabel pool.id
    if queued = 0 then .finished else .polledQueue pool runners queued
  | .polledQueue pool runners queued =>
    .polledRepositories pool runners queued (d.repositoryPlacementNeeded archLabel pool now)
  | .polledRepositories pool runners queued repositoryNeeded =>
    .polledAssignments pool runners queued repositoryNeeded
      (d.providersQueued archLabel pool now)
  | .polledAssignments pool runners queued repositoryNeeded capacities =>
    .size pool (pollingTarget pool runners queued repositoryNeeded
      (d.providersActive pool.id capacities))
  | .found pool busy => .countedQueue pool busy (d.assignedQueuedJobs archLabel pool.id)
  | .countedQueue pool busy queued =>
    .countedAssignments pool busy queued (d.providersQueued archLabel pool now)
  | .countedAssignments pool busy queued capacities =>
    .size pool (webhookTarget pool busy queued (d.providersActive pool.id capacities))
  | .sized .. => .finished
  | .finished => .finished

def ScaleUp.write (d : Database) (now : Millis) : ScaleUp → Database
  | .sized pool target => d.writeDesired pool.id target now
  | _ => d

/-- The target was computed to lie above the count and within the maximum that were read. -/
def ScaleUp.Fits : ScaleUp → Prop
  | .sized pool target => pool.desiredCount < target ∧ target ≤ pool.maxCount
  | _ => True

theorem ScaleUp.fits_size {pool : RunnerPool} {target : Int} (h : target ≤ pool.maxCount) :
    (ScaleUp.size pool target).Fits := by
  unfold ScaleUp.size
  split
  · trivial
  · next hlt => exact ⟨not_le.mp hlt, h⟩

theorem ScaleUp.fits_next (d : Database) (archLabel : String) (now : Millis) (u : ScaleUp) :
    (u.next d archLabel now).Fits := by
  cases u with
  | polledAssignments => exact fits_size (pollingTarget_le ..)
  | countedAssignments => exact fits_size (webhookTarget_le ..)
  | loaded pool => simp only [next]; split <;> trivial
  | listed pool runners => simp only [next]; split <;> trivial
  | _ => trivial

structure Scene where
  database : Database
  underway : List ScaleUp
deriving DecidableEq

structure CountsEdit where
  poolId : PoolId
  minCount : Int
  desiredCount : Int
  maxCount : Int
deriving DecidableEq

/-- The test of `validate_pool_configuration` on the counts. -/
def CountsEdit.valid (e : CountsEdit) : Bool :=
  !(e.minCount < 0 || e.desiredCount < e.minCount || e.desiredCount > e.maxCount ||
    e.maxCount > 100)

def Database.counts (d : Database) : List (PoolId × Int × Int) :=
  d.pools.rows.map fun row => (row.id, row.desiredCount, row.maxCount)

inductive ScaleAction where
  | poll (poolId : PoolId)
  | webhook (payload : Payload)
  | advance (i : ℕ) (now : Millis)
  | edit (e : CountsEdit)
  /-- Jobs, runners and everything else about the pools change. -/
  | elsewhere (d : Database)
deriving DecidableEq

namespace Scene

variable (archLabel : String)

def step (s : Scene) : ScaleAction → Option Scene
  | .poll poolId =>
    (s.database.pools.find poolId).map fun pool =>
      { s with underway := s.underway ++ [.loaded pool] }
  | .webhook payload =>
    (s.database.considered archLabel payload).map fun pool =>
      { s with underway := s.underway ++ [.found pool (s.database.busyCount pool.id)] }
  | .advance i now =>
    s.underway[i]?.map fun u =>
      { database := u.write s.database now
        underway := s.underway.set i (u.next s.database archLabel now) }
  | .edit e =>
    if e.valid then
      some { s with database := { s.database with
        pools := s.database.pools.update (·.id == e.poolId)
          (fun row => { row with desiredCount := e.desiredCount, maxCount := e.maxCount })
          fun _ => rfl } }
    else none
  | .elsewhere d => if d.counts = s.database.counts then some { s with database := d } else none

end Scene

def scaling (archLabel : String) : Machine Scene ScaleAction := ⟨Scene.step archLabel⟩

/-- The row that a scale-up read and the target that it computed, where the action is its
write. -/
def Scene.writing (s : Scene) : ScaleAction → Option (RunnerPool × Int)
  | .advance i _ =>
    match s.underway[i]? with
    | some (.sized pool target) => some (pool, target)
    | _ => none
  | _ => none

/-- A write of the desired count does not lower it, and does not leave it above the maximum
stored. -/
def Scene.OnlyRaises (s : Scene) (a : ScaleAction) (t : Scene) : Prop :=
  ∀ w ∈ s.writing a, ∀ row ∈ s.database.pools.find w.1.id, ∀ row' ∈ t.database.pools.find w.1.id,
    row.desiredCount ≤ row'.desiredCount ∧ row'.desiredCount ≤ row'.maxCount

instance (s : Scene) (a : ScaleAction) (t : Scene) : Decidable (s.OnlyRaises a t) := by
  unfold Scene.OnlyRaises
  infer_instance

/-- A scale-up writes with no higher count and no lower maximum stored than it read. -/
def Scene.Unmoved (s : Scene) (a : ScaleAction) : Prop :=
  ∀ w ∈ s.writing a, ∀ row ∈ s.database.pools.find w.1.id,
    row.desiredCount ≤ w.1.desiredCount ∧ w.1.maxCount ≤ row.maxCount

instance (s : Scene) (a : ScaleAction) : Decidable (s.Unmoved a) := by
  unfold Scene.Unmoved
  infer_instance

/-! ## A run keeps every target in range -/

section Steps

variable {archLabel : String} {s t : Scene} {a : ScaleAction}

/-- Every scale-up about to write has a target that fits what it read. -/
def Scene.Sized (s : Scene) : Prop := ∀ u ∈ s.underway, u.Fits

theorem Scene.sized_step (h : s.step archLabel a = some t) (hs : s.Sized) : t.Sized := by
  intro u hu
  cases a with
  | poll poolId =>
    obtain ⟨pool, -, rfl⟩ := Option.map_eq_some_iff.mp h
    rcases List.mem_append.mp hu with hu | hu
    · exact hs u hu
    · rw [List.mem_singleton.mp hu]
      trivial
  | webhook payload =>
    obtain ⟨pool, -, rfl⟩ := Option.map_eq_some_iff.mp h
    rcases List.mem_append.mp hu with hu | hu
    · exact hs u hu
    · rw [List.mem_singleton.mp hu]
      trivial
  | advance i now =>
    obtain ⟨v, -, rfl⟩ := Option.map_eq_some_iff.mp h
    rcases List.mem_or_eq_of_mem_set hu with hu | rfl
    · exact hs u hu
    · exact ScaleUp.fits_next s.database archLabel now v
  | edit e =>
    obtain ⟨-, ⟨⟩⟩ := Option.ite_none_right_eq_some.mp h
    exact hs u hu
  | elsewhere d =>
    obtain ⟨-, ⟨⟩⟩ := Option.ite_none_right_eq_some.mp h
    exact hs u hu

theorem Scene.writing_eq {w : RunnerPool × Int} (h : s.writing a = some w) :
    ∃ i now, a = .advance i now ∧ s.underway[i]? = some (.sized w.1 w.2) := by
  unfold Scene.writing at h
  split at h
  · next i now =>
    split at h
    · next pool target hi =>
      cases h
      exact ⟨i, now, rfl, hi⟩
    · cases h
  · cases h

theorem Scene.find_write {w : RunnerPool × Int} {row : RunnerPool}
    (h : s.step archLabel a = some t) (hw : s.writing a = some w)
    (hrow : s.database.pools.find w.1.id = some row) :
    ∃ row', t.database.pools.find w.1.id = some row' ∧ row'.desiredCount = w.2 ∧
      row'.maxCount = row.maxCount := by
  obtain ⟨i, now, rfl, hi⟩ := Scene.writing_eq hw
  simp only [Scene.step, hi, Option.map_some, Option.some.injEq] at h
  subst h
  have hid : row.id = w.1.id := Table.key_of_find hrow
  simp [ScaleUp.write, Database.writeDesired, Table.find_update, hrow, hid]

theorem Scene.onlyRaises_step (h : s.step archLabel a = some t) (hs : s.Sized)
    (hunmoved : s.Unmoved a) : s.OnlyRaises a t := by
  intro w hw row hrow row' hrow'
  obtain ⟨written, hwritten, hdesired, hmax⟩ := Scene.find_write h hw hrow
  cases hwritten.symm.trans hrow'
  obtain ⟨hcount, hmaximum⟩ := hunmoved w hw row hrow
  obtain ⟨i, -, -, hi⟩ := Scene.writing_eq hw
  obtain ⟨habove, hbelow⟩ : ScaleUp.Fits (.sized w.1 w.2) := hs _ (List.mem_of_getElem? hi)
  omega

end Steps

/-! ## Scaling up only raises -/

/-- **Scaling up never scales down** while each write finds the counts as they were read. -/
theorem scale_up_only_raises (archLabel : String) (d : Database) (as : List ScaleAction)
    (s t : Scene) (a : ScaleAction) (h : (scaling archLabel).Runs Scene.Unmoved ⟨d, []⟩ as s)
    (ha : s.Unmoved a) (hstep : (scaling archLabel).step s a = some t) : s.OnlyRaises a t := by
  have hsized : s.Sized :=
    h.inv (fun _ _ _ _ hstep hs => Scene.sized_step hstep hs) fun _ hu => nomatch hu
  exact Scene.onlyRaises_step hstep hsized ha

namespace Sample

def oneJob : Database :=
  { fleet with jobs := ⟨[⟨700, 70, .queued, ["self-hosted", "linux"], 0⟩], by decide⟩ }

def aboutToWrite : List ScaleAction := .poll "linux" :: List.replicate 5 (.advance 0 1)

/-- The edit comes between the read and the write, which then breaks the property. -/
def WritesBadlyAfter (e : CountsEdit) (before after : Int × Int) : Prop :=
  ∃ s t, (scaling "x64").Run ⟨oneJob, []⟩ (aboutToWrite ++ [.edit e]) s ∧
    (scaling "x64").step s (.advance 0 2) = some t ∧
    s.database.counts = [("linux", before)] ∧ t.database.counts = [("linux", after)] ∧
    ¬s.OnlyRaises (.advance 0 2) t

theorem writesBadlyAfter {e : CountsEdit} {before after : Int × Int}
    (h : (((scaling "x64").exec ⟨oneJob, []⟩ (aboutToWrite ++ [.edit e])).any fun s =>
      ((scaling "x64").step s (.advance 0 2)).any fun t =>
        decide (s.database.counts = [("linux", before)] ∧
          t.database.counts = [("linux", after)] ∧ ¬s.OnlyRaises (.advance 0 2) t)) = true) :
    WritesBadlyAfter e before after := by
  obtain ⟨s, hs, hnext⟩ := (Option.any_eq_true _ _).mp h
  obtain ⟨t, ht, hbad⟩ := (Option.any_eq_true _ _).mp hnext
  exact ⟨s, t, Machine.run_iff_exec.mpr hs, ht, of_decide_eq_true hbad⟩

end Sample

theorem scale_up_only_raises_unedited :
    ∃ s t, (scaling "x64").Runs Scene.Unmoved ⟨Sample.oneJob, []⟩ Sample.aboutToWrite s ∧
      s.Unmoved (.advance 0 1) ∧ (scaling "x64").step s (.advance 0 1) = some t ∧
      s.OnlyRaises (.advance 0 1) t ∧ t.database.counts = [("linux", 1, 4)] := by
  have hrun : (((scaling "x64").execIf Scene.Unmoved ⟨Sample.oneJob, []⟩ Sample.aboutToWrite).any
      fun s => decide (s.Unmoved (.advance 0 1)) && ((scaling "x64").step s (.advance 0 1)).any
        fun t => decide (t.database.counts = [("linux", 1, 4)])) = true := by
    decide +kernel
  obtain ⟨s, hs, hnext⟩ := (Option.any_eq_true _ _).mp hrun
  obtain ⟨hunmoved, hnext⟩ := Bool.and_eq_true_iff.mp hnext
  obtain ⟨t, ht, hcounts⟩ := (Option.any_eq_true _ _).mp hnext
  have hruns := Machine.runs_of_execIf hs
  exact ⟨s, t, hruns, of_decide_eq_true hunmoved, ht,
    scale_up_only_raises "x64" _ _ s t _ hruns (of_decide_eq_true hunmoved) ht,
    of_decide_eq_true hcounts⟩

/-- An edit between the reconciler's read and its write is undone. -/
theorem scale_up_undoes_edit :
    Sample.WritesBadlyAfter ⟨"linux", 0, 3, 4⟩ (3, 4) (1, 4) ∧
      Sample.WritesBadlyAfter ⟨"linux", 0, 0, 0⟩ (0, 0) (1, 0) :=
  ⟨Sample.writesBadlyAfter (by decide +kernel), Sample.writesBadlyAfter (by decide +kernel)⟩

end Gridops.Autoscaling
