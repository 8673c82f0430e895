import Gridops.Autoscaling.Queue

/-!
# Whether the views of the queue agree

The count and the list of a pool's queued jobs go by the same clause and always agree. The
view by repository goes by the providers of a pool alone: a job that a pool takes because
of an execution profile is missing from it, and one that a machines-only pool would take
by its providers is counted there although it is assigned elsewhere.
-/

namespace Gridops.Autoscaling

open Lib

/-- The three views of the queue agree at one instant. -/
structure ViewsAgree (d : Database) (archLabel : String) (now : Millis) : Prop where
  unique : ∀ e ∈ d.queue, ∀ p p', e ∈ d.assignedEntries archLabel p →
    e ∈ d.assignedEntries archLabel p' → p = p'
  count : ∀ p, d.assignedQueuedJobs archLabel p = (d.queuedJobAssignments archLabel p now).length
  repositories : ∀ p, ∀ c ∈ d.repositoryCapacities archLabel p now,
    c.queued = ((d.queuedJobAssignments archLabel p now).filter
      (·.repositoryId == c.repositoryId)).length ∧
    c.prioritised = ((d.queuedJobAssignments archLabel p now).filter fun j =>
      j.repositoryId == c.repositoryId && j.prioritised).length

namespace Database

variable (d : Database) (archLabel : String)

/-- The first pool to serve and admit the job by its platforms is `p`, and by its providers it
is another or none. -/
def onlyByPlatform (p : PoolId) (e : Entry) : Bool :=
  (d.assigned archLabel e).any (·.id == p) && !(d.assignedByProvider archLabel e).any (·.id == p)

def onlyByProvider (p : PoolId) (e : Entry) : Bool :=
  (d.assignedByProvider archLabel e).any (·.id == p) && !(d.assigned archLabel e).any (·.id == p)

/-- Where the two clauses give jobs of a repository differently, they make up for each other, and so
do the prioritised ones. -/
def Balanced (now : Millis) : Prop :=
  ∀ p, ∀ m ∈ d.memberRepositories p,
    let jobs := d.queue.filter (·.repo.id == m.2.id)
    let flagged := jobs.filter (d.prioritised p now)
    (jobs.filter (d.onlyByPlatform archLabel p)).length =
        (jobs.filter (d.onlyByProvider archLabel p)).length ∧
      (flagged.filter (d.onlyByPlatform archLabel p)).length =
        (flagged.filter (d.onlyByProvider archLabel p)).length

/-- No pool runs on a fleet platform, and the providers are the two that the statements know. -/
def ProvidersOnly : Prop :=
  ∀ pool ∈ d.pools, (∀ p ∈ d.profiles, ¬(p.poolId = pool.id ∧ p.enabled ∧ p.archivedAt = none)) ∧
    ∀ provider ∈ pool.providers, lower provider = "docker" ∨ lower provider = "tart"

end Database

/-! ## Counting -/

theorem length_filter_eq_iff {α : Type} (a b : α → Bool) (l : List α) :
    (l.filter a).length = (l.filter b).length ↔
      (l.filter fun x => a x && !b x).length = (l.filter fun x => b x && !a x).length := by
  have hsplit : ∀ a b : α → Bool, (l.filter a).length =
      (l.filter fun x => a x && b x).length + (l.filter fun x => a x && !b x).length := by
    intro a b
    induction l with
    | nil => rfl
    | cons x l ih =>
      cases ha : a x <;> cases hb : b x <;> simp only [List.filter_cons, ha, hb] <;>
        simp <;> omega
  have hcomm : (fun x => b x && a x) = fun x => a x && b x := funext fun x => Bool.and_comm _ _
  rw [hsplit a b, hsplit b a, hcomm]
  omega

section Views

variable {d : Database} {archLabel : String} {now : Millis} {p : PoolId}

theorem assignedEntries_unique (e : Entry) {p' : PoolId}
    (h : e ∈ d.assignedEntries archLabel p) (h' : e ∈ d.assignedEntries archLabel p') : p = p' := by
  simp only [Database.assignedEntries, List.mem_filter, Option.any_eq_true, beq_iff_eq] at h h'
  obtain ⟨-, pool, hpool, rfl⟩ := h
  obtain ⟨-, pool', hpool', rfl⟩ := h'
  cases hpool.symm.trans hpool'
  rfl

theorem length_filter_assignments (select : QueuedJob → Bool) :
    ((d.queuedJobAssignments archLabel p now).filter select).length =
      ((d.assignedEntries archLabel p).filter fun e =>
        select ⟨e.repo.id, e.job.labels, e.job.createdAt, d.prioritised p now e⟩).length := by
  rw [Database.queuedJobAssignments, List.filter_map, List.length_map]
  exact ((List.perm_insertionSort _ _).filter _).length_eq

theorem assignedQueuedJobs_eq :
    d.assignedQueuedJobs archLabel p = (d.queuedJobAssignments archLabel p now).length := by
  rw [Database.queuedJobAssignments, List.length_map, List.length_insertionSort]
  rfl

theorem forall_repositoryCapacities {P : RepositoryCapacity → Prop} :
    (∀ c ∈ d.repositoryCapacities archLabel p now, P c) ↔
      ∀ m ∈ d.memberRepositories p, P (d.repositoryCapacity archLabel p now m.2) := by
  simp only [Database.repositoryCapacities, List.mem_map, List.mem_insertionSort]
  constructor
  · intro h m hm
    exact h _ ⟨m, hm, rfl⟩
  · rintro h c ⟨m, hm, rfl⟩
    exact h m hm

/-- **One repository.** Its counts agree with the list exactly when the differences make up for each
other. -/
theorem repositoryCapacity_agrees (repo : Repository) :
    ((d.repositoryCapacity archLabel p now repo).queued =
        ((d.queuedJobAssignments archLabel p now).filter (·.repositoryId == repo.id)).length ∧
      (d.repositoryCapacity archLabel p now repo).prioritised =
        ((d.queuedJobAssignments archLabel p now).filter fun j =>
          j.repositoryId == repo.id && j.prioritised).length) ↔
    (((d.queue.filter (·.repo.id == repo.id)).filter (d.onlyByPlatform archLabel p)).length =
        ((d.queue.filter (·.repo.id == repo.id)).filter (d.onlyByProvider archLabel p)).length ∧
      (((d.queue.filter (·.repo.id == repo.id)).filter (d.prioritised p now)).filter
          (d.onlyByPlatform archLabel p)).length =
        (((d.queue.filter (·.repo.id == repo.id)).filter (d.prioritised p now)).filter
          (d.onlyByProvider archLabel p)).length) := by
  -- Both sides put the same conditions on the queue, in another order.
  have hqueued : (d.repositoryCapacity archLabel p now repo).queued =
      ((d.queue.filter (·.repo.id == repo.id)).filter fun e =>
        (d.assignedByProvider archLabel e).any (·.id == p)).length := by
    simp only [Database.repositoryCapacity, Database.assignedByProviderEntries, List.filter_filter]
    exact congrArg List.length (List.filter_congr fun e _ => Bool.and_comm _ _)
  have hflagged : (d.repositoryCapacity archLabel p now repo).prioritised =
      (((d.queue.filter (·.repo.id == repo.id)).filter (d.prioritised p now)).filter fun e =>
        (d.assignedByProvider archLabel e).any (·.id == p)).length := by
    simp only [Database.repositoryCapacity, Database.assignedByProviderEntries, List.filter_filter]
    exact congrArg List.length (List.filter_congr fun e _ => by ac_rfl)
  have hlisted : ((d.queuedJobAssignments archLabel p now).filter
      (·.repositoryId == repo.id)).length =
      ((d.queue.filter (·.repo.id == repo.id)).filter fun e =>
        (d.assigned archLabel e).any (·.id == p)).length := by
    simp only [length_filter_assignments, Database.assignedEntries, List.filter_filter]
    exact congrArg List.length (List.filter_congr fun e _ => Bool.and_comm _ _)
  have hlistedFlagged : ((d.queuedJobAssignments archLabel p now).filter fun j =>
      j.repositoryId == repo.id && j.prioritised).length =
      (((d.queue.filter (·.repo.id == repo.id)).filter (d.prioritised p now)).filter fun e =>
        (d.assigned archLabel e).any (·.id == p)).length := by
    simp only [length_filter_assignments, Database.assignedEntries, List.filter_filter]
    exact congrArg List.length (List.filter_congr fun e _ => by ac_rfl)
  rw [hqueued, hflagged, hlisted, hlistedFlagged]
  exact and_congr (eq_comm.trans (length_filter_eq_iff _ _ _))
    (eq_comm.trans (length_filter_eq_iff _ _ _))

theorem builtInPlatform_has (archLabel : String) {provider : String}
    (h : lower provider = "docker" ∨ lower provider = "tart") :
    ∃ platform, builtInPlatform archLabel provider = some platform ∧
      ∀ requested, platform.has requested =
        ((lower provider == "docker" && ["linux", lower archLabel].contains (lower requested)) ||
          (lower provider == "tart" && ["macos", "arm64"].contains (lower requested))) := by
  obtain h | h := h
  · refine ⟨⟨"linux", lower archLabel⟩, by simp [builtInPlatform, h], fun requested => ?_⟩
    simp [h, Platform.has]
  · refine ⟨⟨"macos", "arm64"⟩, by simp [builtInPlatform, h], fun requested => ?_⟩
    simp [h, Platform.has]

theorem admitsByPlatform_eq (h : d.ProvidersOnly) {pool : RunnerPool} (hpool : pool ∈ d.pools)
    (labels : List String) :
    d.admitsByPlatform archLabel labels pool = Database.admitsByProvider archLabel labels pool := by
  obtain ⟨hprofiles, hproviders⟩ := h pool hpool
  have hmachines : d.machinesOnly pool = false := by
    rw [Database.machinesOnly, List.any_eq_false]
    intro profile hprofile
    have := hprofiles profile hprofile
    simp only [Bool.and_eq_true, beq_iff_eq, Option.isNone_iff_eq_none]
    tauto
  have hfleet : d.fleetPlatforms pool = [] := by
    rw [Database.fleetPlatforms, List.map_eq_nil_iff, List.filter_eq_nil_iff]
    intro profile hprofile
    have := hprofiles profile hprofile
    simp only [Bool.and_eq_true, beq_iff_eq, Option.isNone_iff_eq_none]
    tauto
  rw [Database.admitsByPlatform, hfleet, List.append_nil, Database.builtInPlatforms, hmachines,
    if_neg Bool.false_ne_true, Database.admitsByProvider, Bool.eq_iff_iff]
  simp only [List.any_eq_true, List.mem_filterMap, List.all_eq_true, Bool.or_assoc]
  constructor
  · rintro ⟨platform, ⟨provider, hprovider, hplatform⟩, hall⟩
    obtain ⟨platform', hplatform', hhas⟩ :=
      builtInPlatform_has archLabel (hproviders provider hprovider)
    cases hplatform.symm.trans hplatform'
    refine ⟨provider, hprovider, fun requested hrequested => ?_⟩
    rw [← hhas]
    exact hall requested hrequested
  · rintro ⟨provider, hprovider, hall⟩
    obtain ⟨platform, hplatform, hhas⟩ :=
      builtInPlatform_has archLabel (hproviders provider hprovider)
    refine ⟨platform, ⟨provider, hprovider, hplatform⟩, fun requested hrequested => ?_⟩
    rw [hhas]
    exact hall requested hrequested

theorem assigned_eq_byProvider (h : d.ProvidersOnly) (e : Entry) :
    d.assigned archLabel e = d.assignedByProvider archLabel e := by
  refine List.find?_congr fun pool hpool => ?_
  have hpool : pool ∈ d.pools := (List.mem_insertionSort _).mp hpool
  rw [admitsByPlatform_eq h hpool]

theorem ProvidersOnly.balanced (h : d.ProvidersOnly) : d.Balanced archLabel now := by
  intro p m _
  have hplatform : d.onlyByPlatform archLabel p = fun _ => false := by
    funext e
    simp [Database.onlyByPlatform, assigned_eq_byProvider h]
  have hprovider : d.onlyByProvider archLabel p = fun _ => false := by
    funext e
    simp [Database.onlyByProvider, assigned_eq_byProvider h]
  simp only [hplatform, hprovider, and_self]

end Views

namespace Sample

def repo : Repository := ⟨7, 1, "acme", "app", false⟩

def dockerPool : RunnerPool where
  id := "linux"
  installationId := 1
  repositoryId := some 7
  scope := .repository
  labels := []
  providers := ["docker"]
  desiredCount := 0
  maxCount := 4
  queueScaleFactor := 1
  autoscalingEnabled := true
  paused := false
  state := "ready"
  createdAt := 0
  updatedAt := 0

/-- The pool also runs on a fleet of Windows machines, and a Windows job is queued. -/
def fleet : Database where
  pools := ⟨[dockerPool], by decide⟩
  members := ⟨[⟨"linux", 7, 0⟩], by decide⟩
  priorityRepositories := ⟨[], by decide⟩
  priorities := ⟨[], by decide⟩
  profiles := ⟨[⟨"profile", "linux", true, none, .hostFirst, .windows, .x64⟩], by decide⟩
  repositories := ⟨[repo], by decide⟩
  runs := ⟨[⟨70, 7, .queued⟩], by decide⟩
  jobs := ⟨[⟨700, 70, .queued, ["self-hosted", "windows"], 0⟩], by decide⟩
  runners := ⟨[], by decide⟩

end Sample

end Gridops.Autoscaling
