import Gridops.Ci.Jobs

/-!
# Whether a completed job stays completed

Both writers overwrite a job's status and conclusion with whatever the report at
hand says, so a row stays completed exactly as long as every later report of the
job that is taken says so (`CiStep.Confirms`). `close_missing_run`, which
also writes jobs, leaves completed ones alone.
-/

namespace Gridops.Ci

open Gridops.Lib

def JobReport.isFinal (job : JobReport) : Bool := job.status == .completed && job.conclusion.isSome

variable (s : CiStore)

/-- The job is recorded as completed, with a conclusion. -/
def CiStore.isFinal (j : JobId) : Bool :=
  (s.jobs.find j).any fun row => row.toJobReport.isFinal

def lastReport (j : JobId) (jobs : List JobReport) : Option JobReport :=
  jobs.reverse.find? fun job => job.id == j

/-! ## When a report is taken -/

/-- A repository that is not known yet can be inserted: it has a full name that no other
repository has, under an installation that is known. -/
def CiStore.canInsertRepository (installationId : InstallationId) (fullName : Option String)
    (repositoryId : RepositoryId) : Bool :=
  match fullName with
  | some fullName =>
    decide (installationId ∈ s.installations) &&
      s.repositories.rows.all fun r => r.id == repositoryId || r.fullName != fullName
  | none => false

/-- The run of a delivered job is known, or there is enough to insert a placeholder. -/
def CiStore.acceptsRun (w : JobWebhook) (job : JobReport) : Bool :=
  (s.runs.find job.runId).isSome ||
    (w.repository.bind (·.id)).any fun repositoryId =>
      (s.repositories.find repositoryId).isSome ||
        w.installationId.any fun installationId =>
          s.canInsertRepository installationId (w.repository.bind (·.fullName)) repositoryId

/-- The foreign key of a placeholder run finds a repository that was just inserted. -/
theorem upsertRepositoryFromWebhook_cases (installationId : InstallationId)
    {repository : RepositoryPayload} {repositoryId : RepositoryId}
    (hid : repository.id = some repositoryId) (hnew : s.repositories.find repositoryId = none) :
    if s.canInsertRepository installationId repository.fullName repositoryId then
      ∃ t, s.upsertRepositoryFromWebhook installationId repository = .ok t ∧
        t.repositories.find repositoryId ≠ none
    else ∀ t, s.upsertRepositoryFromWebhook installationId repository = .ok t →
      t.repositories.find repositoryId = none := by
  unfold CiStore.upsertRepositoryFromWebhook CiStore.canInsertRepository
  cases hname : repository.fullName with
  | none =>
    intro t ht
    cases ht
    exact hnew
  | some fullName =>
    simp only [hid]
    by_cases htaken : installationId ∉ s.installations ∨
        ∃ r ∈ s.repositories.rows, r.id ≠ repositoryId ∧ r.fullName = fullName
    · rw [if_pos htaken, if_neg]
      · rintro t ⟨⟩
      · grind
    · rw [if_neg htaken, if_pos]
      · simp [Table.find_upsert]
      · grind

theorem recordWebhook_isOk (w : JobWebhook) (job : JobReport) (now : Millis) :
    (s.recordWebhook w job now).isOk = s.acceptsRun w job := by
  unfold CiStore.recordWebhook
  unfold CiStore.ensureRun CiStore.acceptsRun
  cases s.runs.find job.runId with
  | some run => rfl
  | none =>
    unfold CiStore.insertPlaceholderRun
    cases hid : w.repository.bind (·.id) with
    | none => rfl
    | some repositoryId =>
      rw [Option.any_some]
      unfold CiStore.ensureRepository
      cases hfind : s.repositories.find repositoryId with
      | some r =>
        simp only [bind, Except.bind, hfind]
        rfl
      | none =>
        obtain ⟨repository, hrepository, hid⟩ := Option.bind_eq_some_iff.mp hid
        cases hinstallation : w.installationId with
        | none => simp [hfind, bind, Except.bind, Except.toBool]
        | some installationId =>
          have hcases := upsertRepositoryFromWebhook_cases s installationId hid hfind
          simp only [hfind, hrepository]
          split at hcases
          · next hcan =>
            obtain ⟨t, ht, hfound⟩ := hcases
            simp [ht, hcan, hfound, bind, Except.bind, Except.toBool]
          · next hcan =>
            cases ht : s.upsertRepositoryFromWebhook installationId repository with
            | error e => simp [hcan, bind, Except.bind, Except.toBool]
            | ok t =>
              simp [hcan, hcases t ht, bind, Except.bind, Except.toBool]

variable {s t : CiStore} {job : JobReport} {now : Millis}

theorem recordPage_isSome (s : CiStore) (jobs : List JobReport) (now : Millis) :
    (s.recordPage jobs now).isSome ↔ ∀ job ∈ jobs, (s.runs.find job.runId).isSome := by
  induction jobs generalizing s with
  | nil => simp [CiStore.recordPage]
  | cons job jobs ih =>
    rw [List.forall_mem_cons]
    unfold CiStore.recordPage
    rw [List.foldlM_cons]
    cases hjob : s.recordJob now job with
    | none =>
      have hnone : s.runs.find job.runId = none := Option.map_eq_none_iff.mp hjob
      simp [hnone]
    | some t =>
      obtain ⟨hrun, hruns, -⟩ := recordJob_some hjob
      rw [← hruns] at hrun ⊢
      exact (ih t).trans (and_iff_right hrun).symm

/-! ## What a report writes -/

theorem isFinal_upsert {row : WorkflowJob} {f : WorkflowJob → WorkflowJob}
    {hf : ∀ r, (f r).id = r.id} (j : JobId) (hjobs : t.jobs = s.jobs.upsert row f hf)
    (hrow : row.toJobReport = job) (hset : ∀ r, (f r).toJobReport.isFinal = job.isFinal) :
    t.isFinal j = if job.id = j then job.isFinal else s.isFinal j := by
  subst hrow
  unfold CiStore.isFinal
  rw [hjobs, Table.find_upsert]
  split
  · cases s.jobs.find j with
    | none => rfl
    | some r => exact hset r
  · rfl

theorem recordWebhook_isFinal {w : JobWebhook} (h : s.recordWebhook w job now = .ok t) (j : JobId) :
    t.isFinal j = if job.id = j then job.isFinal else s.isFinal j :=
  isFinal_upsert j (recordWebhook_ok h).1 rfl fun _ => rfl

theorem recordJob_isFinal (h : s.recordJob now job = some t) (j : JobId) :
    t.isFinal j = if job.id = j then job.isFinal else s.isFinal j := by
  obtain ⟨_, _, rfl⟩ := Option.map_eq_some_iff.mp h
  exact isFinal_upsert j rfl rfl fun _ => rfl

theorem recordPage_isFinal {jobs : List JobReport} (h : s.recordPage jobs now = some t) (j : JobId) :
    t.isFinal j = ((lastReport j jobs).map JobReport.isFinal).getD (s.isFinal j) := by
  induction jobs using List.reverseRecOn generalizing t with
  | nil => cases h; rfl
  | append_singleton jobs job ih =>
    unfold CiStore.recordPage at h
    rw [List.foldlM_append] at h
    obtain ⟨u, hu, h⟩ := Option.bind_eq_some_iff.mp h
    obtain ⟨v, hv, h⟩ := Option.bind_eq_some_iff.mp h
    cases h
    rw [recordJob_isFinal hv, ih hu, lastReport, lastReport]
    by_cases hj : job.id = j
    · simp [hj]
    · simp [beq_false_of_ne hj, hj]

theorem closeMissingRun_isFinal {j : JobId} (runId : RunId) (now : Millis) (h : s.isFinal j) :
    (s.closeMissingRun runId now).isFinal j := by
  unfold CiStore.isFinal at h ⊢
  unfold CiStore.closeMissingRun
  rw [Table.find_update]
  cases hrow : s.jobs.find j with
  | none => simp [hrow] at h
  | some row =>
    have hstatus : row.status = .completed := by
      simp only [hrow, Option.any_some, JobReport.isFinal, Bool.and_eq_true, beq_iff_eq] at h
      exact h.1
    simpa [hrow, hstatus] using h

/-! ## Completion over a run -/

/-- The step, if taken, says that the job completed with a conclusion. The last report of a page
counts. -/
def CiStep.Confirms (j : JobId) (c : CiState) : CiStep → Prop
  | .webhook w _ =>
    ∀ job ∈ w.report, job.id = j → c.store.acceptsRun w job → job.isFinal
  | .page jobs _ =>
    (∀ job ∈ jobs, (c.store.runs.find job.runId).isSome) → ∀ job ∈ lastReport j jobs, job.isFinal
  | _ => True

theorem advance_jobs {c d : CiState} {i : Nat} (h : c.advance i = some d) :
    d.store.jobs = c.store.jobs := by
  unfold CiState.advance at h
  split at h
  · next a _ _ _ =>
    cases h
    exact associateRunnerWithJob_jobs c.store a
  · cases h

theorem step_isFinal_iff {c d : CiState} {a : CiStep} {j : JobId} (h : ci.step c a = some d)
    (hfinal : c.store.isFinal j) : d.store.isFinal j ↔ a.Confirms j c := by
  cases a with
  | webhook w now =>
    cases h
    simp only [CiStep.Confirms]
    cases w.report with
    | none => simpa using hfinal
    | some job =>
      have hok := recordWebhook_isOk c.store w job now
      cases hrecord : c.store.recordWebhook w job now with
      | error e =>
        have hrefused : c.store.acceptsRun w job = false := by rw [← hok, hrecord]; rfl
        simpa [hrecord, hrefused] using hfinal
      | ok store =>
        have htaken : c.store.acceptsRun w job = true := by rw [← hok, hrecord]; rfl
        simp only [hrecord, recordWebhook_isFinal hrecord]
        by_cases hj : job.id = j <;> simp [hj, htaken, hfinal]
  | page jobs now =>
    cases h
    have hknown := recordPage_isSome c.store jobs now
    simp only [CiStep.Confirms, ← hknown]
    cases hrecord : c.store.recordPage jobs now with
    | none => simpa using hfinal
    | some store =>
      simp only [recordPage_isFinal hrecord]
      cases lastReport j jobs <;> simp [hfinal]
  | advance i =>
    refine iff_of_true ?_ trivial
    unfold CiStore.isFinal
    rw [advance_jobs h]
    exact hfinal
  | stop i =>
    cases h
    exact iff_of_true hfinal trivial
  | closeMissingRun runId now =>
    cases h
    exact iff_of_true (closeMissingRun_isFinal runId now hfinal) trivial

/-- **A completed job stays completed exactly as long as every later report of it says so.** -/
theorem completion_kept_iff {s t : CiState} {as : List CiStep} {j : JobId}
    (hfinal : s.store.isFinal j) (hrun : ci.Run s as t) :
    (∀ bs u, bs <+: as → ci.Run s bs u → u.store.isFinal j) ↔
      ci.Runs (fun c a => a.Confirms j c) s as t :=
  hrun.always_iff_runs (fun _ _ _ => step_isFinal_iff) hfinal

namespace Sample

def completed : CiStep := .webhook (jobWebhook 1 .completed (some "success")) 1000

def completedState : CiState := (ci.exec ciState [completed]).getD ciState

end Sample

theorem completion_kept_sample :
    Sample.completedState.store.isFinal 1 ∧
      ∃ t, ci.exec Sample.completedState [Sample.completed] = some t ∧ t.store.isFinal 1 := by
  have hrun : ci.Run Sample.completedState [Sample.completed] _ := Machine.run_iff_exec.mpr rfl
  have hconfirms : Sample.completed.Confirms 1 Sample.completedState := by
    intro job hjob _ _
    cases hjob
    rfl
  have hkept := (completion_kept_iff rfl hrun).mpr (.cons hconfirms rfl (.nil _))
  exact ⟨rfl, _, rfl, hkept _ _ (List.prefix_refl _) hrun⟩

/-- **A late report reopens a completed job** and clears its conclusion. -/
theorem completion_reverted :
    (ci.exec Sample.ciState [Sample.completed]).map
        (fun c => (c.store.jobs.find 1).map fun row => (row.status, row.conclusion)) =
      some (some (.completed, some "success")) ∧
    (ci.exec Sample.ciState [Sample.completed, .webhook (Sample.jobWebhook 1 .inProgress none) 2000]).map
        (fun c => (c.store.jobs.find 1).map fun row => (row.status, row.conclusion)) =
      some (some (.inProgress, none)) := by
  exact ⟨rfl, rfl⟩

end Gridops.Ci
