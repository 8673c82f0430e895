import Gridops.Ci.Jobs

/-!
# Which job a runner is shown to be at

`associate_runner_with_job` looks only at the runner's name, so a runner's row is a
fold over the associations with that name, in the order they were applied
(`Follows`), and what it shows is what the last of them said. While a job runs, the
row stays right exactly as long as every report of another job that reaches the
runner is followed by one more report of the running job (`Reasserted`). A sync
pass that lists a finished job of the same runner breaks it.
-/

namespace Gridops.Ci

open Gridops.Lib

/-! ## A runner's row is a fold over the associations -/

def Association.marks (a : Association) (name : String) : Bool :=
  a.runnerName == some name && (a.status == .inProgress || a.status == .completed)

/-- The job an association that marks a runner leaves it with. -/
def Association.current (a : Association) : Option JobId :=
  if a.status = .inProgress then some a.jobId else none

def Runner.apply (r : Runner) (a : Association) : Runner :=
  if a.marks r.name && r.deletedAt.isNone then r.mark a a.current else r

theorem Runner.apply_name (r : Runner) (a : Association) : (r.apply a).name = r.name := by
  unfold Runner.apply
  split <;> rfl

theorem Runner.apply_deletedAt (r : Runner) (a : Association) :
    (r.apply a).deletedAt = r.deletedAt := by
  unfold Runner.apply
  split <;> rfl

theorem Runner.foldl_apply_name (r : Runner) (log : List Association) :
    (log.foldl Runner.apply r).name = r.name := by
  induction log generalizing r with
  | nil => rfl
  | cons a log ih => rw [List.foldl_cons, ih, Runner.apply_name]

theorem Runner.foldl_apply_deletedAt (r : Runner) (log : List Association) :
    (log.foldl Runner.apply r).deletedAt = r.deletedAt := by
  induction log generalizing r with
  | nil => rfl
  | cons a log ih => rw [List.foldl_cons, ih, Runner.apply_deletedAt]

theorem find_markRunners {s : CiStore} {name : String} {a : Association} {current : Option JobId}
    (hmark : ∀ r : Runner, (if r.isNamed name then r.mark a current else r) = r.apply a)
    (id : RunnerId) :
    (s.markRunners name a current).runners.find id = (s.runners.find id).map fun r => r.apply a := by
  unfold CiStore.markRunners
  rw [Table.find_update]
  simp only [hmark]

theorem find_associateRunnerWithJob (s : CiStore) (a : Association) (id : RunnerId) :
    (s.associateRunnerWithJob a).1.runners.find id =
      (s.runners.find id).map fun r => r.apply a := by
  unfold CiStore.associateRunnerWithJob
  cases hname : a.runnerName with
  | none => simp [Runner.apply, Association.marks, hname]
  | some name =>
    cases hstatus : a.status with
    | inProgress | completed =>
      refine find_markRunners (fun r => ?_) id
      simp [Runner.apply, Runner.isNamed, Association.marks, Association.current, hname, hstatus,
        @eq_comm _ name]
    | queued | other => simp [Runner.apply, Association.marks, hstatus]

/-- Every runner's row in `d` is the one in `c` with some associations applied to it in order. -/
def Follows (c d : CiState) : Prop :=
  ∃ log, d.applied = c.applied ++ log ∧
    ∀ id, d.store.runners.find id = (c.store.runners.find id).map (log.foldl Runner.apply)

namespace Follows

variable {c d e : CiState}

theorem of_eq (happlied : d.applied = c.applied) (hrunners : d.store.runners = c.store.runners) :
    Follows c d :=
  ⟨[], by simp [happlied], fun id => by simp [hrunners]⟩

theorem refl (c : CiState) : Follows c c := .of_eq rfl rfl

theorem trans (h : Follows c d) (h' : Follows d e) : Follows c e := by
  obtain ⟨log, happlied, hfind⟩ := h
  obtain ⟨log', happlied', hfind'⟩ := h'
  refine ⟨log ++ log', by rw [happlied', happlied, List.append_assoc], fun id => ?_⟩
  rw [hfind', hfind, Option.map_map]
  congr 1
  funext r
  simp

end Follows

variable {c d : CiState} {j : JobId}

theorem follows_advance {i : Nat} (h : c.advance i = some d) : Follows c d := by
  unfold CiState.advance at h
  split at h
  · next a rest event _ =>
    cases h
    refine ⟨[a], rfl, fun id => ?_⟩
    exact find_associateRunnerWithJob c.store a id
  · cases h

theorem follows_step {a : CiStep} (h : c.step a = some d) : Follows c d := by
  cases a with
  | webhook w now =>
    cases h
    split
    · exact .refl c
    · split
      · exact .refl c
      · next store hrecord => exact .of_eq rfl (recordWebhook_ok hrecord).2
  | page jobs now =>
    cases h
    split
    · exact .refl c
    · next store hrecord => exact .of_eq rfl (recordPage_runners hrecord)
  | advance i => exact follows_advance h
  | stop i =>
    cases h
    exact .of_eq rfl rfl
  | closeMissingRun runId now =>
    cases h
    exact .of_eq rfl rfl

theorem follows_run {as : List CiStep} (h : ci.Run c as d) : Follows c d :=
  h.rel (I := fun _ => True) Follows.refl (fun _ _ _ => Follows.trans)
    (fun _ _ _ _ _ _ => trivial) (fun _ _ _ _ hstep _ => follows_step hstep) trivial

/-! ## The last report decides -/

def Runner.isAt (r : Runner) (j : JobId) : Prop := r.busy = true ∧ r.currentJobId = some j

/-- Every later report of another job that reaches the runner is followed by one of
`j` that reaches it too. -/
def Reasserted (j : JobId) (name : String) (log : List Association) : Prop :=
  ∀ b rest, b :: rest <:+ log → b.marks name → b.jobId ≠ j →
    ∃ d ∈ rest, d.marks name ∧ d.jobId = j

theorem reasserted_concat {name : String} {log : List Association} {b : Association} :
    Reasserted j name (log ++ [b]) ↔ if b.marks name then b.jobId = j else Reasserted j name log := by
  constructor
  · intro h
    split
    · next hmarks =>
      by_contra hne
      obtain ⟨d, hd, -⟩ := h b [] (List.suffix_append log [b]) hmarks hne
      cases hd
    · next hmarks =>
      intro d rest hsuffix hd hne
      obtain ⟨e, he, hemarks, hej⟩ := h d (rest ++ [b]) (List.suffix_concat_iff.mpr
        (.inr ⟨d :: rest, rfl, hsuffix⟩)) hd hne
      rcases List.mem_append.mp he with he | he
      · exact ⟨e, he, hemarks, hej⟩
      · cases List.mem_singleton.mp he
        exact absurd hemarks hmarks
  · intro h d rest hsuffix hd hne
    rcases List.suffix_concat_iff.mp hsuffix with hnil | ⟨init, hinit, hinitSuffix⟩
    · cases hnil
    · cases init with
      | nil =>
        cases hinit
        rw [if_pos hd] at h
        exact absurd h hne
      | cons e init =>
        cases hinit
        split at h
        · next hmarks => exact ⟨b, by simp, hmarks, h⟩
        · obtain ⟨e, he, hmarks⟩ := h d init hinitSuffix hd hne
          exact ⟨e, List.mem_append_left _ he, hmarks⟩

theorem isAt_apply {r : Runner} {a : Association} (hlive : r.deletedAt = none)
    (hj : a.jobId = j → a.status ≠ .completed) :
    (r.apply a).isAt j ↔ if a.marks r.name then a.jobId = j else r.isAt j := by
  unfold Runner.apply
  by_cases hmarks : a.marks r.name
  · simp only [hmarks, hlive]
    simp only [Association.marks, Bool.and_eq_true, Bool.or_eq_true, beq_iff_eq] at hmarks
    simp only [Runner.isAt, Runner.mark, Association.current]
    rcases hmarks.2 with hstatus | hstatus
    · simp [hstatus]
    · have : a.jobId ≠ j := fun heq => hj heq hstatus
      simp [this]
  · simp [hmarks]

theorem isAt_foldl_iff {r : Runner} {log : List Association} (hlive : r.deletedAt = none)
    (hat : r.isAt j) (hopen : ∀ b ∈ log, b.jobId = j → b.status ≠ .completed) :
    (log.foldl Runner.apply r).isAt j ↔ Reasserted j r.name log := by
  induction log using List.reverseRecOn with
  | nil =>
    refine iff_of_true hat fun b rest hsuffix => ?_
    cases List.suffix_nil.mp hsuffix
  | append_singleton log b ih =>
    have hlog := ih fun d hd => hopen d (List.mem_append_left _ hd)
    rw [List.foldl_concat, isAt_apply (by rw [Runner.foldl_apply_deletedAt, hlive])
      (hopen b (by simp)), Runner.foldl_apply_name, reasserted_concat, hlog]
/-- **A runner is shown busy with a job exactly while that job's reports have the last word.** -/
theorem runner_at_job_iff {s t : CiState} {as : List CiStep} {r : Runner} {j : JobId}
    {pre post : List Association} {a : Association} (hrun : ci.Run s as t)
    (hr : r ∈ t.store.runners) (hlive : r.deletedAt = none)
    (happlied : t.applied = s.applied ++ (pre ++ a :: post))
    (hstart : a.jobId = j ∧ a.status = .inProgress ∧ a.runnerName = some r.name)
    (hopen : ∀ b ∈ post, b.jobId = j → b.status ≠ .completed) :
    r.busy = true ∧ r.currentJobId = some j ↔ Reasserted j r.name post := by
  obtain ⟨log, hlog, hfind⟩ := follows_run hrun
  cases List.append_cancel_left (hlog.symm.trans happlied)
  obtain ⟨hj, hstatus, hname⟩ := hstart
  obtain ⟨r₀, -, hfold⟩ := Option.map_eq_some_iff.mp ((hfind r.id).symm.trans (Table.find_key hr))
  rw [List.foldl_append, List.foldl_cons] at hfold
  subst hfold
  simp only [Runner.foldl_apply_deletedAt, Runner.foldl_apply_name, Runner.apply_deletedAt,
    Runner.apply_name] at hlive hname ⊢
  -- the fold is at `j` right after `a`, and from there on the last report decides
  have hat : ((pre.foldl Runner.apply r₀).apply a).isAt j := by
    refine (isAt_apply (by rw [Runner.foldl_apply_deletedAt, hlive]) (by simp [hstatus])).mpr ?_
    rw [if_pos (by simp [Association.marks, hname, hstatus, Runner.foldl_apply_name])]
    exact hj
  have hiff := isAt_foldl_iff
    (by rw [Runner.apply_deletedAt, Runner.foldl_apply_deletedAt, hlive]) hat hopen
  rwa [Runner.apply_name, Runner.foldl_apply_name] at hiff

namespace Sample

def secondJobRuns : List CiStep :=
  [.webhook (jobWebhook 1 .inProgress none) 1000, .advance 0,
   .webhook (jobWebhook 1 .completed (some "success")) 2000, .advance 1,
   .webhook (jobWebhook 2 .inProgress none) 3000, .advance 2]

def syncPass : List CiStep :=
  [.page [jobReport 2 .inProgress none, jobReport 1 .completed (some "success")] 4000,
   .advance 3, .advance 3]

def firstJob : List Association :=
  [(jobReport 1 .inProgress none).association 1000,
   (jobReport 1 .completed (some "success")).association 2000]

def secondJob : Association := (jobReport 2 .inProgress none).association 3000

end Sample

theorem runner_at_job_sample :
    ∃ c r, ci.exec Sample.ciState Sample.secondJobRuns = some c ∧ r ∈ c.store.runners ∧
      r.busy = true ∧ r.currentJobId = some 2 := by
  obtain ⟨c, hexec, happlied, hrunners⟩ :
      ∃ c, ci.exec Sample.ciState Sample.secondJobRuns = some c ∧
        c.applied = Sample.ciState.applied ++ (Sample.firstJob ++ Sample.secondJob :: []) ∧
        c.store.runners.rows =
          [(Sample.firstJob ++ [Sample.secondJob]).foldl Runner.apply Sample.ciRunner] :=
    ⟨_, rfl, rfl, rfl⟩
  have hr := Table.mem_rows.mp (hrunners ▸ List.mem_singleton.mpr rfl)
  have hlast : Reasserted 2 "runner-1" [] := fun _ _ hsuffix => by cases List.suffix_nil.mp hsuffix
  exact ⟨c, _, hexec, hr, (runner_at_job_iff (Machine.run_iff_exec.mpr hexec) hr rfl happlied
    ⟨rfl, rfl, rfl⟩ (fun _ hb => by cases hb)).mpr hlast⟩

/-- **A finished job marks its runner idle again** while another job runs on it. -/
theorem runner_idle_under_job :
    (ci.exec Sample.ciState (Sample.secondJobRuns ++ Sample.syncPass)).map
        (fun c => (c.applied.map fun a => (a.jobId, a.status),
          c.store.runners.rows.map fun r => (r.name, r.status, r.busy, r.currentJobId))) =
      some ([(1, .inProgress), (1, .completed), (2, .inProgress), (2, .inProgress), (1, .completed)],
        [("runner-1", .online, false, none)]) := by
  rfl

end Gridops.Ci
