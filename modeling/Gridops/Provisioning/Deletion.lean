import Gridops.Provisioning.Reconcile

/-!
# Deleting a runner

`delete_runner` of the reconciler and `delete_runner_resources` of the API take a runner out of
service: they remove its registration with GitHub or Bitbucket, then its container, and mark the row
deleted. A registration that GitHub would not remove the API writes to `github_runner_cleanup`,
which `retry_github_runner_cleanup` works off; the reconciler logs a warning and goes on.

GitHub's answers come with the call. `GitHub.saysGone` is what they tell about the registration,
apart from what either program does with them.
-/

namespace Gridops.Provisioning

open Lib (Table)

/-! ## GitHub -/

/-- The answer to the request for an installation's token. -/
inductive TokenAnswer where
  | token
  | unavailable
  | error
deriving DecidableEq

inductive LookupAnswer where
  | found (id : ℕ)
  | absent
  | error
deriving DecidableEq

inductive RemovalAnswer where
  | success
  | notFound
  /-- 422, since the runner is running a job. -/
  | runningJob
  | refused (status : ℕ)
  | unreachable
deriving DecidableEq

structure GitHub where
  token : TokenAnswer
  lookup : LookupAnswer
  removal : RemovalAnswer
deriving DecidableEq

/-- `try_delete` returned `Ok(None)`. -/
def RemovalAnswer.isGone : RemovalAnswer → Bool
  | .success | .notFound => true
  | .runningJob | .refused _ | .unreachable => false

/-- `GitHubClient::delete`: whether it returned `Ok`. -/
def RemovalAnswer.delete (r : RemovalAnswer) : Bool := r.isGone

/-- `GitHubClient::remove_runner`: `none` is an error. -/
def RemovalAnswer.removeRunner : RemovalAnswer → Option Bool
  | .success | .notFound => some true
  | .runningJob => some false
  | .refused _ | .unreachable => none

namespace GitHub

variable (g : GitHub)

variable (recorded : Option ℕ)

/-- The registration to remove: the one recorded, or the one that carries the name. The outer
`none` is an error. -/
def registration : Option (Option ℕ) :=
  match recorded with
  | some id => some (some id)
  | none =>
    match g.lookup with
    | .found id => some (some id)
    | .absent => some none
    | .error => none

def saysGone : Bool :=
  g.token == .token &&
    match g.registration recorded with
    | some (some _) => g.removal.isGone
    | some none => true
    | none => false

def saysBusy : Bool :=
  g.token == .token &&
    match g.registration recorded with
    | some (some _) => g.removal == .runningJob
    | _ => false

/-- The reconciler's part of a deletion that talks to GitHub. -/
def removeRegistration : Option Bool :=
  match g.token with
  | .token =>
    match g.registration recorded with
    | some (some _) => g.removal.removeRunner
    | some none => some true
    | none => none
  | .unavailable | .error => none

/-- `cleanup_github_runner` of the API, and the same in `retry_github_runner_cleanup`: whether it
returned `Ok`. -/
def cleanup : Bool :=
  match g.token with
  | .token =>
    match g.registration recorded with
    | some (some _) => g.removal.delete
    | some none => true
    | none => false
  | .unavailable | .error => false

variable {g} {recorded : Option ℕ}

theorem cleanup_eq_saysGone : g.cleanup recorded = g.saysGone recorded := by
  unfold cleanup saysGone
  cases g.token <;> rfl

theorem removeRegistration_eq_false :
    g.removeRegistration recorded = some false ↔ g.saysBusy recorded := by
  unfold removeRegistration saysBusy
  cases g.token <;> try simp
  rcases g.registration recorded with _ | _ | id
  · simp
  · simp
  · cases g.removal <;> simp [RemovalAnswer.removeRunner]

end GitHub

structure RunnerAccess where
  runner : Runner
  installationId : ℕ
  accountLogin : String
  repository : Option (String × String)
deriving DecidableEq

structure PendingGitHubCleanup where
  id : RunnerId
  installationId : ℕ
  targetOwner : String
  targetRepository : Option String
  githubRunnerId : Option ℕ
  runnerName : String
  attempts : ℕ
  nextAttemptAt : Millis
deriving DecidableEq

structure Store where
  runners : Runners
  cleanup : Table PendingGitHubCleanup.id
deriving DecidableEq

def RunnerAccess.pending (a : RunnerAccess) (now : Millis) : PendingGitHubCleanup where
  id := a.runner.id
  installationId := a.installationId
  targetOwner := (a.repository.map (·.1)).getD a.accountLogin
  targetRepository := a.repository.map (·.2)
  githubRunnerId := a.runner.githubRunnerId
  runnerName := a.runner.name
  attempts := 0
  nextAttemptAt := now

/-- `ON CONFLICT(id) DO UPDATE`: everything but the attempts is taken over, and a registration id
only if there is one. -/
def PendingGitHubCleanup.renew (new old : PendingGitHubCleanup) : PendingGitHubCleanup :=
  { new with
    id := old.id
    githubRunnerId := new.githubRunnerId.or old.githubRunnerId
    attempts := old.attempts }

def PendingGitHubCleanup.Names (c : PendingGitHubCleanup) (a : RunnerAccess) : Prop :=
  c.id = a.runner.id ∧ c.installationId = a.installationId ∧
    c.targetOwner = (a.repository.map (·.1)).getD a.accountLogin ∧
    c.targetRepository = a.repository.map (·.2) ∧ c.runnerName = a.runner.name ∧
    (a.runner.githubRunnerId.isSome → c.githubRunnerId = a.runner.githubRunnerId)

variable (s : Store)

/-- The runner's registration is recorded for a later attempt. -/
def Store.Records (a : RunnerAccess) : Prop := ∃ c ∈ s.cleanup, c.Names a

def Store.Deleted (id : RunnerId) : Prop :=
  ∃ r ∈ s.runners, r.id = id ∧ r.deletedAt.isSome

def Store.Live (id : RunnerId) : Prop :=
  ∃ r ∈ s.runners, r.id = id ∧ r.deletedAt = none

/-! ## The three programs -/

inductive ManagerAnswer where
  | removed | notFound | error
deriving DecidableEq

structure Outcomes where
  github : GitHub
  bitbucket : Bool
  manager : ManagerAnswer
deriving DecidableEq

inductive DeleteResult where
  | deleted
  | kept
  | failed
deriving DecidableEq

/-- The container is removed, if there is one, and the row is marked. -/
def Store.retire (a : RunnerAccess) (manager : ManagerAnswer) (now : Millis) :
    Store × DeleteResult :=
  if a.runner.containerId.isSome && manager == .error then (s, .failed)
  else ({ s with runners := s.runners.delete a.runner.id now }, .deleted)

def bitbucketRegistration (r : Runner) : Option String := r.bitbucketRunnerUuid.filter (· ≠ "")

def deleteRunner (a : RunnerAccess) (o : Outcomes) (now : Millis) :
    Store × DeleteResult :=
  match a.runner.ciPlatform with
  | .bitbucket =>
    if (bitbucketRegistration a.runner).isSome && !o.bitbucket then (s, .failed)
    else s.retire a o.manager now
  | .github =>
    if o.github.removeRegistration a.runner.githubRunnerId = some false ∧
        a.runner.status ≠ failed then
      ({ s with runners := s.runners.keepBusy a.runner.id }, .kept)
    -- A registration that could not be removed is logged, and that is all.
    else s.retire a o.manager now

def deleteRunnerResources (a : RunnerAccess) (o : Outcomes) (now : Millis) :
    Store × DeleteResult :=
  match a.runner.ciPlatform with
  | .bitbucket =>
    if a.runner.bitbucketRunnerUuid.isSome && o.bitbucket then
      Store.retire { s with cleanup := s.cleanup.retain (·.id ≠ a.runner.id) } a o.manager now
    else (s, .failed)
  | .github =>
    if o.github.cleanup a.runner.githubRunnerId then
      Store.retire { s with cleanup := s.cleanup.retain (·.id ≠ a.runner.id) } a o.manager now
    else
      Store.retire
        { s with
          cleanup := s.cleanup.upsert (a.pending now) (a.pending now).renew fun _ => rfl }
        a o.manager now

def githubCleanupBackoffMs (attempts : ℕ) : Millis :=
  min (30000 * 2 ^ min (attempts - 1) 7) 3600000

def Store.dueCleanups (now : Millis) : List PendingGitHubCleanup :=
  ((s.cleanup.rows.filter fun c => c.nextAttemptAt ≤ now).insertionSort
    fun a b => a.nextAttemptAt ≤ b.nextAttemptAt).take 25

def Store.retryCleanup (answers : RunnerId → GitHub) (now : Millis) (s : Store)
    (c : PendingGitHubCleanup) : Store :=
  if (answers c.id).cleanup c.githubRunnerId then
    { s with cleanup := s.cleanup.retain (·.id ≠ c.id) }
  else
    { s with
      cleanup := s.cleanup.update (·.id == c.id)
        (fun old => { old with
          attempts := c.attempts + 1
          nextAttemptAt := now + githubCleanupBackoffMs (c.attempts + 1) }) fun _ => rfl }

def retryGithubRunnerCleanup (answers : RunnerId → GitHub) (now : Millis) : Store :=
  (s.dueCleanups now).foldl (Store.retryCleanup answers now) s

/-! ## What a call leaves behind -/

section

variable {s : Store} {a : RunnerAccess} {o : Outcomes} {manager : ManagerAnswer} {now : Millis}

theorem Store.Live.not_deleted {id : RunnerId} (h : s.Live id) : ¬ s.Deleted id := by
  obtain ⟨r, hr, hid, hlive⟩ := h
  rintro ⟨r', hr', hid', hdel⟩
  rw [s.runners.eq_of_key hr' hr (hid'.trans hid.symm), hlive] at hdel
  exact absurd hdel (by decide)

theorem Store.retire_cleanup : (s.retire a manager now).1.cleanup = s.cleanup := by
  unfold retire
  split <;> rfl

theorem Runners.exists_write {t : Runners} {id : RunnerId} {f : Runner → Runner}
    (hf : ∀ r, (f r).id = r.id) {P : Runner → Prop} :
    (∃ r ∈ t.write id f hf, r.id = id ∧ P r) ↔ ∃ r ∈ t, r.id = id ∧ P (f r) := by
  constructor
  · rintro ⟨r, hr, hid, hP⟩
    obtain ⟨x, hx, rfl⟩ := Table.mem_update.mp hr
    by_cases hxid : x.id = id
    · rw [hxid, beq_self_eq_true] at hP
      exact ⟨x, hx, hxid, hP⟩
    · rw [beq_eq_false_iff_ne.mpr hxid] at hid
      exact absurd hid hxid
  · rintro ⟨x, hx, hid, hP⟩
    exact ⟨f x, Table.mem_update.mpr ⟨x, hx, by simp [hid]⟩,
      (hf x).trans hid, hP⟩

theorem Store.deleted_delete :
    Store.Deleted { s with runners := s.runners.delete a.runner.id now } a.runner.id ↔
      s.Deleted a.runner.id ∨ s.Live a.runner.id := by
  refine (Runners.exists_write (t := s.runners) (f := (·.delete now)) fun _ => rfl).trans ⟨?_, ?_⟩
  · rintro ⟨x, hx, hid, -⟩
    cases hdel : x.deletedAt with
    | none => exact .inr ⟨x, hx, hid, hdel⟩
    | some _ => exact .inl ⟨x, hx, hid, by rw [hdel, Option.isSome_some]⟩
  · rintro (⟨x, hx, hid, -⟩ | ⟨x, hx, hid, -⟩) <;> exact ⟨x, hx, hid, rfl⟩

theorem Store.deleted_keepBusy :
    Store.Deleted { s with runners := s.runners.keepBusy a.runner.id } a.runner.id ↔
      s.Deleted a.runner.id := by
  refine (Runners.exists_write (t := s.runners) fun q => by split <;> rfl).trans ?_
  refine exists_congr fun x => and_congr_right fun _ => and_congr_right fun _ => ?_
  split <;> rfl

/-- Where the row was not marked before, `retire` marks it exactly if there is one and its
container is out of the way. -/
theorem Store.deleted_retire (h : ¬ s.Deleted a.runner.id) :
    (s.retire a manager now).1.Deleted a.runner.id ↔
      s.Live a.runner.id ∧ ¬ (a.runner.containerId.isSome ∧ manager = .error) := by
  unfold retire
  split
  · next hfail =>
    rw [Bool.and_eq_true, beq_iff_eq] at hfail
    simp [h, hfail]
  · next hfail =>
    rw [Bool.and_eq_true, beq_iff_eq] at hfail
    rw [deleted_delete]
    simp [h, hfail]

theorem Store.records_congr {s' : Store} (h : s'.cleanup = s.cleanup) :
    s'.Records a ↔ s.Records a := by
  rw [Records, Records, h]

theorem Store.records_upsert :
    Store.Records
      { s with cleanup := s.cleanup.upsert (a.pending now) (a.pending now).renew fun _ => rfl }
      a := by
  set renewed := (s.cleanup.find a.runner.id).map (a.pending now).renew with hrenewed
  have hfind : (s.cleanup.upsert (a.pending now) (a.pending now).renew fun _ => rfl).find
      a.runner.id = some (renewed.getD (a.pending now)) :=
    Table.find_upsert.trans (if_pos rfl)
  refine ⟨_, Table.mem_of_find hfind, Table.key_of_find hfind, ?_⟩
  cases hold : s.cleanup.find a.runner.id with
  | none =>
    rw [hrenewed, hold]
    exact ⟨rfl, rfl, rfl, rfl, fun _ => rfl⟩
  | some old =>
    rw [hrenewed, hold]
    refine ⟨rfl, rfl, rfl, rfl, fun hsome => ?_⟩
    obtain ⟨id, hid⟩ := Option.isSome_iff_exists.mp hsome
    simp [PendingGitHubCleanup.renew, RunnerAccess.pending, hid]

end

section

variable {answers : RunnerId → GitHub} {now : Millis} {s t u : Store} {c : PendingGitHubCleanup}

/-- Every row is still there, or GitHub has said that its registration is gone. -/
def Spares (answers : RunnerId → GitHub) (s t : Store) : Prop :=
  ∀ c ∈ s.cleanup, (∃ c' ∈ t.cleanup, c'.id = c.id ∧ c'.githubRunnerId = c.githubRunnerId) ∨
    (answers c.id).saysGone c.githubRunnerId

def Store.Agrees (s : Store) (c : PendingGitHubCleanup) : Prop :=
  ∀ r ∈ s.cleanup, r.id = c.id → r.githubRunnerId = c.githubRunnerId

theorem Spares.refl (s : Store) : Spares answers s s := fun c hc => .inl ⟨c, hc, rfl, rfl⟩

theorem Spares.trans (hst : Spares answers s t) (htu : Spares answers t u) :
    Spares answers s u := by
  intro c hc
  obtain ⟨c', hc', hid, hreg⟩ | hgone := hst c hc
  · rw [← hid, ← hreg]
    exact htu c' hc'
  · exact .inr hgone

theorem Store.mem_retryCleanup {r : PendingGitHubCleanup}
    (hr : r ∈ (s.retryCleanup answers now c).cleanup) :
    ∃ x ∈ s.cleanup, x.id = r.id ∧ x.githubRunnerId = r.githubRunnerId := by
  unfold retryCleanup at hr
  split at hr
  · exact ⟨r, (Table.mem_retain.mp hr).1, rfl, rfl⟩
  · obtain ⟨x, hx, rfl⟩ := List.mem_map.mp hr
    exact ⟨x, hx, by split <;> rfl, by split <;> rfl⟩

theorem Store.Agrees.retryCleanup {r : PendingGitHubCleanup} (h : s.Agrees c) :
    (s.retryCleanup answers now r).Agrees c := by
  intro x hx hid
  obtain ⟨y, hy, hyid, hyreg⟩ := mem_retryCleanup hx
  rw [← hyreg]
  exact h y hy (hyid.trans hid)

theorem Store.Agrees.spares (h : s.Agrees c) : Spares answers s (s.retryCleanup answers now c) := by
  intro r hr
  unfold Store.retryCleanup
  split
  · next hgone =>
    by_cases hid : r.id = c.id
    · rw [GitHub.cleanup_eq_saysGone, ← h r hr hid, ← hid] at hgone
      exact .inr hgone
    · exact .inl ⟨r, Table.mem_retain.mpr ⟨hr, decide_eq_true hid⟩, rfl, rfl⟩
  · exact .inl ⟨_, List.mem_map.mpr ⟨r, hr, rfl⟩, by split <;> rfl, by split <;> rfl⟩

theorem Store.mem_dueCleanups (hc : c ∈ s.dueCleanups now) : c ∈ s.cleanup :=
  (List.mem_filter.mp ((List.mem_insertionSort _).mp (List.mem_of_mem_take hc))).1

theorem Store.nodup_dueCleanups : ((s.dueCleanups now).map (·.id)).Nodup := by
  refine List.Nodup.sublist ((List.take_sublist _ _).map _) ?_
  rw [((List.perm_insertionSort _ _).map _).nodup_iff]
  exact s.cleanup.unique.sublist (List.filter_sublist.map _)

/-- A pass gives up no registration but those that GitHub has said are gone. -/
theorem spares_retryGithubRunnerCleanup :
    Spares answers s (retryGithubRunnerCleanup s answers now) := by
  refine Table.foldl_selected (A := Store.Agrees) Spares.refl (fun _ _ _ => Spares.trans)
    Store.nodup_dueCleanups (fun c hc r hr hid => ?_) ?_ fun _ _ _ => Store.Agrees.spares
  · rw [s.cleanup.eq_of_key hr (Store.mem_dueCleanups hc) hid]
  · exact fun _ _ _ _ _ _ => Store.Agrees.retryCleanup

end

/-! ## Orphans -/

inductive DeletionCall where
  | deleteRunner (a : RunnerAccess) (o : Outcomes) (now : Millis)
  | deleteRunnerResources (a : RunnerAccess) (o : Outcomes) (now : Millis)
  | retryGithubRunnerCleanup (answers : RunnerId → GitHub) (now : Millis)

def DeletionCall.run (s : Store) : DeletionCall → Store
  | .deleteRunner a o now => (Provisioning.deleteRunner s a o now).1
  | .deleteRunnerResources a o now => (Provisioning.deleteRunnerResources s a o now).1
  | .retryGithubRunnerCleanup answers now =>
    Provisioning.retryGithubRunnerCleanup s answers now

/-- Where the row got marked, GitHub has said that the registration is gone, or the second store
records it. -/
def AccountsFor (s s' : Store) (a : RunnerAccess) (o : Outcomes) : Prop :=
  a.runner.ciPlatform = .github → ¬ s.Deleted a.runner.id → s'.Deleted a.runner.id →
    o.github.saysGone a.runner.githubRunnerId ∨ s'.Records a

/-- A row is marked only if its registration is accounted for, and a record dropped only if GitHub
said that it is gone. -/
def DeletionCall.LeavesNoOrphan (s : Store) (call : DeletionCall) : Prop :=
  match call with
  | .deleteRunner a o _ | .deleteRunnerResources a o _ => AccountsFor s (call.run s) a o
  | .retryGithubRunnerCleanup answers _ =>
    ∀ c ∈ s.cleanup, (∀ c' ∈ (call.run s).cleanup, c'.id ≠ c.id) →
      (answers c.id).saysGone c.githubRunnerId

/-- Where GitHub does not say that the registration is gone, it is recorded already, the runner is
busy, or the container stays. -/
def DeletionCall.Covered (s : Store) : DeletionCall → Prop
  | .deleteRunner a o _ =>
    a.runner.ciPlatform = .github → s.Live a.runner.id →
      ¬ o.github.saysGone a.runner.githubRunnerId →
        s.Records a ∨
        (o.github.saysBusy a.runner.githubRunnerId ∧ a.runner.status ≠ failed) ∨
        (a.runner.containerId.isSome ∧ o.manager = .error)
  | .deleteRunnerResources .. | .retryGithubRunnerCleanup .. => True

section

variable {s : Store} {a : RunnerAccess} {o : Outcomes} {now : Millis}

theorem deleteRunner_github (h : a.runner.ciPlatform = .github) :
    (deleteRunner s a o now).1 =
      if o.github.saysBusy a.runner.githubRunnerId ∧ a.runner.status ≠ failed then
        { s with runners := s.runners.keepBusy a.runner.id }
      else (s.retire a o.manager now).1 := by
  simp [deleteRunner, h, GitHub.removeRegistration_eq_false, apply_ite Prod.fst]

theorem deleteRunner_cleanup : (deleteRunner s a o now).1.cleanup = s.cleanup := by
  unfold deleteRunner
  split <;> split <;> first | rfl | exact Store.retire_cleanup

theorem deleteRunner_deleted (h : a.runner.ciPlatform = .github) (hold : ¬ s.Deleted a.runner.id) :
    (deleteRunner s a o now).1.Deleted a.runner.id ↔
      s.Live a.runner.id ∧
      ¬ (o.github.saysBusy a.runner.githubRunnerId ∧ a.runner.status ≠ failed) ∧
      ¬ (a.runner.containerId.isSome ∧ o.manager = .error) := by
  rw [deleteRunner_github h]
  split
  · next hbusy =>
    rw [Store.deleted_keepBusy]
    exact iff_of_false hold fun hmarked => hmarked.2.1 hbusy
  · next hbusy => rw [Store.deleted_retire hold, and_iff_right hbusy]

theorem deleteRunner_accountsFor :
    AccountsFor s (deleteRunner s a o now).1 a o ↔
      (DeletionCall.deleteRunner a o now).Covered s := by
  refine forall_congr' fun hgithub => ?_
  rw [Store.records_congr deleteRunner_cleanup]
  constructor
  · intro h hlive hgone
    by_contra hnot
    push Not at hnot
    obtain ⟨hrec, hbusy, hmanager⟩ := hnot
    have hold := hlive.not_deleted
    have hmarked : (deleteRunner s a o now).1.Deleted a.runner.id :=
      (deleteRunner_deleted hgithub hold).mpr
        ⟨hlive, fun hb => hb.2 (hbusy hb.1), fun hm => hmanager hm.1 hm.2⟩
    exact (h hold hmarked).elim hgone hrec
  · intro h hold hmarked
    obtain ⟨hlive, hbusy, hmanager⟩ := (deleteRunner_deleted hgithub hold).mp hmarked
    by_cases hgone : o.github.saysGone a.runner.githubRunnerId
    · exact .inl hgone
    · obtain hrec | hb | hm := h hlive hgone
      · exact .inr hrec
      · exact absurd hb hbusy
      · exact absurd hm hmanager

theorem deleteRunnerResources_accountsFor :
    AccountsFor s (deleteRunnerResources s a o now).1 a o := by
  intro hgithub _ _
  simp only [deleteRunnerResources, hgithub, GitHub.cleanup_eq_saysGone]
  split
  · next hgone => exact .inl hgone
  · exact .inr ((Store.records_congr Store.retire_cleanup).mpr Store.records_upsert)

end

/-- **Deleting a runner leaves no orphan registration exactly if the call is covered.** -/
theorem leavesNoOrphan_iff_covered (s : Store) (call : DeletionCall) :
    call.LeavesNoOrphan s ↔ call.Covered s := by
  cases call with
  | deleteRunner a o now => exact deleteRunner_accountsFor
  | deleteRunnerResources a o now => exact iff_of_true deleteRunnerResources_accountsFor trivial
  | retryGithubRunnerCleanup answers now =>
    refine iff_of_true (fun c hc hdropped => ?_) trivial
    have hspares : Spares answers s (retryGithubRunnerCleanup s answers now) :=
      spares_retryGithubRunnerCleanup
    obtain ⟨c', hc', hid, -⟩ | hgone := hspares c hc
    · exact absurd hid (hdropped c' hc')
    · exact hgone

namespace Sample

def idleRunner : RunnerAccess where
  runner :=
    { id := "r1", name := "runner-1", ciPlatform := .github, status := .idle, busy := false,
      configurationVersion := 1, githubRunnerId := some 7, bitbucketRunnerUuid := none,
      containerId := none, createdAt := 0, deletedAt := none }
  installationId := 1
  accountLogin := "octo"
  repository := none

def idleStore : Store where
  runners := ⟨[idleRunner.runner], by decide⟩
  cleanup := Table.empty

def noCredentials : Outcomes where
  github := { token := .unavailable, lookup := .error, removal := .unreachable }
  bitbucket := true
  manager := .removed

end Sample

open Sample in
/-- Without credentials the reconciler marks the row all the same, and nothing remembers the
registration. -/
theorem reconciler_forgets_registration :
    ¬ (DeletionCall.deleteRunner idleRunner noCredentials 5).LeavesNoOrphan idleStore := by
  have hold : ¬ idleStore.Deleted "r1" := by
    rintro ⟨r, hr, -, hdel⟩
    rw [List.mem_singleton.mp hr] at hdel
    exact absurd hdel (by decide)
  have hmarked : (deleteRunner idleStore idleRunner noCredentials 5).1.Deleted "r1" :=
    ⟨idleRunner.runner.delete 5, List.mem_singleton.mpr (by decide), rfl, rfl⟩
  intro h
  obtain hgone | ⟨c, hc, -⟩ := h rfl hold hmarked
  · exact absurd hgone (by decide)
  · exact List.not_mem_nil hc

end Gridops.Provisioning
