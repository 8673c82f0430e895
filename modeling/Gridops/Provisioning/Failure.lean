import Gridops.Provisioning.Provision

/-!
# What a failed provisioning leaves

Both programs release the lease on every failure after the reservation, and the row that stays
names every GitHub runner. What escapes them is told apart here step by step: a registration with
Bitbucket whose identifier no row ever gets, and, in the API, a container that is neither recorded
nor removed.
-/

namespace Gridops.Provisioning

variable {c : Call} {s : Selection} {e : Failure} {l : LeaseId}

/-! ## The conditions -/

namespace Call

variable (c : Call) (s : Selection)

/-- The reservation at the manager was not made without the program knowing its lease. -/
def ReserveAnswered : Prop := ∀ r, c.reserve ≠ .lost r

/-- Bitbucket did not register a runner without answering its identifier and its secret. -/
def BitbucketAnswered : Prop :=
  s.bitbucketConnection.isSome → c.accessToken → c.labelsValid →
    ∀ r, c.createRunner ≠ .lost r ∧ (c.createRunner = .done r → r.oauthSecret.isSome)

/-- The registration goes through, so that the manager is asked for a container. -/
def registers : Bool :=
  match s.bitbucketConnection with
  | some _ =>
    c.accessToken && c.labelsValid &&
      match c.createRunner with
      | .done runner => runner.oauthSecret.isSome
      | _ => false
  | none =>
    c.installationToken &&
      if s.poolEphemeral then (c.jitConfig matches .done _) && c.recordGithubRunner
      else c.registrationToken && (!s.grouped || c.runnerGroupName)

/-- A container that the manager creates is answered and recorded. -/
def ContainerRecorded : Prop :=
  ∀ r, c.createContainer ≠ .lost r ∧
    (c.createContainer = .done r → r.identified ∧ c.recordContainer)

/-- A registered Bitbucket runner whose container is answered is recorded. -/
def BitbucketRecorded : Prop :=
  s.bitbucketConnection.isSome →
    ∀ r, c.createContainer = .done r → r.identified → c.recordContainer

def Accounted : Prop :=
  ∀ s, c.selection = .ok s → c.ReserveAnswered ∧
    ∀ r, c.reserve = .done r → r.identified ∧
      (c.insertRow → c.BitbucketAnswered s ∧ (c.registers s → c.ContainerRecorded))

def AccountedOnHost : Prop :=
  ∀ s, c.selection = .ok s → c.ReserveAnswered ∧
    ∀ r, c.reserve = .done r → r.identified →
      (c.insertRow → c.BitbucketAnswered s ∧ (c.registers s → c.BitbucketRecorded s))

end Call

def started (c : Call) (s : Selection) (l : LeaseId) : Footprint :=
  { Footprint.nothing with lease := some l, row := some (c.row s) }

def registered (c : Call) (s : Selection) (l : LeaseId) (reg : Registration) : Footprint :=
  { Footprint.nothing with
    lease := some l
    row := some { c.row s with githubRunnerId := reg.githubRunnerId }
    github := reg.githubRunnerId.map (⟨·, s.runnerName⟩)
    bitbucket := reg.bitbucketRunnerUuid }

structure Ready (c : Call) (s : Selection) (reg : Registration) : Prop where
  registers : c.registers s = true
  answered : c.BitbucketAnswered s
  platform : reg.bitbucketRunnerUuid.isSome = s.bitbucketConnection.isSome
  github : s.bitbucketConnection.isSome → reg.githubRunnerId = none

/-- They failed, with `f` left: the row names what GitHub registered. -/
structure Broken (c : Call) (s : Selection) (f : Footprint) : Prop where
  registers : c.registers s = false
  row : f.row = some (c.row s)
  container : f.container = none
  github : ∀ g ∈ f.github, g.name = s.runnerName ∧ s.bitbucketConnection = none
  bitbucket : f.bitbucket = none ↔ c.BitbucketAnswered s

theorem Call.bitbucketAnswered_of_github (hconn : s.bitbucketConnection = none) :
    c.BitbucketAnswered s := by
  simp [Call.BitbucketAnswered, hconn]

theorem Broken.of_started (hreg : c.registers s = false) (hanswered : c.BitbucketAnswered s) :
    Broken c s (started c s l) :=
  ⟨hreg, rfl, rfl, nofun, iff_of_true rfl hanswered⟩

/-- What holds of the result of the steps up to the manager's call. -/
def Prepared (c : Call) (s : Selection) (l : LeaseId) :
    Footprint × Except Failure Registration → Prop
  | (f, .ok reg) => Ready c s reg ∧ f = registered c s l reg
  | (f, .error _) => Broken c s f

theorem prepared_bitbucket (hconn : s.bitbucketConnection.isSome) :
    Prepared c s l (c.prepare s (started c s l)) := by
  obtain ⟨conn, hconn⟩ := Option.isSome_iff_exists.mp hconn
  simp only [Call.prepare, Call.register, hconn]
  by_cases htoken : c.accessToken
  case neg =>
    simp only [htoken]
    exact .of_started (by simp [Call.registers, *]) (by simp [Call.BitbucketAnswered, *])
  by_cases hlabels : c.labelsValid
  case neg =>
    simp only [htoken, hlabels]
    exact .of_started (by simp [Call.registers, *]) (by simp [Call.BitbucketAnswered, *])
  simp only [htoken, hlabels]
  rcases hreply : c.createRunner with runner | code | runner
  · rcases hsecret : runner.oauthSecret with _ | secret <;> simp only [hsecret]
    · exact ⟨by simp [Call.registers, *], rfl, rfl, nofun, by simp [Call.BitbucketAnswered, *]⟩
    · exact ⟨⟨by simp [Call.registers, *], by simp [Call.BitbucketAnswered, *], by simp [hconn],
        fun _ => rfl⟩, rfl⟩
  · exact .of_started (by simp [Call.registers, *]) (by simp [Call.BitbucketAnswered, *])
  · exact ⟨by simp [Call.registers, *], rfl, rfl, nofun, by simp [Call.BitbucketAnswered, *]⟩

theorem prepared_github (hconn : s.bitbucketConnection = none) :
    Prepared c s l (c.prepare s (started c s l)) := by
  have hanswered : c.BitbucketAnswered s := Call.bitbucketAnswered_of_github hconn
  simp only [Call.prepare, Call.register, hconn]
  by_cases htoken : c.installationToken
  case neg =>
    simp only [htoken]
    exact .of_started (by simp [Call.registers, *]) hanswered
  by_cases hjit : s.poolEphemeral <;> simp only [htoken, hjit]
  · rcases hreply : c.jitConfig with id | code | id
    · by_cases hrecord : c.recordGithubRunner <;> simp only [Call.recordGithub, hrecord]
      · exact ⟨⟨by simp [Call.registers, *], hanswered, by simp [hconn], by simp [hconn]⟩, rfl⟩
      · exact ⟨by simp [Call.registers, *], rfl, rfl, by simp [hconn], iff_of_true rfl hanswered⟩
    · exact .of_started (by simp [Call.registers, *]) hanswered
    · exact ⟨by simp [Call.registers, *], rfl, rfl, by simp [hconn], iff_of_true rfl hanswered⟩
  · by_cases hgranted : c.registrationToken <;> simp only [hgranted]
    case neg => exact .of_started (by simp [Call.registers, *]) hanswered
    by_cases hgroup : s.grouped && !c.runnerGroupName <;> simp only [hgroup]
    · exact .of_started (by grind [Call.registers]) hanswered
    · exact ⟨⟨by grind [Call.registers], hanswered, by simp [hconn], by simp [hconn]⟩, rfl⟩

variable {f : Footprint} {reg : Registration}

/-- **The steps up to the manager's call** fail with at most a Bitbucket runner left that the row
does not name. -/
theorem prepared (c : Call) (s : Selection) (l : LeaseId) :
    Prepared c s l (c.prepare s (started c s l)) := by
  rcases hconn : s.bitbucketConnection with _ | conn
  · exact prepared_github hconn
  · exact prepared_bitbucket (by simp [hconn])

/-! ## After a failure -/

theorem tracked_fail : (c.fail f).Tracked ↔ f.Tracked := by
  unfold Call.fail
  split
  · constructor <;> rintro ⟨hlease, hgithub, hbitbucket, hcontainer⟩ <;>
      exact ⟨hlease, by simpa [Footprint.update, Runner.fail] using hgithub,
        by simpa [Footprint.update, Runner.fail] using hbitbucket,
        by simpa [Footprint.update, Runner.fail] using hcontainer⟩
  · rfl

/-- Once the lease is released, what is left is tracked exactly when the row has the Bitbucket
runner and the container. -/
theorem tracked_release_iff {r : Runner} (hrow : f.row = some r) (hlive : r.deletedAt = none)
    (hgithub : ∀ g ∈ f.github, r.ciPlatform = .github ∧ r.name = g.name) :
    f.release.Tracked ↔ (∀ u ∈ f.bitbucket, r.bitbucketRunnerUuid = some u) ∧
      ∀ id ∈ f.container, r.containerId = some id := by
  constructor
  · intro ht
    have heq : ∀ r' ∈ f.release.row, r' = r := fun r' hr' => Option.some.inj (hr'.symm.trans hrow)
    constructor
    · intro u hu
      obtain ⟨r', hr', -, huuid⟩ := ht.bitbucket u hu
      exact heq r' hr' ▸ huuid
    · intro id hid
      obtain ⟨r', hr', -, hcontainer⟩ := ht.container id hid
      exact heq r' hr' ▸ hcontainer
  · rintro ⟨hbitbucket, hcontainer⟩
    exact ⟨rfl, fun g hg => ⟨r, hrow, hlive, .inr (hgithub g hg)⟩,
      fun u hu => ⟨r, hrow, hlive, hbitbucket u hu⟩,
      fun id hid => ⟨r, hrow, hlive, hcontainer id hid⟩⟩

theorem Selection.plan_github (hconn : s.bitbucketConnection = none) :
    s.plan.platform = .github := by
  simp [Selection.plan, ProvisioningPlan.forSelectedProvider, hconn]

theorem Broken.tracked_iff (h : Broken c s f) :
    f.release.Tracked ↔ c.BitbucketAnswered s := by
  have hgithub : ∀ g ∈ f.github, (c.row s).ciPlatform = .github ∧ (c.row s).name = g.name := by
    intro g hg
    obtain ⟨hname, hconn⟩ := h.github g hg
    exact ⟨Selection.plan_github hconn, hname.symm⟩
  rw [tracked_release_iff h.row rfl hgithub, ← h.bitbucket, h.container]
  simp [Call.row, Selection.row, Option.eq_none_iff_forall_not_mem]

/-! ## The manager's call -/

theorem named_create (hready : Ready c s reg) (id : ContainerId) {g : GithubRunner}
    (hg : g ∈ ((registered c s l reg).create id (c.own s)).github) :
    s.plan.platform = .github ∧ s.runnerName = g.name := by
  rcases hconn : s.bitbucketConnection with _ | conn
  · refine ⟨Selection.plan_github hconn, ?_⟩
    simp only [Footprint.create, registered, Call.own] at hg
    split at hg <;> simp at hg <;> grind
  · have hnone := hready.github (by simp [hconn])
    simp [Footprint.create, registered, Call.own, hconn, hnone] at hg

theorem named_registered (hready : Ready c s reg) {g : GithubRunner}
    (hg : g ∈ (registered c s l reg).github) :
    s.plan.platform = .github ∧ s.runnerName = g.name := by
  rcases hconn : s.bitbucketConnection with _ | conn
  · refine ⟨Selection.plan_github hconn, ?_⟩
    simp [registered] at hg
    grind
  · simp [registered, hready.github (by simp [hconn])] at hg

@[simp] theorem deregister_row (reg : Registration) (f : Footprint) :
    (Call.deregister reg f).row = f.row := by
  simp [Call.deregister]; split <;> rfl

@[simp] theorem deregister_github (reg : Registration) (f : Footprint) :
    (Call.deregister reg f).github = f.github := by
  simp [Call.deregister]; split <;> rfl

@[simp] theorem deregister_container (reg : Registration) (f : Footprint) :
    (Call.deregister reg f).container = f.container := by
  simp [Call.deregister]; split <;> rfl

theorem deregister_bitbucket (hf : f.bitbucket = reg.bitbucketRunnerUuid) :
    (Call.deregister reg f).bitbucket = none := by
  by_cases hreg : reg.bitbucketRunnerUuid.isSome
  · simp [Call.deregister, failureCleanup, hreg]
  · rw [Call.deregister, if_neg (by simpa [failureCleanup] using hreg), hf]
    simpa using hreg

/-- **The manager's call in the API** leaves nothing untracked exactly when the container it makes
is answered and recorded. -/
theorem launch_tracked_iff (hready : Ready c s reg)
    (h : c.launch s reg (registered c s l reg) = (f, .error e)) :
    f.release.Tracked ↔ c.ContainerRecorded := by
  unfold Call.launch at h
  rcases hreply : c.createContainer with created | code | created <;> simp only [hreply] at h
  · split_ifs at h with hident hrecord hconclude <;> cases h
    all_goals
      refine (tracked_release_iff rfl rfl ?_).trans ?_
      · exact fun g hg => named_create hready created.id hg
      · simp_all [Call.ContainerRecorded, Footprint.create, Footprint.update, Runner.record,
          registered, Call.row, Selection.row]
  · cases h
    refine (tracked_release_iff (deregister_row _ _) rfl fun g hg => named_registered hready
      (deregister_github reg _ ▸ hg)).trans ?_
    rw [deregister_bitbucket rfl]
    simp [Call.ContainerRecorded, hreply, registered, Footprint.nothing]
  · cases h
    refine (tracked_release_iff (deregister_row _ _) rfl fun g hg => named_create hready _
      (deregister_github reg _ ▸ hg)).trans ?_
    simp [Call.ContainerRecorded, hreply, Footprint.create, Call.row, Selection.row]

/-- **The manager's call in the reconciler**, which removes the container afterwards, leaves
nothing untracked exactly when a registered Bitbucket runner is recorded. -/
theorem launchOnHost_tracked_iff (hready : Ready c s reg)
    (h : c.launchOnHost s reg (registered c s l reg) = (f, .error e)) :
    (Call.cleanupUnrecorded f).release.Tracked ↔ c.BitbucketRecorded s := by
  unfold Call.launchOnHost at h
  have hfailed : ∀ id, (Call.cleanupUnrecorded
      (Call.deregister reg ((registered c s l reg).create id (c.own s)))).release.Tracked := by
    intro id
    refine (tracked_release_iff (deregister_row _ _) rfl fun g hg => named_create hready _
      (deregister_github reg _ ▸ hg)).mpr ⟨?_, nofun⟩
    simp [Call.cleanupUnrecorded,
      deregister_bitbucket (f := (registered c s l reg).create id (c.own s)) rfl]
  rcases hreply : c.createContainer with created | code | created <;> simp only [hreply] at h
  · split_ifs at h with hident hrecord <;> cases h
    · exact iff_of_true (hfailed _) (by simp_all [Call.BitbucketRecorded])
    · refine (tracked_release_iff rfl rfl ?_).trans ?_
      · exact fun g hg => named_create hready created.id hg
      have hplatform := hready.platform
      rcases hconn : s.bitbucketConnection with _ | conn <;>
        rcases huuid : reg.bitbucketRunnerUuid with _ | u <;>
        simp_all [Call.BitbucketRecorded, Footprint.create, Call.row, Selection.row, Call.cleanupUnrecorded,
          registered]
  · cases h
    refine (tracked_release_iff (deregister_row _ _) rfl fun g hg => named_registered hready
      (deregister_github reg _ ▸ hg)).trans ?_
    simp [Call.cleanupUnrecorded, deregister_bitbucket (f := registered c s l reg) rfl,
      Call.BitbucketRecorded, hreply]
  · cases h
    exact iff_of_true (hfailed _) (by simp [Call.BitbucketRecorded, hreply])

/-! ## Both programs -/

theorem body_tracked_iff (h : c.body s (started c s l) = (f, .error e)) :
    f.release.Tracked ↔ c.BitbucketAnswered s ∧ (c.registers s → c.ContainerRecorded) := by
  have hprepared := prepared c s l
  unfold Call.body at h
  rcases hsteps : c.prepare s (started c s l) with ⟨f', e' | reg⟩ <;>
    simp only [hsteps] at h hprepared
  · cases h
    simp [hprepared.tracked_iff, hprepared.registers]
  · obtain ⟨hready, rfl⟩ := hprepared
    simp [launch_tracked_iff hready h, hready.answered, hready.registers]

theorem bodyOnHost_tracked_iff (h : c.bodyOnHost s (started c s l) = (f, .error e)) :
    (Call.cleanupUnrecorded f).release.Tracked ↔
      c.BitbucketAnswered s ∧ (c.registers s → c.BitbucketRecorded s) := by
  have hprepared := prepared c s l
  unfold Call.bodyOnHost at h
  rcases hsteps : c.prepare s (started c s l) with ⟨f', e' | reg⟩ <;>
    simp only [hsteps] at h hprepared
  · cases h
    have hsame : Call.cleanupUnrecorded f = f := by
      rw [Call.cleanupUnrecorded, ← hprepared.container]
    simp [hsame, hprepared.tracked_iff, hprepared.registers]
  · obtain ⟨hready, rfl⟩ := hprepared
    simp [launchOnHost_tracked_iff hready h, hready.answered, hready.registers]

theorem bodyOnHost_ok (h : c.bodyOnHost s (started c s l) = (f, .ok ())) :
    f.Tracked ∧ c.BitbucketAnswered s ∧ c.BitbucketRecorded s := by
  have hprepared := prepared c s l
  unfold Call.bodyOnHost at h
  rcases hsteps : c.prepare s (started c s l) with ⟨f', e' | reg⟩ <;>
    simp only [hsteps] at h hprepared
  · cases h
  obtain ⟨hready, rfl⟩ := hprepared
  unfold Call.launchOnHost at h
  rcases hreply : c.createContainer with created | code | created <;> simp only [hreply] at h
  · split_ifs at h with hident hrecord <;>
      simp at h
    subst h
    refine ⟨⟨rfl, fun g hg => ⟨_, rfl, rfl, .inr (named_create hready created.id hg)⟩,
      fun u hu => ⟨_, rfl, rfl, hu⟩, fun id hid => ⟨_, rfl, rfl, hid⟩⟩, hready.answered, ?_⟩
    simp_all [Call.BitbucketRecorded]
  all_goals cases h

theorem tracked_nothing : Footprint.nothing.Tracked := ⟨rfl, nofun, nofun, nofun⟩

theorem release_reserved :
    ({ Footprint.nothing with lease := some l } : Footprint).release = .nothing := rfl

theorem not_tracked_of_lease (h : f.lease = some l) : ¬f.Tracked :=
  fun ht => by simp [ht.lease] at h

theorem provision_tracked_iff (h : c.provision.2 = .error e) :
    c.provision.1.Tracked ↔ c.Accounted := by
  unfold Call.provision at h ⊢
  rcases hsel : c.selection with e' | s
  · simpa [Call.Accounted, hsel] using tracked_nothing
  rcases hreply : c.reserve with r | code | r <;> simp only [hsel, hreply] at h ⊢
  · by_cases hident : r.identified
    case neg => simp [hident, Call.Accounted, hsel, hreply, not_tracked_of_lease]
    by_cases hrow : c.insertRow
    case neg =>
      simpa [hident, hrow, failureCleanup, Call.Accounted, Call.ReserveAnswered, hreply,
        release_reserved] using tracked_nothing
    rcases hbody : c.body s (started c s r.lease) with ⟨f, e' | _⟩
    · have hiff := body_tracked_iff hbody
      simp only [started] at hbody
      simp [hident, hrow, hbody, failureCleanup, tracked_fail, hiff, Call.Accounted,
        Call.ReserveAnswered, hsel, hreply]
    · simp only [started] at hbody
      simp [hident, hrow, hbody] at h
  · simpa [Call.Accounted, Call.ReserveAnswered, hreply] using tracked_nothing
  · simp [Call.Accounted, Call.ReserveAnswered, hsel, hreply, not_tracked_of_lease]

theorem provisionOnHost_tracked_iff (h : c.provisionOnHost.2 = .error e) :
    c.provisionOnHost.1.Tracked ↔ c.AccountedOnHost := by
  unfold Call.provisionOnHost at h ⊢
  rcases hsel : c.selection with e' | s
  · simpa [Call.AccountedOnHost, hsel] using tracked_nothing
  rcases hreply : c.reserve with r | code | r <;> simp only [hsel, hreply] at h ⊢
  · by_cases hident : r.identified
    case neg => simp [hident] at h
    by_cases hrow : c.insertRow
    case neg =>
      simpa [hident, hrow, failureCleanup, Call.AccountedOnHost, Call.ReserveAnswered, hreply,
        release_reserved] using tracked_nothing
    rcases hbody : c.bodyOnHost s (started c s r.lease) with ⟨f, e' | _⟩
    · have hiff : (Call.cleanupUnrecorded f.release).Tracked ↔ _ := bodyOnHost_tracked_iff hbody
      simp only [started] at hbody
      simp only [hident, hrow, hbody, failureCleanup] at h ⊢
      by_cases hmark : c.markFailed
      · by_cases hdefer : deferredManagerError e'
        · simp [hmark, hdefer] at h
        · simp [hmark, hdefer, tracked_fail, hiff, Call.AccountedOnHost, Call.ReserveAnswered, hsel,
            hreply, hident, hrow]
      · simp [hmark, hiff, Call.AccountedOnHost, Call.ReserveAnswered, hsel, hreply, hident, hrow]
    · obtain ⟨htracked, hanswered, hrecorded⟩ := bodyOnHost_ok hbody
      simp only [started] at hbody
      simp only [hident, hrow, hbody] at h ⊢
      by_cases hconclude : c.conclude
      · simp [hconclude] at h
      · simp [hconclude, htracked, hanswered, hrecorded, Call.AccountedOnHost,
          Call.ReserveAnswered, hsel, hreply]
  · split_ifs at h ⊢
    simpa [Call.AccountedOnHost, Call.ReserveAnswered, hreply] using tracked_nothing
  · simp [Call.AccountedOnHost, Call.ReserveAnswered, hsel, hreply, not_tracked_of_lease]

/-- **What a failed provisioning leaves is tracked** exactly when every request carried out was
answered and recorded. -/
theorem failed_provision_tracked_iff (c : Call) (e : Failure) :
    (c.provision.2 = .error e → (c.provision.1.Tracked ↔ c.Accounted)) ∧
    (c.provisionOnHost.2 = .error e → (c.provisionOnHost.1.Tracked ↔ c.AccountedOnHost)) :=
  ⟨provision_tracked_iff, provisionOnHost_tracked_iff⟩

/-- A call on a pool with a Bitbucket workspace, where Bitbucket answers without the secret. -/
def secretlessCall : Call where
  selection := .ok
    { runnerId := "r", runnerName := "p-1", provider := "tart", bitbucketConnection := some "w"
      poolMode := "persistent", poolEphemeral := false, grouped := false
      configurationVersion := 1 }
  now := 0
  reserve := .done ⟨"l", true⟩
  insertRow := true
  accessToken := true
  labelsValid := true
  createRunner := .done ⟨"u", none⟩
  installationToken := true
  jitConfig := .refused ""
  registrationToken := true
  runnerGroupName := true
  recordGithubRunner := true
  createContainer := .refused "host_image_missing"
  ownNumber := 0
  recordContainer := true
  conclude := true
  markFailed := true

def refusedCall : Call := { secretlessCall with createRunner := .done ⟨"u", some "secret"⟩ }

theorem failed_provision_tracked_refused :
    (refusedCall.provision.1.Tracked ↔ refusedCall.Accounted) ∧
    (refusedCall.provisionOnHost.1.Tracked ↔ refusedCall.AccountedOnHost) :=
  ⟨(failed_provision_tracked_iff refusedCall (.manager "host_image_missing")).1 rfl,
    (failed_provision_tracked_iff refusedCall (.manager "host_image_missing")).2 rfl⟩

/-- Bitbucket registers `u` and answers without the secret: no row names it. -/
theorem secretless_runner_untracked :
    (∃ e, secretlessCall.provision.2 = .error e) ∧ ¬secretlessCall.provision.1.Tracked ∧
    (∃ e, secretlessCall.provisionOnHost.2 = .error e) ∧
    ¬secretlessCall.provisionOnHost.1.Tracked := by
  refine ⟨⟨_, rfl⟩, fun h => ?_, ⟨_, rfl⟩, fun h => ?_⟩ <;>
  · obtain ⟨r, hr, -, huuid⟩ := h.bitbucket "u" rfl
    cases hr
    cases huuid

end Gridops.Provisioning
