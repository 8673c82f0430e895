import Gridops.HostAgent.Site

/-!
# An agent reaches only what it prepared

Over every order of deliveries, answers and crashes: the helper is asked to work in an environment
only if that environment was journaled by a prepare of the same placement generation which the
helper had answered, and a command that expects a resource gets there only if that resource is the
one bound to the environment. An environment is bound once, and the Docker socket needs both the
operator's trust and the environment's own prepare.

`Watched` is the agent with the history of its environments.
-/

namespace Gridops.HostAgent

open Gridops.Lib Gridops.Fleet

/-! ## The history of environments -/

structure Preparation where
  envelope : AgentCommandEnvelope
  environment : Environment
  outcome : CommandOutcome
deriving DecidableEq

structure Binding where
  environmentId : EnvironmentId
  identity : LocalResourceIdentity
deriving DecidableEq

def Job.prepares (j : Journal) (job : Job) : JobStep → List Preparation
  | .write =>
    match job.stage with
    | .record environment outcome =>
      match j.recordEnvironment environment with
      | .ok _ => [⟨job.envelope, environment, outcome⟩]
      | .error _ => []
    | _ => []
  | _ => []

def Job.binds (j : Journal) (job : Job) : JobStep → List Binding
  | .write =>
    match job.stage with
    | .bind id identity _ =>
      match j.bindLocalIdentity id identity with
      | .ok _ => [⟨id, identity⟩]
      | .error _ => []
    | _ => []
  | _ => []

structure Watched where
  agent : Agent
  prepared : List Preparation
  bound : List Binding
deriving DecidableEq

namespace Watched

def fresh (identity : Option Identity) : Watched := ⟨.fresh identity, [], []⟩

def logged {β : Type} (w : Watched) (log : Journal → Job → JobStep → List β) :
    AgentStep → List β
  | .job js => w.agent.holder.job.elim [] fun job => log w.agent.journal job js
  | _ => []

def step (H : Hashing) (trust : Trust) (w : Watched) (s : AgentStep) : Option Watched :=
  (w.agent.step H trust s).map fun a =>
    ⟨a, w.prepared ++ w.logged Job.prepares s, w.bound ++ w.logged Job.binds s⟩

end Watched

def watchedMachine (H : Hashing) (trust : Trust) : Machine Watched AgentStep :=
  ⟨Watched.step H trust⟩

/-! ## What the helper is asked -/

/-- The operations that work in an environment prepared before. -/
def usesEnvironment : AgentOperation → Bool
  | .prepareEnvironment _ | .inspectHost | .drainHost | .upgradeAgent .. => false
  | _ => true

/-- What the helper is asked next: a new command, or `interrupted_start` for a start cut short. -/
def Agent.question (trust : Trust) (a : Agent) : Option (AgentCommandEnvelope × HelperRequest) :=
  a.holder.job.bind fun job =>
    match job.stage with
    | .call request _ => some (job.envelope, request)
    | .interruptedStart _ environment _ =>
      some (job.envelope, helperRequest trust (some environment) job.envelope.operation none)
    | _ => none

/-- The operation is about this environment: a start names its id, every other operation
the resource bound to it. -/
def Names (environment : Environment) : AgentOperation → Prop
  | .startRunner start => start.preparedEnvironmentId = environment.id
  | .inspect expected | .drain expected | .stop expected _ | .cleanup expected
  | .executeSandbox expected .. | .sandboxFile expected _ | .sandboxArtifact expected _ =>
    environment.localIdentity = some expected
  | _ => False

/-- The prepare that made an environment: of the same placement generation, answered with
the environment's own id. -/
structure Preparation.Made (p : Preparation) (environment : Environment) : Prop where
  environment_eq : p.environment = { environment with localIdentity := none }
  scope : ∃ backendId, p.envelope.scope =
    .placement environment.placementId backendId environment.generation
  operation : p.envelope.operation = .prepareEnvironment environment.prepare
  outcome : p.outcome = .succeeded (.preparedEnvironment environment.id)
  dockerSocket : environment.dockerSocket = environment.prepare.configuration.requiresDockerSocket

/-- The environments a command may reach: none for the host's own, the one a prepare is
about to make, or a journaled one of its placement that it names. -/
inductive Reaches (j : Journal) (envelope : AgentCommandEnvelope) : Option Environment → Prop
  | host (hscope : envelope.scope = .host) (hop : usesEnvironment envelope.operation = false) :
      Reaches j envelope none
  | prepares {prepare : PrepareEnvironment} {placementId : PlacementId} {backendId : BackendId}
      {generation : Nat} (id : EnvironmentId)
      (hscope : envelope.scope = .placement placementId backendId generation)
      (hop : envelope.operation = .prepareEnvironment prepare) :
      Reaches j envelope (some (preparedEnvironment prepare placementId generation id))
  | owned {environment : Environment} {backendId : BackendId}
      (hscope : envelope.scope =
        .placement environment.placementId backendId environment.generation)
      (hmem : environment ∈ j.environments) (hnames : Names environment envelope.operation) :
      Reaches j envelope (some environment)

/-- What the stage of a job says about the environment it works in. -/
def Stage.Owned (trust : Trust) (j : Journal) (envelope : AgentCommandEnvelope) : Stage → Prop
  | .call request environment =>
    request = helperRequest trust environment envelope.operation request.bootstrap ∧
      Reaches j envelope environment
  | .calling environment => Reaches j envelope environment
  | .record environment outcome =>
    (∃ prepare placementId backendId generation id,
      envelope.scope = .placement placementId backendId generation ∧
      envelope.operation = .prepareEnvironment prepare ∧
      environment = preparedEnvironment prepare placementId generation id) ∧
    outcome = .succeeded (.preparedEnvironment environment.id)
  | .interruptedStart start environment _ =>
    envelope.operation = .startRunner start ∧ Reaches j envelope (some environment)
  | _ => True

theorem Reaches.of_environments {j j' : Journal} {envelope : AgentCommandEnvelope}
    {environment : Option Environment} (h : Reaches j envelope environment)
    (henv : j'.environments = j.environments) : Reaches j' envelope environment := by
  cases h with
  | host hscope hop => exact .host hscope hop
  | prepares id hscope hop => exact .prepares id hscope hop
  | owned hscope hmem hnames => exact .owned hscope (henv ▸ hmem) hnames

theorem Stage.Owned.of_environments {trust : Trust} {j j' : Journal}
    {envelope : AgentCommandEnvelope} {stage : Stage} (h : stage.Owned trust j envelope)
    (henv : j'.environments = j.environments) : stage.Owned trust j' envelope := by
  cases stage with
  | call request environment => exact ⟨h.1, h.2.of_environments henv⟩
  | calling environment => exact Reaches.of_environments h henv
  | interruptedStart start environment rebooted => exact ⟨h.1, h.2.of_environments henv⟩
  | record environment outcome => exact h
  | remains | execute | bind _ _ _ | complete _ => trivial

/-! ## What each decision of a job reaches -/

section

variable {trust : Trust} {j : Journal} {envelope : AgentCommandEnvelope}

theorem placementEnvironment_some {placementId : PlacementId} {generation : Nat}
    {environment : Environment} (h : j.placementEnvironment placementId generation =
      some environment) :
    environment ∈ j.environments ∧ environment.placementId = placementId ∧
      environment.generation = generation := by
  have hfound := List.find?_some h
  simp only [Bool.and_eq_true, beq_iff_eq] at hfound
  exact ⟨List.mem_of_find?_eq_some h, hfound⟩

theorem Reaches.journaled {placementId : PlacementId} {backendId : BackendId} {generation : Nat}
    {environment : Environment} (hscope : envelope.scope =
      .placement placementId backendId generation)
    (hfind : j.placementEnvironment placementId generation = some environment)
    (hnames : Names environment envelope.operation) :
    Reaches j envelope (some environment) := by
  obtain ⟨hmem, rfl, rfl⟩ := placementEnvironment_some hfind
  exact .owned hscope hmem hnames

theorem callOwned_owned {owned : Option Environment} {allowed : Environment → Bool}
    {bootstrap : Option Bootstrap}
    (h : ∀ e, owned = some e → allowed e = true → Reaches j envelope (some e)) :
    (callOwned trust owned allowed envelope.operation bootstrap).Owned trust j envelope := by
  unfold callOwned
  split
  · next environment hfilter =>
    obtain ⟨howned, hallowed⟩ := Option.filter_eq_some_iff.mp hfilter
    exact ⟨rfl, h environment howned hallowed⟩
  · trivial

theorem decideStage_owned (bootstrap : Option Bootstrap) (freshId : EnvironmentId) :
    (decideStage trust j envelope bootstrap freshId).Owned trust j envelope := by
  unfold decideStage
  dsimp only
  split
  · next hscope =>
    split
    · next hop => exact ⟨rfl, .host hscope (by rw [hop]; rfl)⟩
    · next hop => exact ⟨rfl, .host hscope (by rw [hop]; rfl)⟩
    · trivial
  · next placementId backendId generation hscope =>
    -- An owned environment is called if the command names it.
    have hcall {allowed : Environment → Bool} {bootstrap : Option Bootstrap}
        (hnames : ∀ e, allowed e = true → Names e envelope.operation) :
        (callOwned trust (j.placementEnvironment placementId generation) allowed
          envelope.operation bootstrap).Owned trust j envelope :=
      callOwned_owned fun e hfind hallowed => .journaled hscope hfind (hnames e hallowed)
    split
    · next prepare hop =>
      split
      · trivial
      · split
        · trivial
        · split
          · trivial
          · exact ⟨rfl, .prepares freshId hscope hop⟩
    · next start hop => exact hcall fun e he => by rw [hop]; exact (beq_iff_eq.mp he).symm
    all_goals
      first
      | trivial
      | next hop =>
        refine hcall fun e he => ?_
        rw [hop]
        simp only [isOwnedFixSandbox, Bool.and_eq_true, beq_iff_eq] at he
        first | exact he | exact he.2

theorem remainsStage_owned (boot : String) :
    (remainsStage j envelope boot).Owned trust j envelope := by
  unfold remainsStage
  split
  · trivial
  · next placementId backendId generation hscope =>
    split
    · trivial
    · trivial
    · next start environment hop hfind =>
      split
      · next hid =>
        split
        · trivial
        · exact ⟨hop, .journaled hscope hfind (by rw [hop]; exact hid.symm)⟩
      · trivial
    · trivial
    · trivial

theorem respondStage_owned {environment : Option Environment}
    (h : Reaches j envelope environment) (response : HelperResponse) :
    (respondStage envelope.operation environment response).Owned trust j envelope := by
  unfold respondStage
  split
  · split
    · next prepare hop =>
      split
      · next hevidence =>
        refine ⟨?_, by rw [hevidence]; rfl⟩
        cases h with
        | prepares id hscope hop' => exact ⟨_, _, _, _, id, hscope, hop', rfl⟩
        | owned hscope hmem hnames => rw [hop] at hnames; cases hnames
      · trivial
    · split <;> trivial
  · trivial

end

/-! ## What the two writes do to the environments -/

section

variable {j j' : Journal} {environment : Environment} {id : EnvironmentId}
  {identity : LocalResourceIdentity}

theorem mem_recordEnvironment (h : j.recordEnvironment environment = .ok j') :
    (∀ e ∈ j.environments, e.placementId = environment.placementId →
      e.generation ≠ environment.generation) ∧
    ∀ e, e ∈ j'.environments ↔ e ∈ j.environments ∨ e = environment := by
  obtain ⟨hnew, h⟩ := guard_eq_ok h
  split at h
  · cases h
  · next environments hinsert =>
    cases h
    refine ⟨fun e he hplacement hgeneration => hnew ?_, fun e => Table.mem_insert? hinsert⟩
    exact List.any_eq_true.mpr ⟨e, he, by simp [hplacement, hgeneration]⟩

def Environment.bound (id : EnvironmentId) (identity : LocalResourceIdentity)
    (e : Environment) : Environment :=
  if e.id = id then { e with localIdentity := some identity } else e

@[simp] theorem bound_id (e : Environment) : (e.bound id identity).id = e.id := by
  unfold Environment.bound
  split <;> rfl

@[simp] theorem bound_placementId (e : Environment) :
    (e.bound id identity).placementId = e.placementId := by
  unfold Environment.bound
  split <;> rfl

@[simp] theorem bound_generation (e : Environment) :
    (e.bound id identity).generation = e.generation := by
  unfold Environment.bound
  split <;> rfl

theorem mem_bindLocalIdentity (h : j.bindLocalIdentity id identity = .ok j') :
    (∃ e ∈ j.environments, e.id = id) ∧
    (∀ e ∈ j.environments, e.id = id → ∀ i, e.localIdentity = some i → i = identity) ∧
    ∀ e, e ∈ j'.environments ↔ ∃ x ∈ j.environments, x.bound id identity = e := by
  obtain ⟨hfree, h⟩ := check_eq_ok h
  cases h
  obtain ⟨x, hx, hxfree⟩ := List.any_eq_true.mp hfree
  simp only [Bool.and_eq_true, beq_iff_eq] at hxfree
  obtain ⟨rfl, hunbound⟩ := hxfree
  -- The id is a key, so the row that is free is the only one with it.
  have honly : ∀ e ∈ j.environments, e.id = x.id → e = x := fun e he => Table.eq_of_key he hx
  refine ⟨⟨x, hx, rfl⟩, fun e he hid i hi => ?_, fun e => ?_⟩
  · obtain rfl := honly e he hid
    rw [hi] at hunbound
    simpa using hunbound
  · rw [Table.mem_update]
    refine exists_congr fun y => and_congr_right fun hy => Eq.congr_left ?_
    unfold Environment.bound
    by_cases hid : y.id = x.id
    · obtain rfl := honly y hy hid
      rw [if_pos rfl, if_pos (by simpa using hunbound)]
    · rw [if_neg hid, if_neg (by simp [hid])]

variable {H : Hashing} {trust : Trust} {job : Job} {js : JobStep} {progress : Progress}

/-- **What one step of a job does to the environments**: nothing, or it journals or binds its own.
-/
theorem Job.step_environments (h : job.step trust H j js = some (j', progress))
    (howned : job.stage.Owned trust j job.envelope) :
    (j'.environments = j.environments ∧ job.prepares j js = [] ∧ job.binds j js = [] ∧
      ∀ st, progress = .stage st → st.Owned trust j job.envelope) ∨
    (∃ environment outcome, job.stage = .record environment outcome ∧
      j.recordEnvironment environment = .ok j' ∧ progress = .stage (.complete outcome) ∧
      job.prepares j js = [⟨job.envelope, environment, outcome⟩] ∧ job.binds j js = []) ∨
    (∃ id identity outcome, job.stage = .bind id identity outcome ∧
      j.bindLocalIdentity id identity = .ok j' ∧ progress = .stage (.complete outcome) ∧
      job.prepares j js = [] ∧ job.binds j js = [⟨id, identity⟩]) := by
  cases Job.moves_of_step h with
  | look => exact .inl ⟨rfl, rfl, rfl, by rintro _ ⟨⟩; exact remainsStage_owned _⟩
  | runner | nothing | unknown => exact .inl ⟨rfl, rfl, rfl, by rintro _ ⟨⟩; trivial⟩
  | decide => exact .inl ⟨rfl, rfl, rfl, by rintro _ ⟨⟩; exact decideStage_owned _ _⟩
  | call hstage =>
    rw [hstage] at howned
    exact .inl ⟨rfl, rfl, rfl, by rintro _ ⟨⟩; exact howned.2⟩
  | respond hstage =>
    rw [hstage] at howned
    exact .inl ⟨rfl, rfl, rfl, by rintro _ ⟨⟩; exact respondStage_owned howned _⟩
  | record hstage hwrite =>
    refine .inr (.inl ⟨_, _, hstage, hwrite, rfl, ?_, ?_⟩)
    · simp [Job.prepares, hstage, hwrite]
    · simp [Job.binds, hstage]
  | bind hstage hwrite =>
    refine .inr (.inr ⟨_, _, _, hstage, hwrite, rfl, ?_, ?_⟩)
    · simp [Job.prepares, hstage]
    · simp [Job.binds, hstage, hwrite]
  | unrecorded hstage hwrite | unbound hstage hwrite =>
    refine .inl ⟨rfl, ?_, ?_, by rintro _ ⟨⟩⟩
    · simp [Job.prepares, hstage, hwrite]
    · simp [Job.binds, hstage, hwrite]
  | complete _ hwrite =>
    obtain ⟨-, rfl⟩ := Journal.complete_cases hwrite
    exact .inl ⟨rfl, rfl, rfl, by rintro _ ⟨⟩⟩
  | incomplete => exact .inl ⟨rfl, rfl, rfl, by rintro _ ⟨⟩⟩

end

/-- Each journaled environment was made by the one prepare of its placement generation, and has the
identity bound to it. -/
structure Recorded (environments : Table Environment.id) (prepared : List Preparation)
    (bound : List Binding) : Prop where
  journaled : ∀ e ∈ environments, ∃ p ∈ prepared, p.Made e
  kept : ∀ p ∈ prepared, ∃ e ∈ environments, p.Made e
  unique : ∀ e₁ ∈ environments, ∀ e₂ ∈ environments, e₁.placementId = e₂.placementId →
    e₁.generation = e₂.generation → e₁ = e₂
  identified : ∀ e ∈ environments, ∀ i, e.localIdentity = some i → ⟨e.id, i⟩ ∈ bound
  bound : ∀ b ∈ bound, ∃ e ∈ environments, e.id = b.environmentId ∧
    e.localIdentity = some b.identity

structure Watched.Owns (trust : Trust) (w : Watched) : Prop where
  recorded : Recorded w.agent.journal.environments w.prepared w.bound
  stage : ∀ job, w.agent.holder.job = some job →
    job.stage.Owned trust w.agent.journal job.envelope

namespace Recorded

variable {j j' : Journal} {prepared : List Preparation} {bound : List Binding}

theorem record (h : Recorded j.environments prepared bound) {p : Preparation}
    (hrecord : j.recordEnvironment p.environment = .ok j') (hmade : p.Made p.environment)
    (hnone : p.environment.localIdentity = none) :
    Recorded j'.environments (prepared ++ [p]) bound := by
  obtain ⟨hnew, hmem⟩ := mem_recordEnvironment hrecord
  refine ⟨fun e he => ?_, fun q hq => ?_, fun e₁ h₁ e₂ h₂ hp hg => ?_, fun e he i hi => ?_,
    fun b hb => ?_⟩
  · rcases (hmem e).mp he with he | rfl
    · obtain ⟨q, hq, hqe⟩ := h.journaled e he
      exact ⟨q, List.mem_append_left _ hq, hqe⟩
    · exact ⟨p, List.mem_append_right _ (List.mem_singleton_self p), hmade⟩
  · rcases List.mem_append.mp hq with hq | hq
    · obtain ⟨e, he, hqe⟩ := h.kept q hq
      exact ⟨e, (hmem e).mpr (.inl he), hqe⟩
    · obtain rfl := List.mem_singleton.mp hq
      exact ⟨q.environment, (hmem _).mpr (.inr rfl), hmade⟩
  · rcases (hmem e₁).mp h₁ with h₁ | rfl <;> rcases (hmem e₂).mp h₂ with h₂ | rfl
    · exact h.unique e₁ h₁ e₂ h₂ hp hg
    · exact absurd hg (hnew e₁ h₁ hp)
    · exact absurd hg.symm (hnew e₂ h₂ hp.symm)
    · rfl
  · rcases (hmem e).mp he with he | rfl
    · exact h.identified e he i hi
    · rw [hnone] at hi
      cases hi
  · obtain ⟨e, he, hb⟩ := h.bound b hb
    exact ⟨e, (hmem e).mpr (.inl he), hb⟩

theorem made_bound {p : Preparation} {e : Environment} {id : EnvironmentId}
    {identity : LocalResourceIdentity} (h : p.Made e) : p.Made (e.bound id identity) := by
  unfold Environment.bound
  split
  · exact ⟨h.environment_eq, h.scope, h.operation, h.outcome, h.dockerSocket⟩
  · exact h

theorem bind (h : Recorded j.environments prepared bound) {id : EnvironmentId}
    {identity : LocalResourceIdentity} (hbind : j.bindLocalIdentity id identity = .ok j') :
    Recorded j'.environments prepared (bound ++ [⟨id, identity⟩]) := by
  obtain ⟨⟨x, hx, hxid⟩, hfree, hmem⟩ := mem_bindLocalIdentity hbind
  refine ⟨fun e he => ?_, fun p hp => ?_, fun e₁ h₁ e₂ h₂ hp hg => ?_, fun e he i hi => ?_,
    fun b hb => ?_⟩
  · obtain ⟨y, hy, rfl⟩ := (hmem e).mp he
    obtain ⟨p, hp, hmade⟩ := h.journaled y hy
    exact ⟨p, hp, made_bound hmade⟩
  · obtain ⟨e, he, hmade⟩ := h.kept p hp
    exact ⟨_, (hmem _).mpr ⟨e, he, rfl⟩, made_bound hmade⟩
  · obtain ⟨y₁, hy₁, rfl⟩ := (hmem e₁).mp h₁
    obtain ⟨y₂, hy₂, rfl⟩ := (hmem e₂).mp h₂
    have hsame : y₁ = y₂ := h.unique y₁ hy₁ y₂ hy₂
      (by rwa [bound_placementId, bound_placementId] at hp)
      (by rwa [bound_generation, bound_generation] at hg)
    rw [hsame]
  · obtain ⟨y, hy, rfl⟩ := (hmem e).mp he
    rw [bound_id]
    by_cases hid : y.id = id
    · rw [Environment.bound, if_pos hid] at hi
      cases hi
      exact List.mem_append_right _ (by rw [hid]; exact List.mem_singleton_self _)
    · rw [Environment.bound, if_neg hid] at hi
      exact List.mem_append_left _ (h.identified y hy i hi)
  · rcases List.mem_append.mp hb with hb | hb
    · obtain ⟨e, he, hid, hi⟩ := h.bound b hb
      refine ⟨_, (hmem _).mpr ⟨e, he, rfl⟩, by rw [bound_id, hid], ?_⟩
      unfold Environment.bound
      split
      · next heid => rw [hfree e he heid _ hi]
      · exact hi
    · obtain rfl := List.mem_singleton.mp hb
      refine ⟨_, (hmem _).mpr ⟨x, hx, rfl⟩, by rw [bound_id, hxid], ?_⟩
      rw [Environment.bound, if_pos hxid]

theorem bound_once (h : Recorded j.environments prepared bound) {b₁ b₂ : Binding}
    (h₁ : b₁ ∈ bound) (h₂ : b₂ ∈ bound) (hid : b₁.environmentId = b₂.environmentId) :
    b₁ = b₂ := by
  obtain ⟨e₁, he₁, hid₁, hi₁⟩ := h.bound b₁ h₁
  obtain ⟨e₂, he₂, hid₂, hi₂⟩ := h.bound b₂ h₂
  obtain rfl : e₁ = e₂ := Table.eq_of_key he₁ he₂ (by rw [hid₁, hid₂, hid])
  cases b₁
  simp_all

end Recorded

/-! ## Whole runs -/

section

variable {H : Hashing} {trust : Trust} {a a' : Agent}

theorem step_environments {s : AgentStep} (h : a.step H trust s = some a')
    (hs : ∀ js, s ≠ .job js) :
    a'.journal.environments = a.journal.environments ∧
      ∀ job, a'.holder.job = some job →
        a.holder.job = some job ∨ ∀ j e, job.stage.Owned trust j e := by
  rcases Agent.step_cases h with ⟨hbook, -⟩ | ⟨_, _, _, _, _, _, -, hreceives⟩ | ⟨js, _, _, rfl, -⟩
  · refine ⟨hbook.environments, fun job hjob => ?_⟩
    rcases hbook.job job hjob with hold | ⟨hremains, -⟩
    · exact .inl hold
    · exact .inr fun j e => by rw [hremains]; trivial
  · obtain ⟨_, _, _, -, hjournal⟩ := hreceives.row
    obtain ⟨_, _, stage, hholder, hstage⟩ := hreceives.job
    refine ⟨by rw [hjournal], fun job hjob => .inr fun j e => ?_⟩
    rw [hholder] at hjob
    cases hjob
    rcases hstage with rfl | rfl <;> trivial
  · exact absurd rfl (hs js)

end

namespace Watched.Owns

variable {H : Hashing} {trust : Trust} {w w' : Watched}

theorem fresh (trust : Trust) (identity : Option Identity) :
    (Watched.fresh identity).Owns trust where
  recorded :=
    { journaled := fun e he => by cases he
      kept := fun p hp => by cases hp
      unique := fun e he => by cases he
      identified := fun e he => by cases he
      bound := fun b hb => by cases hb }
  stage job hjob := by cases hjob

theorem made_of_record {j : Journal} {envelope : AgentCommandEnvelope} {environment : Environment}
    {outcome : CommandOutcome}
    (h : (Stage.record environment outcome).Owned trust j envelope) :
    Preparation.Made ⟨envelope, environment, outcome⟩ environment ∧
      environment.localIdentity = none := by
  obtain ⟨⟨prepare, placementId, backendId, generation, id, hscope, hop, rfl⟩, houtcome⟩ := h
  exact ⟨⟨rfl, ⟨backendId, hscope⟩, hop, houtcome, rfl⟩, rfl⟩

theorem step {s : AgentStep} (h : w.Owns trust) (hstep : w.step H trust s = some w') :
    w'.Owns trust := by
  obtain ⟨a, hagent, rfl⟩ := Option.map_eq_some_iff.mp hstep
  by_cases hs : ∃ js, s = .job js
  · obtain ⟨js, rfl⟩ := hs
    obtain ⟨job, progress, ⟨hjob, hjs, -, hnext, -⟩⟩ := Agent.step_works hagent
    have howned := h.stage job hjob
    have hlogged {β : Type} (log : Journal → Job → JobStep → List β) :
        w.logged log (.job js) = log w.agent.journal job js := by
      simp [logged, hjob]
    simp only [hlogged]
    rcases Job.step_environments hjs howned with ⟨henv, hprepares, hbinds, hstage⟩ |
      ⟨environment, outcome, hstage, hrecord, rfl, hprepares, hbinds⟩ |
      ⟨id, identity, outcome, hstage, hbind, rfl, hprepares, hbinds⟩
    · simp only [hprepares, hbinds, List.append_nil]
      refine ⟨by rw [henv]; exact h.recorded, fun job' hjob' => ?_⟩
      obtain ⟨st, rfl, rfl⟩ := hnext job' hjob'
      exact (hstage st rfl).of_environments henv
    · rw [hstage] at howned
      obtain ⟨hmade, hnone⟩ := made_of_record howned
      simp only [hprepares, hbinds, List.append_nil]
      refine ⟨h.recorded.record hrecord hmade hnone, fun job' hjob' => ?_⟩
      obtain ⟨st, hst, rfl⟩ := hnext job' hjob'
      cases hst
      trivial
    · simp only [hprepares, hbinds, List.append_nil]
      refine ⟨h.recorded.bind hbind, fun job' hjob' => ?_⟩
      obtain ⟨st, hst, rfl⟩ := hnext job' hjob'
      cases hst
      trivial
  · push Not at hs
    obtain ⟨henv, hjob⟩ := step_environments hagent hs
    have hlogged {β : Type} (log : Journal → Job → JobStep → List β) : w.logged log s = [] := by
      cases s <;> first | rfl | exact absurd rfl (hs _)
    simp only [hlogged, List.append_nil]
    refine ⟨by rw [henv]; exact h.recorded, fun job hj => ?_⟩
    rcases hjob job hj with hold | hidle
    · exact (h.stage job hold).of_environments henv
    · exact hidle _ _

/-- What the helper is asked comes from the environment the command may reach. -/
theorem question (h : w.Owns trust) {envelope : AgentCommandEnvelope} {request : HelperRequest}
    (hq : w.agent.question trust = some (envelope, request)) :
    ∃ environment, Reaches w.agent.journal envelope environment ∧
      request = helperRequest trust environment envelope.operation request.bootstrap := by
  obtain ⟨job, hjob, hstage⟩ := Option.bind_eq_some_iff.mp hq
  have howned := h.stage job hjob
  split at hstage
  · next environment hs =>
    cases hstage
    rw [hs] at howned
    exact ⟨environment, howned.2, howned.1⟩
  · next start environment rebooted hs =>
    cases hstage
    rw [hs] at howned
    exact ⟨some environment, howned.2, rfl⟩
  · cases hstage

end Watched.Owns

/-- **An agent only touches environments it prepared for that placement**, and asks for the Docker
socket only where it is trusted and required. -/
theorem helper_reaches_prepared {H : Hashing} {trust : Trust} {identity : Option Identity}
    {w : Watched} {steps : List AgentStep}
    (hrun : (watchedMachine H trust).Run (.fresh identity) steps w) :
    (∀ envelope request, w.agent.question trust = some (envelope, request) →
      usesEnvironment envelope.operation →
      ∃ environment ∈ w.agent.journal.environments, ∃ backendId,
        envelope.scope = .placement environment.placementId backendId environment.generation ∧
        request.environmentId = some environment.id ∧
        request.prepared = some environment.prepare ∧ request.operation = envelope.operation ∧
        Names environment envelope.operation ∧
        (∀ i, environment.localIdentity = some i → ⟨environment.id, i⟩ ∈ w.bound) ∧
        (∃ p ∈ w.prepared, p.Made environment)) ∧
    (∀ p₁ ∈ w.prepared, ∀ p₂ ∈ w.prepared,
      p₁.environment.placementId = p₂.environment.placementId →
      p₁.environment.generation = p₂.environment.generation → p₁.environment = p₂.environment) ∧
    (∀ b₁ ∈ w.bound, ∀ b₂ ∈ w.bound, b₁.environmentId = b₂.environmentId →
      b₁.identity = b₂.identity) ∧
    (∀ envelope request, w.agent.question trust = some (envelope, request) →
      request.dockerSocket = true → trust.dockerSocket = true ∧
        ∃ prepare, request.prepared = some prepare ∧
          prepare.configuration.requiresDockerSocket = true) := by
  have howns : w.Owns trust :=
    hrun.inv (fun _ _ _ _ hstep h => h.step hstep) (.fresh trust identity)
  refine ⟨fun envelope request hq huses => ?_, fun p₁ h₁ p₂ h₂ hp hg => ?_,
    fun b₁ h₁ b₂ h₂ hid => ?_, fun envelope request hq hsocket => ?_⟩
  · obtain ⟨environment, hreaches, hrequest⟩ := howns.question hq
    cases hreaches with
    | host hscope hop =>
      rw [hop] at huses
      cases huses
    | prepares id hscope hop =>
      rw [hop] at huses
      cases huses
    | @owned environment backendId hscope hmem hnames =>
      refine ⟨environment, hmem, backendId, hscope, by rw [hrequest]; rfl, by rw [hrequest]; rfl,
        by rw [hrequest]; rfl, hnames, howns.recorded.identified environment hmem,
        howns.recorded.journaled environment hmem⟩
  · obtain ⟨e₁, he₁, hmade₁⟩ := howns.recorded.kept p₁ h₁
    obtain ⟨e₂, he₂, hmade₂⟩ := howns.recorded.kept p₂ h₂
    rw [hmade₁.environment_eq, hmade₂.environment_eq] at hp hg ⊢
    rw [howns.recorded.unique e₁ he₁ e₂ he₂ hp hg]
  · rw [howns.recorded.bound_once h₁ h₂ hid]
  · obtain ⟨environment, hreaches, hrequest⟩ := howns.question hq
    rw [hrequest] at hsocket
    obtain ⟨htrust, hasked⟩ := Bool.and_eq_true_iff.mp hsocket
    refine ⟨htrust, ?_⟩
    cases hreaches with
    | host hscope hop => cases hasked
    | @prepares prepare placementId backendId generation id hscope hop =>
      exact ⟨prepare, by rw [hrequest]; rfl, hasked⟩
    | @owned environment backendId hscope hmem hnames =>
      obtain ⟨p, -, hmade⟩ := howns.recorded.journaled environment hmem
      exact ⟨environment.prepare, by rw [hrequest]; rfl, hmade.dockerSocket ▸ hasked⟩

namespace Sample

def socketPrepare : AgentCommandEnvelope :=
  Fleet.Sample.envelope 1
    (.prepareEnvironment { Fleet.Sample.prepare with configuration.requiresDockerSocket := true })
    (.prepare 1) 30000 1000

def socketStart : AgentCommandEnvelope :=
  Fleet.Sample.envelope 2 Fleet.Sample.start (.start 1) 30000 3000

def socketInspect : AgentCommandEnvelope :=
  Fleet.Sample.envelope 3 (.inspect Fleet.Sample.runner) (.inspect 1 0) 30000 5000

/-- The placement is prepared with the socket, its runner started, and an inspection of
that runner decided on. -/
def inspectSteps : List AgentStep :=
  [.dispatch socketPrepare session 2000 2000 "boot" none, .job (.decide 1), .job .call,
   .job (.respond (.succeeded (.preparedEnvironment 1))), .job .write, .job (.complete 1),
   .dispatch socketStart session 4000 4000 "boot" none, .job (.decide 0), .job .call,
   .job (.respond (.succeeded (.runnerStarted 1 1 1 Fleet.Sample.runner))), .job .write,
   .job (.complete 2),
   .dispatch socketInspect session 6000 6000 "boot" none, .job (.decide 0)]

end Sample

theorem helper_reaches_inspected :
    ∃ w request, (watchedMachine Fleet.Sample.hashing ⟨true⟩).exec (.fresh none)
        Sample.inspectSteps = some w ∧
      w.agent.question ⟨true⟩ = some (Sample.socketInspect, request) ∧
      request.dockerSocket = true ∧ w.bound = [⟨1, Fleet.Sample.runner⟩] ∧
      ∃ environment ∈ w.agent.journal.environments,
        Names environment Sample.socketInspect.operation ∧
          ∃ p ∈ w.prepared, p.Made environment := by
  obtain ⟨howned, -, -, -⟩ := helper_reaches_prepared (Machine.run_iff_exec.mpr
    (rfl : (watchedMachine Fleet.Sample.hashing ⟨true⟩).exec (.fresh none)
      Sample.inspectSteps = some _))
  obtain ⟨environment, hmem, -, -, -, -, -, hnames, -, hmade⟩ :=
    howned Sample.socketInspect _ rfl rfl
  exact ⟨_, _, rfl, rfl, rfl, rfl, environment, hmem, hnames, hmade⟩

end Gridops.HostAgent
