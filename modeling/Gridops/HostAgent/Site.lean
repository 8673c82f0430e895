import Gridops.HostAgent.Once

/-!
# The agent on its machine

The runners the agent's starts launch, under a helper that denies a start only when
it left nothing of it: `launching` are the starts a runner may still come up for,
`running` those whose runner is up. A runner comes up and exits in its own time, and
a crash of the agent stops none.

The result of a start says failed only where nothing of that start is left: either the
start never reached the helper, or the helper denied it.
-/

def Gridops.Fleet.AgentCommandEnvelope.isStart (e : Gridops.Fleet.AgentCommandEnvelope) : Bool :=
  e.operation.databaseKind == .startRunner

namespace Gridops.HostAgent

open Gridops.Lib Gridops.Fleet

structure Site where
  agent : Agent
  launching : List AgentCommandEnvelope
  running : List AgentCommandEnvelope
deriving DecidableEq

inductive SiteStep
  | agent (step : AgentStep)
  | comesUp (envelope : AgentCommandEnvelope)
  | exits (envelope : AgentCommandEnvelope)
deriving DecidableEq

def JobStep.denies : JobStep → Bool
  | .respond (.failed ..) | .found .nothing => true
  | _ => false

namespace Site

def Quiet (w : Site) (id : CommandId) : Prop := ∀ e ∈ w.launching ++ w.running, e.commandId ≠ id

instance (w : Site) (id : CommandId) : Decidable (w.Quiet id) :=
  inferInstanceAs (Decidable (∀ e ∈ w.launching ++ w.running, e.commandId ≠ id))

/-- The helper does not deny a start it left something of. -/
def allows (w : Site) : AgentStep → Bool
  | .job js => w.agent.holder.job.all fun job =>
    !(job.envelope.isStart && js.denies) || decide (w.Quiet job.envelope.commandId)
  | _ => true

def launched (w : Site) : AgentStep → List AgentCommandEnvelope
  | .job .call => (w.agent.holder.job.map (·.envelope)).toList.filter AgentCommandEnvelope.isStart
  | _ => []

def step (H : Hashing) (trust : Trust) (w : Site) : SiteStep → Option Site
  | .agent step =>
    if w.allows step then
      (w.agent.step H trust step).map fun a =>
        { w with agent := a, launching := w.launching ++ w.launched step }
    else none
  | .comesUp e =>
    if e ∈ w.launching then
      some { w with launching := w.launching.erase e, running := w.running ++ [e] }
    else none
  | .exits e => some { w with launching := w.launching.erase e, running := w.running.erase e }

end Site

variable {e : AgentCommandEnvelope} {j j' : Journal}

theorem isStart_iff :
    e.isStart ↔ ∃ start, e.operation = .startRunner start := by
  unfold AgentCommandEnvelope.isStart
  cases e.operation <;> simp [AgentOperation.databaseKind]

/-! ## What the journal owns -/

def Journal.Owns (j : Journal) (e : AgentCommandEnvelope) : Prop :=
  ∃ start p b g environment, e.operation = .startRunner start ∧ e.scope = .placement p b g ∧
    j.placementEnvironment p g = some environment ∧ environment.id = start.preparedEnvironmentId

theorem Journal.Owns.of_find (h : j.Owns e)
    (hkeep : ∀ p g environment, j.placementEnvironment p g = some environment →
      ∃ environment', j'.placementEnvironment p g = some environment' ∧
        environment'.id = environment.id) : j'.Owns e := by
  obtain ⟨start, p, b, g, environment, hop, hscope, hfind, hid⟩ := h
  obtain ⟨environment', hfind', hid'⟩ := hkeep p g environment hfind
  exact ⟨start, p, b, g, environment', hop, hscope, hfind', hid'.trans hid⟩

theorem Journal.Owns.of_environments (h : j.Owns e) (henv : j'.environments = j.environments) :
    j'.Owns e :=
  h.of_find fun p g environment hfind =>
    ⟨environment, by rw [placementEnvironment, henv]; exact hfind, rfl⟩

theorem Journal.Owns.recordEnvironment {environment : Environment} (h : j.Owns e)
    (hrecord : j.recordEnvironment environment = .ok j') : j'.Owns e := by
  refine h.of_find fun p g environment' hfind => ⟨environment', ?_, rfl⟩
  obtain ⟨-, hrecord⟩ := guard_eq_ok hrecord
  split at hrecord
  · cases hrecord
  · next environments hinsert =>
    cases hrecord
    unfold placementEnvironment at hfind ⊢
    rw [(Table.insert?_some.mp hinsert).2, List.find?_append, hfind]
    rfl

theorem Journal.Owns.bindLocalIdentity {id : EnvironmentId} {identity : LocalResourceIdentity}
    (h : j.Owns e) (hbind : j.bindLocalIdentity id identity = .ok j') : j'.Owns e := by
  refine h.of_find fun p g environment hfind => ?_
  obtain ⟨-, hbind⟩ := check_eq_ok hbind
  cases hbind
  unfold placementEnvironment at hfind ⊢
  dsimp only [Table.update]
  rw [List.find?_map]
  have hsame : ((fun x : Environment => x.placementId == p && x.generation == g) ∘
      fun x => if (x.id == id && (x.localIdentity.isNone || x.localIdentity == some identity))
        then { x with localIdentity := some identity } else x) =
      fun x => x.placementId == p && x.generation == g := by
    funext x
    dsimp only [Function.comp_apply]
    split <;> rfl
  rw [hsame, hfind]
  refine ⟨_, rfl, ?_⟩
  dsimp only
  split <;> rfl

theorem Journal.markDelivered_environments (j : Journal) (id : CommandId) :
    (j.markDelivered id).environments = j.environments := by
  unfold markDelivered
  split <;> rfl

theorem Journal.mem_markDelivered {id id' : CommandId} :
    id' ∈ (j.markDelivered id).delivered ↔ id' ∈ j.delivered ∨ id' = id := by
  unfold markDelivered
  split
  · next h => exact ⟨.inl, fun hor => hor.elim (fun h' => h') fun heq => heq ▸ h⟩
  · simp

/-! ## What a start's job does -/

def Stage.outcome : Stage → Option CommandOutcome
  | .record _ outcome | .bind _ _ outcome | .complete outcome => some outcome
  | _ => none

section

variable {H : Hashing} {trust : Trust} {j j' : Journal} {job : Job} {js : JobStep}
  {progress : Progress} {e : AgentCommandEnvelope} {start : StartRunner} {o : CommandOutcome}

theorem finalResult_validateAgainst (freshId : ResultId) (o : CommandOutcome) (now : Millis) :
    (finalResult H e freshId o now).validateAgainst H.bytes e = .ok () := by
  unfold finalResult
  dsimp only
  split
  · next h => exact h
  · exact resultFor_validateAgainst H.bytes e freshId unknown now (by rintro _ ⟨⟩)

theorem finalResult_failed {freshId : ResultId} {now : Millis}
    (h : (finalResult H e freshId o now).outcome.commandState = .failed) :
    o.commandState = .failed := by
  unfold finalResult at h
  dsimp only at h
  split at h
  · exact h
  · cases h

/-- An interrupted start is refused only if its environment is not there. -/
theorem remainsStage_failed {boot : String} (hop : e.operation = .startRunner start)
    (ho : (remainsStage j e boot).outcome = some o) (hfailed : o.commandState = .failed) :
    ¬ j.Owns e := by
  rintro ⟨start', p, b, g, environment, hop', hscope, hfind, hid⟩
  rw [hop] at hop'
  cases hop'
  unfold remainsStage at ho
  rw [hscope] at ho
  dsimp only at ho
  rw [hop, hfind] at ho
  dsimp only at ho
  rw [if_pos hid] at ho
  split at ho
  · cases ho
    cases hfailed
  · cases ho

variable {environment : Option Environment}

theorem decideStage_call {bootstrap : Option Bootstrap} {freshId : EnvironmentId}
    {request : HelperRequest} (hop : e.operation = .startRunner start)
    (h : decideStage trust j e bootstrap freshId = .call request environment) : j.Owns e := by
  unfold decideStage at h
  rw [hop] at h
  dsimp only at h
  split at h
  · cases h
  · next p b g hscope =>
    unfold callOwned at h
    split at h
    · next environment' hfilter =>
      rw [Option.filter_eq_some_iff] at hfilter
      exact ⟨start, p, b, g, environment', hop, hscope, hfilter.1, by simpa using hfilter.2⟩
    · cases h

theorem respondStage_failed {response : HelperResponse} (hop : e.operation = .startRunner start)
    (ho : (respondStage e.operation environment response).outcome = some o)
    (hfailed : o.commandState = .failed) : (JobStep.respond response).denies := by
  cases response with
  | failed code retryable => rfl
  | succeeded evidence =>
    have hsucceeded : o.commandState = .succeeded := by
      rw [hop] at ho
      cases environment with
      | none => cases ho; rfl
      | some environment => cases evidence <;> (cases ho; rfl)
    rw [hsucceeded] at hfailed
    cases hfailed

theorem Job.step_owns (h : job.step trust H j js = some (j', progress)) (howns : j.Owns e) :
    j'.Owns e := by
  cases Job.moves_of_step h with
  | record _ hwrite => exact howns.recordEnvironment hwrite
  | bind _ hwrite => exact howns.bindLocalIdentity hwrite
  | complete _ hwrite =>
    obtain ⟨-, rfl⟩ := Journal.complete_cases hwrite
    exact howns.of_environments rfl
  | _ => exact howns

/-- Where a failed outcome of a start comes from: the job had it, never called, was denied
by the helper, or found no environment. -/
theorem Job.step_failed {st : Stage} (hop : job.envelope.operation = .startRunner start)
    (h : job.step trust H j js = some (j', .stage st)) (ho : st.outcome = some o)
    (hfailed : o.commandState = .failed) :
    job.stage.outcome = some o ∨ job.stage.mayCall ∨ js.denies ∨ ¬ j.Owns job.envelope := by
  cases Job.moves_of_step h with
  | look => exact .inr (.inr (.inr (remainsStage_failed hop ho hfailed)))
  | runner | unknown =>
    cases ho
    cases hfailed
  | nothing => exact .inr (.inr (.inl rfl))
  | decide hstage | call hstage => exact .inr (.inl (by rw [hstage]; rfl))
  | respond => exact .inr (.inr (.inl (respondStage_failed hop ho hfailed)))
  | record hstage | bind hstage => exact .inl (by rw [hstage]; exact ho)

theorem Job.step_call {request : HelperRequest} (hop : job.envelope.operation = .startRunner start)
    (h : job.step trust H j js = some (j', .stage (.call request environment))) :
    j'.Owns job.envelope := by
  generalize hst : Stage.call request environment = st at h
  have hmay : st.mayCall := by rw [← hst]; rfl
  cases Job.moves_of_step h with
  | look => simp [remainsStage_mayCall] at hmay
  | respond => simp [respondStage_mayCall] at hmay
  | decide => exact decideStage_call hop hst.symm
  | _ => cases hmay

theorem Job.step_reaches (h : job.step trust H j .call = some (j', progress)) :
    ∃ request environment, job.stage = .call request environment ∧ j' = j ∧
      progress = .stage (.calling environment) := by
  cases Job.moves_of_step h with
  | call hstage => exact ⟨_, _, hstage, rfl, rfl⟩

end

/-! ## What an agent step does -/

/-- A step that writes no command and reaches no helper. -/
structure Agent.Bookkeeping (step : AgentStep) (a a' : Agent) : Prop where
  commands : a'.journal.commands = a.journal.commands
  environments : a'.journal.environments = a.journal.environments
  calls : a'.calls = a.calls
  job : ∀ job, a'.holder.job = some job → a.holder.job = some job ∨ (job.stage = .remains ∧
    ((∃ session now receivedAt boot bootstrap,
        step = .dispatch job.envelope session now receivedAt boot bootstrap) ∨
      ∃ r, (job.envelope, r) ∈ a.holder.queue))
  queue : ∀ p ∈ a'.holder.queue, p ∈ a.holder.queue ∨
    ∃ c ∈ a.journal.commands, (c.envelope, c.result) = p
  delivered : ∀ id ∈ a'.journal.delivered, id ∈ a.journal.delivered ∨
    (step = .acknowledged ∧ ∃ queue result, a.holder = .posting queue id result) ∨
    ∃ result, step = .delivered result ∧ result.commandId = id

/-- A first delivery: the receipt is journaled, and the job executes the command or
answers that it came too late. -/
structure Agent.Receives (H : Hashing) (e : AgentCommandEnvelope) (session : ExpectedAgentSession)
    (a a' : Agent) : Prop where
  free : a.holder = .free
  bound : e.validateBinding H.envelope session = .ok ()
  absent : a.journal.commands.find e.commandId = none
  row : ∃ receivedAt boot commands,
    a.journal.commands.insert? ⟨e.commandId, e.requestHash, e, receivedAt, none, some boot⟩ =
      some commands ∧ a'.journal = { a.journal with commands := commands }
  calls : a'.calls = a.calls
  job : ∃ now bootstrap stage, a'.holder = .dispatching ⟨e, now, bootstrap, stage⟩ ∧
    (stage = .execute ∨ stage = .complete (refused .deadline))

structure Agent.Works (H : Hashing) (trust : Trust) (js : JobStep) (a a' : Agent) (job : Job)
    (progress : Progress) : Prop where
  held : a.holder.job = some job
  step : job.step trust H a.journal js = some (a'.journal, progress)
  calls : a'.calls = (a.logCall job.envelope js).calls
  job : ∀ next, a'.holder.job = some next → ∃ st, progress = .stage st ∧
    next = { job with stage := st }
  queue : a'.holder.queue ⊆ a.holder.queue

section

variable {H : Hashing} {trust : Trust} {a a' : Agent}

theorem Agent.Bookkeeping.of_holder {step : AgentStep}
    (hcommands : a'.journal.commands = a.journal.commands)
    (henvironments : a'.journal.environments = a.journal.environments)
    (hcalls : a'.calls = a.calls) (hjob : a'.holder.job = none ∨ a'.holder.job = a.holder.job)
    (hqueue : a'.holder.queue ⊆ a.holder.queue)
    (hdelivered : ∀ id ∈ a'.journal.delivered, id ∈ a.journal.delivered ∨
      (step = .acknowledged ∧ ∃ queue result, a.holder = .posting queue id result) ∨
      ∃ result, step = .delivered result ∧ result.commandId = id) : Bookkeeping step a a' where
  commands := hcommands
  environments := henvironments
  calls := hcalls
  job job hheld := by
    rcases hjob with hnone | hsame
    · rw [hnone] at hheld
      cases hheld
    · exact .inl (hsame ▸ hheld)
  queue p hp := .inl (hqueue hp)
  delivered := hdelivered

/-- **What one step of the agent comes to**: book-keeping, a first delivery, or a step of
its job. -/
theorem Agent.step_cases {step : AgentStep} (h : a.step H trust step = some a') :
    Bookkeeping step a a' ∧ (∀ js, step ≠ .job js) ∧
        (∀ e session now receivedAt boot bootstrap,
          step = .dispatch e session now receivedAt boot bootstrap → ∀ job,
            a'.holder.job = some job → ∃ c, a.journal.commands.find e.commandId = some c) ∨
      (∃ e session now receivedAt boot bootstrap,
        step = .dispatch e session now receivedAt boot bootstrap ∧ Receives H e session a a') ∨
      ∃ js job progress, step = .job js ∧ Works H trust js a a' job progress := by
  cases Agent.moves_of_step h with
  | refused hfree | repeated hfree =>
    refine .inl ⟨.of_holder rfl rfl rfl (.inr rfl) (List.Subset.refl _) fun _ h => .inl h, by simp,
      fun _ _ _ _ _ _ _ job hjob => ?_⟩
    simp only [hfree] at hjob
    cases hjob
  | interrupted _ hrow =>
    refine .inl ⟨⟨rfl, rfl, rfl, ?_, by rintro _ ⟨⟩, fun _ h => .inl h⟩, by simp, ?_⟩
    · rintro _ ⟨⟩
      exact .inr ⟨rfl, .inl ⟨_, _, _, _, _, rfl⟩⟩
    · rintro _ _ _ _ _ _ ⟨⟩ _ -
      exact ⟨_, hrow⟩
  | received hfree hbound hnone hinsert hstage =>
    exact .inr (.inl ⟨_, _, _, _, _, _, rfl, hfree, hbound, hnone, ⟨_, _, _, hinsert, rfl⟩, rfl,
      _, _, _, rfl, hstage⟩)
  | called hheld hstep =>
    exact .inr (.inr ⟨_, _, _, rfl, hheld, hstep, rfl, by simp [hheld], by simp⟩)
  | goes hheld hne hstep =>
    exact .inr (.inr ⟨_, _, _, rfl, hheld, hstep, by rw [logCall_of_ne hne], by simp [hheld], by simp⟩)
  | returns hholder hstep =>
    obtain ⟨_, _, -, rfl, -⟩ := Job.step_done hstep
    exact .inr (.inr ⟨_, _, _, rfl, by rw [hholder]; rfl, hstep, rfl, by rintro _ ⟨⟩,
      List.nil_subset _⟩)
  | recovered hholder hstep =>
    obtain ⟨_, _, -, rfl, -⟩ := Job.step_done hstep
    exact .inr (.inr ⟨_, _, _, rfl, by rw [hholder]; rfl, hstep, rfl, by rintro _ ⟨⟩,
      by rw [hholder]; exact List.Subset.refl _⟩)
  | fails hheld hstep =>
    exact .inr (.inr ⟨_, _, _, rfl, hheld, hstep, by rw [logCall_of_ne (Job.step_unwritten hstep).1],
      by rintro _ ⟨⟩, List.nil_subset _⟩)
  | flushes =>
    refine .inl ⟨⟨rfl, rfl, rfl, by rintro _ ⟨⟩, fun p hp => .inr ?_, fun _ h => .inl h⟩,
      by simp, by rintro _ _ _ _ _ _ ⟨⟩⟩
    obtain ⟨c, hc, -, -, rfl⟩ := Journal.mem_undelivered.mp hp
    exact ⟨c, hc, rfl⟩
  | drained | aborted | crashed =>
    exact .inl ⟨.of_holder rfl rfl rfl (.inl rfl) (List.nil_subset _) fun _ h => .inl h, by simp,
      by rintro _ _ _ _ _ _ ⟨⟩⟩
  | posts hholder =>
    refine .inl ⟨.of_holder rfl rfl rfl (.inl rfl) ?_ fun _ h => .inl h, by simp,
      by rintro _ _ _ _ _ _ ⟨⟩⟩
    rw [hholder]
    exact List.subset_cons_self _ _
  | recovers hholder =>
    refine .inl ⟨⟨rfl, rfl, rfl, ?_, fun p hp => .inl ?_, fun _ h => .inl h⟩, by simp,
      by rintro _ _ _ _ _ _ ⟨⟩⟩
    · rintro _ ⟨⟩
      exact .inr ⟨rfl, .inr ⟨none, by rw [hholder]; exact List.mem_cons_self⟩⟩
    · rw [hholder]
      exact List.mem_cons_of_mem _ hp
  | acknowledged hholder =>
    refine .inl ⟨.of_holder (Journal.markDelivered_commands _ _)
      (Journal.markDelivered_environments _ _) rfl (.inl rfl)
      (by rw [hholder]; exact List.Subset.refl _) fun id hid => ?_, by simp,
      by rintro _ _ _ _ _ _ ⟨⟩⟩
    rcases Journal.mem_markDelivered.mp hid with hold | rfl
    · exact .inl hold
    · exact .inr (.inl ⟨rfl, _, _, hholder⟩)
  | posted =>
    exact .inl ⟨.of_holder rfl rfl rfl (.inr rfl) (List.Subset.refl _) fun _ h => .inl h, by simp,
      by rintro _ _ _ _ _ _ ⟨⟩⟩
  | delivered =>
    refine .inl ⟨.of_holder (Journal.markDelivered_commands _ _)
      (Journal.markDelivered_environments _ _) rfl (.inr rfl) (List.Subset.refl _)
      fun id hid => ?_, by simp, by rintro _ _ _ _ _ _ ⟨⟩⟩
    rcases Journal.mem_markDelivered.mp hid with hold | rfl
    · exact .inl hold
    · exact .inr (.inr ⟨_, rfl, rfl⟩)

theorem Agent.step_works {js : JobStep} (h : a.step H trust (.job js) = some a') :
    ∃ job progress, Works H trust js a a' job progress := by
  rcases Agent.step_cases h with ⟨-, hne, -⟩ | ⟨_, _, _, _, _, _, hdispatch, -⟩ |
    ⟨_, job, progress, hjs, hworks⟩
  · exact absurd rfl (hne js)
  · cases hdispatch
  · cases hjs
    exact ⟨job, progress, hworks⟩

end

/-! ## The truth of a failed start -/

/-- A start is on the way to the helper only while it has no result, and told as failed only when
nothing of it is left. -/
structure Site.Truthful (H : Hashing) (handed : List AgentCommandEnvelope) (w : Site) :
    Prop where
  once : w.agent.Once
  rows : ∀ c ∈ w.agent.journal.commands, c.envelope ∈ handed ∧ c.envelope.commandId = c.commandId
  job : ∀ job, w.agent.holder.job = some job → job.envelope ∈ handed ∧
    ∃ c, w.agent.journal.commands.find job.envelope.commandId = some c
  queue : ∀ p ∈ w.agent.holder.queue, ∃ c ∈ w.agent.journal.commands, c.envelope = p.1
  calls : ∀ e ∈ w.agent.calls, e ∈ handed ∧ (e.isStart → w.agent.journal.Owns e)
  ready : ∀ job request environment, w.agent.holder.job = some job →
    job.stage = .call request environment → job.envelope.isStart →
    w.agent.journal.Owns job.envelope
  live : ∀ e ∈ w.launching ++ w.running, e ∈ w.agent.calls ∧ e.isStart
  unanswered : ∀ job, w.agent.holder.job = some job → job.stage.mayCall →
    ∀ r, w.agent.journal.Stored r → r.commandId ≠ job.envelope.commandId
  stage : ∀ job o, w.agent.holder.job = some job → job.envelope.isStart →
    job.stage.outcome = some o → o.commandState = .failed → w.Quiet job.envelope.commandId
  result : ∀ c ∈ w.agent.journal.commands, c.envelope.isStart → ∀ r, c.result = some r →
    r.outcome.commandState = .failed → w.Quiet c.commandId
  valid : ∀ c ∈ w.agent.journal.commands, ∀ r, c.result = some r →
    r.validateAgainst H.bytes c.envelope = .ok ()

namespace Site.Truthful

variable {H : Hashing} {trust : Trust} {handed handed' : List AgentCommandEnvelope} {w : Site}
  {a : Agent}

theorem handed_mono (h : w.Truthful H handed) (hsub : handed ⊆ handed') :
    w.Truthful H handed' :=
  { h with
    rows := fun c hc => ⟨hsub (h.rows c hc).1, (h.rows c hc).2⟩
    job := fun job hjob => ⟨hsub (h.job job hjob).1, (h.job job hjob).2⟩
    calls := fun e he => ⟨hsub (h.calls e he).1, (h.calls e he).2⟩ }

theorem of_live {w' : Site} (h : w.Truthful H handed) (hagent : w'.agent = w.agent)
    (hlive : w'.launching ++ w'.running ⊆ w.launching ++ w.running) : w'.Truthful H handed := by
  have hquiet : ∀ id, w.Quiet id → w'.Quiet id := fun id hq e he => hq e (hlive he)
  obtain ⟨a', launching, running⟩ := w'
  cases hagent
  exact { h with
    live := fun e he => h.live e (hlive he)
    stage := fun job o hjob hstart ho hfailed => hquiet _ (h.stage job o hjob hstart ho hfailed)
    result := fun c hc hstart r hr hfailed => hquiet _ (h.result c hc hstart r hr hfailed) }

theorem quiet_of_calls (h : w.Truthful H handed) {id : CommandId}
    (hnone : ∀ e ∈ w.agent.calls, e.commandId ≠ id) : w.Quiet id :=
  fun e he => hnone e (h.live e he).1

variable {e : AgentCommandEnvelope} {js : JobStep} {job : Job}

theorem row_envelope (h : w.Truthful H handed)
    (hinj : ∀ e ∈ handed, ∀ e' ∈ handed, e.commandId = e'.commandId → e = e') {c : JournaledCommand}
    (hc : c ∈ w.agent.journal.commands) (he : e ∈ handed) (hid : e.commandId = c.commandId) :
    c.envelope = e :=
  hinj _ (h.rows c hc).1 e he ((h.rows c hc).2.trans hid.symm)

theorem bookkeeping {step : AgentStep} (h : w.Truthful H handed) (ha : a.Once)
    (hbook : Agent.Bookkeeping step w.agent a)
    (hdispatch : ∀ e session now receivedAt boot bootstrap,
      step = .dispatch e session now receivedAt boot bootstrap → e ∈ handed ∧
        ∀ job, a.holder.job = some job →
          ∃ c, w.agent.journal.commands.find e.commandId = some c) :
    ({ w with agent := a } : Site).Truthful H handed where
  once := ha
  rows := hbook.commands ▸ h.rows
  job job hjob := by
    rw [hbook.commands]
    rcases hbook.job job hjob with hold | ⟨-, ⟨session, now, receivedAt, boot, bootstrap, hstep⟩ |
      ⟨r, hr⟩⟩
    · exact h.job job hold
    · obtain ⟨hhanded, hrow⟩ := hdispatch _ _ _ _ _ _ hstep
      exact ⟨hhanded, hrow job hjob⟩
    · obtain ⟨c, hc, hce⟩ := h.queue _ hr
      obtain ⟨hhanded, hid⟩ := h.rows c hc
      rw [hce] at hhanded hid
      exact ⟨hhanded, c, hid ▸ Table.find_key hc⟩
  queue p hp := by
    rw [hbook.commands]
    rcases hbook.queue p hp with hold | ⟨c, hc, rfl⟩
    · exact h.queue p hold
    · exact ⟨c, hc, rfl⟩
  calls e he := by
    obtain ⟨hhanded, howns⟩ := h.calls e (hbook.calls ▸ he)
    exact ⟨hhanded, fun hstart => (howns hstart).of_environments hbook.environments⟩
  ready job request environment hjob hstage hstart := by
    rcases hbook.job job hjob with hold | ⟨hremains, -⟩
    · exact (h.ready job request environment hold hstage hstart).of_environments
        hbook.environments
    · rw [hremains] at hstage
      cases hstage
  live e he := by
    rw [hbook.calls]
    exact h.live e he
  unanswered job hjob hmay r hr := by
    rcases hbook.job job hjob with hold | ⟨hremains, -⟩
    · refine h.unanswered job hold hmay r ?_
      unfold Journal.Stored at hr ⊢
      rwa [hbook.commands] at hr
    · rw [hremains] at hmay
      cases hmay
  stage job o hjob hstart ho hfailed := by
    rcases hbook.job job hjob with hold | ⟨hremains, -⟩
    · exact h.stage job o hold hstart ho hfailed
    · rw [hremains] at ho
      cases ho
  result := hbook.commands ▸ h.result
  valid := hbook.commands ▸ h.valid

theorem receives {session : ExpectedAgentSession} (h : w.Truthful H handed) (ha : a.Once)
    (hhanded : e ∈ handed) (hreceives : Agent.Receives H e session w.agent a) :
    ({ w with agent := a } : Site).Truthful H handed := by
  obtain ⟨receivedAt, boot, commands, hinsert, hjournal⟩ := hreceives.row
  obtain ⟨now, bootstrap, stage, hholder, hstage⟩ := hreceives.job
  have hmem : ∀ c, c ∈ a.journal.commands ↔ c ∈ w.agent.journal.commands ∨
      c = ⟨e.commandId, e.requestHash, e, receivedAt, none, some boot⟩ := fun c => by
    rw [hjournal]
    exact Table.mem_insert? hinsert
  have hfresh : ∀ e' ∈ w.agent.calls, e'.commandId ≠ e.commandId := fun e' he' hid => by
    obtain ⟨c, hc, -⟩ := h.once.called e' he'
    rw [hid, hreceives.absent] at hc
    cases hc
  refine ⟨ha, ?_, ?_, ?_, ?_, ?_, ?_, ?_, ?_, ?_, ?_⟩ <;> dsimp only
  · intro c hc
    rcases (hmem c).mp hc with hc | rfl
    · exact h.rows c hc
    · exact ⟨hhanded, rfl⟩
  · intro job hjob
    rw [hholder] at hjob
    cases hjob
    exact ⟨hhanded, _, Table.find_key ((hmem _).mpr (.inr rfl))⟩
  · intro p hp
    rw [hholder] at hp
    cases hp
  · intro e' he'
    obtain ⟨hhanded', howns⟩ := h.calls e' (hreceives.calls ▸ he')
    exact ⟨hhanded', fun hstart => (howns hstart).of_environments (by rw [hjournal])⟩
  · intro job request environment hjob hcall
    rw [hholder] at hjob
    cases hjob
    rcases hstage with rfl | rfl <;> cases hcall
  · intro e' he'
    rw [hreceives.calls]
    exact h.live e' he'
  · intro job hjob _ r hr
    rw [hholder] at hjob
    cases hjob
    -- A stored result belongs to an earlier row.
    obtain ⟨c, hc, hresult⟩ := hr
    rcases (hmem c).mp (Table.mem_of_find hc) with hold | rfl
    · intro hid
      have := Table.find_key hold
      rw [show c.commandId = e.commandId from (Table.key_of_find hc).trans hid,
        hreceives.absent] at this
      cases this
    · cases hresult
  · intro job o hjob _ _ _
    rw [hholder] at hjob
    cases hjob
    exact h.quiet_of_calls hfresh
  · intro c hc hstart r hr hfailed
    rcases (hmem c).mp hc with hc | rfl
    · exact h.result c hc hstart r hr hfailed
    · cases hr
  · intro c hc r hr
    rcases (hmem c).mp hc with hc | rfl
    · exact h.valid c hc r hr
    · cases hr

theorem logCall_of_ne (hne : js ≠ .call) (e : AgentCommandEnvelope) :
    (a.logCall e js).calls = a.calls := by
  cases js <;> first | rfl | exact absurd rfl hne

theorem launched_of_ne (hne : js ≠ .call) : w.launched (.job js) = [] := by
  cases js <;> first | rfl | exact absurd rfl hne

theorem mem_launched_call (hheld : w.agent.holder.job = some job) :
    e ∈ w.launched (.job .call) ↔ e = job.envelope ∧ e.isStart := by
  simp [Site.launched, hheld]

theorem reaches {progress : Progress} (h : w.Truthful H handed) (ha : a.Once)
    (hworks : Agent.Works H trust .call w.agent a job progress) :
    ({ w with agent := a, launching := w.launching ++ w.launched (.job .call) } : Site).Truthful H
      handed := by
  obtain ⟨request, environment, hstage, hjournal, rfl⟩ := Job.step_reaches hworks.step
  have hcalls : a.calls = w.agent.calls ++ [job.envelope] := hworks.calls
  have hnext : ∀ next, a.holder.job = some next → next = { job with stage := .calling environment } :=
    fun next hheld => by
      obtain ⟨st, hst, rfl⟩ := hworks.job next hheld
      cases hst
      rfl
  have hlive : ∀ e ∈ (w.launching ++ w.launched (.job .call)) ++ w.running,
      e ∈ w.launching ++ w.running ∨ e = job.envelope ∧ e.isStart := fun e he => by
    simp only [List.mem_append, mem_launched_call hworks.held] at he ⊢
    tauto
  refine ⟨ha, ?_, ?_, ?_, ?_, ?_, ?_, ?_, ?_, ?_, ?_⟩ <;> dsimp only
  · rw [hjournal]
    exact h.rows
  · intro next hheld
    rw [hnext next hheld, hjournal]
    exact h.job job hworks.held
  · rw [hjournal]
    exact fun p hp => h.queue p (hworks.queue hp)
  · intro e he
    rw [hcalls, List.mem_append, List.mem_singleton] at he
    rw [hjournal]
    rcases he with he | rfl
    · exact h.calls e he
    · exact ⟨(h.job job hworks.held).1, h.ready job request environment hworks.held hstage⟩
  · intro next request' environment' hheld hcall
    rw [hnext next hheld] at hcall
    cases hcall
  · intro e he
    rw [hcalls, List.mem_append, List.mem_singleton]
    rcases hlive e he with hold | ⟨rfl, hstart⟩
    · exact ⟨.inl (h.live e hold).1, (h.live e hold).2⟩
    · exact ⟨.inr rfl, hstart⟩
  · intro next hheld hmay
    rw [hnext next hheld] at hmay
    cases hmay
  · intro next o hheld _ ho
    rw [hnext next hheld] at ho
    cases ho
  · intro c hc hstart r hr hfailed e he
    rw [hjournal] at hc
    rcases hlive e he with hold | ⟨rfl, -⟩
    · exact h.result c hc hstart r hr hfailed e hold
    · have hkey := h.once.keyed c hc r hr
      have hmay : job.stage.mayCall := by rw [hstage]; rfl
      exact fun hid => h.unanswered job hworks.held hmay r (h.once.keyed.stored hc hr)
        (hkey.trans hid.symm)
  · rw [hjournal]
    exact h.valid

theorem advances {progress : Progress} (h : w.Truthful H handed)
    (hinj : ∀ e ∈ handed, ∀ e' ∈ handed, e.commandId = e'.commandId → e = e') (ha : a.Once)
    (hallows : w.allows (.job js)) (hworks : Agent.Works H trust js w.agent a job progress)
    (hne : js ≠ .call) (hcommands : a.journal.commands = w.agent.journal.commands)
    (hprogress : progress = .failed ∨ ∃ st, progress = .stage st ∧ (st.mayCall → job.stage.mayCall)) :
    ({ w with agent := a } : Site).Truthful H handed := by
  have hcalls : a.calls = w.agent.calls := hworks.calls.trans (logCall_of_ne hne _)
  have hnext : ∀ next, a.holder.job = some next → ∃ st, progress = .stage st ∧
      (st.mayCall → job.stage.mayCall) ∧ next = { job with stage := st } := fun next hheld => by
    obtain ⟨st, rfl, rfl⟩ := hworks.job next hheld
    rcases hprogress with hfailed | ⟨st', hst', hmay⟩
    · cases hfailed
    · cases hst'
      exact ⟨st, rfl, hmay, rfl⟩
  refine ⟨ha, ?_, ?_, ?_, ?_, ?_, ?_, ?_, ?_, ?_, ?_⟩ <;> dsimp only
  · rw [hcommands]
    exact h.rows
  · intro next hheld
    obtain ⟨st, -, -, rfl⟩ := hnext next hheld
    rw [hcommands]
    exact h.job job hworks.held
  · rw [hcommands]
    exact fun p hp => h.queue p (hworks.queue hp)
  · intro e he
    rw [hcalls] at he
    exact ⟨(h.calls e he).1, fun hstart => Job.step_owns hworks.step ((h.calls e he).2 hstart)⟩
  · intro next request environment hheld hcall hstart
    obtain ⟨st, rfl, -, rfl⟩ := hnext next hheld
    subst hcall
    obtain ⟨start, hop⟩ := (isStart_iff (e := job.envelope)).mp hstart
    have howns : a.journal.Owns job.envelope := Job.step_call hop hworks.step
    exact howns
  · intro e he
    rw [hcalls]
    exact h.live e he
  · intro next hheld hmay r hr
    obtain ⟨st, -, hback, rfl⟩ := hnext next hheld
    refine h.unanswered job hworks.held (hback hmay) r ?_
    unfold Journal.Stored at hr ⊢
    rwa [hcommands] at hr
  · intro next o hheld hstart ho hfailed
    obtain ⟨st, rfl, -, rfl⟩ := hnext next hheld
    obtain ⟨start, hop⟩ := (isStart_iff (e := job.envelope)).mp hstart
    rcases Job.step_failed hop hworks.step ho hfailed with hold | hmay | hdenies | howns
    · exact h.stage job o hworks.held hstart hold hfailed
    · exact h.quiet_of_calls (h.once.first job hworks.held hmay).2
    · have hstart' : job.envelope.isStart = true := hstart
      have hquiet : w.Quiet job.envelope.commandId := by
        simpa [Site.allows, hworks.held, hstart', hdenies] using hallows
      exact hquiet
    · refine h.quiet_of_calls fun e he hid => howns ?_
      have hsame := hinj e (h.calls e he).1 _ (h.job job hworks.held).1 hid
      exact hsame ▸ (h.calls e he).2 (hsame ▸ hstart)
  · rw [hcommands]
    exact h.result
  · rw [hcommands]
    exact h.valid

theorem completes {result : AgentCommandResult} (h : w.Truthful H handed)
    (hinj : ∀ e ∈ handed, ∀ e' ∈ handed, e.commandId = e'.commandId → e = e') (ha : a.Once)
    (hworks : Agent.Works H trust js w.agent a job (.done result)) (hne : js ≠ .call) :
    ({ w with agent := a } : Site).Truthful H handed := by
  obtain ⟨o, freshId, hstage, -, hresult, hcomplete⟩ := Job.step_done hworks.step
  obtain ⟨-, hjournal⟩ := Journal.complete_cases hcomplete
  have hid : result.commandId = job.envelope.commandId :=
    hresult ▸ finalResult_commandId _ _ _ _
  have hcalls : a.calls = w.agent.calls := hworks.calls.trans (logCall_of_ne hne _)
  have hidle : ∀ next, a.holder.job ≠ some next := fun next hheld => by
    obtain ⟨st, hst, -⟩ := hworks.job next hheld
    cases hst
  -- A row keeps its envelope and its result, or is the job's and gets the new one.
  have hrow : ∀ d ∈ a.journal.commands, ∃ c ∈ w.agent.journal.commands,
      d.commandId = c.commandId ∧ d.envelope = c.envelope ∧
      (d.result = c.result ∨ c.commandId = result.commandId ∧ d.result = some result) := by
    rw [hjournal, Table.forall_mem_update]
    intro c hc
    split
    · next hopen =>
      simp only [Bool.and_eq_true, beq_iff_eq] at hopen
      exact ⟨c, hc, rfl, rfl, .inr ⟨hopen.1, rfl⟩⟩
    · exact ⟨c, hc, rfl, rfl, .inl rfl⟩
  have henvelope : ∀ c ∈ w.agent.journal.commands, c.commandId = result.commandId →
      c.envelope = job.envelope := fun c hc hcid =>
    h.row_envelope hinj hc (h.job job hworks.held).1 (hid.symm.trans hcid.symm)
  have hback : ∀ c ∈ w.agent.journal.commands, ∃ d ∈ a.journal.commands,
      d.envelope = c.envelope := fun c hc => by
    rw [hjournal]
    simp only [Table.mem_update]
    refine ⟨_, ⟨c, hc, rfl⟩, ?_⟩
    split <;> rfl
  refine ⟨ha, ?_, fun next hheld => absurd hheld (hidle next), ?_, ?_,
    fun next _ _ hheld => absurd hheld (hidle next), ?_, fun next hheld => absurd hheld (hidle next),
    fun next _ hheld => absurd hheld (hidle next), ?_, ?_⟩ <;> dsimp only
  · intro d hd
    obtain ⟨c, hc, hcid, hce, -⟩ := hrow d hd
    rw [hcid, hce]
    exact h.rows c hc
  · intro p hp
    obtain ⟨c, hc, hce⟩ := h.queue p (hworks.queue hp)
    obtain ⟨d, hd, hde⟩ := hback c hc
    exact ⟨d, hd, hde.trans hce⟩
  · intro e he
    rw [hcalls] at he
    exact ⟨(h.calls e he).1, fun hstart => Job.step_owns hworks.step ((h.calls e he).2 hstart)⟩
  · intro e he
    rw [hcalls]
    exact h.live e he
  · intro d hd hstart r hr hfailed
    obtain ⟨c, hc, hcid, hce, hold | ⟨hcr, hnew⟩⟩ := hrow d hd
    · rw [hcid]
      exact h.result c hc (hce ▸ hstart) r (hold ▸ hr) hfailed
    · rw [hnew] at hr
      cases hr
      rw [hcid, hcr, hid]
      refine h.stage job o hworks.held ?_ (by rw [hstage]; rfl) (finalResult_failed (hresult ▸ hfailed))
      rw [← henvelope c hc hcr, ← hce]
      exact hstart
  · intro d hd r hr
    obtain ⟨c, hc, -, hce, hold | ⟨hcr, hnew⟩⟩ := hrow d hd
    · rw [hce]
      exact h.valid c hc r (hold ▸ hr)
    · rw [hnew] at hr
      cases hr
      rw [hce, henvelope c hc hcr, hresult]
      exact finalResult_validateAgainst _ _ _

/-- **A start is told as failed only when nothing of it is left.** -/
theorem step {s : SiteStep} {w' : Site} (h : w.Truthful H handed)
    (hinj : ∀ e ∈ handed, ∀ e' ∈ handed, e.commandId = e'.commandId → e = e')
    (hdispatch : ∀ e session now receivedAt boot bootstrap,
      s = .agent (.dispatch e session now receivedAt boot bootstrap) → e ∈ handed)
    (hstep : w.step H trust s = some w') : w'.Truthful H handed := by
  cases s with
  | agent step =>
    simp only [Site.step, Option.ite_none_right_eq_some] at hstep
    obtain ⟨hallows, hstep⟩ := hstep
    obtain ⟨a, hagent, rfl⟩ := Option.map_eq_some_iff.mp hstep
    have ha : a.Once := h.once.step hagent
    rcases Agent.step_cases hagent with ⟨hbook, hnojob, hrow⟩ |
      ⟨e, session, now, receivedAt, boot, bootstrap, rfl, hreceives⟩ |
      ⟨js, job, progress, rfl, hworks⟩
    · have hnone : w.launched step = [] := by
        cases step <;> first | rfl | exact absurd rfl (hnojob _)
      rw [hnone, List.append_nil]
      refine h.bookkeeping ha hbook fun e session now receivedAt boot bootstrap heq => ?_
      exact ⟨hdispatch e session now receivedAt boot bootstrap (by rw [heq]),
        hrow e session now receivedAt boot bootstrap heq⟩
    · simp only [Site.launched, List.append_nil]
      exact h.receives ha (hdispatch _ _ _ _ _ _ rfl) hreceives
    · by_cases hcall : js = .call
      · subst hcall
        exact h.reaches ha hworks
      · rw [launched_of_ne hcall, List.append_nil]
        rcases Job.step_cases hworks.step with ⟨rfl, -⟩ | ⟨-, hcommands, -, hprogress⟩ |
          ⟨-, result, rfl, -⟩
        · exact absurd rfl hcall
        · exact h.advances hinj ha hallows hworks hcall hcommands hprogress
        · exact h.completes hinj ha hworks hcall
  | comesUp e =>
    simp only [Site.step, Option.ite_none_right_eq_some, Option.some.injEq] at hstep
    obtain ⟨hmem, rfl⟩ := hstep
    refine h.of_live rfl fun e' he' => ?_
    simp only [List.mem_append, List.mem_singleton] at he' ⊢
    rcases he' with he' | he' | rfl
    · exact .inl (List.mem_of_mem_erase he')
    · exact .inr he'
    · exact .inl hmem
  | exits e =>
    cases hstep
    refine h.of_live rfl fun e' he' => ?_
    rw [List.mem_append] at he' ⊢
    exact he'.imp List.mem_of_mem_erase List.mem_of_mem_erase

theorem fresh (identity : Option Identity) :
    (⟨.fresh identity, [], []⟩ : Site).Truthful H handed where
  once := .fresh identity
  rows c hc := by cases hc
  job job hjob := by cases hjob
  queue p hp := by cases hp
  calls e he := by cases he
  ready job _ _ hjob := by cases hjob
  live e he := by cases he
  unanswered job hjob := by cases hjob
  stage job _ hjob := by cases hjob
  result c hc := by cases hc
  valid c hc := by cases hc

end Site.Truthful

end Gridops.HostAgent
