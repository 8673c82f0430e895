import Gridops.Fleet.Placement
import Gridops.HostAgent.Dispatch

/-!
# A command acts on the machine at most once

Over every order of deliveries, answers, crashes and redeliveries: one delivery of
a command at most reaches the helper, since reaching it needs a receipt that only
the first delivery gets; and every result that leaves the agent is the one the
journal holds for its command, since results leave only after they are stored and
a stored result is never replaced.
-/

namespace Gridops.HostAgent

open Gridops.Lib Gridops.Fleet

/-! ## What journal writes keep -/

def Journal.Stored (j : Journal) (result : AgentCommandResult) : Prop :=
  ∃ c, j.commands.find result.commandId = some c ∧ c.result = some result

/-- `j'` remembers every command of `j`, and its result if it had one. -/
def Journal.Extends (j j' : Journal) : Prop :=
  ∀ id c, j.commands.find id = some c → ∃ result, j'.commands.find id = some { c with result } ∧
    (c.result.isSome → result = c.result)

namespace Journal.Extends

variable {j j' j'' : Journal} {result : AgentCommandResult}

theorem of_commands (h : j'.commands = j.commands) : j.Extends j' := fun id c hc =>
  ⟨c.result, by rw [h]; exact hc, fun _ => rfl⟩

theorem refl (j : Journal) : j.Extends j := of_commands rfl

theorem insert {c : JournaledCommand} {commands : Table JournaledCommand.commandId}
    (h : j.commands.insert? c = some commands) : j.Extends { j with commands := commands } := by
  intro id d hd
  refine ⟨d.result, ?_, fun _ => rfl⟩
  simp [Table.find_insert? h, hd]

theorem complete (h : j.complete result = .ok j') : j.Extends j' := by
  obtain ⟨-, rfl⟩ := Journal.complete_cases h
  intro id c hc
  rw [Table.find_update, hc]
  by_cases hopen : (c.commandId == result.commandId && c.result.isNone) = true
  · refine ⟨some result, by rw [Option.map_some, if_pos hopen], fun hsome => ?_⟩
    simp only [Bool.and_eq_true, Option.isNone_iff_eq_none] at hopen
    simp [hopen.2] at hsome
  · exact ⟨c.result, by rw [Option.map_some, if_neg hopen], fun _ => rfl⟩

theorem stored (h : j.Extends j') (hr : j.Stored result) : j'.Stored result := by
  obtain ⟨c, hc, hresult⟩ := hr
  obtain ⟨result', hfind, hkeep⟩ := h _ c hc
  refine ⟨_, hfind, ?_⟩
  rw [← hresult]
  exact hkeep (by simp [hresult])

theorem journaled (h : j.Extends j') {id : CommandId} {hash : String}
    (hc : ∃ c, j.commands.find id = some c ∧ c.requestHash = hash) :
    ∃ c, j'.commands.find id = some c ∧ c.requestHash = hash := by
  obtain ⟨c, hc, hhash⟩ := hc
  obtain ⟨result, hfind, -⟩ := h id c hc
  exact ⟨_, hfind, hhash⟩

end Journal.Extends

theorem Journal.complete_stored {j j' : Journal} {result : AgentCommandResult}
    (h : j.complete result = .ok j') : j'.Stored result := by
  obtain ⟨⟨c, hc, hopen⟩, rfl⟩ := Journal.complete_cases h
  refine ⟨{ c with result := some result }, ?_, rfl⟩
  have hid : c.commandId = result.commandId := Table.key_of_find hc
  simp [Table.find_update, hc, hid, hopen]

theorem Journal.Stored.eq {j : Journal} {r₁ r₂ : AgentCommandResult} (h₁ : j.Stored r₁)
    (h₂ : j.Stored r₂) (hid : r₁.commandId = r₂.commandId) : r₁ = r₂ := by
  obtain ⟨c₁, hc₁, hr₁⟩ := h₁
  obtain ⟨c₂, hc₂, hr₂⟩ := h₂
  rw [hid, hc₂] at hc₁
  cases hc₁
  exact Option.some.inj (hr₁.symm.trans hr₂)

/-! ## One step of a job -/

def Stage.mayCall : Stage → Bool
  | .execute | .call .. => true
  | _ => false

section

variable {H : Hashing} {trust : Trust} {j j' : Journal} {job : Job} {js : JobStep}
  {progress : Progress}

theorem remainsStage_mayCall (j : Journal) (envelope : AgentCommandEnvelope) (boot : String) :
    (remainsStage j envelope boot).mayCall = false := by
  unfold remainsStage
  split
  · rfl
  · split
    case h_3 =>
      split
      · split <;> rfl
      · rfl
    all_goals rfl

theorem respondStage_mayCall (operation : AgentOperation) (environment : Option Environment)
    (response : HelperResponse) : (respondStage operation environment response).mayCall = false := by
  unfold respondStage
  split
  · split
    · split <;> rfl
    · split <;> rfl
  · rfl

theorem finalResult_commandId (envelope : AgentCommandEnvelope) (freshId : ResultId)
    (outcome : CommandOutcome) (now : Millis) :
    (finalResult H envelope freshId outcome now).commandId = envelope.commandId := by
  unfold finalResult
  dsimp only
  split <;> rfl

/-- **What one step of a job can do**, one constructor a branch. Only the last three of the
writes can fail, and then nothing is written. -/
inductive Job.Moves (trust : Trust) (H : Hashing) (j : Journal) (job : Job) :
    JobStep → Journal → Progress → Prop
  | look {boot} (hstage : job.stage = .remains) :
      Moves trust H j job (.look boot) j (.stage (remainsStage j job.envelope boot))
  | runner {identity start environment rebooted}
      (hstage : job.stage = .interruptedStart start environment rebooted) :
      Moves trust H j job (.found (.runner identity)) j
        (.stage (.bind environment.id identity (startedOutcome start identity)))
  | nothing : Moves trust H j job (.found .nothing) j (.stage (.complete cutShort))
  | unknown : Moves trust H j job (.found .unknown) j (.stage (.complete unknown))
  | decide {freshId} (hstage : job.stage = .execute) : Moves trust H j job (.decide freshId) j
      (.stage (decideStage trust j job.envelope job.bootstrap freshId))
  | call {request environment} (hstage : job.stage = .call request environment) :
      Moves trust H j job .call j (.stage (.calling environment))
  | respond {response environment} (hstage : job.stage = .calling environment) :
      Moves trust H j job (.respond response) j
        (.stage (respondStage job.envelope.operation environment response))
  | record {environment outcome j'} (hstage : job.stage = .record environment outcome)
      (hwrite : j.recordEnvironment environment = .ok j') :
      Moves trust H j job .write j' (.stage (.complete outcome))
  | bind {id identity outcome j'} (hstage : job.stage = .bind id identity outcome)
      (hwrite : j.bindLocalIdentity id identity = .ok j') :
      Moves trust H j job .write j' (.stage (.complete outcome))
  | complete {freshId outcome j'} (hstage : job.stage = .complete outcome)
      (hwrite : j.complete (finalResult H job.envelope freshId outcome job.now) = .ok j') :
      Moves trust H j job (.complete freshId) j'
        (.done (finalResult H job.envelope freshId outcome job.now))
  | unrecorded {environment outcome e} (hstage : job.stage = .record environment outcome)
      (hwrite : j.recordEnvironment environment = .error e) : Moves trust H j job .write j .failed
  | unbound {id identity outcome e} (hstage : job.stage = .bind id identity outcome)
      (hwrite : j.bindLocalIdentity id identity = .error e) : Moves trust H j job .write j .failed
  | incomplete {freshId} : Moves trust H j job (.complete freshId) j .failed

theorem Job.moves_of_step (h : job.step trust H j js = some (j', progress)) :
    job.Moves trust H j js j' progress := by
  unfold Job.step at h
  split at h
  case h_8 environment outcome hstage =>
    cases hwrite : j.recordEnvironment environment with
    | ok _ =>
      rw [hwrite] at h
      cases h
      exact .record hstage hwrite
    | error _ =>
      rw [hwrite] at h
      cases h
      exact .unrecorded hstage hwrite
  case h_9 id identity outcome hstage =>
    cases hwrite : j.bindLocalIdentity id identity with
    | ok _ =>
      rw [hwrite] at h
      cases h
      exact .bind hstage hwrite
    | error _ =>
      rw [hwrite] at h
      cases h
      exact .unbound hstage hwrite
  case h_10 freshId outcome hstage =>
    simp only [Progress.after] at h
    split at h <;> cases h
    · exact .complete hstage ‹_›
    · exact .incomplete
  all_goals cases h
  · exact .look ‹_›
  · exact .runner ‹_›
  · exact .nothing
  · exact .unknown
  · exact .decide ‹_›
  · exact .call ‹_›
  · exact .respond ‹_›

theorem Job.step_done {result : AgentCommandResult}
    (h : job.step trust H j js = some (j', .done result)) :
    ∃ o freshId, job.stage = .complete o ∧ js = .complete freshId ∧
      result = finalResult H job.envelope freshId o job.now ∧ j.complete result = .ok j' := by
  cases Job.moves_of_step h with
  | complete hstage hwrite => exact ⟨_, _, hstage, rfl, rfl, hwrite⟩

theorem Job.step_unwritten (h : job.step trust H j js = some (j', .failed)) :
    js ≠ .call ∧ j' = j := by
  cases Job.moves_of_step h <;> simp

/-- The helper is reached only by a job that may call; a job never comes back there, and may store
its result. -/
theorem Job.step_cases (h : job.step trust H j js = some (j', progress)) :
    (js = .call ∧ job.stage.mayCall ∧ j' = j ∧ ∃ st, progress = .stage st ∧ st.mayCall = false) ∨
    (js ≠ .call ∧ j'.commands = j.commands ∧ j'.delivered = j.delivered ∧
      (progress = .failed ∨
        ∃ st, progress = .stage st ∧ (st.mayCall → job.stage.mayCall))) ∨
    (js ≠ .call ∧ ∃ result, progress = .done result ∧ result.commandId = job.envelope.commandId ∧
      j.complete result = .ok j') := by
  have hquiet : ∀ {st : Stage}, st.mayCall = false → st.mayCall → job.stage.mayCall :=
    fun hno hyes => by simp [hno] at hyes
  cases Job.moves_of_step h with
  | look => exact .inr (.inl ⟨by simp, rfl, rfl, .inr ⟨_, rfl, hquiet (remainsStage_mayCall ..)⟩⟩)
  | runner | nothing | unknown => exact .inr (.inl ⟨by simp, rfl, rfl, .inr ⟨_, rfl, hquiet rfl⟩⟩)
  | decide hstage =>
    exact .inr (.inl ⟨by simp, rfl, rfl, .inr ⟨_, rfl, fun _ => by rw [hstage]; rfl⟩⟩)
  | call hstage => exact .inl ⟨rfl, by rw [hstage]; rfl, rfl, _, rfl, rfl⟩
  | respond =>
    exact .inr (.inl ⟨by simp, rfl, rfl, .inr ⟨_, rfl, hquiet (respondStage_mayCall ..)⟩⟩)
  | record _ hwrite =>
    rw [Journal.recordEnvironment_commands hwrite]
    exact .inr (.inl ⟨by simp, rfl, rfl, .inr ⟨_, rfl, hquiet rfl⟩⟩)
  | bind _ hwrite =>
    rw [Journal.bindLocalIdentity_commands hwrite]
    exact .inr (.inl ⟨by simp, rfl, rfl, .inr ⟨_, rfl, hquiet rfl⟩⟩)
  | complete _ hwrite => exact .inr (.inr ⟨by simp, _, rfl, finalResult_commandId .., hwrite⟩)
  | unrecorded | unbound | incomplete => exact .inr (.inl ⟨by simp, rfl, rfl, .inl rfl⟩)

end

/-! ## One step of the agent -/

def Holder.queue : Holder → Backlog
  | .flushing queue | .recovering queue _ | .posting queue _ _ => queue
  | _ => []

def Holder.job : Holder → Option Job
  | .dispatching job | .recovering _ job => some job
  | _ => none

def Holder.atStage (stage : Stage) : Holder → Holder
  | .dispatching job => .dispatching { job with stage := stage }
  | .recovering queue job => .recovering queue { job with stage := stage }
  | holder => holder

@[simp] theorem Holder.atStage_queue (st : Stage) (holder : Holder) :
    (holder.atStage st).queue = holder.queue := by cases holder <;> rfl

@[simp] theorem Holder.atStage_job (st : Stage) (holder : Holder) :
    (holder.atStage st).job = holder.job.map ({ · with stage := st }) := by cases holder <;> rfl

/-- **What one step of the agent can do**, one constructor a branch. -/
inductive Agent.Moves (H : Hashing) (trust : Trust) (a : Agent) : AgentStep → Agent → Prop
  | refused {e session now receivedAt boot bootstrap} (hfree : a.holder = .free) :
      Moves H trust a (.dispatch e session now receivedAt boot bootstrap) a
  | repeated {e session now receivedAt boot bootstrap row result} (hfree : a.holder = .free)
      (hrow : a.journal.commands.find e.commandId = some row) (hresult : row.result = some result) :
      Moves H trust a (.dispatch e session now receivedAt boot bootstrap)
        { a with returned := a.returned ++ [result] }
  | interrupted {e session now receivedAt boot bootstrap row} (hfree : a.holder = .free)
      (hrow : a.journal.commands.find e.commandId = some row) :
      Moves H trust a (.dispatch e session now receivedAt boot bootstrap)
        { a with holder := .dispatching ⟨e, now, none, .remains⟩ }
  | received {e session now receivedAt boot bootstrap stage commands} (hfree : a.holder = .free)
      (hbound : e.validateBinding H.envelope session = .ok ())
      (hnone : a.journal.commands.find e.commandId = none)
      (hinsert : a.journal.commands.insert?
        ⟨e.commandId, e.requestHash, e, receivedAt, none, some boot⟩ = some commands)
      (hstage : stage = .execute ∨ stage = .complete (refused .deadline)) :
      Moves H trust a (.dispatch e session now receivedAt boot bootstrap) { a with
        journal := { a.journal with commands }
        holder := .dispatching ⟨e, now, bootstrap, stage⟩ }
  | called {job st} (hheld : a.holder.job = some job)
      (hstep : job.step trust H a.journal .call = some (a.journal, .stage st)) :
      Moves H trust a (.job .call)
        { a with holder := a.holder.atStage st, calls := a.calls ++ [job.envelope] }
  | goes {js job j st} (hheld : a.holder.job = some job) (hne : js ≠ .call)
      (hstep : job.step trust H a.journal js = some (j, .stage st)) :
      Moves H trust a (.job js) { a with journal := j, holder := a.holder.atStage st }
  | returns {js job j result} (hholder : a.holder = .dispatching job)
      (hstep : job.step trust H a.journal js = some (j, .done result)) : Moves H trust a (.job js)
        { a with journal := j, holder := .free, returned := a.returned ++ [result] }
  | recovered {js queue job j result} (hholder : a.holder = .recovering queue job)
      (hstep : job.step trust H a.journal js = some (j, .done result)) :
      Moves H trust a (.job js) { a with
        journal := j
        holder := .posting queue job.envelope.commandId result
        returned := a.returned ++ [result]
        posted := a.posted ++ [result] }
  | fails {js job} (hheld : a.holder.job = some job)
      (hstep : job.step trust H a.journal js = some (a.journal, .failed)) :
      Moves H trust a (.job js) { a with holder := .free }
  | flushes {since} (hfree : a.holder = .free) : Moves H trust a (.flush since)
      { a with holder := .flushing (a.journal.undelivered since) }
  | drained {now} (hholder : a.holder = .flushing []) :
      Moves H trust a (.next now) { a with holder := .free }
  | posts {now e result queue} (hholder : a.holder = .flushing ((e, some result) :: queue)) :
      Moves H trust a (.next now)
        { a with holder := .posting queue e.commandId result, posted := a.posted ++ [result] }
  | recovers {now e queue} (hholder : a.holder = .flushing ((e, none) :: queue)) :
      Moves H trust a (.next now) { a with holder := .recovering queue ⟨e, now, none, .remains⟩ }
  | acknowledged {queue id result} (hholder : a.holder = .posting queue id result) :
      Moves H trust a .acknowledged
        { a with journal := a.journal.markDelivered id, holder := .flushing queue }
  | aborted : Moves H trust a .abort { a with holder := .free }
  | posted {result} (hmem : result ∈ a.returned) :
      Moves H trust a (.post result) { a with posted := a.posted ++ [result] }
  | delivered {result} : Moves H trust a (.delivered result)
      { a with journal := a.journal.markDelivered result.commandId }
  | crashed : Moves H trust a .crash { a with holder := .free }

section

variable {H : Hashing} {trust : Trust} {a a' : Agent}

theorem Agent.logCall_of_ne {js : JobStep} (h : js ≠ .call) (a : Agent) (e : AgentCommandEnvelope) :
    a.logCall e js = a := by
  cases js <;> first | rfl | exact absurd rfl h

theorem Agent.dispatch_moves (hfree : a.holder = .free) (e : AgentCommandEnvelope)
    (session : ExpectedAgentSession) (now receivedAt : Millis) (boot : String)
    (bootstrap : Option Bootstrap) :
    a.Moves H trust (.dispatch e session now receivedAt boot bootstrap)
      (a.dispatch H e session now receivedAt boot bootstrap) := by
  unfold Agent.dispatch
  split
  · exact .refused hfree
  next hbound =>
  split
  · exact .refused hfree
  · next hreceive =>
    rcases Journal.receive_cases hreceive with ⟨hreceipt, -⟩ |
      ⟨rfl, row, hrow, -, ⟨hreceipt, -⟩ | ⟨r, hreceipt, hr⟩⟩ <;> cases hreceipt
    exact .repeated hfree hrow hr
  · next hreceive =>
    rcases Journal.receive_cases hreceive with ⟨hreceipt, -⟩ | ⟨rfl, row, hrow, -⟩
    · cases hreceipt
    · exact .interrupted hfree hrow
  · next hreceive =>
    rcases Journal.receive_cases hreceive with ⟨-, hnone, commands, hinsert, rfl⟩ |
      ⟨-, row, -, -, ⟨hreceipt, -⟩ | ⟨r, hreceipt, -⟩⟩
    · refine .received hfree hbound hnone hinsert ?_
      split
      · exact .inl rfl
      · exact .inr rfl
    · cases hreceipt
    · cases hreceipt

theorem Agent.job_moves {job : Job} {js : JobStep} {j : Journal} {st : Stage}
    (hheld : a.holder.job = some job)
    (hstep : job.step trust H a.journal js = some (j, .stage st)) :
    a.Moves H trust (.job js)
      { ({ a with journal := j }.logCall job.envelope js) with holder := a.holder.atStage st } := by
  by_cases hcall : js = .call
  · subst hcall
    obtain rfl : j = a.journal := by cases Job.moves_of_step hstep; rfl
    exact .called hheld hstep
  · rw [logCall_of_ne hcall]
    exact .goes hheld hcall hstep

theorem Agent.moves_of_step {s : AgentStep} (h : a.step H trust s = some a') :
    a.Moves H trust s a' := by
  cases s with
  | dispatch e session now receivedAt boot bootstrap =>
    simp only [Agent.step] at h
    split at h <;> cases h
    exact dispatch_moves ‹_› e session now receivedAt boot bootstrap
  | job js =>
    simp only [Agent.step] at h
    split at h
    case h_3 => cases h
    all_goals
      next hholder =>
      obtain ⟨⟨j, progress⟩, hjs, rfl⟩ := Option.map_eq_some_iff.mp h
      cases progress with
      | stage st =>
        simpa only [hholder, Holder.atStage] using job_moves (by rw [hholder]; rfl) hjs
      | done result =>
        obtain ⟨_, _, -, rfl, -⟩ := Job.step_done hjs
        first | exact .returns hholder hjs | exact .recovered hholder hjs
      | failed =>
        obtain ⟨hne, rfl⟩ := Job.step_unwritten hjs
        rw [logCall_of_ne hne]
        exact .fails (by rw [hholder]; rfl) hjs
  | flush since =>
    simp only [Agent.step] at h
    split at h <;> cases h
    exact .flushes ‹_›
  | next now =>
    simp only [Agent.step] at h
    split at h <;> cases h
    · exact .drained ‹_›
    · exact .posts ‹_›
    · exact .recovers ‹_›
  | acknowledged =>
    simp only [Agent.step] at h
    split at h <;> cases h
    exact .acknowledged ‹_›
  | abort =>
    simp only [Agent.step] at h
    split at h <;> cases h <;> exact .aborted
  | post result =>
    simp only [Agent.step, Option.ite_none_right_eq_some, Option.some.injEq] at h
    obtain ⟨hmem, rfl⟩ := h
    exact .posted hmem
  | delivered result =>
    simp only [Agent.step, Option.ite_none_right_eq_some, Option.some.injEq] at h
    obtain ⟨-, rfl⟩ := h
    exact .delivered
  | crash =>
    cases h
    exact .crashed

end

/-! ## The invariant -/

/-- Every journaled result is filed under its own command. -/
def Journal.Keyed (j : Journal) : Prop :=
  ∀ c ∈ j.commands, ∀ r, c.result = some r → r.commandId = c.commandId

/-- A first delivery of `envelope` is being handled: its receipt is journaled and the
helper has not seen it. -/
def Agent.FirstDelivery (a : Agent) (envelope : AgentCommandEnvelope) : Prop :=
  (∃ c, a.journal.commands.find envelope.commandId = some c ∧
    c.requestHash = envelope.requestHash) ∧ ∀ e ∈ a.calls, e.commandId ≠ envelope.commandId

structure Agent.Once (a : Agent) : Prop where
  keyed : a.journal.Keyed
  nodup : (a.calls.map (·.commandId)).Nodup
  called : ∀ e ∈ a.calls, ∃ c, a.journal.commands.find e.commandId = some c ∧
    c.requestHash = e.requestHash
  stored : ∀ r, r ∈ a.returned ∨ r ∈ a.posted → a.journal.Stored r
  queued : ∀ e r, (e, some r) ∈ a.holder.queue → a.journal.Stored r
  first : ∀ job, a.holder.job = some job → job.stage.mayCall → a.FirstDelivery job.envelope

namespace Journal.Keyed

variable {j j' : Journal} {result : AgentCommandResult}

theorem of_commands (h : j.Keyed) (hc : j'.commands = j.commands) : j'.Keyed := by
  unfold Journal.Keyed
  rw [hc]
  exact h

theorem stored (h : j.Keyed) {c : JournaledCommand} (hc : c ∈ j.commands)
    (hresult : c.result = some result) : j.Stored result :=
  ⟨c, by rw [h c hc result hresult]; exact Table.find_key hc, hresult⟩

theorem insert (h : j.Keyed) {c : JournaledCommand} (hnone : c.result = none)
    {commands : Table JournaledCommand.commandId} (hinsert : j.commands.insert? c = some commands) :
    Journal.Keyed { j with commands := commands } := by
  intro d hd r hr
  rcases (Table.mem_insert? hinsert).mp hd with hd | rfl
  · exact h d hd r hr
  · rw [hnone] at hr
    cases hr

theorem complete (h : j.Keyed) (hcomplete : j.complete result = .ok j') : j'.Keyed := by
  obtain ⟨-, rfl⟩ := Journal.complete_cases hcomplete
  unfold Journal.Keyed
  rw [Table.forall_mem_update]
  intro c hc r hr
  by_cases hopen : (c.commandId == result.commandId && c.result.isNone) = true
  · rw [if_pos hopen] at hr ⊢
    cases hr
    simp only [Bool.and_eq_true, beq_iff_eq] at hopen
    exact hopen.1.symm
  · rw [if_neg hopen] at hr ⊢
    exact h c hc r hr

end Journal.Keyed

namespace Agent.Once

variable {H : Hashing} {trust : Trust} {a a' : Agent} {envelope : AgentCommandEnvelope}

theorem firstDelivery (h : a.FirstDelivery envelope) (hext : a.journal.Extends a'.journal)
    (hcalls : a'.calls = a.calls) : a'.FirstDelivery envelope :=
  ⟨hext.journaled h.1, hcalls ▸ h.2⟩

theorem journal (h : a.Once) {j : Journal} (hext : a.journal.Extends j) (hkeyed : j.Keyed) :
    ({ a with journal := j }).Once where
  keyed := hkeyed
  nodup := h.nodup
  called e he := hext.journaled (h.called e he)
  stored r hr := hext.stored (h.stored r hr)
  queued e r hr := hext.stored (h.queued e r hr)
  first job hjob hmay := firstDelivery (h.first job hjob hmay) hext rfl

theorem hold (h : a.Once) (holder : Holder)
    (hqueue : ∀ e r, (e, some r) ∈ holder.queue → a.journal.Stored r)
    (hfirst : ∀ job, holder.job = some job → job.stage.mayCall → a.FirstDelivery job.envelope) :
    ({ a with holder := holder }).Once :=
  ⟨h.keyed, h.nodup, h.called, h.stored, hqueue, hfirst⟩

theorem free (h : a.Once) : ({ a with holder := .free }).Once :=
  h.hold .free (by rintro _ _ ⟨⟩) (by rintro _ ⟨⟩)

theorem answer (h : a.Once) {r : AgentCommandResult} (hr : a.journal.Stored r)
    {returned posted : List AgentCommandResult}
    (hreturned : ∀ x ∈ returned, x ∈ a.returned ∨ x = r)
    (hposted : ∀ x ∈ posted, x ∈ a.posted ∨ x = r) :
    ({ a with returned := returned, posted := posted }).Once := by
  refine ⟨h.keyed, h.nodup, h.called, fun x hx => ?_, h.queued, h.first⟩
  rcases hx with hx | hx
  · rcases hreturned x hx with hold | rfl
    · exact h.stored x (.inl hold)
    · exact hr
  · rcases hposted x hx with hold | rfl
    · exact h.stored x (.inr hold)
    · exact hr

theorem receive (h : a.Once) {c : JournaledCommand} {commands : Table JournaledCommand.commandId}
    (hnone : a.journal.commands.find envelope.commandId = none) (hid : c.commandId = envelope.commandId)
    (hhash : c.requestHash = envelope.requestHash)
    (hinsert : a.journal.commands.insert? c = some commands) :
    ({ a with journal := { a.journal with commands } }).FirstDelivery envelope := by
  refine ⟨⟨c, ?_, hhash⟩, fun e he heq => ?_⟩
  · rw [← hid]
    exact Table.find_key ((Table.mem_insert? hinsert).mpr (.inr rfl))
  · obtain ⟨c, hc, -⟩ := h.called e he
    rw [heq, hnone] at hc
    cases hc

theorem call (h : a.Once) {job : Job} {st : Stage} (hheld : a.holder.job = some job)
    (hmay : job.stage.mayCall) (hst : st.mayCall = false) :
    ({ a with holder := a.holder.atStage st, calls := a.calls ++ [job.envelope] }).Once := by
  obtain ⟨hrow, hfresh⟩ := h.first job hheld hmay
  refine ⟨h.keyed, ?_, ?_, h.stored, ?_, ?_⟩
  · rw [List.map_append, List.nodup_append]
    refine ⟨h.nodup, List.nodup_singleton _, fun id hid id' hid' => ?_⟩
    obtain ⟨e, he, rfl⟩ := List.mem_map.mp hid
    obtain rfl := List.mem_singleton.mp hid'
    exact hfresh e he
  · intro e he
    rcases List.mem_append.mp he with he | he
    · exact h.called e he
    · rw [List.mem_singleton.mp he]
      exact hrow
  · simpa using h.queued
  · intro next hnext hmay
    rw [Holder.atStage_job, hheld] at hnext
    cases hnext
    rw [hst] at hmay
    cases hmay

theorem step {s : AgentStep} (h : a.Once) (hstep : a.step H trust s = some a') : a'.Once := by
  have hnew : ∀ {l : List AgentCommandResult} {r : AgentCommandResult},
      ∀ x ∈ l ++ [r], x ∈ l ∨ x = r := by simp
  have hmarked : ∀ id, ({ a with journal := a.journal.markDelivered id }).Once := fun id =>
    have hcommands := Journal.markDelivered_commands a.journal id
    h.journal (.of_commands hcommands) (h.keyed.of_commands hcommands)
  cases Agent.moves_of_step hstep with
  | refused => exact h
  | repeated _ hrow hresult =>
    exact h.answer (h.keyed.stored (Table.mem_of_find hrow) hresult) hnew fun _ => .inl
  | interrupted => exact h.hold (.dispatching _) (by rintro _ _ ⟨⟩) (by rintro _ ⟨⟩ ⟨⟩)
  | received _ _ hnone hinsert _ =>
    have hfirst := h.receive hnone rfl rfl hinsert
    refine (h.journal (.insert hinsert) (h.keyed.insert rfl hinsert)).hold (.dispatching _)
      (by rintro _ _ ⟨⟩) ?_
    rintro _ ⟨⟩ _
    exact hfirst
  | called hheld hjs =>
    rcases Job.step_cases hjs with ⟨-, hmay, -, _, hst, hno⟩ | ⟨hne, -⟩ | ⟨hne, -⟩
    · cases hst
      exact h.call hheld hmay hno
    · exact absurd rfl hne
    · exact absurd rfl hne
  | goes hheld hne hjs =>
    rcases Job.step_cases hjs with ⟨hcall, -⟩ | ⟨-, hcommands, -, hfailed | ⟨_, hst, hmay⟩⟩ |
      ⟨-, _, hdone, -⟩
    · exact absurd hcall hne
    · cases hfailed
    · cases hst
      have hext := Journal.Extends.of_commands hcommands
      have honce := h.journal hext (h.keyed.of_commands hcommands)
      refine honce.hold (a.holder.atStage _) (by simpa using honce.queued) fun next hnext hcall => ?_
      rw [Holder.atStage_job, hheld] at hnext
      cases hnext
      have hfirst := h.first _ hheld (hmay hcall)
      exact firstDelivery hfirst hext rfl
    · cases hdone
  | returns hholder hjs =>
    obtain ⟨_, _, -, -, -, hcomplete⟩ := Job.step_done hjs
    have honce := h.journal (.complete hcomplete) (h.keyed.complete hcomplete)
    exact honce.free.answer (Journal.complete_stored hcomplete) hnew fun _ => .inl
  | recovered hholder hjs =>
    obtain ⟨_, _, -, -, -, hcomplete⟩ := Job.step_done hjs
    have honce := h.journal (.complete hcomplete) (h.keyed.complete hcomplete)
    have hqueue := honce.queued
    simp only [hholder] at hqueue
    exact (honce.hold (.posting _ _ _) hqueue (by rintro _ ⟨⟩)).answer
      (Journal.complete_stored hcomplete) hnew hnew
  | fails | drained | aborted | crashed => exact h.free
  | flushes =>
    refine h.hold (.flushing _) (fun e r hr => ?_) (by rintro _ ⟨⟩)
    obtain ⟨c, hc, -, -, heq⟩ := Journal.mem_undelivered.mp hr
    exact h.keyed.stored hc (congrArg Prod.snd heq)
  | posts hholder =>
    have hqueue := h.queued
    simp only [hholder] at hqueue
    refine (h.hold (.posting _ _ _) (fun e r hr => ?_) (by rintro _ ⟨⟩)).answer ?_
      (fun _ => .inl) hnew
    · exact hqueue e r (List.mem_cons_of_mem _ hr)
    · exact hqueue _ _ List.mem_cons_self
  | recovers hholder =>
    have hqueue := h.queued
    simp only [hholder] at hqueue
    exact h.hold (.recovering _ _) (fun e r hr => hqueue e r (List.mem_cons_of_mem _ hr))
      (by rintro _ ⟨⟩ ⟨⟩)
  | @acknowledged _ id _ hholder =>
    have hqueue := (hmarked id).queued
    simp only [hholder] at hqueue
    exact (hmarked id).hold (.flushing _) hqueue (by rintro _ ⟨⟩)
  | posted hmem => exact h.answer (h.stored _ (.inl hmem)) (fun _ => .inl) hnew
  | delivered => exact hmarked _

theorem fresh (identity : Option Identity) : (Agent.fresh identity).Once where
  keyed c hc := by cases hc
  nodup := List.nodup_nil
  called e he := by cases he
  stored r hr := by rcases hr with hr | hr <;> cases hr
  queued e r hr := by cases hr
  first job hjob := by cases hjob

end Agent.Once

/-- **A command acts on the machine at most once**, whatever is delivered, answered and lost. -/
theorem command_acts_once {H : Hashing} {trust : Trust} {identity : Option Identity} {a : Agent}
    {steps : List AgentStep} (hrun : (agentMachine H trust).Run (.fresh identity) steps a) :
    (∀ id, (a.calls.filter (·.commandId = id)).length ≤ 1) ∧
    (∀ c ∈ a.journal.commands, ∀ e ∈ a.calls, e.commandId = c.commandId →
      e.requestHash = c.requestHash) ∧
    (∀ c ∈ a.journal.commands, ∀ envelope : AgentCommandEnvelope,
      envelope.commandId = c.commandId → envelope.requestHash ≠ c.requestHash →
      ∀ session now receivedAt boot bootstrap,
        a.dispatch H envelope session now receivedAt boot bootstrap = a) ∧
    (∀ r₁ ∈ a.returned ++ a.posted, ∀ r₂ ∈ a.returned ++ a.posted,
      r₁.commandId = r₂.commandId → r₁ = r₂) := by
  have honce : a.Once := hrun.inv (fun _ _ _ _ hstep h => h.step hstep) (.fresh identity)
  refine ⟨fun id => ?_, fun c hc e he hid => ?_, fun c hc envelope hid hhash => ?_,
    fun r₁ h₁ r₂ h₂ hid => ?_⟩
  · have hcount := List.nodup_iff_count_le_one.mp honce.nodup id
    rw [List.count, List.countP_map, List.countP_eq_length_filter] at hcount
    simpa [Function.comp_def, beq_eq_decide] using hcount
  · obtain ⟨d, hd, hhash⟩ := honce.called e he
    rw [hid, Table.find_key hc] at hd
    cases hd
    exact hhash.symm
  · intro session now receivedAt boot bootstrap
    have hconflict : a.journal.receive envelope receivedAt boot = .error .conflict :=
      Journal.receive_conflict hc hid hhash
    unfold Agent.dispatch
    rw [hconflict]
    split <;> rfl
  · rw [List.mem_append] at h₁ h₂
    exact (honce.stored r₁ h₁).eq (honce.stored r₂ h₂) hid

namespace Sample

def inspection : AgentCommandEnvelope where
  commandId := 1
  operationId := 1
  idempotencyKey := .other "inspect"
  hostId := 1
  hostEpoch := 1
  controlPlaneIncarnation := 7
  authoritySessionId := 10
  scope := .host
  expectedRevision := 1
  issuedAt := 0
  deadlineAt := 60000
  requestHash := "sealed"
  operation := .inspectHost

def session : ExpectedAgentSession := ⟨1, 1, 7, 10, 100000⟩

/-- The agent stops after the helper was called, reports the command as unknown, and gets it again.
-/
def cutShortInspection : List AgentStep :=
  [.dispatch inspection session 1000 1000 "boot" none, .job (.decide 1), .job .call, .crash,
   .flush 0, .next 2000, .job (.look "boot"), .job (.complete 5), .acknowledged, .next 2000,
   .dispatch inspection session 3000 3000 "boot" none]

end Sample

theorem command_acts_once_sample :
    ∃ a, (agentMachine Fleet.Sample.hashing ⟨false⟩).exec (.fresh none) Sample.cutShortInspection =
        some a ∧ a.calls = [Sample.inspection] ∧ a.returned.length = 2 ∧
      ∀ r₁ ∈ a.returned, ∀ r₂ ∈ a.returned, r₁.commandId = r₂.commandId → r₁ = r₂ := by
  obtain ⟨-, -, -, hequal⟩ := command_acts_once (Machine.run_iff_exec.mpr
    (rfl : (agentMachine Fleet.Sample.hashing ⟨false⟩).exec (.fresh none)
      Sample.cutShortInspection = some _))
  exact ⟨_, rfl, rfl, rfl, fun r₁ h₁ r₂ h₂ => hequal r₁ (List.mem_append_left _ h₁) r₂
    (List.mem_append_left _ h₂)⟩

end Gridops.HostAgent
