import Gridops.FixAgent.Lifecycle

/-!
# Cancelling a fix run

`cancel_agent_run` ends a queued run itself; of a running one it only sets `cancel_requested`. The
worker looks at that flag during the session and nowhere else: at the top of a turn, before each
tool call but `finish`, and after it waited for the model. After the last of these looks `drive`
goes on to open the pull request, and `finish_succeeded` writes over the request without a guard.

A run is `Timely` where that does not happen: no request meets a run whose session is over, and no
session returns its outcome while a request stands. Then a cancellation that returned is honoured.
-/

namespace Gridops.FixAgent

open Lib (Indexed Machine)

/-! ## After the session -/

/-- The phases after the session, up to the statement that ends the run as succeeded. -/
def Phase.publishes : Phase → Bool
  | .settling _ _ | .opening _ | .collecting _ | .committing _ | .proposing _ | .recording _
  | .succeeding _ => true
  | _ => false

namespace Phase

variable {p q : Phase} {requested : Bool} {now : Millis} {a : Answer} {m : Move}

theorem publishes_of_step (h : p.step requested now a = some m) (hq : m.next = some q)
    (hpublishes : q.publishes) : p.publishes ∨
      ∃ plan current b, p = .session plan current ∧ a = .session b ∧ current.hasFinished := by
  cases p with
  | settling | opening | collecting | committing | proposing | recording | succeeding =>
    exact .inl rfl
  | planning | reserving | starting | placing | requeueing | reading | copying | checkingOut
  | cancelling | failing =>
    cases a <;> cases h <;> cases hq <;> cases hpublishes
  | closing failure => cases failure <;> cases a <;> cases h <;> cases hq <;> cases hpublishes
  | session plan current =>
    cases a with
    | session b =>
      obtain ⟨result, hresult, rfl⟩ := Option.map_eq_some_iff.mp h
      rcases result with next | outcome | - | message
      · cases hq
        cases hpublishes
      · exact .inr ⟨plan, current, b, rfl, rfl, Session.hasFinished_of_step hresult⟩
      · cases hq
        cases hpublishes
      · cases hq
        cases hpublishes
    | _ => cases h <;> cases hq <;> cases hpublishes

theorem publishes_of_opened (h : p.step requested now a = some m) (hopened : m.opened) :
    p.publishes := by
  cases p with
  | settling | opening | collecting | committing | proposing | recording | succeeding => rfl
  | planning | reserving | starting | placing | requeueing | reading | copying | checkingOut
  | cancelling | failing =>
    cases a <;> cases h <;> cases hopened
  | closing failure => cases failure <;> cases a <;> cases h <;> cases hopened
  | session plan current =>
    cases a with
    | session b =>
      obtain ⟨result, -, rfl⟩ := Option.map_eq_some_iff.mp h
      rcases result with next | outcome | - | message <;> cases hopened
    | _ => cases h <;> cases hopened

theorem statement_of_step (h : p.step requested now a = some m) {st : Statement}
    (hst : m.statement = some st) :
    st ≠ .requestCancel ∧ (st.target = some .succeeded → p.publishes) := by
  cases moves_of_step h with
  | goes hp hnote hq =>
    obtain ⟨htarget, hrequest⟩ := hnote st hst
    refine ⟨hrequest, fun hsucc => ?_⟩
    rw [htarget] at hsucc
    cases hsucc
  | requeues | cancels | fails =>
    cases hst
    exact ⟨by simp, fun hsucc => by cases hsucc⟩
  | succeeds =>
    cases hst
    exact ⟨by simp, fun _ => rfl⟩
  | closes | reports | abandons => cases hst

end Phase

/-- No request meets a run whose session is over, and no session returns while a request stands. -/
def timely (s : State) (a : Action) : Bool :=
  match a, s.worker with
  | .requestCancel id, .executing id' p => !(id == id' && p.publishes)
  | .execute (.session _), .executing id (.session _ current) =>
    !(current.hasFinished && s.runs.cancelRequested id)
  | _, _ => true

abbrev Timely (s : State) (a : Action) : Prop := timely s a

/-! ## What was asked for -/

/-- The run is there, has not succeeded and carries the request as long as it is active. -/
def Asked (t : AgentRuns) (id : RunId) : Prop :=
  ∃ r ∈ t, r.id = id ∧ r.status ≠ .succeeded ∧ (r.status.isActive → r.cancelRequested)

section Asked

variable {t u : AgentRuns} {id i : RunId} {st : Statement} {r : AgentRun}

theorem Asked.insert (h : Asked t id) (hinsert : t.insert? r = some u) : Asked u id := by
  obtain ⟨r', hr', hrest⟩ := h
  exact ⟨r', (Indexed.mem_insert? hinsert).mpr (.inl hr'), hrest⟩

/-- Every statement but that of `finish_succeeded` leaves a request standing. -/
theorem Asked.run (h : Asked t id) (hst : st.target ≠ some .succeeded ∨ i ≠ id) :
    Asked (t.run i st) id := by
  obtain ⟨r, hr, hid, hstatus, hasked⟩ := h
  by_cases hhit : AgentRuns.hits i st r
  · obtain ⟨hi, hguard⟩ := AgentRuns.hits_iff.mp hhit
    refine ⟨st.set r, AgentRuns.mem_run_of_hits hr hhit, (st.id_set r).trans hid, ?_, ?_⟩
    · have htarget := hst.resolve_right fun hne => hne (hi.symm.trans hid)
      rw [Statement.status_set]
      cases hnext : st.target with
      | none => exact hstatus
      | some next => exact fun heq => htarget (hnext.trans (congrArg some heq))
    · intro hactive
      rw [Statement.cancelRequested_set, hasked (st.isActive_of_set r hguard hactive),
        Bool.or_true]
  · exact ⟨r, AgentRuns.mem_run_of_not_hits hr hhit, hid, hstatus, hasked⟩

theorem asked_of_cancelQueued {now : Millis} (h : t.affects id (.cancelQueued now)) :
    Asked (t.run id (.cancelQueued now)) id := by
  obtain ⟨r, hr, hid, hguard⟩ := AgentRuns.affects_iff.mp h
  have hhit : AgentRuns.hits id (.cancelQueued now) r := AgentRuns.hits_iff.mpr ⟨hid, hguard⟩
  refine ⟨_, AgentRuns.mem_run_of_hits hr hhit, hid, ?_, ?_⟩
  · simp [Statement.set]
  · intro hactive
    cases hactive

theorem asked_of_requestCancel (h : t.affects id .requestCancel) :
    Asked (t.run id .requestCancel) id := by
  obtain ⟨r, hr, hid, hguard⟩ := AgentRuns.affects_iff.mp h
  have hhit : AgentRuns.hits id .requestCancel r := AgentRuns.hits_iff.mpr ⟨hid, hguard⟩
  refine ⟨_, AgentRuns.mem_run_of_hits hr hhit, hid, ?_, fun _ => rfl⟩
  have hrunning : r.status = .running := eq_of_beq hguard
  simp [Statement.set, hrunning]

end Asked

/-! ## The invariant -/

structure Heeded (s : State) : Prop where
  /-- No request stands for a run that is being published. -/
  silent : ∀ id p, s.worker = .executing id p → p.publishes → ∀ r ∈ s.runs, r.id = id →
    r.cancelRequested = false
  /-- A call that is about to return has asked, -/
  asked : ∀ id, ⟨id, true⟩ ∈ s.cancels → Asked s.runs id
  /-- and so has one that returned. -/
  returned : ∀ id ∈ s.returned, Asked s.runs id

namespace Heeded

variable {s s' : State} {id : RunId} {p : Phase} {setting : Option Int}

theorem init (clock : Millis) : Heeded (init clock) where
  silent _ _ h := by cases h
  asked _ h := by cases h
  returned _ h := by cases h

theorem not_asked (hs : Sound s) (hh : Heeded s) (hexec : s.worker = .executing id p)
    (hp : p.publishes) : ¬Asked s.runs id := by
  rintro ⟨r, hr, hid, -, hasked⟩
  have hown : p.Owns := by cases p <;> trivial
  have hrunning := hs.owned id p hexec hown r hr hid
  have hrequested := hasked (by rw [hrunning]; rfl)
  rw [hh.silent id p hexec hp r hr hid] at hrequested
  cases hrequested

theorem elsewhere (hh : Heeded s) (hruns : ∀ id, Asked s.runs id → Asked s'.runs id)
    (hcancels : s'.cancels = s.cancels) (hreturned : s'.returned = s.returned)
    (hsilent : ∀ id p, s'.worker = .executing id p → p.publishes → ∀ r ∈ s'.runs, r.id = id →
      r.cancelRequested = false) : Heeded s' where
  silent := hsilent
  asked id h := hruns id (hh.asked id (hcancels ▸ h))
  returned id h := hruns id (hh.returned id (hreturned ▸ h))

theorem cancelRequested_of_mem_run {t : AgentRuns} {st : Statement} {r' : AgentRun}
    (hst : st ≠ .requestCancel) (hr' : r' ∈ t.run id st) :
    ∃ r ∈ t, r.id = r'.id ∧ r'.cancelRequested = r.cancelRequested := by
  obtain ⟨r, hr, hidentity, hrow⟩ := AgentRuns.exists_of_mem_run hr'
  refine ⟨r, hr, congrArg AgentRun.Identity.id hidentity, ?_⟩
  rcases hrow with rfl | ⟨-, -, rfl⟩
  · rfl
  · rw [Statement.cancelRequested_set, beq_eq_false_iff_ne.mpr hst, Bool.false_or]

theorem silent_next (hh : Heeded s) (hexec : s.worker = .executing id p) {a : Answer} {m : Move}
    {q : Phase} (htimely : Timely s (.execute a))
    (hstep : p.step (s.runs.cancelRequested id) s.clock a = some m) (hq : m.next = some q)
    (hpublishes : q.publishes) : ∀ r ∈ s.runs, r.id = id → r.cancelRequested = false := by
  intro r hr hid
  rcases Phase.publishes_of_step hstep hq hpublishes with hp | ⟨plan, current, b, rfl, rfl, hfin⟩
  · exact hh.silent id p hexec hp r hr hid
  · by_contra hrequested
    have hflag : s.runs.cancelRequested id :=
      AgentRuns.cancelRequested_iff.mpr ⟨r, hr, hid, by simpa using hrequested⟩
    simp [Timely, timely, hexec, hfin, hflag] at htimely

/-- **A step of the execution** in a timely run keeps requests standing, and opens nothing for a run
asked to stop. -/
theorem execute (hs : Sound s) (hh : Heeded s) (hexec : s.worker = .executing id p) {a : Answer}
    (htimely : Timely s (.execute a)) (h : s.execute id p a = some s') :
    Heeded s' ∧ ∀ i, Asked s.runs i → s'.opened.count i = s.opened.count i := by
  obtain ⟨m, hstep, rfl⟩ := Option.map_eq_some_iff.mp h
  have hnot : p.publishes → ∀ i, Asked s.runs i → id ≠ i :=
    fun hp i hi heq => not_asked hs hh hexec hp (heq ▸ hi)
  refine ⟨hh.elsewhere (fun i hi => ?_) rfl rfl fun i q hq hpublishes => ?_, fun i hi => ?_⟩
  · cases hst : m.statement with
    | none => exact hi
    | some st =>
      by_cases hp : p.publishes
      · exact hi.run (.inr (hnot hp i hi))
      · exact hi.run (.inl fun hsucc => hp ((Phase.statement_of_step hstep hst).2 hsucc))
  · cases hnext : m.next with
    | none =>
      rw [hnext] at hq
      cases hq
    | some q' =>
      rw [hnext] at hq
      cases hq
      have hrows := hh.silent_next hexec htimely hstep hnext hpublishes
      intro r' hr' hid
      cases hst : m.statement with
      | none =>
        rw [hst] at hr'
        exact hrows r' hr' hid
      | some st =>
        rw [hst] at hr'
        obtain ⟨r, hr, hrid, hsame⟩ :=
          cancelRequested_of_mem_run (Phase.statement_of_step hstep hst).1 hr'
        exact hsame.trans (hrows r hr (hrid.trans hid))
  · by_cases hopened : m.opened
    · have hne := hnot (Phase.publishes_of_opened hstep hopened) i hi
      simp [hopened, List.count_cons_of_ne hne]
    · simp [hopened]

theorem worker (hh : Heeded s) (hruns : ∀ i, Asked s.runs i → Asked s'.runs i)
    (hcancels : s'.cancels = s.cancels) (hreturned : s'.returned = s.returned)
    (hopened : s'.opened = s.opened)
    (hworker : ∀ id p, s'.worker = .executing id p → p.publishes = false) :
    Heeded s' ∧ ∀ i ∈ s.returned, i ∈ s'.returned ∧ s'.opened.count i = s.opened.count i := by
  refine ⟨hh.elsewhere hruns hcancels hreturned fun id p hexec hp => ?_, fun i hi => ?_⟩
  · cases (hworker id p hexec).symm.trans hp
  · rw [hreturned, hopened]
    exact ⟨hi, rfl⟩

theorem cancel (hh : Heeded s) (i : RunId) : Heeded (s.cancel i) where
  silent id p hexec hp r' hr' hid := by
    obtain ⟨r, hr, hrid, hsame⟩ := cancelRequested_of_mem_run (by simp) hr'
    exact hsame.trans (hh.silent id p hexec hp r hr (hrid.trans hid))
  asked id h := by
    rcases List.mem_cons.mp h with heq | h
    · have hid : id = i := congrArg CancelCall.id heq
      subst hid
      exact asked_of_cancelQueued (congrArg CancelCall.written heq).symm
    · exact (hh.asked id h).run (.inl (by simp [Statement.target]))
  returned id h := (hh.returned id h).run (.inl (by simp [Statement.target]))

theorem requestCancel (hh : Heeded s) {i : RunId} (htimely : Timely s (.requestCancel i))
    (h : s.requestCancel i = some s') : Heeded s' := by
  obtain ⟨-, ⟨⟩⟩ := Option.ite_none_right_eq_some.mp h
  have hkeep : ∀ id, Asked s.runs id → Asked (s.runs.run i .requestCancel) id :=
    fun id hid => hid.run (.inl (by simp [Statement.target]))
  refine ⟨fun id p hexec hp r' hr' hid => ?_, fun id h => ?_,
    fun id h => hkeep id (hh.returned id h)⟩
  · have hne : i ≠ id := by
      rintro rfl
      have hmeets : s.worker = .executing i p := hexec
      simp [Timely, timely, hmeets, hp] at htimely
    obtain ⟨r, hr, -, rfl | ⟨hi, -, rfl⟩⟩ := AgentRuns.exists_of_mem_run hr'
    · exact hh.silent id p hexec hp r' hr hid
    · exact (hne (hi.symm.trans hid)).elim
  · split at h
    · next haffects =>
      rcases List.mem_cons.mp h with heq | h
      · cases heq
        exact asked_of_requestCancel haffects
      · exact hkeep id (hh.asked id (List.mem_of_mem_erase h))
    · exact hkeep id (hh.asked id (List.mem_of_mem_erase h))

/-- **Step lemma.** Every request stands, and no pull request is opened for a call that returned. -/
theorem step (hs : Sound s) (hh : Heeded s) {a : Action} (htimely : Timely s a)
    (h : (machine setting).step s a = some s') :
    Heeded s' ∧ ∀ i ∈ s.returned, i ∈ s'.returned ∧ s'.opened.count i = s.opened.count i := by
  cases a with
  | tick now =>
    obtain ⟨-, ⟨⟩⟩ := Option.ite_none_right_eq_some.mp h
    exact ⟨hh.elsewhere (fun _ hi => hi) rfl rfl hh.silent, fun i hi => ⟨hi, rfl⟩⟩
  | startRun i jobId runId =>
    cases h
    unfold State.startRun
    split
    · next runs hinsert =>
      refine ⟨hh.elsewhere (fun _ hi => hi.insert hinsert) rfl rfl ?_, fun i hi => ⟨hi, rfl⟩⟩
      intro id p hexec hp r hr hid
      rcases (Indexed.mem_insert? hinsert).mp hr with hr | rfl
      · exact hh.silent id p hexec hp r hr hid
      · rfl
    · exact ⟨hh, fun i hi => ⟨hi, rfl⟩⟩
  | cancel i =>
    cases h
    exact ⟨hh.cancel i, fun i hi => ⟨hi, rfl⟩⟩
  | requestCancel i =>
    refine ⟨hh.requestCancel htimely h, ?_⟩
    obtain ⟨-, ⟨⟩⟩ := Option.ite_none_right_eq_some.mp h
    exact fun i hi => ⟨hi, rfl⟩
  | cancelReturn i ok =>
    obtain ⟨hcall, ⟨⟩⟩ := Option.ite_none_right_eq_some.mp h
    refine ⟨⟨hh.silent, fun id h => hh.asked id (List.mem_of_mem_erase h), fun id h => ?_⟩,
      fun j hj => ⟨?_, rfl⟩⟩
    · split at h
      · rcases List.mem_cons.mp h with rfl | h
        · exact hh.asked _ hcall
        · exact hh.returned id h
      · exact hh.returned id h
    · split
      · exact List.mem_cons_of_mem _ hj
      · exact hj
  | boot =>
    obtain ⟨-, ⟨⟩⟩ := Option.ite_none_right_eq_some.mp h
    exact hh.worker (fun _ hi => hi) rfl rfl rfl (by simp)
  | crash =>
    cases h
    exact hh.worker (fun _ hi => hi) rfl rfl rfl (by simp)
  | recoverSelect =>
    obtain ⟨-, ⟨⟩⟩ := Option.ite_none_right_eq_some.mp h
    exact hh.worker (fun _ hi => hi) rfl rfl rfl (by simp)
  | recoverNext ok =>
    simp only [machine] at h
    split at h <;> cases h
    unfold State.recoverNext
    split
    · exact hh.worker (fun _ hi => hi) rfl rfl rfl (by simp)
    · split
      · refine hh.worker (fun _ hi => ?_) rfl rfl rfl (by simp)
        exact hi.run (.inl (by simp [Statement.target]))
      · exact hh.worker (fun _ hi => hi) rfl rfl rfl (by simp)
  | scan config =>
    obtain ⟨-, ⟨⟩⟩ := Option.ite_none_right_eq_some.mp h
    simp only [State.scan]
    split_ifs
    · exact ⟨hh, fun i hi => ⟨hi, rfl⟩⟩
    · exact hh.worker (fun _ hi => hi) rfl rfl rfl (by simp)
    · exact ⟨hh, fun i hi => ⟨hi, rfl⟩⟩
  | scanSelect ci =>
    simp only [machine] at h
    split at h <;> cases h
    exact hh.worker (fun _ hi => hi) rfl rfl rfl (by simp)
  | scanNext i ok =>
    simp only [machine] at h
    split at h <;> cases h
    unfold State.scanNext
    split
    · exact hh.worker (fun _ hi => hi) rfl rfl rfl (by simp)
    split_ifs
    · exact hh.worker (fun _ hi => hi) rfl rfl rfl (by simp)
    · exact hh.worker (fun _ hi => hi) rfl rfl rfl (by simp)
    · split
      · next runs hinsert =>
        exact hh.worker (fun _ hi => hi.insert hinsert) rfl rfl rfl (by simp)
      · exact hh.worker (fun _ hi => hi) rfl rfl rfl (by simp)
    · exact hh.worker (fun _ hi => hi) rfl rfl rfl (by simp)
  | claimSelect =>
    obtain ⟨-, ⟨⟩⟩ := Option.ite_none_right_eq_some.mp h
    cases s.runs.nextQueued s.clock with
    | none => exact ⟨hh, fun i hi => ⟨hi, rfl⟩⟩
    | some i => exact hh.worker (fun _ hi => hi) rfl rfl rfl (by simp)
  | claim =>
    simp only [machine] at h
    split at h <;> cases h
    refine hh.worker (fun _ hi => hi.run (.inl (by simp [Statement.target]))) rfl rfl rfl ?_
    intro id p hexec
    simp only [State.claim] at hexec
    split at hexec <;> cases hexec
    rfl
  | execute answer =>
    simp only [machine] at h
    split at h
    · next hexec =>
      obtain ⟨hnext, hopened⟩ := hh.execute hs hexec htimely h
      refine ⟨hnext, fun i hi => ⟨?_, hopened i (hh.returned i hi)⟩⟩
      obtain ⟨m, -, rfl⟩ := Option.map_eq_some_iff.mp h
      exact hi
    · cases h

end Heeded

theorem sound_and_heeded {setting : Option Int} {clock : Millis} {as : List Action} {s : State}
    (h : (machine setting).Runs Timely (init clock) as s) : Sound s ∧ Heeded s :=
  h.inv (I := fun s => Sound s ∧ Heeded s)
    (fun _ _ _ hok hstep hs => ⟨(hs.1.step hstep).1, (Heeded.step hs.1 hs.2 hok hstep).1⟩)
    ⟨.init clock, .init clock⟩

/-- **A cancellation that comes in time is honoured.** -/
theorem timely_cancellation_honoured {setting : Option Int} {clock : Millis} {as bs : List Action}
    {s t : State} {id : RunId} (hs : (machine setting).Runs Timely (init clock) as s)
    (ht : (machine setting).Runs Timely s bs t) (hid : id ∈ s.returned) :
    t.opened.count id = s.opened.count id ∧ ∀ r ∈ t.runs, r.id = id → r.status ≠ .succeeded := by
  have hrel : ∀ i ∈ s.returned, i ∈ t.returned ∧ t.opened.count i = s.opened.count i := by
    refine ht.rel (I := fun s => Sound s ∧ Heeded s)
      (R := fun s t => ∀ i ∈ s.returned, i ∈ t.returned ∧ t.opened.count i = s.opened.count i)
      (fun s i hi => ⟨hi, rfl⟩) (fun s t u hst htu i hi => ?_) ?_ ?_ (sound_and_heeded hs)
    · obtain ⟨hit, hcount⟩ := hst i hi
      exact ⟨(htu i hit).1, (htu i hit).2.trans hcount⟩
    · exact fun _ _ _ hok hstep hs =>
        ⟨(hs.1.step hstep).1, (Heeded.step hs.1 hs.2 hok hstep).1⟩
    · exact fun _ _ _ hok hstep hs => (Heeded.step hs.1 hs.2 hok hstep).2
  obtain ⟨hidt, hcount⟩ := hrel id hid
  refine ⟨hcount, fun r hr hrid => ?_⟩
  obtain ⟨r', hr', hrid', hstatus, -⟩ := (sound_and_heeded (hs.append ht)).2.returned id hidt
  rw [Indexed.eq_of_key hr hr' (hrid.trans hrid'.symm)]
  exact hstatus

namespace Sample

def plan : Plan := ⟨some "main", "main", true⟩

def working : List Action :=
  claimed ++ [.execute (.plan plan), .execute .ok, .execute (.sandbox 9), .execute .ok,
    .execute .ok, .execute .ok, .execute .ok, .execute (.session (.checked true false))]

/-- The model edits a file, checks it and finishes, all in one turn. -/
def turn : List ToolCall :=
  [⟨"edit_file", some "a.txt", none⟩, ⟨"run_command", none, none⟩,
    ⟨"finish", none, some .pullRequest⟩]

def finishing : List Action :=
  working ++ ([.turn turn, .checked true false, .result false, .checked true false,
    .result false] : List SessionAnswer).map (.execute ∘ .session)

def cancels : List Action := [.cancel 1, .requestCancel 1, .cancelReturn 1 true]

def publishes : List Action :=
  [.execute (.session (.changed (some ["a.txt"]))), .execute (.session .go), .execute .ok,
    .execute .ok, .execute (.changes ["a.txt"]), .execute .ok, .execute (.created 5), .execute .ok,
    .execute .ok]

end Sample

theorem cancelled_while_working : ∃ s t,
    (machine none).Runs Timely (init 0) (Sample.working ++ Sample.cancels) s ∧
      (machine none).Runs Timely s ([.turn Sample.turn, .checked true false].map
        (.execute ∘ .session) ++ [.execute .ok]) t ∧
      1 ∈ s.returned ∧ t.runs.rows.map (·.status) = [.cancelled] ∧
      t.opened.count 1 = s.opened.count 1 ∧ ∀ r ∈ t.runs, r.id = 1 → r.status ≠ .succeeded := by
  have hexec : ((machine none).execIf Timely (init 0) (Sample.working ++ Sample.cancels)).any
      fun s => ((machine none).execIf Timely s ([.turn Sample.turn, .checked true false].map
        (.execute ∘ .session) ++ [.execute .ok])).any fun t =>
        s.returned == [1] && t.runs.rows.map (·.status) == [.cancelled] := by decide +kernel
  obtain ⟨s, hs, hexec⟩ := (Option.any_eq_true _ _).mp hexec
  obtain ⟨t, ht, hexec⟩ := (Option.any_eq_true _ _).mp hexec
  rw [Bool.and_eq_true, beq_iff_eq, beq_iff_eq] at hexec
  have hs := Machine.runs_of_execIf hs
  have ht := Machine.runs_of_execIf ht
  have hreturned : 1 ∈ s.returned := by simp [hexec.1]
  exact ⟨s, t, hs, ht, hreturned, hexec.2, timely_cancellation_honoured hs ht hreturned⟩

/-- A cancellation during the session's last finish: the run ends as succeeded all the same. -/
theorem late_cancellation_ignored : ∃ s t,
    (machine none).Run (init 0) (Sample.finishing ++ Sample.cancels) s ∧
      (machine none).Run s Sample.publishes t ∧ 1 ∈ s.returned ∧
      s.opened = [] ∧ t.opened = [1] ∧ t.runs.rows.map (·.status) = [.succeeded] := by
  have hexec : ((machine none).exec (init 0) (Sample.finishing ++ Sample.cancels)).any fun s =>
      ((machine none).exec s Sample.publishes).any fun t =>
        decide (1 ∈ s.returned ∧ s.opened = [] ∧ t.opened = [1] ∧
          t.runs.rows.map (·.status) = [.succeeded]) := by decide +kernel
  obtain ⟨s, hs, hexec⟩ := (Option.any_eq_true _ _).mp hexec
  obtain ⟨t, ht, hexec⟩ := (Option.any_eq_true _ _).mp hexec
  have hs := Machine.run_iff_exec.mpr hs
  have ht := Machine.run_iff_exec.mpr ht
  exact ⟨s, t, hs, ht, of_decide_eq_true hexec⟩

end Gridops.FixAgent
