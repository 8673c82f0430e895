import Gridops.FixAgent.Cancellation

/-!
# A fix run opens at most one pull request

`open_pull_request` comes late in an execution. A run is executed again only where it was queued
again, which happens before its sandbox exists; one interrupted later is failed by the next process
and stays so.
-/

namespace Gridops.FixAgent

open Lib (Indexed Machine)

/-- The phases up to the request that opens the pull request. -/
def Phase.unopened : Phase → Bool
  | .recording _ | .succeeding _ | .cancelling | .closing _ | .failing _ => false
  | _ => true

def Phase.pullRequest : Phase → Option PullRequest
  | .recording pullRequest => some pullRequest
  | .succeeding pullRequest => pullRequest
  | _ => none

theorem Phase.opens_of_step {p : Phase} {requested : Bool} {now : Millis} {a : Answer} {m : Move}
    (h : p.step requested now a = some m) :
    (m.opened → p.unopened ∧ m.statement = none) ∧ ∀ q, m.next = some q →
      (q.unopened → p.unopened ∧ m.opened = false) ∧
        (q.pullRequest.isSome → m.opened ∨ p.pullRequest.isSome) := by
  cases a with
  | ok =>
    cases p with
    | closing failure => cases failure <;> cases h <;> simp [unopened, pullRequest]
    | settling plan outcome =>
      cases h
      cases outcome.finish <;> simp [unopened, pullRequest]
    | _ => cases h <;> simp [unopened, pullRequest]
  | error =>
    cases p with
    | closing failure => cases failure <;> cases h <;> simp [unopened, pullRequest]
    | _ => cases h; simp [fail, hasSandbox, unopened, pullRequest]
  | panicked | plan | deferred | sandbox => cases p <;> cases h <;> simp [unopened, pullRequest]
  | session answer =>
    cases p with
    | session plan current =>
      obtain ⟨result, -, rfl⟩ := Option.map_eq_some_iff.mp h
      rcases result with - | - | - | - <;>
        simp [fail, afterSession, hasSandbox, unopened, pullRequest]
    | _ => cases h
  | changes paths =>
    cases p with
    | collecting plan =>
      cases h
      unfold afterChanges
      split_ifs <;> simp [fail, hasSandbox, unopened, pullRequest]
    | _ => cases h
  | created | unprocessable | unrecorded =>
    simp only [step] at h
    split at h <;> cases h <;> simp [fail, hasSandbox, unopened, pullRequest]

/-! ## What happens to the rows -/

/-- The runs a pull request was opened for have left the queue, and the rows show no others. -/
structure Booked (opened : List RunId) (t : AgentRuns) : Prop where
  left : ∀ id ∈ opened, ∃ r ∈ t, r.id = id ∧ r.status ≠ .queued
  recorded : ∀ r ∈ t, r.pullRequest.isSome → r.id ∈ opened

namespace Booked

variable {opened : List RunId} {t u : AgentRuns} {id : RunId} {st : Statement} {r : AgentRun}

theorem insert (hb : Booked opened t) (h : t.insert? r = some u) (hr : r.pullRequest = none) :
    Booked opened u := by
  refine ⟨fun i hi => ?_, fun x hx hpr => ?_⟩
  · obtain ⟨x, hx, hrest⟩ := hb.left i hi
    exact ⟨x, (Indexed.mem_insert? h).mpr (.inl hx), hrest⟩
  · rcases (Indexed.mem_insert? h).mp hx with hx | rfl
    · exact hb.recorded x hx hpr
    · simp [hr] at hpr

theorem run (hb : Booked opened t)
    (hqueue : st.target = some .queued → id ∉ opened := by simp [Statement.target])
    (hset : ∀ r : AgentRun, (st.set r).pullRequest.isSome →
      r.pullRequest.isSome ∨ id ∈ opened := by exact fun _ => .inl) :
    Booked opened (t.run id st) := by
  refine ⟨fun i hi => ?_, fun r' hr' hpr => ?_⟩
  · obtain ⟨r, hr, rfl, hstatus⟩ := hb.left i hi
    by_cases hhit : AgentRuns.hits id st r
    · refine ⟨_, AgentRuns.mem_run_of_hits hr hhit, st.id_set r, ?_⟩
      rw [Statement.status_set]
      cases hnext : st.target with
      | none => exact hstatus
      | some next =>
        rintro rfl
        exact hqueue hnext ((AgentRuns.hits_iff.mp hhit).1 ▸ hi)
    · exact ⟨r, AgentRuns.mem_run_of_not_hits hr hhit, rfl, hstatus⟩
  · obtain ⟨r, hr, -, rfl | ⟨hid, -, rfl⟩⟩ := AgentRuns.exists_of_mem_run hr'
    · exact hb.recorded r' hr hpr
    · rw [st.id_set]
      exact (hset r hpr).elim (hb.recorded r hr) (hid ▸ ·)

end Booked

/-- What a step beside the execution does: no pull request is opened, and an execution begins with
a run that was queued. -/
structure Aside (s s' : State) : Prop where
  opened : s'.opened = s.opened := by rfl
  runs : ∀ {opened}, Booked opened s.runs → Booked opened s'.runs := by exact (·)
  worker : ∀ id p, s'.worker = .executing id p → s.worker = .executing id p ∨
    p = .planning ∧ ∃ r ∈ s.runs, r.id = id ∧ r.status = .queued := by
      intro _ _ h
      first | exact .inl h | cases h

section Steps

variable {s s' : State} {id : RunId} {p : Phase} {setting : Option Int}

theorem aside_of_step {a : Action} (h : (machine setting).step s a = some s') :
    Aside s s' ∨ ∃ id p answer, s.worker = .executing id p ∧ s.execute id p answer = some s' := by
  cases a with
  | tick | cancelReturn | boot | recoverSelect =>
    obtain ⟨-, ⟨⟩⟩ := Option.ite_none_right_eq_some.mp h
    exact .inl {}
  | startRun =>
    cases h
    unfold State.startRun
    split
    · next hinsert => exact .inl { runs := (·.insert hinsert rfl) }
    · exact .inl {}
  | cancel =>
    cases h
    exact .inl { runs := (·.run) }
  | requestCancel =>
    obtain ⟨-, ⟨⟩⟩ := Option.ite_none_right_eq_some.mp h
    exact .inl { runs := (·.run) }
  | crash =>
    cases h
    exact .inl {}
  | recoverNext =>
    simp only [machine] at h
    split at h <;> cases h
    unfold State.recoverNext
    split
    · exact .inl {}
    split
    · exact .inl { runs := (·.run) }
    · exact .inl {}
  | scan =>
    obtain ⟨-, ⟨⟩⟩ := Option.ite_none_right_eq_some.mp h
    simp only [State.scan]
    split_ifs <;> exact .inl {}
  | scanSelect =>
    simp only [machine] at h
    split at h <;> cases h
    exact .inl {}
  | scanNext =>
    simp only [machine] at h
    split at h <;> cases h
    unfold State.scanNext
    split
    · exact .inl {}
    split_ifs
    · exact .inl {}
    · exact .inl {}
    · split
      · next hinsert => exact .inl { runs := (·.insert hinsert rfl) }
      · exact .inl {}
    · exact .inl {}
  | claimSelect =>
    obtain ⟨-, ⟨⟩⟩ := Option.ite_none_right_eq_some.mp h
    cases s.runs.nextQueued s.clock <;> exact .inl {}
  | claim =>
    simp only [machine] at h
    split at h <;> cases h
    refine .inl { runs := (·.run), worker := ?_ }
    intro id p hexec
    simp only [State.claim] at hexec
    split at hexec <;> cases hexec
    next haffects =>
    obtain ⟨r, hr, hid, hguard⟩ := AgentRuns.affects_iff.mp haffects
    exact .inr ⟨rfl, r, hr, hid, eq_of_beq hguard⟩
  | execute answer =>
    simp only [machine] at h
    split at h
    · next hexec => exact .inr ⟨_, _, answer, hexec, h⟩
    · cases h

/-! ## The invariant -/

structure Proposed (s : State) : Prop where
  once : s.opened.Nodup
  /-- The run that is executed has none before the request for it, -/
  before : ∀ id p, s.worker = .executing id p → p.unopened → id ∉ s.opened
  /-- and one while it is carried to the row. -/
  carried : ∀ id p, s.worker = .executing id p → p.pullRequest.isSome → id ∈ s.opened
  booked : Booked s.opened s.runs

namespace Proposed

theorem init (clock : Millis) : Proposed (init clock) where
  once := List.nodup_nil
  before _ _ h := by cases h
  carried _ _ h := by cases h
  booked := ⟨fun _ h => (by cases h), fun _ h => (by cases h)⟩

theorem aside (hs : Proposed s) (h : Aside s s') : Proposed s' := by
  refine ⟨h.opened ▸ hs.once, fun id p hexec hp hid => ?_, fun id p hexec hp => ?_,
    h.opened ▸ h.runs hs.booked⟩ <;> rw [h.opened] at *
  · rcases h.worker id p hexec with hexec | ⟨-, r, hr, hrid, hqueued⟩
    · exact hs.before id p hexec hp hid
    · obtain ⟨r', hr', hrid', hstatus⟩ := hs.booked.left id hid
      cases Indexed.eq_of_key hr hr' (hrid.trans hrid'.symm)
      exact hstatus hqueued
  · rcases h.worker id p hexec with hexec | ⟨rfl, -⟩
    · exact hs.carried id p hexec hp
    · cases hp

theorem booked_run (hs : Proposed s) (hexec : s.worker = .executing id p) {requested : Bool}
    {a : Answer} {m : Move} {st : Statement} (h : p.step requested s.clock a = some m)
    (hst : m.statement = some st) : Booked s.opened (s.runs.run id st) := by
  cases Phase.moves_of_step h with
  | goes hp hnote hq =>
    obtain ⟨htarget, -⟩ := hnote st hst
    refine hs.booked.run (by simp [htarget]) fun r hr => .inl ?_
    cases st <;> first | exact hr | cases htarget
  | requeues =>
    cases hst
    exact hs.booked.run fun _ => hs.before id _ hexec rfl
  | succeeds =>
    cases hst
    exact hs.booked.run (by simp [Statement.target]) fun _ hr => .inr (hs.carried id _ hexec hr)
  | cancels | fails =>
    cases hst
    exact hs.booked.run
  | closes | reports | abandons => cases hst

theorem execute (hs : Proposed s) (hsound : Sound s) (hexec : s.worker = .executing id p)
    {a : Answer} (h : s.execute id p a = some s') : Proposed s' := by
  obtain ⟨m, hstep, rfl⟩ := Option.map_eq_some_iff.mp h
  obtain ⟨hopened, hnext⟩ := Phase.opens_of_step hstep
  have hworker : ∀ i q, (m.next.map (Worker.executing id)).getD .idle = .executing i q →
      i = id ∧ m.next = some q := by
    intro i q hq
    cases hm : m.next <;> simp_all
  by_cases hm : m.opened
  · obtain ⟨hp, hst⟩ := hopened hm
    simp only [hm, hst, if_true]
    refine ⟨List.nodup_cons.mpr ⟨hs.before id p hexec hp, hs.once⟩, fun i q hq hun => ?_,
      fun i q hq _ => ?_, fun i hi => ?_, fun r hr hpr => ?_⟩
    · cases hm.symm.trans ((hnext q (hworker i q hq).2).1 hun).2
    · exact (hworker i q hq).1 ▸ List.mem_cons_self
    · rcases List.mem_cons.mp hi with rfl | hi
      · obtain ⟨r, hr, hid⟩ := hsound.known i p hexec
        have hrunning := hsound.owned i p hexec (by cases p <;> trivial) r hr hid
        exact ⟨r, hr, hid, by simp [hrunning]⟩
      · exact hs.booked.left i hi
    · exact List.mem_cons_of_mem _ (hs.booked.recorded r hr hpr)
  · rw [Bool.not_eq_true] at hm
    simp only [hm]
    refine ⟨hs.once, fun i q hq hun => ?_, fun i q hq hpr => ?_, ?_⟩
    · obtain ⟨rfl, hnext'⟩ := hworker i q hq
      exact hs.before i p hexec ((hnext q hnext').1 hun).1
    · obtain ⟨rfl, hnext'⟩ := hworker i q hq
      exact hs.carried i p hexec (((hnext q hnext').2 hpr).resolve_left (by simp [hm]))
    · cases hst : m.statement with
      | none => exact hs.booked
      | some st => exact hs.booked_run hexec hstep hst

end Proposed

end Steps

end Gridops.FixAgent
