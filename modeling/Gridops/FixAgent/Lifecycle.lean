import Gridops.FixAgent.Worker

/-!
# The life cycle of a fix run

`finish_succeeded` and `finish_cancelled` write a final status without looking at the one that
stands there, so that a run never leaves a final status is a property of the worker as a whole:
while it executes a run, before the run's last statement, the run is running (`Sound.owned`), since
the API only ever moves queued runs. The same invariant says which runs are running at all.

`Phase.Moves` says once what a phase can do; everything about an execution is derived from it.
-/

namespace Gridops.FixAgent

open Lib (Indexed Machine)

/-! ## What a phase can do -/

def Phase.Owns : Phase → Prop
  | .closing _ | .failing _ => False
  | _ => True

/-- A statement that leaves status and cancellation alone. -/
def Statement.IsNote (st : Statement) : Prop := st.target = none ∧ st ≠ .requestCancel

inductive Phase.Moves (now : Millis) : Phase → Move → Prop where
  /-- It goes on, with a note in the row at most. -/
  | goes {p q : Phase} {st : Option Statement} {opened : Bool} (hp : p.Owns)
      (hst : ∀ st' ∈ st, st'.IsNote) (hq : q ≠ .closing none) : Moves now p ⟨st, opened, some q⟩
  | requeues : Moves now .requeueing ⟨some (.requeue now), false, none⟩
  | succeeds {pullRequest : Option PullRequest} {failure : Option String} :
      Moves now (.succeeding pullRequest)
        ⟨some (.succeed pullRequest now), false, some (.closing failure)⟩
  | cancels : Moves now .cancelling ⟨some (.finishCancelled now), false, some (.closing none)⟩
  /-- The last statement was run and nothing is to be reported. -/
  | closes : Moves now (.closing none) ⟨none, false, none⟩
  | reports {failure : Option String} {message : String} :
      Moves now (.closing failure) ⟨none, false, some (.failing message)⟩
  | fails {message : String} : Moves now (.failing message) ⟨some (.fail message now), false, none⟩
  /-- `finish_failed` itself failed. -/
  | abandons {message : String} : Moves now (.failing message) ⟨none, false, none⟩

namespace Phase

variable {p q : Phase} {requested : Bool} {now : Millis} {a : Answer} {m : Move}

theorem Moves.quiet {opened : Bool} (hp : p.Owns) (hq : q ≠ .closing none) :
    p.Moves now ⟨none, opened, some q⟩ :=
  .goes hp (fun st' h => by cases h) hq

theorem Moves.note {st : Statement} (hp : p.Owns) (hst : st.IsNote) (hq : q ≠ .closing none) :
    p.Moves now ⟨some st, false, some q⟩ := by
  refine .goes hp (fun st' h => ?_) hq
  cases h
  exact hst

theorem Moves.fail (hp : p.Owns) (message : String) : p.Moves now (p.fail message) := by
  refine .quiet hp ?_
  split <;> simp

theorem Moves.afterSession (hp : p.Owns) (plan : Plan) (ended : SessionEnd) :
    p.Moves now (p.afterSession plan ended) := by
  cases ended with
  | finished outcome => exact .quiet hp (by simp)
  | cancelled => exact .quiet hp (by simp)
  | failed message => exact .fail hp message

theorem Moves.afterChanges (hp : p.Owns) (plan : Plan) (paths : List String) :
    p.Moves now (p.afterChanges plan paths) := by
  unfold Phase.afterChanges
  split_ifs
  · exact .quiet hp (by simp)
  · exact .fail hp _
  · exact .quiet hp (by simp)

theorem moves_of_ok (h : p.step requested now .ok = some m) : p.Moves now m := by
  cases p with
  | planning | starting | session | collecting | proposing => cases h
  | reserving | placing | reading | copying | checkingOut | opening =>
    cases h
    exact .note trivial ⟨rfl, by simp⟩ (by simp)
  | settling plan outcome =>
    cases h
    refine .note trivial ⟨rfl, by simp⟩ ?_
    split <;> simp
  | committing | recording =>
    cases h
    exact .quiet trivial (by simp)
  | requeueing => cases h; exact .requeues
  | succeeding => cases h; exact .succeeds
  | cancelling => cases h; exact .cancels
  | closing failure =>
    cases failure with
    | none => cases h; exact .closes
    | some message => cases h; exact .reports
  | failing => cases h; exact .fails

theorem moves_of_error {message : String} (h : p.step requested now (.error message) = some m) :
    p.Moves now m := by
  cases p with
  | closing failure =>
    cases failure with
    | none => cases h; exact .closes
    | some message => cases h; exact .reports
  | failing => cases h; exact .abandons
  | _ => cases h; exact .fail (by trivial) message

theorem moves_of_panicked (h : p.step requested now .panicked = some m) : p.Moves now m := by
  cases p with
  | closing => cases h; exact .reports
  | failing => cases h
  | _ => cases h; exact .quiet trivial (by simp)

theorem moves_of_step (h : p.step requested now a = some m) : p.Moves now m := by
  cases a with
  | ok => exact moves_of_ok h
  | error message => exact moves_of_error h
  | panicked => exact moves_of_panicked h
  | plan plan =>
    cases p <;> cases h
    exact .note trivial ⟨rfl, by simp⟩ (by simp)
  | deferred =>
    cases p <;> cases h
    · exact .quiet trivial (by simp)
    · exact .quiet trivial (by simp)
  | sandbox box =>
    cases p <;> cases h
    exact .quiet trivial (by simp)
  | session answer =>
    cases p with
    | session plan current =>
      obtain ⟨result, -, rfl⟩ := Option.map_eq_some_iff.mp h
      cases result with
      | inl current => exact .quiet trivial (by simp)
      | inr ended => exact .afterSession (by trivial) plan ended
    | _ => cases h
  | changes paths =>
    cases p <;> cases h
    exact .afterChanges (by trivial) _ paths
  | created number =>
    simp only [step] at h
    split at h <;> cases h
    exact .quiet trivial (by simp)
  | unprocessable =>
    simp only [step] at h
    split at h <;> cases h
    · exact .quiet trivial (by simp)
    · exact .fail (by trivial) _
  | unrecorded message =>
    simp only [step] at h
    split at h <;> cases h
    exact .succeeds

end Phase

/-! ## What happens to the rows -/

section Rows

variable {t u v : AgentRuns} {id : RunId} {st : Statement} {r r' : AgentRun}

/-- Every run is still there, and with its status if it had ended. -/
def Keeps (t u : AgentRuns) : Prop :=
  ∀ r ∈ t, ∃ r' ∈ u, r'.identity = r.identity ∧ (r.status.Terminal → r'.status = r.status)

theorem Keeps.refl (t : AgentRuns) : Keeps t t := fun r hr => ⟨r, hr, rfl, fun _ => rfl⟩

theorem Keeps.trans (h₁ : Keeps t u) (h₂ : Keeps u v) : Keeps t v := by
  intro r hr
  obtain ⟨r₁, hr₁, hid₁, hst₁⟩ := h₁ r hr
  obtain ⟨r₂, hr₂, hid₂, hst₂⟩ := h₂ r₁ hr₁
  refine ⟨r₂, hr₂, hid₂.trans hid₁, fun hterm => ?_⟩
  rw [hst₂ ((hst₁ hterm).symm ▸ hterm), hst₁ hterm]

theorem Keeps.insert (h : t.insert? r = some u) : Keeps t u :=
  fun r' hr' => ⟨r', (Indexed.mem_insert? h).mpr (.inl hr'), rfl, fun _ => rfl⟩

theorem Keeps.run (h : ∀ r ∈ t, r.id = id → st.guard r.status → r.status.Terminal →
    (st.set r).status = r.status) : Keeps t (t.run id st) := by
  intro r hr
  by_cases hhit : AgentRuns.hits id st r
  · refine ⟨st.set r, AgentRuns.mem_run_of_hits hr hhit, st.identity_set r, fun hterm => ?_⟩
    exact h r hr (AgentRuns.hits_iff.mp hhit).1 (AgentRuns.hits_iff.mp hhit).2 hterm
  · exact ⟨r, AgentRuns.mem_run_of_not_hits hr hhit, rfl, fun _ => rfl⟩

theorem Keeps.exists_id (h : Keeps t u) (hr : ∃ r ∈ t, r.id = id) : ∃ r ∈ u, r.id = id := by
  obtain ⟨r, hr, rfl⟩ := hr
  obtain ⟨r', hr', hidentity, -⟩ := h r hr
  exact ⟨r', hr', congrArg AgentRun.Identity.id hidentity⟩

/-- Beyond that, no run starts or stops running. -/
structure Calm (t u : AgentRuns) : Prop where
  keeps : Keeps t u
  back : ∀ r' ∈ u, (r'.status = .queued ∧ ∀ r ∈ t, r.id ≠ r'.id) ∨
    ∃ r ∈ t, r.id = r'.id ∧ (r'.status = .running ↔ r.status = .running) ∧
      (r.status.Terminal → r'.status.Terminal)

theorem Calm.refl (t : AgentRuns) : Calm t t :=
  ⟨.refl t, fun r hr => .inr ⟨r, hr, rfl, Iff.rfl, fun h => h⟩⟩

theorem Calm.insert (h : t.insert? r = some u) (hr : r.status = .queued) : Calm t u := by
  refine ⟨.insert h, fun r' hr' => ?_⟩
  rcases (Indexed.mem_insert? h).mp hr' with hr' | rfl
  · exact .inr ⟨r', hr', rfl, Iff.rfl, fun h => h⟩
  · exact .inl ⟨hr, fun x hx => Indexed.key_ne_of_insert? h hx⟩

theorem Calm.run (h : ∀ r : AgentRun, st.guard r.status →
    ((st.set r).status = .running ↔ r.status = .running) ∧
      (r.status.Terminal → (st.set r).status = r.status)) : Calm t (t.run id st) := by
  refine ⟨.run fun r _ _ hguard => (h r hguard).2, fun r' hr' => .inr ?_⟩
  obtain ⟨r, hr, hidentity, rfl | ⟨-, hguard, rfl⟩⟩ := AgentRuns.exists_of_mem_run hr'
  · exact ⟨r', hr, rfl, Iff.rfl, fun h => h⟩
  · refine ⟨r, hr, congrArg AgentRun.Identity.id hidentity, (h r hguard).1, fun hterm => ?_⟩
    rw [(h r hguard).2 hterm]
    exact hterm

theorem Calm.run_of_target (h : st.target = none) : Calm t (t.run id st) := by
  refine .run fun r _ => ?_
  rw [Statement.status_set, h]
  exact ⟨Iff.rfl, fun _ => rfl⟩

theorem Calm.cancelQueued {now : Millis} : Calm t (t.run id (.cancelQueued now)) := by
  refine .run fun r hguard => ?_
  have hqueued : r.status = .queued := eq_of_beq hguard
  rw [hqueued]
  simp [Statement.set, Status.isActive]

/-- A statement that ends a run leaves the others as they were. -/
theorem mem_run_of_ends {target : Status} (htarget : st.target = some target)
    (hend : target.Terminal) (hguard : ∀ r ∈ t, r.id = id → r.status.isActive → st.guard r.status)
    (hr' : r' ∈ t.run id st) : (r'.id = id → r'.status.Terminal) ∧ (r'.id ≠ id → r' ∈ t) := by
  have hset : ∀ r : AgentRun, (st.set r).status.Terminal := by
    intro r
    rw [Statement.status_set, htarget]
    exact hend
  obtain ⟨r, hr, rfl⟩ := AgentRuns.mem_run.mp hr'
  split
  · next hhit =>
    refine ⟨fun _ => hset r, fun hne => (hne ?_).elim⟩
    rw [Statement.id_set]
    exact (AgentRuns.hits_iff.mp hhit).1
  · next hhit =>
    refine ⟨fun hid => ?_, fun _ => hr⟩
    by_contra hactive
    exact hhit (AgentRuns.hits_iff.mpr
      ⟨hid, hguard r hr hid (by simpa [Status.Terminal] using hactive)⟩)

end Rows

/-! ## The invariant -/

/-- The process is past `recover_interrupted_runs`. -/
def Worker.InLoop : Worker → Prop
  | .down | .started | .recovering _ => False
  | _ => True

structure Sound (s : State) : Prop where
  /-- The run that is executed exists, -/
  known : ∀ id p, s.worker = .executing id p → ∃ r ∈ s.runs, r.id = id
  /-- is running until its last statement, -/
  owned : ∀ id p, s.worker = .executing id p → p.Owns → ∀ r ∈ s.runs, r.id = id →
    r.status = .running
  /-- and has ended where that statement succeeded. -/
  closed : ∀ id, s.worker = .executing id (.closing none) → ∀ r ∈ s.runs, r.id = id →
    r.status.Terminal
  recovering : ∀ todo, s.worker = .recovering todo → ∀ r ∈ s.runs, r.status = .running →
    r.id ∈ todo
  inLoop : s.recovered → s.worker.InLoop
  /-- After the recovery, what is running is executed or given up. -/
  left : s.recovered → ∀ r ∈ s.runs, r.status = .running →
    (∃ p, s.worker = .executing r.id p) ∨ r.id ∈ s.abandoned

namespace Sound

variable {s s' : State} {id : RunId} {p q : Phase} {st : Statement}

theorem init (clock : Millis) : Sound (init clock) where
  known _ _ h := by cases h
  owned _ _ h := by cases h
  closed _ h := by cases h
  recovering _ h := by cases h
  inLoop h := by cases h
  left h := by cases h

theorem calm (hs : Sound s) (h : Calm s.runs s'.runs) (hworker : s'.worker = s.worker)
    (hrecovered : s'.recovered = s.recovered) (habandoned : s'.abandoned = s.abandoned) :
    Sound s' where
  known id p hexec := h.keeps.exists_id (hs.known id p (hworker ▸ hexec))
  owned id p hexec hp r' hr' hid := by
    rcases h.back r' hr' with ⟨-, hfresh⟩ | ⟨r, hr, hrid, hrunning, -⟩
    · obtain ⟨r, hr, hrid⟩ := hs.known id p (hworker ▸ hexec)
      exact (hfresh r hr (hrid.trans hid.symm)).elim
    · exact hrunning.mpr (hs.owned id p (hworker ▸ hexec) hp r hr (hrid.trans hid))
  closed id hexec r' hr' hid := by
    rcases h.back r' hr' with ⟨-, hfresh⟩ | ⟨r, hr, hrid, -, hterm⟩
    · obtain ⟨r, hr, hrid⟩ := hs.known id _ (hworker ▸ hexec)
      exact (hfresh r hr (hrid.trans hid.symm)).elim
    · exact hterm (hs.closed id (hworker ▸ hexec) r hr (hrid.trans hid))
  recovering todo hw r' hr' hrun := by
    rcases h.back r' hr' with ⟨hqueued, -⟩ | ⟨r, hr, hrid, hrunning, -⟩
    · rw [hqueued] at hrun
      cases hrun
    · exact hrid ▸ hs.recovering todo (hworker ▸ hw) r hr (hrunning.mp hrun)
  inLoop hrec := hworker ▸ hs.inLoop (hrecovered ▸ hrec)
  left hrec r' hr' hrun := by
    rw [hworker, habandoned]
    rcases h.back r' hr' with ⟨hqueued, -⟩ | ⟨r, hr, hrid, hrunning, -⟩
    · rw [hqueued] at hrun
      cases hrun
    · exact hrid ▸ hs.left (hrecovered ▸ hrec) r hr (hrunning.mp hrun)

theorem atLoop (hworker : s.worker.InLoop) (hnone : ∀ id p, s.worker ≠ .executing id p)
    (hleft : s.recovered → ∀ r ∈ s.runs, r.status = .running → r.id ∈ s.abandoned) : Sound s where
  known id p h := (hnone id p h).elim
  owned id p h := (hnone id p h).elim
  closed id h := (hnone id _ h).elim
  recovering todo h := by
    rw [h] at hworker
    exact hworker.elim
  inLoop _ := hworker
  left hrec r hr hrun := .inr (hleft hrec r hr hrun)

theorem not_running (hs : Sound s) (hnone : ∀ id p, s.worker ≠ .executing id p)
    (hrec : s.recovered) : ∀ r ∈ s.runs, r.status = .running → r.id ∈ s.abandoned :=
  fun r hr hrun => (hs.left hrec r hr hrun).resolve_left fun ⟨p, hp⟩ => hnone r.id p hp

theorem loops (hs : Sound s) (hnone : ∀ id p, s.worker ≠ .executing id p) {w : Worker}
    (hloop : w.InLoop) (hw : ∀ id p, w ≠ .executing id p) : Sound { s with worker := w } :=
  .atLoop hloop hw (hs.not_running hnone)

theorem outside (hrec : s.recovered = false) (hnone : ∀ id p, s.worker ≠ .executing id p)
    (hrecovering : ∀ todo, s.worker = .recovering todo → ∀ r ∈ s.runs, r.status = .running →
      r.id ∈ todo) : Sound s where
  known id p h := (hnone id p h).elim
  owned id p h := (hnone id p h).elim
  closed id h := (hnone id _ h).elim
  recovering := hrecovering
  inLoop h := by cases hrec.symm.trans h
  left h := by cases hrec.symm.trans h

theorem not_recovered (hs : Sound s) (hout : ¬s.worker.InLoop) : s.recovered = false := by
  by_contra hrec
  exact hout (hs.inLoop (by simpa using hrec))

theorem goes (hs : Sound s) (hexec : s.worker = .executing id p) (hp : q.Owns → p.Owns)
    (hq : q ≠ .closing none) : Sound { s with worker := .executing id q } where
  known _ _ h := by
    cases h
    exact hs.known id p hexec
  owned _ _ h hown := by
    cases h
    exact hs.owned id p hexec (hp hown)
  closed _ h := by
    cases h
    exact (hq rfl).elim
  recovering _ h := by cases h
  inLoop _ := trivial
  left hrec r hr hrun := by
    rcases hs.left hrec r hr hrun with ⟨p', hp'⟩ | hr
    · cases hexec.symm.trans hp'
      exact .inl ⟨q, rfl⟩
    · exact .inr hr

theorem other_running (hs : Sound s) (hexec : s.worker = .executing id p) (hrec : s.recovered)
    {r : AgentRun} (hr : r ∈ s.runs) (hrun : r.status = .running) (hid : r.id ≠ id) :
    r.id ∈ s.abandoned := by
  refine (hs.left hrec r hr hrun).resolve_left fun ⟨p', hp'⟩ => hid ?_
  cases hexec.symm.trans hp'
  rfl

theorem ends (hs : Sound s) (hexec : s.worker = .executing id p) {runs : AgentRuns}
    (hkeeps : Keeps s.runs runs)
    (hruns : ∀ r' ∈ runs, (r'.id = id → r'.status.Terminal) ∧ (r'.id ≠ id → r' ∈ s.runs))
    (failure : Option String) :
    Sound { s with runs, worker := .executing id (.closing failure) } where
  known _ _ h := by
    cases h
    exact hkeeps.exists_id (hs.known id p hexec)
  owned _ _ h hq := by
    cases h
    exact hq.elim
  closed _ h r' hr' := by
    cases h
    exact (hruns r' hr').1
  recovering _ h := by cases h
  inLoop _ := trivial
  left hrec r' hr' hrun := by
    by_cases hid : r'.id = id
    · exact .inl ⟨.closing failure, hid ▸ rfl⟩
    · exact .inr (hs.other_running hexec hrec ((hruns r' hr').2 hid) hrun hid)

theorem leaves (hs : Sound s) (hexec : s.worker = .executing id p) {runs : AgentRuns}
    (hruns : ∀ r' ∈ runs, (r'.id = id → r'.status ≠ .running) ∧ (r'.id ≠ id → r' ∈ s.runs)) :
    Sound { s with runs, worker := .idle } := by
  refine .atLoop trivial (by simp) fun hrec r' hr' hrun => ?_
  have hid : r'.id ≠ id := fun hid => (hruns r' hr').1 hid hrun
  exact hs.other_running hexec hrec ((hruns r' hr').2 hid) hrun hid

end Sound

theorem ne_running_of_terminal {s : Status} (h : s.Terminal) : s ≠ .running := by
  rintro rfl
  cases h

section Steps

variable {s s' : State} {id : RunId} {p : Phase} {setting : Option Int}

theorem mem_run_requeue {t : AgentRuns} {now : Millis} {r' : AgentRun}
    (hrunning : ∀ r ∈ t, r.id = id → r.status = .running) (hr' : r' ∈ t.run id (.requeue now)) :
    (r'.id = id → r'.status ≠ .running) ∧ (r'.id ≠ id → r' ∈ t) := by
  obtain ⟨r, hr, rfl⟩ := AgentRuns.mem_run.mp hr'
  split
  · next hhit =>
    refine ⟨fun _ => by simp [Statement.set], fun hne => (hne ?_).elim⟩
    exact (AgentRuns.hits_iff.mp hhit).1
  · next hhit =>
    refine ⟨fun hid => (hhit (AgentRuns.hits_iff.mpr ⟨hid, ?_⟩)).elim, fun _ => hr⟩
    rw [hrunning r hr hid]
    rfl

theorem Sound.finishes (hs : Sound s) (hexec : s.worker = .executing id p) (hp : p.Owns)
    {st : Statement} {target : Status} (htarget : st.target = some target) (hend : target.Terminal)
    (hguard : ∀ x, st.guard x) (failure : Option String) :
    Sound { s with runs := s.runs.run id st, worker := .executing id (.closing failure) } ∧
      Keeps s.runs (s.runs.run id st) := by
  have hrunning := hs.owned id p hexec hp
  have hkeeps : Keeps s.runs (s.runs.run id st) :=
    .run fun r hr hid _ hterm => (ne_running_of_terminal hterm (hrunning r hr hid)).elim
  refine ⟨hs.ends hexec hkeeps (fun r' hr' => ?_) failure, hkeeps⟩
  exact mem_run_of_ends htarget hend (fun r _ _ _ => hguard r.status) hr'

theorem Sound.execute (hs : Sound s) (hexec : s.worker = .executing id p) {a : Answer}
    (h : s.execute id p a = some s') : Sound s' ∧ Keeps s.runs s'.runs := by
  obtain ⟨m, hstep, rfl⟩ := Option.map_eq_some_iff.mp h
  cases Phase.moves_of_step hstep with
  | @goes _ q st opened hp hst hq =>
    have hgoes := hs.goes hexec (fun _ => hp) hq
    cases st with
    | none => exact ⟨hgoes.calm (.refl _) rfl rfl (by simp), .refl _⟩
    | some st =>
      have hcalm : Calm s.runs (s.runs.run id st) := .run_of_target (hst st rfl).1
      exact ⟨hgoes.calm hcalm rfl rfl (by simp), hcalm.keeps⟩
  | requeues =>
    have hrunning := hs.owned id _ hexec trivial
    refine ⟨?_, .run fun r _ _ hguard hterm => ?_⟩
    · exact hs.leaves hexec fun r' hr' => mem_run_requeue hrunning hr'
    · exact (ne_running_of_terminal hterm (eq_of_beq hguard)).elim
  | succeeds => exact hs.finishes hexec trivial rfl rfl (fun _ => rfl) _
  | cancels => exact hs.finishes hexec trivial rfl rfl (fun _ => rfl) _
  | closes =>
    refine ⟨hs.leaves hexec fun r' hr' => ⟨fun hid => ?_, fun _ => hr'⟩, .refl _⟩
    exact ne_running_of_terminal (hs.closed id hexec r' hr' hid)
  | reports => exact ⟨hs.goes hexec (fun h => h.elim) (by simp), .refl _⟩
  | fails =>
    refine ⟨hs.leaves hexec fun r' hr' => ?_, .run fun r _ _ hguard hterm => ?_⟩
    · have hended := mem_run_of_ends rfl rfl (fun _ _ _ hactive => by exact hactive) hr'
      exact ⟨fun hid => ne_running_of_terminal (hended.1 hid), hended.2⟩
    · cases hguard.symm.trans hterm
  | abandons =>
    refine ⟨.atLoop trivial (by simp) fun hrec r hr hrun => ?_, .refl _⟩
    by_cases hid : r.id = id
    · simp [hid]
    · exact List.mem_cons_of_mem _ (hs.other_running hexec hrec hr hrun hid)

theorem Sound.recoverNext (hs : Sound s) {todo : List RunId} {ok : Bool}
    (hrecovering : s.worker = .recovering todo) :
    Sound (s.recoverNext todo ok) ∧ Keeps s.runs (s.recoverNext todo ok).runs := by
  have hdown : s.recovered = false := hs.not_recovered (by simp [hrecovering, Worker.InLoop])
  cases todo with
  | nil =>
    refine ⟨.atLoop trivial (by simp [State.recoverNext]) fun _ r hr hrun => ?_, .refl _⟩
    cases hs.recovering [] hrecovering r hr hrun
  | cons id todo =>
    cases ok with
    | false =>
      refine ⟨.atLoop trivial (by simp [State.recoverNext]) fun hrec => ?_, .refl _⟩
      cases hdown.symm.trans hrec
    | true =>
      refine ⟨.outside hdown (by simp [State.recoverNext]) ?_, .run fun r _ _ hguard hterm => ?_⟩
      · rintro _ ⟨⟩ r' hr' hrun
        have hended := mem_run_of_ends rfl rfl (fun _ _ _ hactive => by exact hactive) hr'
        have hid : r'.id ≠ id := fun hid => ne_running_of_terminal (hended.1 hid) hrun
        have htodo := hs.recovering _ hrecovering r' (hended.2 hid) hrun
        exact (List.mem_cons.mp htodo).resolve_left hid
      · cases hguard.symm.trans hterm

theorem mem_run_claim {t : AgentRuns} {now : Millis} {r' : AgentRun}
    (hr' : r' ∈ t.run id (.claim now)) :
    (r'.id = id → t.affects id (.claim now) → r'.status = .running) ∧
      (r'.id ≠ id ∨ ¬t.affects id (.claim now) → r' ∈ t) := by
  obtain ⟨r, hr, rfl⟩ := AgentRuns.mem_run.mp hr'
  split
  · next hhit =>
    have haffects : t.affects id (.claim now) :=
      AgentRuns.affects_iff.mpr ⟨r, hr, AgentRuns.hits_iff.mp hhit⟩
    refine ⟨fun _ _ => rfl, fun hother => ?_⟩
    exact (hother.elim (· (AgentRuns.hits_iff.mp hhit).1) (· haffects)).elim
  · next hhit =>
    refine ⟨fun hid haffects => ?_, fun _ => hr⟩
    -- The id has one row, and the statement touched it.
    obtain ⟨r₀, hr₀, hid₀, hguard₀⟩ := AgentRuns.affects_iff.mp haffects
    cases Indexed.eq_of_key hr hr₀ (hid.trans hid₀.symm)
    exact (hhit (AgentRuns.hits_iff.mpr ⟨hid, hguard₀⟩)).elim

theorem Sound.claim (hs : Sound s) {now : Millis} (hclaiming : s.worker = .claiming id now) :
    Sound (s.claim id now) ∧ Keeps s.runs (s.claim id now).runs := by
  have hkeeps : Keeps s.runs (s.runs.run id (.claim now)) := by
    refine .run fun r _ _ hguard hterm => ?_
    rw [eq_of_beq hguard] at hterm
    cases hterm
  have hleft : s.recovered → ∀ r ∈ s.runs, r.status = .running → r.id ∈ s.abandoned :=
    hs.not_running fun i p h => by cases hclaiming.symm.trans h
  refine ⟨?_, hkeeps⟩
  unfold State.claim
  split
  · next haffects =>
    refine ⟨?_, ?_, ?_, ?_, fun _ => trivial, ?_⟩
    · rintro _ _ ⟨⟩
      obtain ⟨r, hr, hid, -⟩ := AgentRuns.affects_iff.mp haffects
      exact hkeeps.exists_id ⟨r, hr, hid⟩
    · rintro _ _ ⟨⟩ - r' hr' hid
      exact (mem_run_claim hr').1 hid haffects
    · exact fun _ h => by cases h
    · exact fun _ h => by cases h
    · intro hrec r' hr' hrun
      by_cases hid : r'.id = id
      · exact .inl ⟨.planning, by rw [hid]⟩
      · exact .inr (hleft hrec r' ((mem_run_claim hr').2 (.inl hid)) hrun)
  · next haffects =>
    refine .atLoop trivial (by simp) fun hrec r' hr' hrun => ?_
    exact hleft hrec r' ((mem_run_claim hr').2 (.inr haffects)) hrun

theorem Sound.scanNext (hs : Sound s) {scan : Scan} {ok : Bool}
    (hscanning : s.worker = .scanning scan) :
    Sound (s.scanNext scan id ok) ∧ Keeps s.runs (s.scanNext scan id ok).runs := by
  have hleft : s.recovered → ∀ r ∈ s.runs, r.status = .running → r.id ∈ s.abandoned :=
    hs.not_running fun i p h => by cases hscanning.symm.trans h
  unfold State.scanNext
  split
  · exact ⟨.atLoop trivial (by simp) hleft, .refl _⟩
  split_ifs
  · exact ⟨.atLoop trivial (by simp) hleft, .refl _⟩
  · exact ⟨.atLoop trivial (by simp) hleft, .refl _⟩
  · split
    · next runs hinsert =>
      refine ⟨.atLoop trivial (by simp) fun hrec r' hr' hrun => ?_, .insert hinsert⟩
      rcases (Indexed.mem_insert? hinsert).mp hr' with hr' | rfl
      · exact hleft hrec r' hr' hrun
      · cases hrun
    · exact ⟨.atLoop trivial (by simp) hleft, .refl _⟩
  · exact ⟨.atLoop trivial (by simp) hleft, .refl _⟩

theorem Sound.step (hs : Sound s) {a : Action} (h : (machine setting).step s a = some s') :
    Sound s' ∧ Keeps s.runs s'.runs := by
  cases a with
  | tick now =>
    obtain ⟨-, ⟨⟩⟩ := Option.ite_none_right_eq_some.mp h
    exact ⟨hs.calm (.refl _) rfl rfl rfl, .refl _⟩
  | startRun i jobId runId =>
    cases h
    unfold State.startRun
    split
    · next runs hinsert =>
      have hcalm : Calm s.runs runs := .insert hinsert rfl
      exact ⟨hs.calm hcalm rfl rfl rfl, hcalm.keeps⟩
    · exact ⟨hs, .refl _⟩
  | cancel i =>
    cases h
    exact ⟨hs.calm .cancelQueued rfl rfl rfl, Calm.cancelQueued.keeps⟩
  | requestCancel i =>
    obtain ⟨-, ⟨⟩⟩ := Option.ite_none_right_eq_some.mp h
    have hcalm : Calm s.runs (s.runs.run i .requestCancel) := .run_of_target rfl
    exact ⟨hs.calm hcalm rfl rfl rfl, hcalm.keeps⟩
  | cancelReturn i ok =>
    obtain ⟨-, ⟨⟩⟩ := Option.ite_none_right_eq_some.mp h
    exact ⟨hs.calm (.refl _) rfl rfl rfl, .refl _⟩
  | boot =>
    obtain ⟨hdown, ⟨⟩⟩ := Option.ite_none_right_eq_some.mp h
    have hrec := hs.not_recovered (by simp [hdown, Worker.InLoop])
    exact ⟨.outside hrec (by simp) (by simp), .refl _⟩
  | crash =>
    cases h
    exact ⟨.outside rfl (by simp) (by simp), .refl _⟩
  | recoverSelect =>
    obtain ⟨hstarted, ⟨⟩⟩ := Option.ite_none_right_eq_some.mp h
    refine ⟨.outside (hs.not_recovered (by simp [hstarted, Worker.InLoop])) (by simp) ?_, .refl _⟩
    rintro _ ⟨⟩ r hr hrun
    exact AgentRuns.mem_runningIds.mpr ⟨r, hr, hrun, rfl⟩
  | recoverNext ok =>
    simp only [machine] at h
    split at h <;> cases h
    next hrecovering => exact hs.recoverNext hrecovering
  | scan config =>
    obtain ⟨hidle, ⟨⟩⟩ := Option.ite_none_right_eq_some.mp h
    simp only [State.scan]
    split_ifs
    · exact ⟨hs, .refl _⟩
    · exact ⟨hs.loops (by simp [hidle]) trivial (by simp), .refl _⟩
    · exact ⟨hs, .refl _⟩
  | scanSelect ci =>
    simp only [machine] at h
    split at h <;> cases h
    next hcounted => exact ⟨hs.loops (by simp [hcounted]) trivial (by simp), .refl _⟩
  | scanNext i ok =>
    simp only [machine] at h
    split at h <;> cases h
    next hscanning => exact hs.scanNext hscanning
  | claimSelect =>
    obtain ⟨hidle, ⟨⟩⟩ := Option.ite_none_right_eq_some.mp h
    cases s.runs.nextQueued s.clock with
    | none => exact ⟨hs, .refl _⟩
    | some i => exact ⟨hs.loops (by simp [hidle]) trivial (by simp), .refl _⟩
  | claim =>
    simp only [machine] at h
    split at h <;> cases h
    next hclaiming => exact hs.claim hclaiming
  | execute answer =>
    simp only [machine] at h
    split at h
    · next hexec => exact hs.execute hexec h
    · cases h

theorem Sound.run {clock : Millis} {as : List Action}
    (h : (machine setting).Run (FixAgent.init clock) as s) : Sound s :=
  h.inv (fun _ _ _ _ hstep hs => (hs.step hstep).1) (Sound.init clock)

theorem Keeps.of_run {bs : List Action} (hs : Sound s) (h : (machine setting).Run s bs s') :
    Keeps s.runs s'.runs :=
  h.rel (R := fun s t => Keeps s.runs t.runs) (fun _ => .refl _) (fun _ _ _ => Keeps.trans)
    (fun _ _ _ _ hstep hs => (hs.step hstep).1) (fun _ _ _ _ hstep hs => (hs.step hstep).2) hs

end Steps

namespace Sample

def claimed : List Action :=
  [.startRun 1 7 70, .boot, .recoverSelect, .recoverNext true, .claimSelect, .claim]

def restarted : List Action := [.crash, .boot, .recoverSelect, .recoverNext true, .recoverNext true]

end Sample

end Gridops.FixAgent
