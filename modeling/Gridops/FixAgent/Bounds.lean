import Gridops.FixAgent.Session
import Gridops.Lib.Run

/-!
# What every session of the fix agent keeps to

The model, the sandbox and the database may answer `run_session` anything. Its bounds are then
those of the loop, of the retries in `request_turn` and of the objections in `check_finish`, each
of which is raised once.
-/

namespace Gridops.FixAgent

open Lib (Machine)

/-- A session, and what it has asked of the model and made of its finishes. -/
structure Watched where
  session : Session := {}
  /-- Requests for a turn that were answered or failed. -/
  requests : ℕ := 0
  /-- Pull requests refused although there were changes. -/
  refused : ℕ := 0
  /-- The changes under which a pull request was accepted last. -/
  accepted : List String := []

/-- The changes under which `check_finish` judges a pull request, and its verdict. -/
def Session.judges (s : Session) (a : SessionAnswer) : Option (List String × Bool) :=
  match a, s.stage with
  | .changed (some (path :: paths)), .calls (call :: _) none =>
    if call.request = some .pullRequest then
      some (path :: paths, (checkFinish .pullRequest (some (path :: paths)) s.progress).1)
    else none
  | _, _ => none

def SessionAnswer.ofModel : SessionAnswer → Bool
  | .turn _ | .modelError _ => true
  | _ => false

/-- Every way a session can go on, with the cancellation flag as the row has it each time. -/
def watch : Machine Watched (Bool × SessionAnswer) where
  step w
    | (requested, a) =>
      ((w.session.step requested a).bind Sum.getLeft?).map fun session =>
        { session
          requests := w.requests + a.ofModel.toNat
          refused := w.refused + ((w.session.judges a).any (!·.2)).toNat
          accepted := ((w.session.judges a).filter (·.2)).elim w.accepted (·.1) }

namespace Progress

/-- The objections `check_finish` has raised. -/
def objections (p : Progress) : ℕ := p.verificationRequested.toNat + p.sideEffectsConfirmed.toNat

/-- The model has edited these files, or was told once of files that it had not. -/
def covers (p : Progress) (paths : List String) : Prop :=
  p.sideEffectsConfirmed ∨ paths ⊆ p.edited

/-- What one step of a session does to what it has seen, with the objections it raises. -/
structure Grows (p : Progress) (raised : ℕ) (q : Progress) : Prop where
  objections : p.objections + raised ≤ q.objections
  covers : ∀ paths, p.covers paths → q.covers paths

theorem Grows.refl (p : Progress) : p.Grows 0 p := ⟨le_rfl, fun _ h => h⟩

theorem grows_after (p : Progress) (call : ToolCall) (isError : Bool) :
    p.Grows 0 (p.after call isError) := by
  unfold Progress.after
  cases call.path <;> dsimp only <;> split_ifs <;>
    exact ⟨le_rfl, fun _ h => h.imp_right fun h _ hpath => by simp [h hpath]⟩

theorem grows_checkFinish (p : Progress) (paths : List String) (hpaths : paths ≠ []) :
    p.Grows (!(checkFinish .pullRequest (some paths) p).1).toNat
      (checkFinish .pullRequest (some paths) p).2 := by
  simp only [checkFinish, List.isEmpty_eq_false_iff.mpr hpaths, Bool.false_eq_true, if_false]
  split_ifs <;> constructor <;> simp_all [Progress.objections, Progress.covers, Nat.add_comm]

theorem covers_of_accepted {p : Progress} {paths : List String} (hpaths : paths ≠ [])
    (h : (checkFinish .pullRequest (some paths) p).1) :
    (checkFinish .pullRequest (some paths) p).2.covers paths := by
  simp only [checkFinish, List.isEmpty_eq_false_iff.mpr hpaths, Bool.false_eq_true, if_false] at h ⊢
  split_ifs at h ⊢ with hasked hcovered
  simp only [Bool.or_eq_true, List.all_eq_true, List.contains_iff_mem] at hcovered
  exact hcovered.symm

end Progress

namespace Session

variable {s t : Session} {requested : Bool} {a : SessionAnswer}

/-- The finish that stands in this turn. -/
def finish? (s : Session) : Option FinishOutcome :=
  match s.stage with
  | .calls _ finished | .tool _ _ finished => finished
  | _ => none

/-- The requests for a turn that the session can have made by now. -/
def allowance (s : Session) : ℕ :=
  maxTurnAttempts * s.turnIndex +
    match s.stage with
    | .top => 0
    | .request attempt => attempt - 1
    | .retry attempt => attempt
    | .calls _ _ | .tool _ _ _ => maxTurnAttempts

def InLimits (s : Session) : Prop :=
  match s.stage with
  | .top => s.turnIndex ≤ maxTurns
  | .request n => s.turnIndex < maxTurns ∧ 1 ≤ n ∧ n ≤ maxTurnAttempts
  | .retry n => s.turnIndex < maxTurns ∧ 1 ≤ n ∧ n < maxTurnAttempts
  | .calls _ _ | .tool _ _ _ => s.turnIndex < maxTurns

/-- A pull request stands only where it stood before, or was accepted just now. -/
def Stands (s : Session) (a : SessionAnswer) (finish : Option FinishOutcome) (p : Progress) :
    Prop :=
  finish = some .pullRequest →
    s.finish? = some .pullRequest ∧ s.judges a = none ∨
      ∃ paths, paths ≠ [] ∧ s.judges a = some (paths, true) ∧ p.covers paths

/-- What a step that goes on does to the bounds. -/
structure GoesOn (s : Session) (a : SessionAnswer) (t : Session) : Prop where
  limits : t.InLimits
  requests : s.allowance + a.ofModel.toNat ≤ t.allowance := by
    grind [allowance, SessionAnswer.ofModel, nextTurn, maxTurnAttempts]
  progress : s.progress.Grows ((s.judges a).any (!·.2)).toNat t.progress := by exact .refl _
  stands : s.Stands a t.finish? t.progress := by simp [Stands, finish?, judges, nextTurn]

theorem onFinish_spec {call : ToolCall} {todo : List ToolCall} {finished : Option FinishOutcome}
    (hstage : s.stage = .calls (call :: todo) finished) (changed : Option (List String)) :
    ∃ finish p, s.onFinish call todo finished changed =
        { s with toolCalls := s.toolCalls + 1, progress := p, stage := .calls todo finish } ∧
      s.progress.Grows ((s.judges (.changed changed)).any (!·.2)).toNat p ∧
      s.Stands (.changed changed) finish p := by
  by_cases hpr : call.request = some .pullRequest ∧ finished = none
  · obtain ⟨hrequest, rfl⟩ := hpr
    refine ⟨if (checkFinish .pullRequest changed s.progress).1 then some .pullRequest else none,
      (checkFinish .pullRequest changed s.progress).2, by simp [onFinish, hrequest], ?_⟩
    rcases changed with _ | _ | ⟨path, paths⟩
    · exact ⟨.refl _, by simp [Stands, checkFinish]⟩
    · exact ⟨.refl _, by simp [Stands, checkFinish]⟩
    · have hjudges : s.judges (.changed (some (path :: paths))) = some (path :: paths,
          (checkFinish .pullRequest (some (path :: paths)) s.progress).1) := by
        simp [judges, hstage, hrequest]
      rw [hjudges]
      refine ⟨s.progress.grows_checkFinish _ (List.cons_ne_nil _ _), fun hfinish => .inr ?_⟩
      have haccepted : (checkFinish .pullRequest (some (path :: paths)) s.progress).1 := by
        simpa using hfinish
      exact ⟨_, List.cons_ne_nil _ _, hjudges.trans (by rw [haccepted]),
        Progress.covers_of_accepted (List.cons_ne_nil _ _) haccepted⟩
  · have hjudges : s.judges (.changed changed) = none := by
      rcases changed with _ | _ | _ <;> rcases finished with _ | _ <;> simp_all [judges]
    refine ⟨finished.or call.request, s.progress, ?_, by simp [hjudges, Progress.Grows.refl], ?_⟩
    · rcases finished with _ | _ <;> rcases hrequest : call.request with _ | _ | _ <;>
        simp_all [onFinish, checkFinish]
    · rcases finished with _ | _ <;> simp_all [Stands, finish?]

theorem goesOn_of_step (hs : s.InLimits) (h : s.step requested a = some (.inl t)) :
    GoesOn s a t := by
  rcases s with ⟨turn, toolCalls, idle, progress, - | n | n | ⟨- | ⟨call, todo⟩, f⟩ | ⟨call, todo, f⟩⟩
    <;> cases a <;> simp only [step, reduceCtorEq] at h
  · simp only [atTop, Option.some.injEq] at h
    split_ifs at h with hturn
    cases h
    exact { limits := ⟨not_le.mp hturn, by decide⟩ }
  · obtain ⟨hturn, hn⟩ := hs
    simp only [onTurn, Option.some.injEq] at h
    split_ifs at h <;> cases h
    · exact { limits := hturn }
    · exact { limits := hturn }
  · obtain ⟨hturn, hn⟩ := hs
    split_ifs at h with hretry <;> cases h
    exact { limits := ⟨hturn, hn.1, by simp_all⟩ }
  · obtain ⟨hturn, hn⟩ := hs
    split_ifs at h <;> cases h
    exact { limits := ⟨hturn, by omega, hn.2⟩ }
  · cases f with
    | none =>
      cases h
      exact { limits := hs }
    | some => cases h
  · split_ifs at h <;> cases h
    exact { limits := hs }
  · next changed =>
    split_ifs at h
    cases h
    obtain ⟨finish, p, heq, hgrows, hstands⟩ :=
      onFinish_spec (s := ⟨turn, toolCalls, idle, progress, .calls (call :: todo) f⟩) rfl changed
    rw [heq]
    exact { limits := hs, progress := hgrows, stands := hstands }
  · cases h
    exact { limits := hs, progress := progress.grows_after call _ }

/-- The model is asked only in a request, which the allowance has not counted yet. -/
theorem allowance_le (hs : s.InLimits) (h : (s.step requested a).isSome) :
    s.allowance + a.ofModel.toNat ≤ maxTurns * maxTurnAttempts := by
  cases hmodel : a.ofModel with
  | false => grind [InLimits, allowance, maxTurns, maxTurnAttempts]
  | true =>
    obtain ⟨n, hstage⟩ : ∃ n, s.stage = .request n := by
      cases hstage : s.stage <;> cases a <;> simp_all [step, SessionAnswer.ofModel]
    simp only [InLimits, allowance, hstage, maxTurns, maxTurnAttempts, Bool.toNat_true] at hs ⊢
    omega

theorem finished_of_step {o : AgentOutcome} (h : s.step requested a = some (.inr (.finished o))) :
    s.stage = .calls [] (some o.finish) ∧ o.turns = s.turnIndex + 1 := by
  have hfinished := hasFinished_of_step h
  unfold hasFinished at hfinished
  split at hfinished
  · next hstage =>
    cases a <;> simp only [step, hstage, reduceCtorEq] at h
    cases h
    exact ⟨hstage, rfl⟩
  · cases hfinished

end Session

namespace Watched

structure Bounded (w : Watched) : Prop where
  limits : w.session.InLimits
  requests : w.requests ≤ w.session.allowance
  refused : w.refused ≤ w.session.progress.objections
  accepted : w.session.finish? = some .pullRequest →
    w.accepted ≠ [] ∧ w.session.progress.covers w.accepted

theorem Bounded.step {w w' : Watched} {a : Bool × SessionAnswer} (hw : w.Bounded)
    (h : watch.step w a = some w') : w'.Bounded := by
  obtain ⟨session, hsession, rfl⟩ := Option.map_eq_some_iff.mp h
  obtain ⟨result, hstep, hleft⟩ := Option.bind_eq_some_iff.mp hsession
  cases result <;> cases hleft
  have hgoes := Session.goesOn_of_step hw.limits hstep
  refine ⟨hgoes.limits, (Nat.add_le_add_right hw.requests _).trans hgoes.requests,
    (Nat.add_le_add_right hw.refused _).trans hgoes.progress.objections, fun hfinish => ?_⟩
  rcases hgoes.stands hfinish with ⟨hfinish, hnone⟩ | ⟨paths, hpaths, hsome, hcovers⟩
  · simpa [hnone] using (hw.accepted hfinish).imp_right (hgoes.progress.covers _)
  · simpa [hsome, Option.filter] using And.intro hpaths hcovers

end Watched

/-- **A session stays in its bounds.** With the request under way it asks for a turn at most 120
times, it refuses at most two pull requests with changes, and returns within 40 turns; a pull
request that it returns was accepted with changes, either all to files that the model edited or
after an objection to files that it did not. -/
theorem session_bounded {as : List (Bool × SessionAnswer)} {w : Watched}
    (h : watch.Run {} as w) :
    (∀ requested a, (w.session.step requested a).isSome →
      w.requests + a.ofModel.toNat ≤ maxTurns * maxTurnAttempts) ∧ w.refused ≤ 2 ∧
      ∀ requested a o, w.session.step requested a = some (.inr (.finished o)) →
        o.turns ≤ maxTurns ∧ (o.finish = .pullRequest →
          w.accepted ≠ [] ∧ w.session.progress.covers w.accepted) := by
  have hw : w.Bounded := by
    refine h.inv (I := Watched.Bounded) (fun _ _ _ _ hstep hw => hw.step hstep) ?_
    exact ⟨Nat.zero_le _, Nat.zero_le _, Nat.zero_le _, by simp [Session.finish?]⟩
  obtain ⟨limits, requests, refused, accepted⟩ := hw
  refine ⟨fun requested a hstep => ?_, refused.trans ?_, fun requested a o hstep => ?_⟩
  · have hlimit := Session.allowance_le limits hstep
    omega
  · exact Nat.add_le_add (Bool.toNat_le _) (Bool.toNat_le _)
  · obtain ⟨hstage, hturns⟩ := Session.finished_of_step hstep
    simp only [Session.InLimits, Session.finish?, hstage] at limits accepted
    exact ⟨hturns ▸ limits, fun hfinish => accepted (congrArg some hfinish)⟩

/-- The model finishes without a check and again after an edit; the second finish is accepted. -/
theorem session_bounded_unchecked : ∃ w, watch.Run {}
    ([.checked true false, .turn [⟨"finish", none, some .pullRequest⟩], .changed (some ["a.txt"]),
      .go, .checked true false, .turn [⟨"edit_file", some "a.txt", none⟩,
      ⟨"finish", none, some .pullRequest⟩], .checked true false, .result false,
      .changed (some ["a.txt"])].map (false, ·)) w ∧
    (w.session.stage = .calls [] (some .pullRequest) ∧ w.refused = 1) ∧
    ∀ requested a o, w.session.step requested a = some (.inr (.finished o)) →
      o.turns ≤ maxTurns ∧ (o.finish = .pullRequest →
        w.accepted ≠ [] ∧ w.session.progress.covers w.accepted) :=
  Machine.exists_runs (by decide +kernel) fun _ hw => (session_bounded hw).2.2

end Gridops.FixAgent
