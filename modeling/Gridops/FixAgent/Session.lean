import Mathlib

/-!
# One session of the fix agent

`run_session` of `gridops-agent/src/session.rs`: the loop that asks the model for a turn and runs
the tools it calls, until a `finish` is accepted. A session is a program whose steps wait for
something outside (the model, the sandbox, the run's row, the clock); `Session.step` is what
happens once the outside has answered.

The texts of the conversation decide nothing here and are left out, and so is what the tools do.
-/

namespace Gridops.FixAgent

inductive FinishOutcome where
  | pullRequest | diagnosis
deriving DecidableEq

structure ToolCall where
  name : String
  path : Option String
  /-- What `FinishRequest::parse` makes of its arguments. -/
  request : Option FinishOutcome
deriving DecidableEq

def finishTool : String := "finish"

/-- `Progress`: what the loop has seen of the model's work. -/
structure Progress where
  edited : List String := []
  checkedSinceEdit : Bool := false
  sideEffectsConfirmed : Bool := false
  verificationRequested : Bool := false
deriving DecidableEq

/-- `check_finish`: whether a finish is accepted, given the changed paths where they could be
read. Each objection is raised once. -/
def checkFinish (request : FinishOutcome) (changed : Option (List String)) (p : Progress) :
    Bool × Progress :=
  match request, changed with
  | .diagnosis, _ => (true, p)
  | .pullRequest, none => (false, p)
  | .pullRequest, some changed =>
    if changed.isEmpty then (false, p)
    else if !p.checkedSinceEdit && !p.verificationRequested then
      (false, { p with verificationRequested := true })
    else if changed.all (p.edited.contains ·) || p.sideEffectsConfirmed then (true, p)
    else (false, { p with sideEffectsConfirmed := true })

def Progress.after (p : Progress) (call : ToolCall) (isError : Bool) : Progress :=
  let p :=
    match call.path with
    | some path =>
      if !isError && (call.name == "edit_file" || call.name == "write_file") then
        { p with edited := path :: p.edited, checkedSinceEdit := false }
      else p
    | none => p
  if call.name == "run_command" && !isError then { p with checkedSinceEdit := true } else p

inductive SessionStage where
  | top
  | request (attempt : ℕ)
  /-- Whether the run was cancelled while the model was busy. -/
  | retry (attempt : ℕ)
  /-- The next call of the turn, and the finish accepted so far. -/
  | calls (todo : List ToolCall) (finished : Option FinishOutcome)
  /-- The result of a tool. -/
  | tool (call : ToolCall) (todo : List ToolCall) (finished : Option FinishOutcome)
deriving DecidableEq

structure Session where
  turnIndex : ℕ := 0
  toolCalls : ℕ := 0
  idleTurns : ℕ := 0
  progress : Progress := {}
  stage : SessionStage := .top
deriving DecidableEq

structure AgentOutcome where
  finish : FinishOutcome
  turns : ℕ
  toolCalls : ℕ
deriving DecidableEq

/-- How `run_session` returns. -/
inductive SessionEnd where
  | finished (outcome : AgentOutcome)
  | cancelled
  | failed (message : String)
deriving DecidableEq

inductive SessionAnswer where
  /-- `observer.cancelled()` is asked: whether the row could be read, and whether the session's
  time is up. -/
  | checked (readable expired : Bool)
  | turn (calls : List ToolCall)
  | modelError (transient : Bool)
  | changed (paths : Option (List String))
  | result (isError : Bool)
  | go
deriving DecidableEq

def maxTurns : ℕ := 40

def maxTurnAttempts : ℕ := 3

def maxIdleTurns : ℕ := 2

namespace Session

variable (s : Session)

def nextTurn : Session := { s with turnIndex := s.turnIndex + 1, stage := .top }

/-- `for turn_index in 0..max_turns`: the checks before the model is asked. A flag that cannot be
read counts as not set. -/
def atTop (cancelled expired : Bool) : Session ⊕ SessionEnd :=
  if maxTurns ≤ s.turnIndex then
    .inr (.failed "The agent used all 40 turns without finishing.")
  else if cancelled then .inr .cancelled
  else if expired then .inr (.failed "The agent did not finish within 25 minutes.")
  else .inl { s with stage := .request 1 }

def onTurn (calls : List ToolCall) : Session ⊕ SessionEnd :=
  if calls.isEmpty then
    if maxIdleTurns < s.idleTurns + 1 then
      .inr (.failed "The model stopped without calling finish.")
    else .inl { s with idleTurns := s.idleTurns + 1 }.nextTurn
  else .inl { s with idleTurns := 0, stage := .calls calls none }

/-- A `finish` among the calls of a turn: never preceded by a look at the cancellation flag. -/
def onFinish (call : ToolCall) (todo : List ToolCall) (finished : Option FinishOutcome)
    (changed : Option (List String)) : Session :=
  let s := { s with toolCalls := s.toolCalls + 1 }
  match call.request, finished with
  | some request, none =>
    let (accepted, progress) := checkFinish request changed s.progress
    { s with
      progress
      stage := .calls todo (if accepted then some request else none) }
  | _, _ => { s with stage := .calls todo finished }

/-- One step, with `requested` what the run's row says of cancellation. -/
def step (requested : Bool) : SessionAnswer → Option (Session ⊕ SessionEnd)
  | .checked readable expired =>
    match s.stage with
    | .top => some (s.atTop (readable && requested) expired)
    | .retry attempt =>
      if readable && requested then some (.inr .cancelled)
      else some (.inl { s with stage := .request (attempt + 1) })
    | .calls (call :: todo) finished =>
      if call.name == finishTool then none
      else if readable && requested then some (.inr .cancelled)
      else some (.inl { s with toolCalls := s.toolCalls + 1, stage := .tool call todo finished })
    | _ => none
  | .turn calls =>
    match s.stage with
    | .request _ => some (s.onTurn calls)
    | _ => none
  | .modelError transient =>
    match s.stage with
    | .request attempt =>
      if attempt < maxTurnAttempts && transient then some (.inl { s with stage := .retry attempt })
      else some (.inr (.failed "The model request failed"))
    | _ => none
  | .changed paths =>
    match s.stage with
    | .calls (call :: todo) finished =>
      if call.name == finishTool then some (.inl (s.onFinish call todo finished paths)) else none
    | _ => none
  | .result isError =>
    match s.stage with
    | .tool call todo finished =>
      some (.inl { s with
        progress := s.progress.after call isError
        stage := .calls todo finished })
    | _ => none
  | .go =>
    match s.stage with
    | .calls [] (some finish) =>
      some (.inr (.finished ⟨finish, s.turnIndex + 1, s.toolCalls⟩))
    | .calls [] none => some (.inl s.nextTurn)
    | _ => none

/-- The turn is over and a finish of it was accepted: the session returns it without another look
at the cancellation flag. -/
def hasFinished : Bool :=
  match s.stage with
  | .calls [] (some _) => true
  | _ => false

variable {s : Session} {o : AgentOutcome}

theorem atTop_ne_finished {cancelled expired : Bool} :
    s.atTop cancelled expired ≠ .inr (.finished o) := by
  unfold atTop
  split_ifs <;> simp

theorem onTurn_ne_finished {calls : List ToolCall} :
    s.onTurn calls ≠ .inr (.finished o) := by
  unfold onTurn
  split_ifs <;> simp

theorem hasFinished_of_step {requested : Bool} {a : SessionAnswer}
    (h : s.step requested a = some (.inr (.finished o))) : s.hasFinished := by
  cases a with
  | go =>
    simp only [step] at h
    split at h
    · next hstage => simp only [hasFinished, hstage]
    · simp at h
    · simp at h
  | checked readable expired => grind [step, atTop_ne_finished]
  | turn calls => grind [step, onTurn_ne_finished]
  | modelError transient => grind [step]
  | changed paths => grind [step]
  | result isError => grind [step]

end Session

end Gridops.FixAgent
