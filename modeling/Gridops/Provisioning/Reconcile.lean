import Gridops.Provisioning.Provision
import Gridops.Lib.Tally

/-!
# Reconciling one pool

`reconcile_pool` of the API and of the reconciler bring the number of a pool's runners to the
desired count. Each pass reads the rows several times, refreshes their statuses from the manager's
listing, deletes what is failed, outdated or too much, counts, and then creates what is missing one
by one. One step of a pass is one statement or one call with the statement that follows it; any
number of passes of either program interleave, and containers change at any time.

What the outside decides comes with each step: whether it succeeds, which runner the searches for a
surplus runner pick, how an attempt to provision ends. The pool's desired count is fixed.
-/

namespace Gridops.Provisioning

open Autoscaling (RunnerStatus)
open Lib (Table Machine)

def statusOf (text : String) : RunnerStatus :=
  if text = "starting" then .starting
  else if text = "online" then .online
  else if text = "idle" then .idle
  else if text = "busy" then .busy
  else if text = "paused" then .paused
  else if text = "stopped" then .stopped
  else if h : text ∉ ["starting", "online", "idle", "busy", "paused", "stopped"] then
    .other text h
  else .starting

def refreshed (r : Runner) (dockerState : Option String) : RunnerStatus :=
  let dockerState := dockerState.getD "missing"
  if dockerState = "running" then if r.busy then .busy else .online
  else if dockerState = "paused" then .paused
  else if (dockerState = "exited" || dockerState = "dead") && r.status = .stopped then .stopped
  else if dockerState = "exited" || dockerState = "dead" || dockerState = "missing" then failed
  else statusOf dockerState

def Runner.isActive (r : Runner) : Bool := r.deletedAt.isNone && r.status.counted

/-- `UPDATE runners SET status='deleted',busy=0,deleted_at=?`. -/
def Runner.delete (r : Runner) (now : Millis) : Runner :=
  { r with
    status := .other "deleted" (by decide)
    busy := false
    deletedAt := some now }

abbrev Runners := Table Runner.id

namespace Runners

variable (t : Runners)

/-- `runners_for_pool`, `runners`: newest first. -/
def live : List Runner :=
  (t.rows.filter fun r => r.deletedAt.isNone).insertionSort fun a b => b.createdAt ≤ a.createdAt

def counted : List Runner := t.live.filter (·.status.counted)

def active : ℕ := t.rows.countP Runner.isActive

variable (id : RunnerId)

def write (f : Runner → Runner) (hf : ∀ r, (f r).id = r.id) : Runners :=
  t.update (·.id == id) f hf

def refresh (r : Runner) (dockerState : Option String) : Runners :=
  t.write r.id (fun q => { q with status := refreshed r dockerState }) fun _ => rfl

def delete (now : Millis) : Runners := t.write id (·.delete now) fun _ => rfl

/-- `UPDATE runners SET busy=1,status='busy' WHERE id=? AND deleted_at IS NULL`. -/
def keepBusy : Runners :=
  t.write id (fun q => if q.deletedAt.isNone then { q with busy := true, status := .busy } else q)
    fun q => by split <;> rfl

def record (reg : Registration) (created : CreatedRunner) : Runners :=
  t.write id (·.record reg created) fun _ => rfl

def fail : Runners := t.write id Runner.fail fun _ => rfl

end Runners

/-! ## Passes -/

inductive Program where
  | api | reconciler
deriving DecidableEq

structure Pool where
  paused : Bool
  minCount : ℕ
  maxCount : ℕ
  configurationVersion : Int
deriving DecidableEq

structure Turn where
  left : ℕ
  retried : Bool
  /-- The built-in host is full and a fleet machine is ready. -/
  fleet : Bool
deriving DecidableEq

abbrev Listing := List (ContainerId × String)

inductive Stage where
  | start
  /-- The API has read the rows and asks the manager for its containers. -/
  | listing (known : List Runner)
  /-- The reconciler has the containers and reads the rows. -/
  | listed (states : Listing)
  | refreshing (states : Listing) (todo : List Runner)
  | collecting
  | removing (todo : List Runner) (next : Stage)
  | rotating
  /-- A paused pool's idle runners are read next, in the API. -/
  | draining
  | rebalancing
  | counting
  | attempting (turn : Turn)
  | launching (turn : Turn) (id : RunnerId)
  | concluding (turn : Turn) (id : RunnerId)
  /-- The built-in host is full: a surplus runner is searched. -/
  | evicting (turn : Turn)
  | reclaiming (turn : Turn) (r : Runner)
  | evictingFleet
  | finished
deriving DecidableEq

structure Pass where
  id : ℕ
  program : Program
  pool : Pool
  /-- Provisioning is paused, or a retry is due later; in the reconciler. -/
  blocked : Bool
  stage : Stage
deriving DecidableEq

inductive Outcome where
  | ok
  | error
  | kept
  | pick (id : Option RunnerId)
  | noDemand
  /-- The attempt waits for capacity, on a full host or not; a fleet machine may be ready. -/
  | deferred (full fallBack : Bool)
  | insert (s : Selection) (now : Millis)
  | created (reg : Registration) (r : CreatedRunner)
  | submitted
  /-- The attempt fails, and so does the statement that marks the row. -/
  | abandoned
deriving DecidableEq

structure Shared where
  runners : Runners
  containers : Listing
deriving DecidableEq

namespace Pass

variable (d : ℕ) (p : Pass)

def desired : ℕ :=
  match p.program with
  | .api => d
  | .reconciler => if p.pool.paused then 0 else max p.pool.minCount (min d p.pool.maxCount)

def wrapUp : Stage :=
  match p.program with
  | .api => .finished
  | .reconciler => .evictingFleet

def onward (turn : Turn) : Stage :=
  match turn.left with
  | 0 => p.wrapUp
  | left + 1 => .attempting ⟨left, false, false⟩

/-- Where the reconciler goes after an attempt that has to wait. -/
def postponed (turn : Turn) (full fallBack : Bool) : Stage :=
  if fallBack && !turn.fleet then .attempting { turn with fleet := true }
  else if full && !turn.retried then .evicting turn
  else p.wrapUp

def afterRotation : Stage :=
  match p.program with
  | .api => if p.pool.paused then .draining else .counting
  | .reconciler => .rebalancing

def stale (t : Runners) : Option Runner :=
  t.live.find? fun r =>
    r.ciPlatform != .bitbucket && !r.busy && r.configurationVersion < p.pool.configurationVersion

def excess (t : Runners) : List Runner :=
  (t.counted.filter fun r => r.ciPlatform != .bitbucket && !r.busy).take
    (t.counted.length - p.desired d)

/-- The reconciler keeps a runner that is running a job, unless its runtime is gone. -/
def mayKeep (r : Runner) : Bool :=
  p.program == .reconciler && r.ciPlatform != .bitbucket && r.status != failed

def creates (t : Runners) : Bool :=
  !(p.program == .reconciler && p.blocked) && t.counted.length < p.desired d

/-- Deletes one runner: the stage and the rows after it. -/
def remove (s : Shared) (now : Millis) (r : Runner) : Outcome → Option (Shared × Option Bool)
  | .ok => some ({ s with
      runners := s.runners.delete r.id now
      containers := s.containers.filter fun c => some c.1 ≠ r.containerId }, some true)
  | .kept => if p.mayKeep r then some ({ s with runners := s.runners.keepBusy r.id }, some false)
      else none
  | .error => some (s, none)
  | _ => none

def step (now : Millis) (s : Shared) (o : Outcome) : Option (Shared × Stage) :=
  match p.stage, o with
  | .start, .ok =>
    match p.program with
    | .api => some (s, .listing s.runners.live)
    | .reconciler => some (s, .listed s.containers)
  | .listing known, .ok => some (s, .refreshing s.containers known)
  | .listing known, .error =>
    some (s, if known.all (·.containerId.isNone) then .refreshing [] known else .finished)
  | .listed states, .ok => some (s, .refreshing states s.runners.live)
  | .refreshing _ [], .ok => some (s, .collecting)
  | .refreshing states (r :: todo), .ok =>
    match r.containerId with
    | none => some (s, .refreshing states todo)
    | some id =>
      some ({ s with runners := s.runners.refresh r (states.lookup id) }, .refreshing states todo)
  | .collecting, .ok =>
    some (s, .removing (s.runners.live.filter (·.status = failed)) .rotating)
  | .removing [] next, .ok => some (s, next)
  | .removing (r :: todo) next, o =>
    (p.remove s now r o).map fun (s, removed) =>
      (s, if removed.isSome then .removing todo next else .finished)
  | .rotating, .ok =>
    if p.program == .reconciler && p.blocked then some (s, p.afterRotation)
    else some (s, .removing (p.stale s.runners).toList p.afterRotation)
  | .draining, .ok =>
    some (s, .removing (s.runners.counted.filter fun r => !r.busy) .finished)
  | .rebalancing, .pick id =>
    if p.blocked || p.pool.paused || s.runners.counted.length < p.desired d then
      some (s, .counting)
    else some (s, .removing (s.runners.live.filter fun r => some r.id = id) .counting)
  | .counting, .ok =>
    if p.creates d s.runners then
      some (s, .attempting ⟨p.desired d - s.runners.counted.length - 1, false, false⟩)
    else some (s, .removing (p.excess d s.runners) p.wrapUp)
  | .attempting turn, .insert selection now =>
    (s.runners.insert? (selection.row now)).map fun runners =>
      ({ s with runners }, .launching turn selection.runnerId)
  | .attempting turn, .deferred full fallBack =>
    if p.program == .reconciler && !turn.fleet then some (s, p.postponed turn full fallBack)
    else none
  | .attempting _, .noDemand => if p.program == .reconciler then some (s, p.wrapUp) else none
  | .launching turn id, .created reg r =>
    some ({ s with
      runners := s.runners.record id reg r
      containers := s.containers ++ [(r.id, r.state)] }, .concluding turn id)
  | .launching turn _, .submitted =>
    if p.program == .reconciler then some (s, p.onward turn) else none
  | .launching _ id, .error => some ({ s with runners := s.runners.fail id }, .finished)
  | .launching turn id, .deferred full fallBack =>
    if p.program == .reconciler && !turn.fleet then
      some ({ s with runners := s.runners.fail id }, p.postponed turn full fallBack)
    else none
  | .concluding turn _, .ok => some (s, p.onward turn)
  | .concluding _ id, .error =>
    match p.program with
    | .api => some ({ s with runners := s.runners.fail id }, .finished)
    | .reconciler => some (s, .finished)
  | .evicting turn, .pick id =>
    match s.runners.live.find? fun r => some r.id = id with
    | some r => some (s, .reclaiming turn r)
    | none => some (s, p.wrapUp)
  | .reclaiming turn r, o =>
    (p.remove s now r o).map fun (s, removed) =>
      (s, match removed with
        | some true => .attempting { turn with retried := true, fleet := false }
        | some false => p.wrapUp
        | none => .finished)
  | .evictingFleet, .pick id =>
    if p.blocked then some (s, .finished)
    else some (s, .removing (s.runners.live.filter fun r => some r.id = id) .finished)
  | .finished, _ => none
  -- Any other call or statement that fails ends the pass.
  | _, .error => some (s, .finished)
  | _, .abandoned => some (s, .finished)
  | _, _ => none

end Pass

structure System where
  shared : Shared
  passes : Table Pass.id
deriving DecidableEq

inductive Action where
  | begin (id : ℕ) (program : Program) (pool : Pool) (blocked : Bool)
  | advance (id : ℕ) (now : Millis) (o : Outcome)
  | container (id : ContainerId) (state : Option String)
deriving DecidableEq

namespace System

variable (d : ℕ)

def step (s : System) : Action → Option System
  | .begin id program pool blocked =>
    (s.passes.insert? ⟨id, program, pool, blocked, .start⟩).map fun passes => { s with passes }
  | .advance id now o =>
    (s.passes.find id).bind fun p => (p.step d now s.shared o).map fun (shared, stage) =>
      { shared, passes := s.passes.update (·.id == id) (fun p => { p with stage }) fun _ => rfl }
  | .container id state =>
    let others := s.shared.containers.filter (·.1 ≠ id)
    some { s with shared := { s.shared with
      containers := others ++ (state.map fun text => (id, text)).toList } }

end System

/-- The passes over one pool whose desired count is `d`. -/
def reconciling (d : ℕ) : Machine System Action := ⟨System.step d⟩

end Gridops.Provisioning
