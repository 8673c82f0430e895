import Gridops.Fleet.Placement

/-!
# The reconciler drives one placement

`register_and_start`, the `starting` branch of `follow`, and `finish` of the
reconciler's `fleet.rs`, for one placement. The process commits each database
step on its own, so the host's polls, results and settlements can fall between
any two of them: `Drive` is the database together with how far the process got,
and `reconciler` lets both sides step in any order.
-/

namespace Gridops.Fleet

open Gridops.Lib

def startWindowMillis : Millis := 60000
def startCommandDeadlineMillis : Millis := 30000
def cleanupDeadlineMillis : Millis := 55000
def stuckMillis : Millis := 300000

variable (s : Store)

namespace Store

def hostHasAuthority (p : PlacementId) (now : Millis) : Bool :=
  (s.placements.find p).any fun x => (s.hosts.find x.hostId).any fun h =>
    h.authorityExpiresAt.any (now + 5000 < ·) && x.hostEpoch == h.epoch

def newestCommand (p : PlacementId) (kind : CommandKind) : Option Command :=
  s.commands.rows.reverse.find? fun c => c.placementId == some p && c.kind == kind

def commandState (p : PlacementId) (kind : CommandKind) :
    Option (CommandState × Millis) :=
  (s.newestCommand p kind).map fun c => (c.state, c.issuedAt)

/-- Evidence from the latest applied, successful command of `kind`. -/
def succeededEvidence (p : PlacementId) (kind : CommandKind) : Option SuccessEvidence :=
  let applied := s.results.rows.filter fun r => r.disposition == .applied
    && s.commands.rows.any fun c => c.id == r.commandId && c.placementId == some p
        && c.kind == kind && c.state == .succeeded
  let latest := @List.argmax _ _ Int.instLinearOrder.toPreorder _ (·.receivedAt) applied
  match latest.map fun r => r.result.outcome with
  | some (CommandOutcome.succeeded evidence) => some evidence
  | _ => none

def preparedEnvironment (p : PlacementId) : Option EnvironmentId :=
  match s.succeededEvidence p .prepareEnvironment with
  | some (.preparedEnvironment env) => some env
  | _ => none

def preparedWith (p : PlacementId) : Option PrepareEnvironment :=
  match (s.newestCommand p .prepareEnvironment).map fun c => c.payload.operation with
  | some (AgentOperation.prepareEnvironment prepare) => some prepare
  | _ => none

def storeBootstrap (p : PlacementId) (reference : BootstrapReference) (sealed : String)
    (ttl now : Millis) : Except FleetError Store :=
  match s.placements.find p with
  | none => .ok s
  | some x =>
    match s.bootstrap.insert? ⟨reference, p, x.hostId, some sealed, now + ttl, none, none⟩ with
    | none => .error .database
    | some bootstrap => .ok { s with bootstrap := bootstrap }

/-- `register_and_start` up to the start command, which it returns. `runnerStarting`: the runner's
row is still `starting`. -/
def register (p : PlacementId) (runnerStarting : Bool) (reference : BootstrapReference)
    (sealed : String) (now : Millis) : Store × Option StartRunner :=
  if !s.hostHasAuthority p now then (s, none)
  else match s.preparedEnvironment p, s.preparedWith p with
    | some environment, some prepare =>
      -- Deleted before it started: abandon the placement and free its room.
      if !runnerStarting then (committed s (s.abandonUnstarted p now), none)
      else match s.storeBootstrap p reference sealed startWindowMillis now with
        | .error _ => (s, none)
        | .ok t => (t, some {
            preparedEnvironmentId := environment
            executionProfileId := prepare.executionProfileId
            profileRevision := prepare.profileRevision
            bootstrapReference := reference
            bootstrapExpiresAt := now + startWindowMillis
            resourceRequest := prepare.resourceRequest
            allocationIds := prepare.allocationIds })
    | _, _ => (s, none)

def isStuck (p : PlacementId) (now : Millis) : Bool :=
  (s.commandState p .startRunner).any fun (state, issued) =>
    state == .cancelled || issued < now - stuckMillis

/-- An uncertain placement whose runtime object is known is cleaned up. -/
def finish (H : Hashing) (s : Store) (p : PlacementId) (freshId : CommandId) (now : Millis) :
    Store :=
  match (s.placements.find p).map fun x => x.state with
  | some PlacementState.failed => committed s (s.abandonUnstarted p now)
  | some PlacementState.uncertain =>
    match s.succeededEvidence p .startRunner with
    | some (.runnerStarted _ _ _ identity) =>
      committed s (s.issueCommand H p (.cleanup identity) (.cleanup p (now / 60000))
        cleanupDeadlineMillis freshId now)
    | _ => s
  | _ => s

end Store

/-! ## The process -/

/-- How far the reconciler got with the placement. -/
inductive Phase
  | idle
  | registered (start : StartRunner)
  | issued (id : CommandId)
  | marked (id : CommandId)
  /-- `follow` read the placement as `starting`. -/
  | seen (id : CommandId)
  /-- `follow` found the start command stuck. -/
  | stuck (id : CommandId)
deriving DecidableEq

def Phase.started : Phase → Option CommandId
  | .marked id | .seen id | .stuck id => some id
  | _ => none

structure Drive where
  store : Store
  phase : Phase
deriving DecidableEq

def Op.isHostCall : Op → Bool
  | .poll .. | .record .. | .settle .. => true
  | _ => false

inductive DriveStep
  | host (op : Op)
  | register (runnerStarting : Bool) (reference : BootstrapReference) (sealed : String)
      (now : Millis)
  | issue (freshId : CommandId) (now : Millis)
  | mark (runner : RunnerId) (now : Millis)
  | fetch
  | judge (now : Millis)
  | giveUp (now : Millis)
  | finish (freshId : CommandId) (now : Millis)
deriving DecidableEq

namespace Drive

def step (H : Hashing) (p : PlacementId) (d : Drive) : DriveStep → Option Drive
  | .host op => if op.isHostCall then some { d with store := d.store.exec H op } else none
  | .register runnerStarting reference sealed now =>
    match d.phase with
    | .idle =>
      let (s, start) := d.store.register p runnerStarting reference sealed now
      some ⟨s, (start.map Phase.registered).getD .idle⟩
    | _ => none
  | .issue freshId now =>
    match d.phase with
    | .registered start =>
      match d.store.issueCommand H p (.startRunner start) (.start p) startCommandDeadlineMillis
          freshId now with
      | .ok (some id, s) => some ⟨s, .issued id⟩
      | .ok (none, s) => some ⟨s, .idle⟩
      | .error _ => some { d with phase := .idle }
    | _ => none
  | .mark runner now =>
    match d.phase with
    | .issued id => some ⟨d.store.markStarting p runner now, .marked id⟩
    | _ => none
  | .fetch =>
    match d.phase with
    | .marked id =>
      if (d.store.placements.find p).any (·.state == .starting) then some { d with phase := .seen id }
      else some d
    | _ => none
  | .judge now =>
    match d.phase with
    | .seen id =>
      some { d with phase := if d.store.isStuck p now then .stuck id else .marked id }
    | _ => none
  | .giveUp now =>
    match d.phase with
    | .stuck id => some ⟨d.store.setState p .starting .uncertain now, .marked id⟩
    | _ => none
  | .finish freshId now =>
    match d.phase with
    | .marked _ => some { d with store := d.store.finish H p freshId now }
    | _ => none

end Drive

def reconciler (H : Hashing) (p : PlacementId) : Machine Drive DriveStep := ⟨Drive.step H p⟩

end Gridops.Fleet
