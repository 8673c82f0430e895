import Gridops.Fleet.Store

/-!
# The agent's journal

The SQLite file an agent keeps on its host (`journal.rs`). A command's receipt is
written before any work starts and its result before it is acknowledged, so what
survives a crash tells whether a command was seen, finished, or cut short. The
journal also records the environments this agent owns and the credential it
presents. Every function here is one transaction, atomic and durable.

The table of shipped runner output is left out: no command depends on it.
-/

namespace Gridops.HostAgent

open Gridops.Lib Gridops.Fleet

structure Identity where
  hostId : HostId
  hostEpoch : Nat
  credential : Secret
  credentialGeneration : Nat
deriving DecidableEq

structure StoredRotation where
  operationId : RotationId
  nextGeneration : Nat
  nextSecret : Secret
deriving DecidableEq

structure JournaledCommand where
  commandId : CommandId
  requestHash : String
  envelope : AgentCommandEnvelope
  receivedAt : Millis
  result : Option AgentCommandResult
  bootId : Option String
deriving DecidableEq

/-- An environment this agent prepared for one placement generation. -/
structure Environment where
  id : EnvironmentId
  placementId : PlacementId
  generation : Nat
  workload : PreparedWorkload
  runtimeKind : RuntimeKind
  executionOs : ExecutionOs
  dockerSocket : Bool
  prepare : PrepareEnvironment
  localIdentity : Option LocalResourceIdentity
deriving DecidableEq

structure Journal where
  identity : Option Identity
  rotation : Option StoredRotation
  commands : Table JournaledCommand.commandId
  environments : Table Environment.id
  delivered : List CommandId
deriving DecidableEq

inductive Receipt
  | new
  | interrupted
  | completed (result : AgentCommandResult)
deriving DecidableEq

inductive JournalError
  | conflict | storage
deriving DecidableEq

namespace Journal

variable (j : Journal)

def empty : Journal := ⟨none, none, .empty, .empty, []⟩

/-- Records receipt before any work. A reused command id with a different request hash
is a conflict, never a second execution. -/
def receive (envelope : AgentCommandEnvelope) (now : Millis) (boot : String) :
    Except JournalError (Receipt × Journal) :=
  match j.commands.insert? ⟨envelope.commandId, envelope.requestHash, envelope, now, none,
      some boot⟩ with
  | some commands => .ok (.new, { j with commands := commands })
  | none =>
    match j.commands.find envelope.commandId with
    | none => .error .storage
    | some row =>
      if row.requestHash ≠ envelope.requestHash then .error .conflict
      else match row.result with
        | some result => .ok (.completed result, j)
        | none => .ok (.interrupted, j)

def rebootedSince (id : CommandId) (boot : String) : Bool :=
  ((j.commands.find id).bind (·.bootId)).any (· != boot)

def complete (result : AgentCommandResult) : Except JournalError Journal :=
  if j.commands.rows.any fun c => c.commandId == result.commandId && c.result.isNone then
    .ok { j with
      commands := j.commands.update (fun c => c.commandId == result.commandId && c.result.isNone)
        (fun c => { c with result := some result }) (fun _ => rfl) }
  else .error .storage

/-- `ORDER BY received_at, command_id`. -/
def receivedBefore (a b : JournaledCommand) : Prop :=
  a.receivedAt < b.receivedAt ∨ (a.receivedAt = b.receivedAt ∧ a.commandId ≤ b.commandId)

instance : DecidableRel receivedBefore := fun a b =>
  inferInstanceAs (Decidable (a.receivedAt < b.receivedAt ∨
    (a.receivedAt = b.receivedAt ∧ a.commandId ≤ b.commandId)))

def undelivered (since : Millis) :
    List (AgentCommandEnvelope × Option AgentCommandResult) :=
  ((j.commands.rows.filter fun c => since ≤ c.receivedAt && c.commandId ∉ j.delivered).insertionSort
    receivedBefore).map fun c => (c.envelope, c.result)

def markDelivered (id : CommandId) : Journal :=
  if id ∈ j.delivered then j else { j with delivered := j.delivered ++ [id] }

def recordEnvironment (environment : Environment) : Except JournalError Journal :=
  if j.environments.rows.any fun e => e.placementId == environment.placementId
      && e.generation == environment.generation then .error .storage
  else match j.environments.insert? environment with
    | none => .error .storage
    | some environments => .ok { j with environments := environments }

/-- Binds the runtime object created by a start. An environment owns at most one local
resource, and it cannot be rebound to another. -/
def bindLocalIdentity (id : EnvironmentId) (identity : LocalResourceIdentity) :
    Except JournalError Journal :=
  let free (e : Environment) := e.id == id
    && (e.localIdentity.isNone || e.localIdentity == some identity)
  if j.environments.rows.any free then
    .ok { j with
      environments := j.environments.update free
        (fun e => { e with localIdentity := some identity }) (fun _ => rfl) }
  else .error .storage

def placementEnvironment (placementId : PlacementId) (generation : Nat) :
    Option Environment :=
  j.environments.rows.find? fun e => e.placementId == placementId && e.generation == generation

/-- The replacement secret for a rotation, stored before the exchange so that a crash
replays the same secret instead of conflicting. -/
def rotationSecret (operation : RotationId) (nextGeneration : Nat) (fresh : Secret) :
    Secret × Journal :=
  match j.rotation with
  | some row =>
    if row.operationId = operation then (row.nextSecret, j)
    else (fresh, { j with rotation := some ⟨operation, nextGeneration, fresh⟩ })
  | none => (fresh, { j with rotation := some ⟨operation, nextGeneration, fresh⟩ })

/-- Switches to the acknowledged credential and forgets the pending secret. -/
def finishRotation (credential : Secret) (generation : Nat) : Journal :=
  { j with
    identity := j.identity.map fun i => { i with credential, credentialGeneration := generation }
    rotation := none }

/-! ## What the transactions do -/

variable {j j' : Journal} {envelope : AgentCommandEnvelope} {now : Millis} {boot : String}
  {result : AgentCommandResult}

/-- A first delivery adds a row with no result; any other finds the row of its own hash
and writes nothing. -/
theorem receive_cases {receipt : Receipt} (h : j.receive envelope now boot = .ok (receipt, j')) :
    (receipt = .new ∧ j.commands.find envelope.commandId = none ∧ ∃ commands,
      j.commands.insert? ⟨envelope.commandId, envelope.requestHash, envelope, now, none,
        some boot⟩ = some commands ∧ j' = { j with commands := commands }) ∨
    (j' = j ∧ ∃ row, j.commands.find envelope.commandId = some row ∧
      row.requestHash = envelope.requestHash ∧
      ((receipt = .interrupted ∧ row.result = none) ∨
        ∃ result, receipt = .completed result ∧ row.result = some result)) := by
  unfold receive at h
  split at h
  · next commands hinsert =>
    cases h
    refine .inl ⟨rfl, ?_, commands, hinsert, rfl⟩
    cases hfind : j.commands.find envelope.commandId with
    | none => rfl
    | some row =>
      have hkey := Table.key_of_find hfind
      exact absurd (List.mem_map.mpr ⟨row, Table.mem_of_find hfind, hkey⟩)
        (Table.insert?_some.mp hinsert).1
  · split at h
    · cases h
    · next row hrow =>
      split at h
      · cases h
      · next hhash =>
        push Not at hhash
        split at h
        · next result hresult =>
          cases h
          exact .inr ⟨rfl, row, hrow, hhash, .inr ⟨result, rfl, hresult⟩⟩
        · next hresult =>
          cases h
          exact .inr ⟨rfl, row, hrow, hhash, .inl ⟨rfl, hresult⟩⟩

theorem receive_conflict {c : JournaledCommand} (hc : c ∈ j.commands)
    (hid : envelope.commandId = c.commandId) (hhash : envelope.requestHash ≠ c.requestHash) :
    j.receive envelope now boot = .error .conflict := by
  have hfind : j.commands.find envelope.commandId = some c := hid ▸ Table.find_key hc
  have hinsert : j.commands.insert? ⟨envelope.commandId, envelope.requestHash, envelope, now, none,
      some boot⟩ = none := Table.insert?_none.mpr ⟨c, hc, hid.symm⟩
  unfold receive
  rw [hinsert, hfind]
  exact if_pos hhash.symm

theorem complete_cases (h : j.complete result = .ok j') :
    (∃ row, j.commands.find result.commandId = some row ∧ row.result = none) ∧
      j' = { j with
        commands := j.commands.update
          (fun c => c.commandId == result.commandId && c.result.isNone)
          (fun c => { c with result := some result }) (fun _ => rfl) } := by
  unfold complete at h
  split at h
  · next hopen =>
    cases h
    obtain ⟨row, hmem, hrow⟩ := List.any_eq_true.mp hopen
    simp only [Bool.and_eq_true, beq_iff_eq, Option.isNone_iff_eq_none] at hrow
    exact ⟨⟨row, Table.find_some_iff.mpr ⟨hmem, hrow.1⟩, hrow.2⟩, rfl⟩
  · cases h

theorem recordEnvironment_commands {environment : Environment}
    (h : j.recordEnvironment environment = .ok j') :
    j' = { j with environments := j'.environments } := by
  unfold recordEnvironment at h
  split at h
  · cases h
  · split at h
    · cases h
    · cases h
      rfl

theorem bindLocalIdentity_commands {id : EnvironmentId} {identity : LocalResourceIdentity}
    (h : j.bindLocalIdentity id identity = .ok j') :
    j' = { j with environments := j'.environments } := by
  unfold bindLocalIdentity at h
  dsimp only at h
  split at h
  · cases h
    rfl
  · cases h

theorem markDelivered_commands (j : Journal) (id : CommandId) :
    (j.markDelivered id).commands = j.commands := by
  unfold markDelivered
  split <;> rfl

theorem mem_undelivered {since : Millis} {p : AgentCommandEnvelope × Option AgentCommandResult} :
    p ∈ j.undelivered since ↔ ∃ c ∈ j.commands, since ≤ c.receivedAt ∧ c.commandId ∉ j.delivered ∧
      (c.envelope, c.result) = p := by
  simp [undelivered, Table.mem_rows, and_assoc]

end Journal

end Gridops.HostAgent
