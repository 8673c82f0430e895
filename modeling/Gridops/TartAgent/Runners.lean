import Gridops.Manager.Capacity

/-!
# Runners of the Tart agent

`gridops-tart-agent/src/main.rs`: runners are virtual machines or process groups on a Mac. The agent
keeps a record of each, in memory and on disk, and for the process groups it spawned itself a map
`native` of their pids, in memory only. The model has the agent and its host side by side: what the
agent counts is `activeCapacity`, what runs is `executing`.

Calls come one after another. What the host does in a call is part of the action. A `CapacityUsage`
is the manager's.
-/

namespace Gridops.TartAgent

open Lib
open Manager (CapacityUsage epsilon)

abbrev RecordId := String
abbrev Pid := ℕ

/-! ## The agent and its host -/

inductive AgentError where
  | badRequest (message : String)
  | conflict (message : String)
  | guardrail (code message : String)
  | notFound (message : String)
  | internal
deriving DecidableEq

structure AgentLimits where
  cpuBudget : ℚ
  memoryBudgetMb : ℕ
  maxRunners : ℕ
  minFreeDiskMb : ℕ
  cpuBudget_pos : 1 ≤ cpuBudget

inductive Runtime where
  | vm | native
deriving DecidableEq

/-- What a runner was given: whole cores, since `validate` refuses a fraction. -/
structure Size where
  cores : ℕ
  memoryMb : ℕ
deriving DecidableEq

def Size.usage (size : Size) : CapacityUsage := ⟨1, size.cores, size.memoryMb⟩

structure TartRecord where
  id : RecordId
  name : String
  /-- Empty for natively executed runners, which have no VM. -/
  vmName : String
  size : Size
  runtime : Runtime
deriving DecidableEq

structure NativeProcess where
  id : RecordId
  pid : Pid
  exited : Bool
deriving DecidableEq

inductive VmState where
  | running | suspended | stopped
deriving DecidableEq

def VmState.live : VmState → Bool
  | .running | .suspended => true
  | .stopped => false

structure Vm where
  name : String
  state : VmState
  size : Size
deriving DecidableEq

structure ProcessGroup where
  id : RecordId
  pid : Pid
  alive : Bool
  size : Size
deriving DecidableEq

structure AgentState where
  records : Table TartRecord.id
  native : Table NativeProcess.id
  saved : Table TartRecord.id
  vms : Table Vm.name
  groups : Table ProcessGroup.id
deriving DecidableEq

/-! ## Requests, and what the host does with them -/

structure DiskCapacity where
  availableMb : ℕ
  minimumFreeMb : ℕ
deriving DecidableEq

def nativeMinFreeDiskMb : ℕ := 5120

/-- The disk reserve exists to leave room for a VM clone; a native runner needs less. -/
def DiskCapacity.requiredFreeMb (disk : DiskCapacity) : Runtime → ℕ
  | .native => min disk.minimumFreeMb nativeMinFreeDiskMb
  | .vm => disk.minimumFreeMb

/-- `detailsError` is the verdict of the checks on the provider, the identity, the image, the
platform and the registration secrets. -/
structure ProvisionRunner where
  name : String
  runtime : Runtime
  cpuLimit : ℚ
  memoryLimitMb : ℤ
  detailsError : Option String
deriving DecidableEq

def ProvisionRunner.validate (input : ProvisionRunner) : Except AgentError Size :=
  match input.detailsError with
  | some message => .error (.badRequest message)
  | none =>
    if input.cpuLimit ≤ 0 ∨ input.cpuLimit.den ≠ 1 ∨ input.memoryLimitMb ≤ 0 then
      .error (.badRequest "Tart runners require whole CPU cores and positive memory.")
    else .ok ⟨input.cpuLimit.num.toNat, input.memoryLimitMb.toNat⟩

/-- Whether `tart stop` and `tart delete` worked; the agent ignores both answers. -/
structure VmCleanup where
  stopped : Bool
  deleted : Bool
deriving DecidableEq

/-- How far a provisioning got before it failed or was cut off. -/
inductive Progress where
  | nothing | staged | recorded | started
deriving DecidableEq

inductive Outcome where
  | completed
  /-- `survives`: the group that was spawned still runs when its bootstrap has failed. -/
  | failed (progress : Progress) (cleanup : VmCleanup) (survives : Bool)
  | interrupted (progress : Progress)
deriving DecidableEq

namespace AgentState

def initial : AgentState := ⟨.empty, .empty, .empty, .empty, .empty⟩

variable (s : AgentState)

def executing : CapacityUsage :=
  s.vms.tally (fun v => if v.state.live then v.size.usage else 0) +
    s.groups.tally (fun g => if g.alive then g.size.usage else 0)

def counts (r : TartRecord) : Bool :=
  match r.runtime with
  | .native => (s.native.find r.id).any fun p => !p.exited
  | .vm => (s.vms.find r.vmName).any fun v => v.state.live

def activeCapacity : CapacityUsage :=
  (s.records.retain s.counts).tally fun r => r.size.usage

def enforceCapacity (limits : AgentLimits) (s : AgentState) (size : Size) (runtime : Runtime)
    (disk : DiskCapacity) : Except AgentError Unit :=
  let active := s.activeCapacity
  if disk.availableMb < disk.requiredFreeMb runtime then
    .error (.guardrail "host_disk_guardrail"
      ("Runner provisioning stopped because only " ++ toString disk.availableMb ++
        " MB disk space remains; " ++ toString (disk.requiredFreeMb runtime) ++
        " MB is reserved."))
  else if active.activeRunners + 1 > limits.maxRunners ∨
      active.cpu + size.cores > limits.cpuBudget + epsilon ∨
      active.memoryMb + size.memoryMb > limits.memoryBudgetMb then
    .error (.guardrail "host_capacity_exhausted"
      ("Tart host budget would be exceeded (active: " ++ toString active.activeRunners ++
        " runners, " ++ toString active.cpu ++ " CPU, " ++ toString active.memoryMb ++
        " MB; requested: " ++ toString size.cores ++ " CPU, " ++ toString size.memoryMb ++ " MB)."))
  else .ok ()

/-- The checks of `provision_runner`, up to the record it is about to make. -/
def admitRunner (limits : AgentLimits) (s : AgentState) (input : ProvisionRunner) (id : RecordId)
    (disk : DiskCapacity) : Except AgentError TartRecord := do
  let size ← input.validate
  s.enforceCapacity limits size input.runtime disk
  if s.records.rows.any (·.name == input.name) then
    .error (.conflict "A Tart runner with this name already exists.")
  else
    match input.runtime with
    | .native => .ok ⟨id, input.name, "", size, .native⟩
    | .vm =>
      let vmName := "gridops-" ++ input.name
      if (s.vms.find vmName).isSome then
        .error (.conflict "The Tart VM name is already in use.")
      else .ok ⟨id, input.name, vmName, size, .vm⟩

/-- `kill -TERM -pid`: the groups with this pid exit. -/
def kill (pid : Pid) : AgentState :=
  { s with
    groups := s.groups.update (·.pid == pid) (fun g => { g with alive := false }) (fun _ => rfl) }

/-- A group is signalled only through the map of the process that spawned it. -/
def cleanupNative (id : RecordId) : AgentState :=
  let signalled :=
    match s.native.find id with
    | some process => if process.exited then s else s.kill process.pid
    | none => s
  { signalled with native := signalled.native.retain (·.id != id) }

def stopVm (vmName : String) (works : Bool) : AgentState :=
  { s with
    vms := s.vms.update (fun v => v.name == vmName && works) (fun v => { v with state := .stopped })
      (fun _ => rfl) }

/-- `tart delete` refuses a virtual machine that is live. -/
def deleteVm (vmName : String) (works : Bool) : AgentState :=
  { s with vms := s.vms.retain fun v => !(v.name == vmName && works && !v.state.live) }

def cleanupVm (vmName : String) (cleanup : VmCleanup) : AgentState :=
  (s.stopVm vmName cleanup.stopped).deleteVm vmName cleanup.deleted

def forget (id : RecordId) : AgentState :=
  { s with records := s.records.retain (·.id != id) }

def removeFile (id : RecordId) : AgentState :=
  { s with saved := s.saved.retain (·.id != id) }

/-- The agent starts anew: it reads its records from disk and knows no process. -/
def restart : AgentState := { s with records := s.saved, native := .empty }

/-! ## Provisioning -/

def cloneVm (r : TartRecord) : Option AgentState := do
  let vms ← s.vms.insert? ⟨r.vmName, .stopped, r.size⟩
  some { s with vms }

def persistRecord (r : TartRecord) : Option AgentState := do
  let saved ← s.saved.insert? r
  let records ← s.records.insert? r
  some { s with saved, records }

def startVm (r : TartRecord) : AgentState :=
  { s with
    vms := s.vms.update (·.name == r.vmName) (fun v => { v with state := .running })
      (fun _ => rfl) }

def spawn (r : TartRecord) (pid : Pid) (alive : Bool) : Option AgentState :=
  if s.groups.rows.any fun g => g.alive && g.pid == pid then none
  else do
    let groups ← s.groups.insert? ⟨r.id, pid, alive, r.size⟩
    some { s with groups }

/-- The last act of `start_native_runner`. -/
def superviseNative (r : TartRecord) (pid : Pid) : Option AgentState := do
  let native ← s.native.insert? ⟨r.id, pid, false⟩
  some { s with native }

def advanceVm (r : TartRecord) : Progress → Option AgentState
  | .nothing => some s
  | .staged => s.cloneVm r
  | .recorded => s.cloneVm r >>= (·.persistRecord r)
  | .started => (s.cloneVm r >>= (·.persistRecord r)).map (·.startVm r)

/-- A native runner is staged in a directory of its own. -/
def advanceNative (r : TartRecord) (pid : Pid) (alive : Bool) :
    Progress → Option AgentState
  | .nothing | .staged => some s
  | .recorded => s.persistRecord r
  | .started => s.persistRecord r >>= (·.spawn r pid alive)

def provisionVm (r : TartRecord) : Outcome → Option AgentState
  | .completed => s.advanceVm r .started
  | .failed progress cleanup _ => (s.advanceVm r progress).map fun s =>
      ((s.cleanupVm r.vmName cleanup).forget r.id).removeFile r.id
  | .interrupted progress => (s.advanceVm r progress).map restart

/-- A group whose bootstrap failed is not in `native` yet, so that `cleanup_native` does not
signal it. -/
def provisionNative (r : TartRecord) (pid : Pid) : Outcome → Option AgentState
  | .completed => s.advanceNative r pid true .started >>= (·.superviseNative r pid)
  | .failed progress _ survives => (s.advanceNative r pid survives progress).map fun s =>
      ((s.cleanupNative r.id).forget r.id).removeFile r.id
  | .interrupted progress => (s.advanceNative r pid true progress).map restart

def unused (id : RecordId) : Bool :=
  s.records.rows.all (·.id != id) && s.saved.rows.all (·.id != id) &&
    s.native.rows.all (·.id != id) && s.groups.rows.all (·.id != id)

def provisionRunner (limits : AgentLimits) (s : AgentState) (input : ProvisionRunner)
    (id : RecordId) (pid : Pid) (disk : DiskCapacity) (outcome : Outcome) : Option AgentState :=
  if s.unused id then
    match s.admitRunner limits input id disk with
    | .error _ => some s
    | .ok r =>
      match r.runtime with
      | .vm => s.provisionVm r outcome
      | .native => s.provisionNative r pid outcome
  else none

section Cases

variable {s t : AgentState} {r : TartRecord} {pid : Pid}

theorem cloneVm_cases (h : s.cloneVm r = some t) :
    ∃ vms, s.vms.insert? ⟨r.vmName, .stopped, r.size⟩ = some vms ∧ t = { s with vms } := by
  obtain ⟨vms, hinsert, h⟩ := Option.bind_eq_some_iff.mp h
  exact ⟨vms, hinsert, (Option.some.inj h).symm⟩

theorem persistRecord_cases (h : s.persistRecord r = some t) :
    ∃ saved records, s.saved.insert? r = some saved ∧ s.records.insert? r = some records ∧
      t = { s with saved, records } := by
  obtain ⟨saved, hsaved, h⟩ := Option.bind_eq_some_iff.mp h
  obtain ⟨records, hrecords, h⟩ := Option.bind_eq_some_iff.mp h
  exact ⟨saved, records, hsaved, hrecords, (Option.some.inj h).symm⟩

theorem spawn_cases {alive : Bool} (h : s.spawn r pid alive = some t) :
    ∃ groups, s.groups.insert? ⟨r.id, pid, alive, r.size⟩ = some groups ∧
      t = { s with groups } := by
  unfold spawn at h
  split at h
  · cases h
  · obtain ⟨groups, hinsert, h⟩ := Option.bind_eq_some_iff.mp h
    exact ⟨groups, hinsert, (Option.some.inj h).symm⟩

theorem superviseNative_cases (h : s.superviseNative r pid = some t) :
    ∃ native, s.native.insert? ⟨r.id, pid, false⟩ = some native ∧ t = { s with native } := by
  obtain ⟨native, hinsert, h⟩ := Option.bind_eq_some_iff.mp h
  exact ⟨native, hinsert, (Option.some.inj h).symm⟩

variable (s : AgentState)

end Cases

def record (id : RecordId) : Except AgentError TartRecord :=
  match s.records.find id with
  | some r => .ok r
  | none => .error (.notFound "Managed Tart runner was not found.")

def stopRunner (id : RecordId) (works : Bool) : Except AgentError AgentState := do
  let r ← s.record id
  match r.runtime with
  | .native => .ok (s.cleanupNative id)
  | .vm => .ok (s.stopVm r.vmName works)

/-- `fileRemoved` is false where the record's file could not be removed; the call then fails,
with everything else done. -/
def deleteRunner (id : RecordId) (cleanup : VmCleanup) (fileRemoved : Bool) :
    Except AgentError Unit × AgentState :=
  match s.record id with
  | .error e => (.error e, s)
  | .ok r =>
    let cleaned :=
      match r.runtime with
      | .native => s.cleanupNative id
      | .vm => s.cleanupVm r.vmName cleanup
    if fileRemoved then (.ok (), (cleaned.forget id).removeFile id)
    else (.error .internal, cleaned.forget id)

def vmExit (vmName : String) : AgentState := s.stopVm vmName true

/-- The leader of a group exits, and with `whole` the rest of the group as well. The agent
that spawned it sees the leader only. -/
def nativeExit (id : RecordId) (whole : Bool) : AgentState :=
  { s with
    groups := s.groups.update (fun g => g.id == id && whole) (fun g => { g with alive := false })
      (fun _ => rfl)
    native := s.native.update (·.id == id) (fun p => { p with exited := true }) (fun _ => rfl) }

end AgentState

inductive Action where
  | provision (input : ProvisionRunner) (id : RecordId) (pid : Pid)
      (disk : DiskCapacity) (outcome : Outcome)
  | stop (id : RecordId) (works : Bool)
  | delete (id : RecordId) (cleanup : VmCleanup) (fileRemoved : Bool)
  | vmExit (vmName : String)
  | nativeExit (id : RecordId) (whole : Bool)
  | restart
deriving DecidableEq

def AgentState.step (limits : AgentLimits) (s : AgentState) : Action → Option AgentState
  | .provision input id pid disk outcome => s.provisionRunner limits input id pid disk outcome
  | .stop id works =>
    match s.stopRunner id works with
    | .ok t => some t
    | .error _ => some s
  | .delete id cleanup fileRemoved => some (s.deleteRunner id cleanup fileRemoved).2
  | .vmExit vmName => some (s.vmExit vmName)
  | .nativeExit id whole => some (s.nativeExit id whole)
  | .restart => some s.restart

def agent (limits : AgentLimits) : Machine AgentState Action := ⟨AgentState.step limits⟩

/-- What the agent is to guarantee of its host. -/
structure AgentState.WithinBudget (limits : AgentLimits) (s : AgentState) : Prop where
  runners : s.executing.activeRunners ≤ limits.maxRunners
  cpu : s.executing.cpu ≤ limits.cpuBudget
  memory : s.executing.memoryMb ≤ limits.memoryBudgetMb

instance (limits : AgentLimits) (s : AgentState) : Decidable (s.WithinBudget limits) :=
  decidable_of_iff
    (s.executing.activeRunners ≤ limits.maxRunners ∧ s.executing.cpu ≤ limits.cpuBudget ∧
      s.executing.memoryMb ≤ limits.memoryBudgetMb)
    ⟨fun h => ⟨h.1, h.2.1, h.2.2⟩, fun h => ⟨h.runners, h.cpu, h.memory⟩⟩

namespace Sample

def limits : AgentLimits where
  cpuBudget := 4
  memoryBudgetMb := 6144
  maxRunners := 1
  minFreeDiskMb := 40960
  cpuBudget_pos := by norm_num

def disk : DiskCapacity := ⟨80000, 40960⟩

def provision (name : String) (runtime : Runtime) (id : RecordId) (pid : Pid) : Action :=
  .provision ⟨name, runtime, 4, 6144, none⟩ id pid disk .completed

end Sample

end Gridops.TartAgent
