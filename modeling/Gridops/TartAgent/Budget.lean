import Gridops.TartAgent.Runners

/-!
# The Tart host is never over-committed

The agent admits a runner against what it counts, so the budget is kept as long as it
counts what runs. `Tracked` says that it does: every live virtual machine has a record,
every live process group has a record and an entry in `native`. Then what is executing
weighs no more than `activeCapacity`, and a stop or a deletion reaches the group.

`native` is lost when the agent restarts, and with it every process group that still runs.
-/

namespace Gridops.TartAgent

open Lib
open Manager (CapacityUsage epsilon)

theorem Size.usage_nonneg (size : Size) : 0 ≤ size.usage :=
  ⟨Nat.zero_le _, by simp [usage], Nat.zero_le _⟩

def chargedVm (v : Vm) : CapacityUsage := if v.state.live then v.size.usage else 0

def chargedGroup (g : ProcessGroup) : CapacityUsage := if g.alive then g.size.usage else 0

theorem chargedVm_nonneg (v : Vm) : 0 ≤ chargedVm v := by
  unfold chargedVm
  split
  · exact v.size.usage_nonneg
  · exact le_rfl

theorem chargedGroup_nonneg (g : ProcessGroup) : 0 ≤ chargedGroup g := by
  unfold chargedGroup
  split
  · exact g.size.usage_nonneg
  · exact le_rfl

theorem AgentState.executing_eq (s : AgentState) :
    s.executing = s.vms.tally chargedVm + s.groups.tally chargedGroup := rfl

/-! ## What is tracked -/

structure Tracked (s : AgentState) : Prop where
  vm : ∀ v ∈ s.vms, v.state.live →
    ∃ r ∈ s.records, r.runtime = .vm ∧ r.vmName = v.name ∧ r.size = v.size
  group : ∀ g ∈ s.groups, g.alive →
    (∃ r ∈ s.records, r.runtime = .native ∧ r.id = g.id ∧ r.size = g.size) ∧
      s.native.find g.id = some ⟨g.id, g.pid, false⟩
  saved : ∀ r ∈ s.records, r ∈ s.saved

def countedAs (s : AgentState) (runtime : Runtime) (r : TartRecord) : CapacityUsage :=
  if s.counts r ∧ r.runtime = runtime then r.size.usage else 0

theorem countedAs_nonneg (s : AgentState) (runtime : Runtime) (r : TartRecord) :
    0 ≤ countedAs s runtime r := by
  unfold countedAs
  split
  · exact r.size.usage_nonneg
  · exact le_rfl

theorem activeCapacity_eq (s : AgentState) : s.activeCapacity =
    s.records.tally (countedAs s .vm) + s.records.tally (countedAs s .native) := by
  rw [AgentState.activeCapacity, Table.tally_retain, ← Table.tally_add]
  congr 1
  funext r
  cases hr : r.runtime <;> by_cases hc : s.counts r <;> simp [countedAs, hr]

namespace Tracked

variable {s t : AgentState} {id : RecordId}

/-- **Counting.** What is executing weighs no more than what the agent counts. -/
theorem executing_le (h : Tracked s) : s.executing ≤ s.activeCapacity := by
  rw [AgentState.executing_eq, activeCapacity_eq]
  refine add_le_add ?_ ?_
  · refine Table.tally_le_tally TartRecord.vmName (fun r _ => countedAs_nonneg s .vm r)
      fun v hv => ?_
    by_cases hlive : v.state.live
    · obtain ⟨r, hr, hruntime, hname, hsize⟩ := h.vm v hv hlive
      have hcounts : s.counts r := by
        simp [AgentState.counts, hruntime, hname, Table.find_key hv, hlive]
      exact .inr ⟨r, hr, hname, by simp [chargedVm, countedAs, hlive, hcounts, hruntime, hsize]⟩
    · exact .inl (by simp [chargedVm, hlive])
  · refine Table.tally_le_tally TartRecord.id (fun r _ => countedAs_nonneg s .native r)
      fun g hg => ?_
    by_cases halive : g.alive
    · obtain ⟨⟨r, hr, hruntime, hid, hsize⟩, hnative⟩ := h.group g hg halive
      have hcounts : s.counts r := by
        simp [AgentState.counts, hruntime, hid, hnative]
      exact .inr ⟨r, hr, hid, by simp [chargedGroup, countedAs, halive, hcounts, hruntime, hsize]⟩
    · exact .inl (by simp [chargedGroup, halive])

theorem forget (h : Tracked s)
    (hvm : ∀ v ∈ s.vms, v.state.live → ∀ r ∈ s.records, r.runtime = .vm → r.vmName = v.name →
      r.id ≠ id)
    (hgroup : ∀ g ∈ s.groups, g.alive → g.id ≠ id) : Tracked (s.forget id) where
  vm v hv hlive := by
    obtain ⟨r, hr, hruntime, hname, hsize⟩ := h.vm v hv hlive
    refine ⟨r, Table.mem_retain.mpr ⟨hr, ?_⟩, hruntime, hname, hsize⟩
    simpa using hvm v hv hlive r hr hruntime hname
  group g hg halive := by
    obtain ⟨⟨r, hr, hruntime, hid, hsize⟩, hnative⟩ := h.group g hg halive
    refine ⟨⟨r, Table.mem_retain.mpr ⟨hr, ?_⟩, hruntime, hid, hsize⟩, hnative⟩
    simpa [hid] using hgroup g hg halive
  saved r hr := h.saved r (Table.mem_retain.mp hr).1

theorem removeFile (h : Tracked s) (hnone : ∀ r ∈ s.records, r.id ≠ id) :
    Tracked (s.removeFile id) where
  vm := h.vm
  group := h.group
  saved r hr := Table.mem_retain.mpr ⟨h.saved r hr, by simpa using hnone r hr⟩

theorem stopVm (h : Tracked s) (vmName : String) (works : Bool) :
    Tracked (s.stopVm vmName works) where
  vm v hv hlive := by
    simp only [AgentState.stopVm, Table.mem_update] at hv
    obtain ⟨v', hv', rfl⟩ := hv
    split at hlive
    · cases hlive
    · next hother =>
      rw [if_neg hother]
      exact h.vm v' hv' hlive
  group := h.group
  saved := h.saved

theorem deleteVm (h : Tracked s) (vmName : String) (works : Bool) :
    Tracked (s.deleteVm vmName works) where
  vm v hv := h.vm v (Table.mem_retain.mp hv).1
  group := h.group
  saved := h.saved

end Tracked

/-! ## Signals -/

/-- The groups that the cleanup of a native runner signals. -/
def signalled (s : AgentState) (id : RecordId) (g : ProcessGroup) : Bool :=
  (s.native.find id).any fun process => !process.exited && g.pid == process.pid

theorem cleanupNative_eq (s : AgentState) (id : RecordId) : s.cleanupNative id =
    { s with
      groups := s.groups.update (signalled s id) (fun g => { g with alive := false })
        (fun _ => rfl)
      native := s.native.retain (·.id != id) } := by
  unfold AgentState.cleanupNative AgentState.kill
  cases hfind : s.native.find id with
  | none =>
    rw [Table.update_of_none fun g _ => by simp [signalled, hfind]]
  | some process =>
    by_cases hexited : process.exited
    · rw [Table.update_of_none fun g _ => by simp [signalled, hfind, hexited]]
      simp [hexited]
    · have hsame : signalled s id = fun g => g.pid == process.pid := by
        funext g
        simp [signalled, hfind, hexited]
      simp [hexited, hsame]

namespace Tracked

variable {s t : AgentState} {id : RecordId} {r : TartRecord}

/-- **Stopping.** After the cleanup of a native runner its process group does not run. -/
theorem cleaned (h : Tracked s) (id : RecordId) :
    ∀ g ∈ (s.cleanupNative id).groups, g.id = id → g.alive = false := by
  rw [cleanupNative_eq]
  simp only [Table.forall_mem_update]
  intro g hg hid
  by_cases hsignalled : signalled s id g
  · rw [if_pos hsignalled]
  · rw [if_neg hsignalled] at hid ⊢
    by_contra halive
    obtain ⟨-, hnative⟩ := h.group g hg (Bool.not_eq_false _ ▸ halive)
    simp [signalled, ← hid, hnative] at hsignalled

theorem cleanupNative (h : Tracked s) (id : RecordId) : Tracked (s.cleanupNative id) := by
  have hcleaned := h.cleaned id
  rw [cleanupNative_eq] at hcleaned ⊢
  refine ⟨h.vm, fun g' hg' halive => ?_, h.saved⟩
  have hne : g'.id ≠ id := fun hid => by simp [hcleaned g' hg' hid] at halive
  simp only [Table.mem_update] at hg'
  obtain ⟨g, hg, rfl⟩ := hg'
  split at halive
  · cases halive
  · next hother =>
    rw [if_neg hother] at hne ⊢
    obtain ⟨hrecord, hnative⟩ := h.group g hg halive
    refine ⟨hrecord, Table.find_some_iff.mpr ⟨Table.mem_retain.mpr ⟨?_, ?_⟩, rfl⟩⟩
    · exact Table.mem_of_find hnative
    · simpa using hne

theorem nativeExit (h : Tracked s) (id : RecordId) : Tracked (s.nativeExit id true) := by
  refine ⟨h.vm, fun g' hg' halive => ?_, h.saved⟩
  simp only [AgentState.nativeExit, Table.mem_update, Bool.and_true] at hg'
  obtain ⟨g, hg, rfl⟩ := hg'
  split at halive
  · cases halive
  · next hother =>
    rw [if_neg hother]
    obtain ⟨hrecord, hnative⟩ := h.group g hg halive
    refine ⟨hrecord, ?_⟩
    simp only [AgentState.nativeExit, Table.find_update, hnative, Option.map_some]
    rw [if_neg hother]

theorem restart (h : Tracked s) (hnone : ∀ g ∈ s.groups, g.alive = false) : Tracked s.restart where
  vm v hv hlive := by
    obtain ⟨r, hr, hrest⟩ := h.vm v hv hlive
    exact ⟨r, h.saved r hr, hrest⟩
  group g hg halive := by simp [hnone g hg] at halive
  saved _ hr := hr

theorem cloneVm (h : Tracked s) (hstep : s.cloneVm r = some t) : Tracked t := by
  obtain ⟨vms, hinsert, rfl⟩ := AgentState.cloneVm_cases hstep
  refine ⟨fun v hv hlive => ?_, h.group, h.saved⟩
  rcases (Table.mem_insert? hinsert).mp hv with hv | rfl
  · exact h.vm v hv hlive
  · cases hlive

theorem persistRecord (h : Tracked s) (hstep : s.persistRecord r = some t) : Tracked t := by
  obtain ⟨saved, records, hsaved, hrecords, rfl⟩ := AgentState.persistRecord_cases hstep
  refine ⟨fun v hv hlive => ?_, fun g hg halive => ?_, fun r' hr' => ?_⟩
  · obtain ⟨r', hr', hrest⟩ := h.vm v hv hlive
    exact ⟨r', (Table.mem_insert? hrecords).mpr (.inl hr'), hrest⟩
  · obtain ⟨⟨r', hr', hrest⟩, hnative⟩ := h.group g hg halive
    exact ⟨⟨r', (Table.mem_insert? hrecords).mpr (.inl hr'), hrest⟩, hnative⟩
  · exact (Table.mem_insert? hsaved).mpr
      (((Table.mem_insert? hrecords).mp hr').imp_left (h.saved r'))

theorem startVm (h : Tracked s) (hr : r ∈ s.records) (hruntime : r.runtime = .vm)
    (hsize : ∀ v ∈ s.vms, v.name = r.vmName → v.size = r.size) : Tracked (s.startVm r) := by
  refine ⟨fun v' hv' hlive => ?_, h.group, h.saved⟩
  simp only [AgentState.startVm, Table.mem_update] at hv'
  obtain ⟨v, hv, rfl⟩ := hv'
  split at hlive
  · next hname =>
    rw [if_pos hname]
    have hname := beq_iff_eq.mp hname
    exact ⟨r, hr, hruntime, hname.symm, (hsize v hv hname).symm⟩
  · next hother =>
    rw [if_neg hother]
    exact h.vm v hv hlive

end Tracked

/-! ## What is executing -/

section Executing

variable {s t : AgentState} {r : TartRecord}

theorem executing_stopVm (s : AgentState) (vmName : String) (works : Bool) :
    (s.stopVm vmName works).executing ≤ s.executing := by
  refine add_le_add ?_ le_rfl
  rw [AgentState.stopVm, Table.tally_update]
  refine Table.tally_mono fun v _ => ?_
  split
  · exact chargedVm_nonneg v
  · exact le_rfl

theorem executing_deleteVm (s : AgentState) (vmName : String) (works : Bool) :
    (s.deleteVm vmName works).executing ≤ s.executing := by
  refine add_le_add ?_ le_rfl
  rw [AgentState.deleteVm, Table.tally_retain]
  refine Table.tally_mono fun v _ => ?_
  split
  · exact le_rfl
  · exact chargedVm_nonneg v

theorem tally_exit_le (groups : Table ProcessGroup.id) (p : ProcessGroup → Bool) :
    (groups.update p (fun g => { g with alive := false }) (fun _ => rfl)).tally chargedGroup ≤
      groups.tally chargedGroup := by
  rw [Table.tally_update]
  refine Table.tally_mono fun g _ => ?_
  split
  · exact chargedGroup_nonneg g
  · exact le_rfl

theorem executing_cleanupNative (s : AgentState) (id : RecordId) :
    (s.cleanupNative id).executing ≤ s.executing := by
  rw [cleanupNative_eq]
  exact add_le_add le_rfl (tally_exit_le s.groups _)

theorem executing_nativeExit (s : AgentState) (id : RecordId) (whole : Bool) :
    (s.nativeExit id whole).executing ≤ s.executing :=
  add_le_add le_rfl (tally_exit_le s.groups _)

theorem executing_cloneVm (h : s.cloneVm r = some t) : t.executing = s.executing := by
  obtain ⟨vms, hinsert, rfl⟩ := AgentState.cloneVm_cases h
  rw [AgentState.executing_eq, AgentState.executing_eq, Table.tally_insert? hinsert]
  exact congrArg (· + _) (add_zero _)

theorem executing_persistRecord (h : s.persistRecord r = some t) : t.executing = s.executing := by
  obtain ⟨-, -, -, -, rfl⟩ := AgentState.persistRecord_cases h
  rfl

theorem executing_startVm (hsize : ∀ v ∈ s.vms, v.name = r.vmName → v.size = r.size) :
    (s.startVm r).executing ≤ s.executing + r.size.usage := by
  rw [AgentState.executing_eq, AgentState.executing_eq, add_right_comm]
  refine add_le_add ?_ le_rfl
  rw [AgentState.startVm, Table.tally_update]
  refine Table.tally_le_add (k := r.vmName) r.size.usage_nonneg (fun v hv hname => ?_)
    fun v _ hname => ?_
  · rw [if_pos (beq_iff_eq.mpr hname), ← hsize v hv hname]
    exact le_add_of_nonneg_left (chargedVm_nonneg v)
  · rw [if_neg (by simpa using hname)]

theorem executing_spawn {pid : Pid} {alive : Bool} (h : s.spawn r pid alive = some t) :
    t.executing ≤ s.executing + r.size.usage := by
  obtain ⟨groups, hinsert, rfl⟩ := AgentState.spawn_cases h
  rw [AgentState.executing_eq, AgentState.executing_eq, Table.tally_insert? hinsert, add_assoc]
  refine add_le_add le_rfl (add_le_add le_rfl ?_)
  unfold chargedGroup
  split
  · exact le_rfl
  · exact r.size.usage_nonneg

end Executing

def AgentLimits.ceiling (limits : AgentLimits) : CapacityUsage :=
  ⟨limits.maxRunners, limits.cpuBudget + epsilon, limits.memoryBudgetMb⟩

theorem enforceCapacity_ok {limits : AgentLimits} {s : AgentState} {size : Size} {runtime : Runtime}
    {disk : DiskCapacity} (h : s.enforceCapacity limits size runtime disk = .ok ()) :
    s.activeCapacity + size.usage ≤ limits.ceiling := by
  unfold AgentState.enforceCapacity at h
  split at h
  · cases h
  · obtain ⟨hfits, h⟩ := guard_eq_ok h
    simp only [not_or, not_lt] at hfits
    exact ⟨hfits.1, hfits.2.1, hfits.2.2⟩

theorem admitRunner_ok {limits : AgentLimits} {s : AgentState} {input : ProvisionRunner}
    {id : RecordId} {disk : DiskCapacity} {r : TartRecord}
    (h : s.admitRunner limits input id disk = .ok r) :
    r.id = id ∧ r.runtime = input.runtime ∧ s.activeCapacity + r.size.usage ≤ limits.ceiling ∧
      (r.runtime = .vm → s.vms.find r.vmName = none) := by
  obtain ⟨size, -, h⟩ := bind_eq_ok h
  obtain ⟨⟨⟩, hfits, h⟩ := bind_eq_ok h
  obtain ⟨-, h⟩ := guard_eq_ok h
  split at h
  · next hruntime =>
    cases h
    exact ⟨rfl, hruntime.symm, enforceCapacity_ok hfits, fun hvm => by cases hvm⟩
  · next hruntime =>
    obtain ⟨hfree, h⟩ := guard_eq_ok h
    cases h
    exact ⟨rfl, hruntime.symm, enforceCapacity_ok hfits, fun _ => by simpa using hfree⟩

/-! ## The invariant -/

structure Covered (limits : AgentLimits) (s : AgentState) : Prop where
  tracked : Tracked s
  executing : s.executing ≤ limits.ceiling

theorem cleanupVm_dead {s : AgentState} {vmName : String} {cleanup : VmCleanup}
    (h : cleanup.stopped ∨ ∀ v ∈ s.vms, v.name = vmName → v.state.live = false) :
    ∀ v ∈ (s.cleanupVm vmName cleanup).vms, v.name = vmName → v.state.live = false := by
  intro v hv hname
  have hv := (Table.mem_retain.mp hv).1
  simp only [AgentState.stopVm, Table.mem_update] at hv
  obtain ⟨v', hv', rfl⟩ := hv
  split at hname
  · next hstopped => rw [if_pos hstopped]; rfl
  · next hother =>
    rw [if_neg hother]
    rcases h with hworks | hdead
    · simp [hname, hworks] at hother
    · exact hdead v' hv' hname

structure Advanced (s t : AgentState) (r : TartRecord) : Prop where
  tracked : Tracked t
  executing : t.executing ≤ s.executing + r.size.usage
  records : ∀ r' ∈ t.records, r'.id = r.id → r' = r

section Provisioning

variable {limits : AgentLimits} {s t : AgentState} {r : TartRecord} {progress : Progress}

theorem records_of_unused (hunused : s.unused r.id) : ∀ r' ∈ s.records, r'.id ≠ r.id := by
  simp only [AgentState.unused, Bool.and_eq_true, List.all_eq_true, bne_iff_ne] at hunused
  exact hunused.1.1.1

theorem groups_of_unused (hunused : s.unused r.id) : ∀ g ∈ s.groups, g.id ≠ r.id := by
  simp only [AgentState.unused, Bool.and_eq_true, List.all_eq_true, bne_iff_ne] at hunused
  exact hunused.2

theorem persistRecord_records (hunused : s.unused r.id) (h : s.persistRecord r = some t) :
    r ∈ t.records ∧ ∀ r' ∈ t.records, r'.id = r.id → r' = r := by
  obtain ⟨-, records, -, hrecords, rfl⟩ := AgentState.persistRecord_cases h
  refine ⟨(Table.mem_insert? hrecords).mpr (.inr rfl), fun r' hr' hid => ?_⟩
  exact ((Table.mem_insert? hrecords).mp hr').resolve_left fun hold =>
    records_of_unused hunused r' hold hid

theorem cloneVm_vms (hfree : s.vms.find r.vmName = none) (h : s.cloneVm r = some t) :
    ∀ v ∈ t.vms, v.name = r.vmName → v = ⟨r.vmName, .stopped, r.size⟩ := by
  obtain ⟨vms, hinsert, rfl⟩ := AgentState.cloneVm_cases h
  intro v hv hname
  refine ((Table.mem_insert? hinsert).mp hv).resolve_left fun hold => ?_
  rw [← hname, Table.find_key hold] at hfree
  cases hfree

theorem recordedVm (h : Tracked s) (hfree : s.vms.find r.vmName = none) (hunused : s.unused r.id)
    (hstep : s.cloneVm r >>= (·.persistRecord r) = some t) :
    Tracked t ∧ t.executing = s.executing ∧ t.groups = s.groups ∧ r ∈ t.records ∧
      (∀ r' ∈ t.records, r'.id = r.id → r' = r) ∧
      ∀ v ∈ t.vms, v.name = r.vmName → v = ⟨r.vmName, .stopped, r.size⟩ := by
  obtain ⟨u, hclone, hpersist⟩ := Option.bind_eq_some_iff.mp hstep
  have htracked := (h.cloneVm hclone).persistRecord hpersist
  have hexecuting := (executing_persistRecord hpersist).trans (executing_cloneVm hclone)
  have hvms := cloneVm_vms hfree hclone
  obtain ⟨vms, -, rfl⟩ := AgentState.cloneVm_cases hclone
  obtain ⟨hr, hrecords⟩ := persistRecord_records (s := { s with vms }) hunused hpersist
  obtain ⟨saved, records, -, -, rfl⟩ := AgentState.persistRecord_cases hpersist
  exact ⟨htracked, hexecuting, rfl, hr, hrecords, hvms⟩

theorem advanceVm_cases (h : Tracked s) (hruntime : r.runtime = .vm)
    (hfree : s.vms.find r.vmName = none) (hunused : s.unused r.id)
    (hstep : s.advanceVm r progress = some t) :
    Advanced s t r ∧ t.groups = s.groups ∧
      (progress ≠ .started → ∀ v ∈ t.vms, v.name = r.vmName → v.state.live = false) := by
  have hroom : s.executing ≤ s.executing + r.size.usage :=
    le_add_of_nonneg_right r.size.usage_nonneg
  cases progress with
  | nothing =>
    cases hstep
    refine ⟨⟨h, hroom, fun r' hr' hid => ?_⟩, rfl, fun _ v hv hname => ?_⟩
    · exact absurd hid (records_of_unused hunused r' hr')
    · rw [← hname, Table.find_key hv] at hfree
      cases hfree
  | staged =>
    have hvms := cloneVm_vms hfree hstep
    have htracked := h.cloneVm hstep
    have hexecuting := executing_cloneVm hstep
    obtain ⟨vms, -, rfl⟩ := AgentState.cloneVm_cases hstep
    refine ⟨⟨htracked, hexecuting.trans_le hroom, fun r' hr' hid => ?_⟩, rfl, fun _ v hv hname => ?_⟩
    · exact absurd hid (records_of_unused hunused r' hr')
    · rw [hvms v hv hname]
      rfl
  | recorded =>
    obtain ⟨htracked, hexecuting, hgroups, -, hrecords, hvms⟩ := recordedVm h hfree hunused hstep
    refine ⟨⟨htracked, hexecuting.trans_le hroom, hrecords⟩, hgroups, fun _ v hv hname => ?_⟩
    rw [hvms v hv hname]
    rfl
  | started =>
    obtain ⟨u, hu, rfl⟩ := Option.map_eq_some_iff.mp hstep
    obtain ⟨htracked, hexecuting, hgroups, hr, hrecords, hvms⟩ := recordedVm h hfree hunused hu
    have hsize : ∀ v ∈ u.vms, v.name = r.vmName → v.size = r.size :=
      fun v hv hname => by rw [hvms v hv hname]
    refine ⟨⟨htracked.startVm hr hruntime hsize, ?_, hrecords⟩, hgroups, fun hne => absurd rfl hne⟩
    exact hexecuting ▸ executing_startVm hsize

theorem Tracked.discard (h : Tracked t) (hrecords : ∀ r' ∈ t.records, r'.id = r.id → r' = r)
    (hvm : ∀ v ∈ t.vms, r.runtime = .vm → v.name = r.vmName → v.state.live = false)
    (hgroup : ∀ g ∈ t.groups, g.id = r.id → g.alive = false) :
    Tracked (t.forget r.id) := by
  refine h.forget (fun v hv hlive r' hr' hruntime hname hid => ?_) fun g hg halive hid => ?_
  · cases hrecords r' hr' hid
    simp [hvm v hv hruntime hname.symm] at hlive
  · simp [hgroup g hg hid] at halive

theorem forget_records (s : AgentState) (id : RecordId) :
    ∀ r ∈ (s.forget id).records, r.id ≠ id :=
  fun r hr => by simpa using (Table.mem_retain.mp hr).2

theorem Tracked.spawnDead {pid : Pid} (h : Tracked s) (hstep : s.spawn r pid false = some t) :
    Tracked t := by
  obtain ⟨groups, hinsert, rfl⟩ := AgentState.spawn_cases hstep
  refine ⟨h.vm, fun g hg halive => ?_, h.saved⟩
  rcases (Table.mem_insert? hinsert).mp hg with hg | rfl
  · exact h.group g hg halive
  · cases halive

theorem advanceNative_cases {pid : Pid} {alive : Bool} (h : Tracked s) (hunused : s.unused r.id)
    (hdead : progress = .started → alive = false)
    (hstep : s.advanceNative r pid alive progress = some t) :
    Advanced s t r ∧ ∀ g ∈ t.groups, g.alive → g ∈ s.groups := by
  have hroom : s.executing ≤ s.executing + r.size.usage :=
    le_add_of_nonneg_right r.size.usage_nonneg
  cases progress with
  | nothing | staged =>
    cases hstep
    refine ⟨⟨h, hroom, fun r' hr' hid => ?_⟩, fun g hg _ => hg⟩
    exact absurd hid (records_of_unused hunused r' hr')
  | recorded =>
    have htracked := h.persistRecord hstep
    have hexecuting := executing_persistRecord hstep
    have hrecords := (persistRecord_records hunused hstep).2
    obtain ⟨saved, records, -, -, rfl⟩ := AgentState.persistRecord_cases hstep
    exact ⟨⟨htracked, hexecuting.trans_le hroom, hrecords⟩, fun g hg _ => hg⟩
  | started =>
    cases hdead rfl
    obtain ⟨u, hpersist, hspawn⟩ := Option.bind_eq_some_iff.mp hstep
    have htracked := (h.persistRecord hpersist).spawnDead hspawn
    have hexecuting := executing_spawn hspawn
    have hrecords := (persistRecord_records hunused hpersist).2
    obtain ⟨saved, records, -, -, rfl⟩ := AgentState.persistRecord_cases hpersist
    obtain ⟨groups, hinsert, rfl⟩ := AgentState.spawn_cases hspawn
    refine ⟨⟨htracked, hexecuting, hrecords⟩, fun g hg halive => ?_⟩
    exact ((Table.mem_insert? hinsert).mp hg).resolve_right fun heq => by
      rw [heq] at halive
      cases halive

theorem startedNative {pid : Pid} (h : Tracked s) (hruntime : r.runtime = .native)
    (hunused : s.unused r.id)
    (hstep : s.provisionNative r pid .completed = some t) :
    Tracked t ∧ t.executing ≤ s.executing + r.size.usage := by
  obtain ⟨v, hv, hsupervise⟩ := Option.bind_eq_some_iff.mp hstep
  obtain ⟨u, hpersist, hspawn⟩ := Option.bind_eq_some_iff.mp hv
  have hu := h.persistRecord hpersist
  have hr := (persistRecord_records hunused hpersist).1
  have hexecuting := executing_spawn hspawn
  rw [executing_persistRecord hpersist] at hexecuting
  obtain ⟨groups, hgroups, rfl⟩ := AgentState.spawn_cases hspawn
  obtain ⟨native, hnative, rfl⟩ := AgentState.superviseNative_cases hsupervise
  refine ⟨⟨hu.vm, fun g hg halive => ?_, hu.saved⟩, hexecuting⟩
  have hfind := Table.find_insert? (k := g.id) hnative
  rcases (Table.mem_insert? hgroups).mp hg with hg | rfl
  · obtain ⟨hrecord, hentry⟩ := hu.group g hg halive
    exact ⟨hrecord, hfind.trans (by simp [hentry])⟩
  · refine ⟨⟨r, hr, hruntime, rfl, rfl⟩, ?_⟩
    exact Table.find_some_iff.mpr ⟨(Table.mem_insert? hnative).mpr (.inr rfl), rfl⟩

end Provisioning

/-! ## Runs -/

/-- A started virtual machine is stopped again, a failed group has exited, and the agent is not cut
off with one running. -/
def Outcome.Harmless (s : AgentState) (runtime : Runtime) : Outcome → Prop
  | .completed => True
  | .failed progress cleanup survives => progress = .started →
      (runtime = .vm → cleanup.stopped) ∧ (runtime = .native → survives = false)
  | .interrupted progress => (∀ g ∈ s.groups.rows, g.alive = false) ∧
      (runtime = .native → progress ≠ .started)

def Permitted (s : AgentState) : Action → Prop
  | .provision input _ _ _ outcome => outcome.Harmless s input.runtime
  | .delete id cleanup _ => ∀ r ∈ s.records.rows, r.id = id → r.runtime = .vm →
      cleanup.stopped ∨ ∀ v ∈ s.vms.rows, v.name = r.vmName → v.state.live = false
  | .nativeExit _ whole => whole
  | .restart => ∀ g ∈ s.groups.rows, g.alive = false
  | .stop .. | .vmExit _ => True

namespace Covered

variable {limits : AgentLimits} {s t : AgentState} {r : TartRecord} {id : RecordId}

theorem provisionVm {outcome : Outcome} (h : Covered limits s) (hruntime : r.runtime = .vm)
    (hroom : s.executing + r.size.usage ≤ limits.ceiling)
    (hfree : s.vms.find r.vmName = none) (hunused : s.unused r.id)
    (hok : outcome.Harmless s .vm) (hstep : s.provisionVm r outcome = some t) :
    Covered limits t := by
  cases outcome with
  | completed =>
    have hstarted : s.advanceVm r .started = some t := hstep
    obtain ⟨hadvanced, -, -⟩ := advanceVm_cases h.tracked hruntime hfree hunused hstarted
    exact ⟨hadvanced.tracked, hadvanced.executing.trans hroom⟩
  | failed progress cleanup survives =>
    obtain ⟨u, hu, rfl⟩ := Option.map_eq_some_iff.mp hstep
    obtain ⟨hadvanced, hgroups, hstopped⟩ := advanceVm_cases h.tracked hruntime hfree hunused hu
    have hdead : ∀ v ∈ (u.cleanupVm r.vmName cleanup).vms, v.name = r.vmName →
        v.state.live = false := by
      refine cleanupVm_dead ?_
      by_cases hprogress : progress = .started
      · exact .inl ((hok hprogress).1 rfl)
      · exact .inr (hstopped hprogress)
    have hcleaned : Tracked (u.cleanupVm r.vmName cleanup) :=
      (hadvanced.tracked.stopVm _ _).deleteVm _ _
    have hforgotten := hcleaned.discard (r := r) hadvanced.records (fun v hv _ => hdead v hv)
      fun g hg hid => absurd hid (groups_of_unused hunused g (hgroups ▸ hg))
    refine ⟨hforgotten.removeFile (forget_records _ _), ?_⟩
    calc
      _ ≤ (u.stopVm r.vmName cleanup.stopped).executing := executing_deleteVm _ _ _
      _ ≤ u.executing := executing_stopVm _ _ _
      _ ≤ _ := hadvanced.executing.trans hroom
  | interrupted progress =>
    obtain ⟨u, hu, rfl⟩ := Option.map_eq_some_iff.mp hstep
    obtain ⟨hadvanced, hgroups, -⟩ := advanceVm_cases h.tracked hruntime hfree hunused hu
    exact ⟨hadvanced.tracked.restart fun g hg => hok.1 g (hgroups ▸ hg),
      hadvanced.executing.trans hroom⟩

theorem provisionNative {outcome : Outcome} {pid : Pid} (h : Covered limits s)
    (hruntime : r.runtime = .native) (hroom : s.executing + r.size.usage ≤ limits.ceiling)
    (hunused : s.unused r.id) (hok : outcome.Harmless s .native)
    (hstep : s.provisionNative r pid outcome = some t) : Covered limits t := by
  cases outcome with
  | completed =>
    obtain ⟨htracked, hexecuting⟩ := startedNative h.tracked hruntime hunused hstep
    exact ⟨htracked, hexecuting.trans hroom⟩
  | failed progress cleanup survives =>
    obtain ⟨u, hu, rfl⟩ := Option.map_eq_some_iff.mp hstep
    obtain ⟨hadvanced, -⟩ := advanceNative_cases h.tracked hunused
      (fun hprogress => (hok hprogress).2 rfl) hu
    have hforgotten := (hadvanced.tracked.cleanupNative r.id).discard (r := r)
      (by rw [cleanupNative_eq]; exact hadvanced.records)
      (fun v _ hvm => by rw [hruntime] at hvm; cases hvm) (hadvanced.tracked.cleaned r.id)
    refine ⟨hforgotten.removeFile (forget_records _ _), ?_⟩
    exact (executing_cleanupNative u r.id).trans (hadvanced.executing.trans hroom)
  | interrupted progress =>
    obtain ⟨u, hu, rfl⟩ := Option.map_eq_some_iff.mp hstep
    obtain ⟨hadvanced, hgroups⟩ := advanceNative_cases h.tracked hunused
      (fun hprogress => absurd hprogress (hok.2 rfl)) hu
    refine ⟨hadvanced.tracked.restart fun g hg => ?_, hadvanced.executing.trans hroom⟩
    by_contra halive
    have halive : g.alive = true := Bool.not_eq_false _ ▸ halive
    simp [hok.1 g (hgroups g hg halive)] at halive

theorem provisionRunner {input : ProvisionRunner} {pid : Pid} {disk : DiskCapacity}
    {outcome : Outcome} (h : Covered limits s) (hok : outcome.Harmless s input.runtime)
    (hstep : s.provisionRunner limits input id pid disk outcome = some t) : Covered limits t := by
  unfold AgentState.provisionRunner at hstep
  split at hstep
  · next hunused =>
    split at hstep
    · cases hstep
      exact h
    · next r hadmit =>
      obtain ⟨rfl, hinput, hfits, hfree⟩ := admitRunner_ok hadmit
      have hroom := (add_le_add h.tracked.executing_le le_rfl).trans hfits
      split at hstep
      · next hruntime =>
        exact h.provisionVm hruntime hroom (hfree hruntime) hunused
          (hruntime ▸ hinput ▸ hok) hstep
      · next hruntime =>
        exact h.provisionNative hruntime hroom hunused (hruntime ▸ hinput ▸ hok) hstep
  · cases hstep

theorem stopRunner {works : Bool} (h : Covered limits s) (hstep : s.stopRunner id works = .ok t) :
    Covered limits t := by
  obtain ⟨r, -, hstep⟩ := bind_eq_ok hstep
  split at hstep
  · cases hstep
    exact ⟨h.tracked.cleanupNative id, (executing_cleanupNative s id).trans h.executing⟩
  · cases hstep
    exact ⟨h.tracked.stopVm _ _, (executing_stopVm s _ _).trans h.executing⟩

end Covered

theorem record_ok {s : AgentState} {id : RecordId} {r : TartRecord} (h : s.record id = .ok r) :
    s.records.find id = some r := by
  unfold AgentState.record at h
  split at h
  · next hfind =>
    cases h
    exact hfind
  · cases h

def cleanedUp (s : AgentState) (r : TartRecord) (cleanup : VmCleanup) : AgentState :=
  match r.runtime with
  | .native => s.cleanupNative r.id
  | .vm => s.cleanupVm r.vmName cleanup

theorem deleteRunner_cases (s : AgentState) (id : RecordId) (cleanup : VmCleanup)
    (fileRemoved : Bool) :
    (s.deleteRunner id cleanup fileRemoved).2 = s ∨ ∃ r, s.records.find id = some r ∧
      ((s.deleteRunner id cleanup fileRemoved).2 = ((cleanedUp s r cleanup).forget id).removeFile id ∨
        (s.deleteRunner id cleanup fileRemoved).2 = (cleanedUp s r cleanup).forget id) := by
  unfold AgentState.deleteRunner
  split
  · exact .inl rfl
  · next r hrecord =>
    have hfind := record_ok hrecord
    cases Table.key_of_find hfind
    refine .inr ⟨r, hfind, ?_⟩
    cases fileRemoved
    · exact .inr rfl
    · exact .inl rfl

namespace Covered

variable {limits : AgentLimits} {s t : AgentState} {r : TartRecord} {id : RecordId}

theorem forgotten {cleanup : VmCleanup} (h : Covered limits s) (hfind : s.records.find id = some r)
    (hok : r.runtime = .vm →
      cleanup.stopped ∨ ∀ v ∈ s.vms, v.name = r.vmName → v.state.live = false) :
    Covered limits ((cleanedUp s r cleanup).forget id) := by
  obtain ⟨hr, rfl⟩ := Table.find_some_iff.mp hfind
  have hrecords : ∀ r' ∈ s.records, r'.id = r.id → r' = r :=
    fun r' hr' hid => Table.eq_of_key hr' hr hid
  unfold cleanedUp
  split
  · next hruntime =>
    refine ⟨(h.tracked.cleanupNative r.id).discard (by rw [cleanupNative_eq]; exact hrecords)
      (fun v _ hvm => by rw [hruntime] at hvm; cases hvm) (h.tracked.cleaned r.id), ?_⟩
    exact (executing_cleanupNative s r.id).trans h.executing
  · next hruntime =>
    have hcleaned : Tracked (s.cleanupVm r.vmName cleanup) := (h.tracked.stopVm _ _).deleteVm _ _
    refine ⟨hcleaned.discard hrecords (fun v hv _ => cleanupVm_dead (hok hruntime) v hv)
      fun g hg hid => ?_, ?_⟩
    · -- The record of a live group is native, and there is one record of each name.
      by_contra halive
      obtain ⟨⟨r', hr', hnative, hid', -⟩, -⟩ :=
        h.tracked.group g hg (Bool.not_eq_false _ ▸ halive)
      rw [hrecords r' hr' (hid'.trans hid), hruntime] at hnative
      cases hnative
    · exact ((executing_deleteVm _ _ _).trans (executing_stopVm _ _ _)).trans h.executing

/-- **One step.** Every permitted step keeps track of what runs, and within the budget. -/
theorem step {a : Action} (h : Covered limits s) (hok : Permitted s a)
    (hstep : s.step limits a = some t) : Covered limits t := by
  cases a with
  | provision input id pid disk outcome => exact h.provisionRunner hok hstep
  | stop id works =>
    simp only [AgentState.step] at hstep
    split at hstep
    · next hstop =>
      cases hstep
      exact h.stopRunner hstop
    · cases hstep
      exact h
  | delete id cleanup fileRemoved =>
    cases hstep
    obtain heq | ⟨r, hfind, heq | heq⟩ := deleteRunner_cases s id cleanup fileRemoved
    · rw [heq]
      exact h
    · have hforgotten := h.forgotten hfind
        (hok r (Table.mem_of_find hfind) (Table.key_of_find hfind))
      rw [heq]
      exact ⟨hforgotten.tracked.removeFile (forget_records _ _), hforgotten.executing⟩
    · rw [heq]
      exact h.forgotten hfind (hok r (Table.mem_of_find hfind) (Table.key_of_find hfind))
  | vmExit vmName =>
    cases hstep
    exact ⟨h.tracked.stopVm _ _, (executing_stopVm s _ _).trans h.executing⟩
  | nativeExit id whole =>
    cases hstep
    have hwhole : whole = true := hok
    rw [hwhole]
    exact ⟨h.tracked.nativeExit id, (executing_nativeExit s id true).trans h.executing⟩
  | restart =>
    cases hstep
    exact ⟨h.tracked.restart hok, h.executing⟩

theorem initial : Covered limits .initial where
  tracked := ⟨fun v hv => (by cases hv), fun g hg => (by cases hg), fun r hr => (by cases hr)⟩
  executing := by
    have hzero : AgentState.initial.executing = 0 := by
      simp [AgentState.executing, AgentState.initial]
    rw [hzero]
    refine ⟨Nat.zero_le _, ?_, Nat.zero_le _⟩
    have hepsilon : (0 : ℚ) ≤ epsilon := by norm_num [epsilon]
    exact add_nonneg (le_trans zero_le_one limits.cpuBudget_pos) hepsilon

end Covered

/-! ## The budget -/

theorem executing_cpu (s : AgentState) : s.executing ∈ CapacityUsage.wholeUnits 1 := by
  rw [AgentState.executing_eq]
  refine add_mem (Table.tally_mem _ fun v _ => ?_) (Table.tally_mem _ fun g _ => ?_)
  · unfold chargedVm
    split
    · exact ⟨v.size.cores, (mul_one _).symm⟩
    · exact zero_mem _
  · unfold chargedGroup
    split
    · exact ⟨g.size.cores, (mul_one _).symm⟩
    · exact zero_mem _

theorem Covered.withinBudget {limits : AgentLimits} {s : AgentState} (h : Covered limits s)
    (hcores : ∀ n : ℕ, (n : ℚ) ≤ limits.cpuBudget + epsilon → (n : ℚ) ≤ limits.cpuBudget) :
    s.WithinBudget limits := by
  obtain ⟨hrunners, hcpu, hmemory⟩ := h.executing
  refine ⟨hrunners, ?_, hmemory⟩
  obtain ⟨n, hn⟩ := executing_cpu s
  rw [hn, mul_one] at hcpu ⊢
  exact hcores n hcpu

def Action.ends (id : RecordId) : Action → Prop
  | .stop id' _ => id' = id
  | .delete id' _ _ => id' = id
  | _ => False

/-- Once every live group is tracked, a stop or a deletion of a native runner ends its group. -/
theorem Tracked.ended {limits : AgentLimits} {s t : AgentState} {id : RecordId} {r : TartRecord}
    {a : Action} (h : Tracked s) (hfind : s.records.find id = some r)
    (hruntime : r.runtime = .native) (ha : a.ends id) (hstep : s.step limits a = some t) :
    ∀ g ∈ t.groups, g.id = id → g.alive = false := by
  have hrecord : s.record id = .ok r := by simp [AgentState.record, hfind]
  cases a with
  | stop id' works =>
    cases ha
    have hstop : s.stopRunner id works = .ok (s.cleanupNative id) := by
      simp [AgentState.stopRunner, hrecord, hruntime, bind, Except.bind]
    simp only [AgentState.step, hstop] at hstep
    cases hstep
    exact h.cleaned id
  | delete id' cleanup fileRemoved =>
    cases ha
    have hgroups : (s.deleteRunner id cleanup fileRemoved).2.groups =
        (s.cleanupNative id).groups := by
      simp only [AgentState.deleteRunner, hrecord, hruntime]
      cases fileRemoved <;> rfl
    cases hstep
    rw [hgroups]
    exact h.cleaned id
  | provision | vmExit | nativeExit | restart => cases ha

/-- **The host** stays within its budget, and a stopped or deleted native runner leaves its process
group dead. -/
theorem host_budget_kept (limits : AgentLimits)
    (hcores : ∀ n : ℕ, (n : ℚ) ≤ limits.cpuBudget + epsilon → (n : ℚ) ≤ limits.cpuBudget)
    {actions : List Action} {s : AgentState}
    (hrun : (agent limits).Runs Permitted .initial actions s) :
    s.WithinBudget limits ∧
      ∀ id r a t, s.records.find id = some r → r.runtime = .native → Action.ends id a →
        s.step limits a = some t → ∀ g ∈ t.groups, g.id = id → g.alive = false := by
  have hcovered : Covered limits s :=
    hrun.inv (fun _ _ _ hok hstep hs => Covered.step hs hok hstep) Covered.initial
  refine ⟨hcovered.withinBudget hcores, fun id r a t hfind hruntime ha hstep => ?_⟩
  exact hcovered.tracked.ended hfind hruntime ha hstep

/-- After a restart the agent does not count the runner it left behind, nor reach its process group.
-/
theorem restart_leaves_group :
    (∃ s, (agent Sample.limits).exec .initial
        [Sample.provision "first" .native "tart-1" 100, .restart,
          Sample.provision "second" .native "tart-2" 200] = some s ∧
      ¬s.WithinBudget Sample.limits) ∧
    ∃ s, (agent Sample.limits).exec .initial
        [Sample.provision "first" .native "tart-1" 100, .restart, .stop "tart-1" true] = some s ∧
      ∃ g ∈ s.groups.rows, g.id = "tart-1" ∧ g.alive := by
  constructor
  · exact Machine.exists_exec (by decide +kernel)
  · exact Machine.exists_exec (by decide +kernel)

instance (s : AgentState) (runtime : Runtime) (outcome : Outcome) :
    Decidable (outcome.Harmless s runtime) := by
  cases outcome <;> unfold Outcome.Harmless <;> infer_instance

instance (s : AgentState) (a : Action) : Decidable (Permitted s a) := by
  cases a <;> unfold Permitted <;> infer_instance

theorem host_budget_kept_sample : ∃ s t,
    (agent Sample.limits).Runs Permitted .initial
      [Sample.provision "first" .native "tart-1" 100, .stop "tart-1" true, .restart,
        Sample.provision "second" .native "tart-2" 200] s ∧
      s.executing.activeRunners = 1 ∧ s.WithinBudget Sample.limits ∧
      s.step Sample.limits (.delete "tart-2" ⟨true, true⟩ true) = some t ∧
      ∀ g ∈ t.groups, g.id = "tart-2" → g.alive = false := by
  have hexec : ((agent Sample.limits).execIf Permitted .initial
      [Sample.provision "first" .native "tart-1" 100, .stop "tart-1" true, .restart,
        Sample.provision "second" .native "tart-2" 200]).any
      fun s => decide (s.executing.activeRunners = 1 ∧
        (s.records.find "tart-2").any (·.runtime == .native)) := by
    decide +kernel
  obtain ⟨s, hs, hfacts⟩ := (Option.any_eq_true _ _).mp hexec
  obtain ⟨hone, hnative⟩ := of_decide_eq_true hfacts
  obtain ⟨r, hfind, hruntime⟩ := (Option.any_eq_true _ _).mp hnative
  have hrun := Machine.runs_of_execIf hs
  -- A number of cores above the budget of 4 is above it by one at least.
  have hcores : ∀ n : ℕ, (n : ℚ) ≤ Sample.limits.cpuBudget + epsilon →
      (n : ℚ) ≤ Sample.limits.cpuBudget := by
    intro n hn
    have hlt : (n : ℚ) < 5 := by
      refine lt_of_le_of_lt hn ?_
      norm_num [Sample.limits, epsilon]
    have hle : n ≤ 4 := Nat.lt_succ_iff.mp (by exact_mod_cast hlt)
    simp only [Sample.limits]
    exact_mod_cast hle
  obtain ⟨hwithin, hended⟩ := host_budget_kept Sample.limits hcores hrun
  exact ⟨s, _, hrun, hone, hwithin, rfl,
    hended "tart-2" r (.delete "tart-2" ⟨true, true⟩ true) _ hfind (beq_iff_eq.mp hruntime) rfl rfl⟩

end Gridops.TartAgent
