import Gridops.Fleet.Registry.Effects

/-!
# Results are applied once

Four transactions write the state of a command: a poll, a result, the settlement
of a handshake and an administrator's repair. Over every interleaving of them an
applied terminal result closes its command (`Answered`), so a second one is kept
as stale; a result already recorded is recognised by its hash; and a command that
succeeded, failed or was cancelled stays so.
-/

namespace Gridops.Fleet

open Gridops.Lib

def CommandResult.AppliedTerminal (r : CommandResult) : Prop :=
  r.disposition = .applied ∧ r.result.outcome.isProgress = false

theorem CommandOutcome.commandState_isTerminal (o : CommandOutcome) :
    o.commandState.isTerminal = !o.isProgress := by
  cases o <;> rfl

/-- What `host_command_results` says about `host_commands` in every reachable state. -/
structure Answered (H : Hashing) (s : Store) : Prop where
  /-- A command's results are told apart by their hash. -/
  oneRow : ∀ r₁ ∈ s.results, ∀ r₂ ∈ s.results,
    r₁.commandId = r₂.commandId → r₁.resultHash = r₂.resultHash → r₁ = r₂
  /-- A row holds a valid result of an existing command. -/
  row : ∀ r ∈ s.results, r.commandId = r.result.commandId ∧ r.resultHash = H.result r.result ∧
    ∃ c, s.commands.find r.commandId = some c ∧ r.result.validateAgainst H.bytes c.payload = .ok ()
  /-- An applied terminal result has closed its command. -/
  closed : ∀ r ∈ s.results, r.AppliedTerminal →
    ∀ c, s.commands.find r.commandId = some c → c.state.isTerminal
  once : ∀ r₁ ∈ s.results, ∀ r₂ ∈ s.results, r₁.commandId = r₂.commandId →
    r₁.AppliedTerminal → r₂.AppliedTerminal → r₁ = r₂

namespace Answered

variable {H : Hashing} {s t : Store}

theorem of_no_results (h : s.results.rows = []) : Answered H s := by
  have hnone : ∀ r, r ∉ s.results := fun r hr => by
    rw [← Table.mem_rows, h] at hr
    cases hr
  exact ⟨fun r hr => (hnone r hr).elim, fun r hr => (hnone r hr).elim,
    fun r hr => (hnone r hr).elim, fun r hr => (hnone r hr).elim⟩

theorem silent (h : Answered H s) (hst : SilentStep s t) : Answered H t := by
  have hmem : ∀ r, r ∈ t.results ↔ r ∈ s.results := fun r => by rw [hst.results]
  refine ⟨?_, ?_, ?_, ?_⟩
  · exact fun r₁ h₁ r₂ h₂ => h.oneRow r₁ ((hmem r₁).mp h₁) r₂ ((hmem r₂).mp h₂)
  · intro r hr
    obtain ⟨hid, hhash, c, hc, hvalid⟩ := h.row r ((hmem r).mp hr)
    obtain ⟨d, hd, hcd⟩ := hst.forward hc
    exact ⟨hid, hhash, d, hd, by rw [hcd.same]; exact hvalid⟩
  · intro r hr happlied d hd
    obtain ⟨c, hc, hcd⟩ := hst.backward hd
    exact hcd.state.isTerminal (h.closed r ((hmem r).mp hr) happlied c hc)
  · exact fun r₁ h₁ r₂ h₂ => h.once r₁ ((hmem r₁).mp h₁) r₂ ((hmem r₂).mp h₂)

variable {c : Command} {result : AgentCommandResult}

theorem issued (h : Answered H s) {commands : Table Command.id}
    (hinsert : s.commands.insert? c = some commands) :
    Answered H { s with commands := commands } := by
  have hkept : ∀ r ∈ s.results, commands.find r.commandId = s.commands.find r.commandId := by
    intro r hr
    obtain ⟨-, -, d, hd, -⟩ := h.row r hr
    simp [Table.find_insert? hinsert, hd]
  refine ⟨h.oneRow, ?_, ?_, h.once⟩
  · intro r hr
    obtain ⟨hid, hhash, d, hd, hvalid⟩ := h.row r hr
    exact ⟨hid, hhash, d, (hkept r hr).trans hd, hvalid⟩
  · intro r hr happlied d hd
    exact h.closed r hr happlied d ((hkept r hr).symm.trans hd)

theorem open_of_not_closed (h : Answered H s) (hc : c ∈ s.commands) (hopen : s.isClosed c = false)
    {r : CommandResult} (hr : r ∈ s.results) (hrc : r.commandId = c.id) : ¬ r.AppliedTerminal := by
  intro happlied
  have hterminal := h.closed r hr happlied c (hrc ▸ Table.find_key hc)
  simp only [Store.isClosed, hterminal, Bool.and_true, Bool.not_eq_eq_eq_not, Bool.not_false,
    Store.isLate, Bool.and_eq_true] at hopen
  have hnone := List.any_eq_false.mp hopen.2 r hr
  simp [hrc, happlied.1] at hnone

theorem find_recorded_none (h : s.recorded H result = none) {r : CommandResult} (hr : r ∈ s.results)
    (hid : r.commandId = result.commandId) :
    r.resultHash ≠ H.result result := by
  intro hhash
  have := List.find?_eq_none.mp h r hr
  simp [hid, hhash] at this

theorem stale (h : Answered H s) {now : Millis} {results : Table CommandResult.id}
    (hc : s.commands.find result.commandId = some c)
    (hvalid : result.validateAgainst H.bytes c.payload = .ok ()) (hnew : s.recorded H result = none)
    (hinsert : s.results.insert? ⟨result.resultId, result.commandId, H.result result, .stale,
      result, now⟩ = some results) : Answered H { s with results := results } := by
  have hmem : ∀ r, r ∈ results ↔ r ∈ s.results ∨ r = _ := fun _ => Table.mem_insert? hinsert
  refine ⟨?_, ?_, ?_, ?_⟩
  · intro r₁ h₁ r₂ h₂ hid hhash
    rcases (hmem r₁).mp h₁ with h₁ | rfl <;> rcases (hmem r₂).mp h₂ with h₂ | rfl
    · exact h.oneRow r₁ h₁ r₂ h₂ hid hhash
    · exact (find_recorded_none hnew h₁ hid hhash).elim
    · exact (find_recorded_none hnew h₂ hid.symm hhash.symm).elim
    · rfl
  · intro r hr
    rcases (hmem r).mp hr with hr | rfl
    · exact h.row r hr
    · exact ⟨rfl, rfl, c, hc, hvalid⟩
  · intro r hr happlied
    rcases (hmem r).mp hr with hr | rfl
    · exact h.closed r hr happlied
    · cases happlied.1
  · intro r₁ h₁ r₂ h₂ hid ha₁ ha₂
    rcases (hmem r₁).mp h₁ with h₁ | rfl
    · rcases (hmem r₂).mp h₂ with h₂ | rfl
      · exact h.once r₁ h₁ r₂ h₂ hid ha₁ ha₂
      · cases ha₂.1
    · cases ha₁.1

theorem applied (h : Answered H s) {auth : AuthenticatedHost} {now : Millis} {late : Bool}
    {results : Table CommandResult.id} (hc : s.commands.find result.commandId = some c)
    (hvalid : result.validateAgainst H.bytes c.payload = .ok ()) (hnew : s.recorded H result = none)
    (hopen : s.isClosed c = false)
    (hinsert : s.results.insert? ⟨result.resultId, result.commandId, H.result result, .applied,
      result, now⟩ = some results) :
    Answered H ({ s with results := results }.settleCommand c auth.hostId late result.outcome now) := by
  have hid : c.id = result.commandId := Table.key_of_find hc
  have hmem : ∀ r, r ∈ results ↔ r ∈ s.results ∨ r = _ := fun _ => Table.mem_insert? hinsert
  -- Commands other than `c` are as before; `c` itself takes the outcome's state.
  have hself : (Store.setCommandState { s with results := results } c.id
      result.outcome.commandState).commands.find c.id =
        some { c with state := result.outcome.commandState } :=
    Store.find_setCommandState_self (by rw [hid]; exact hc)
  have hothers : ∀ id, id ≠ c.id → (Store.setCommandState { s with results := results } c.id
      result.outcome.commandState).commands.find id = s.commands.find id :=
    fun id hne => Store.find_setCommandState_of_ne hne
  refine ⟨?_, ?_, ?_, ?_⟩
  · rw [Store.settleCommand_results]
    intro r₁ h₁ r₂ h₂ hrid hhash
    rcases (hmem r₁).mp h₁ with h₁ | rfl <;> rcases (hmem r₂).mp h₂ with h₂ | rfl
    · exact h.oneRow r₁ h₁ r₂ h₂ hrid hhash
    · exact (find_recorded_none hnew h₁ hrid hhash).elim
    · exact (find_recorded_none hnew h₂ hrid.symm hhash.symm).elim
    · rfl
  · rw [Store.settleCommand_results, Store.settleCommand_commands]
    intro r hr
    rcases (hmem r).mp hr with hr | rfl
    · obtain ⟨hrid, hhash, d, hd, hd'⟩ := h.row r hr
      by_cases hrc : r.commandId = c.id
      · have hdc : d = c := by
          rw [hrc, hid, hc] at hd
          exact (Option.some.inj hd).symm
        exact ⟨hrid, hhash, _, by rw [hrc]; exact hself, by rw [← hdc]; exact hd'⟩
      · exact ⟨hrid, hhash, d, (hothers _ hrc).trans hd, hd'⟩
    · exact ⟨rfl, rfl, { c with state := result.outcome.commandState }, by rw [← hid]; exact hself,
        hvalid⟩
  · rw [Store.settleCommand_results, Store.settleCommand_commands]
    intro r hr happlied d hd
    rcases (hmem r).mp hr with hr | rfl
    · by_cases hrc : r.commandId = c.id
      · exact (h.open_of_not_closed (Table.mem_of_find hc) hopen hr hrc happlied).elim
      · exact h.closed r hr happlied d ((hothers _ hrc).symm.trans hd)
    · rw [← hid, hself] at hd
      cases hd
      rw [CommandOutcome.commandState_isTerminal, happlied.2]
      rfl
  · rw [Store.settleCommand_results]
    intro r₁ h₁ r₂ h₂ hrid ha₁ ha₂
    have hold := fun {r : CommandResult} => h.open_of_not_closed (r := r) (Table.mem_of_find hc) hopen
    rcases (hmem r₁).mp h₁ with h₁ | rfl <;> rcases (hmem r₂).mp h₂ with h₂ | rfl
    · exact h.once r₁ h₁ r₂ h₂ hrid ha₁ ha₂
    · exact (hold h₁ (hrid.trans hid.symm) ha₁).elim
    · exact (hold h₂ (hrid.symm.trans hid.symm) ha₂).elim
    · rfl

theorem exec (h : Answered H s) (op : Op) : Answered H (s.exec H op) := by
  rcases Store.exec_cases H s op with hsilent | ⟨_, _, _, c, commands, -, hinsert, heq⟩ |
    ⟨auth, result, now, disposition, hrecord⟩
  · exact h.silent hsilent
  · rw [heq]
    exact h.issued hinsert
  · obtain ⟨c, hc, -, hvalid, ⟨-, -, -, heq⟩ | ⟨hnew, results, hinsert, hcase⟩⟩ :=
      Store.recordCommandResult_cases hrecord
    · rw [heq]
      exact h
    · rcases hcase with ⟨-, rfl, heq⟩ | ⟨hopen, rfl, heq⟩
      · rw [heq]
        exact h.stale hc hvalid hnew hinsert
      · rw [heq]
        exact h.applied hc hvalid hnew hopen hinsert

theorem run (h : Answered H s) {ops : List Op} (hrun : (registry H).Run s ops t) : Answered H t :=
  hrun.inv (fun _ op _ _ hstep hs => Option.some.inj hstep ▸ hs.exec op) h

end Answered

/-! ## Replays, stale results and final states -/

namespace Store

variable {H : Hashing} {s t : Store}

theorem recorded_of_mem (h : Answered H s) {r : CommandResult} (hr : r ∈ s.results) :
    s.recorded H r.result = some r := by
  obtain ⟨hid, hhash, -⟩ := h.row r hr
  obtain ⟨row, hrow⟩ := Option.isSome_iff_exists.mp
    (List.find?_isSome (p := fun x : CommandResult => x.commandId == r.result.commandId
      && x.resultHash == H.result r.result) |>.mpr ⟨r, hr, by simp [hid, hhash]⟩)
  have hmatch := List.find?_some hrow
  simp only [Bool.and_eq_true, beq_iff_eq] at hmatch
  have : row = r := h.oneRow row (List.mem_of_find?_eq_some hrow) r hr (hmatch.1.trans hid.symm)
    (hmatch.2.trans hhash.symm)
  exact this ▸ hrow

theorem recordCommandResult_replay (h : Answered H s) {r : CommandResult} (hr : r ∈ s.results)
    {c : Command} (hc : s.commands.find r.commandId = some c) {auth : AuthenticatedHost}
    (hhost : c.hostId = auth.hostId) {now : Millis}
    (hauth : s.ensureAuthenticatedGeneration auth now = .ok ()) :
    s.recordCommandResult H auth r.result now = .ok (r.disposition, s) := by
  obtain ⟨hid, -, d, hd, hvalid⟩ := h.row r hr
  cases hc.symm.trans hd
  rw [hid] at hc
  simp [recordCommandResult, hauth, bind, Except.bind, hc, Option.filter, hhost, hvalid,
    recorded_of_mem h hr]

theorem recordCommandResult_stale {auth : AuthenticatedHost} {result : AgentCommandResult}
    {now : Millis} (h : s.recordCommandResult H auth result now = .ok (.stale, t)) :
    t = { s with results := t.results } := by
  obtain ⟨c, -, -, -, ⟨-, -, -, rfl⟩ | ⟨-, results, -, ⟨-, -, rfl⟩ | ⟨-, happlied, -⟩⟩⟩ :=
    recordCommandResult_cases h
  · rfl
  · rfl
  · cases happlied

theorem exec_isFinal {id : CommandId} {c : Command} (op : Op)
    (hc : s.commands.find id = some c) (hfinal : c.state.isFinal) :
    ∃ d, (s.exec H op).commands.find id = some d ∧ d.state = c.state := by
  rcases exec_cases H s op with hsilent | ⟨_, _, _, d, commands, -, hinsert, heq⟩ |
    ⟨auth, result, now, disposition, hrecord⟩
  · obtain ⟨d, hd, hcd⟩ := hsilent.forward hc
    exact ⟨d, hd, hcd.state.of_final hfinal⟩
  · rw [heq]
    exact ⟨c, by simp [Table.find_insert? hinsert, hc], rfl⟩
  · obtain ⟨e, he, -, -, ⟨-, -, -, heq⟩ | ⟨-, results, -, ⟨-, -, heq⟩ | ⟨hopen, -, heq⟩⟩⟩ :=
      recordCommandResult_cases hrecord
    · exact ⟨c, by rw [heq]; exact hc, rfl⟩
    · exact ⟨c, by rw [heq]; exact hc, rfl⟩
    · rw [heq, settleCommand_commands]
      have hne : id ≠ e.id := by
        rintro rfl
        rw [show e.id = result.commandId from Table.key_of_find he, he] at hc
        cases hstate : c.state <;> simp_all [isClosed, isLate, CommandState.isFinal,
          CommandState.isTerminal]
      exact ⟨c, (find_setCommandState_of_ne hne).trans hc, rfl⟩

theorem run_isFinal {ops : List Op} (hrun : (registry H).Run s ops t) {id : CommandId}
    {c : Command} (hc : s.commands.find id = some c) (hfinal : c.state.isFinal) :
    ∃ d, t.commands.find id = some d ∧ d.state = c.state := by
  refine hrun.inv (I := fun u => ∃ d, u.commands.find id = some d ∧ d.state = c.state) ?_
    ⟨c, hc, rfl⟩
  rintro u op v - hstep ⟨d, hd, hdc⟩
  cases hstep
  obtain ⟨e, he, hed⟩ := exec_isFinal op hd (hdc ▸ hfinal)
  exact ⟨e, he, hed.trans hdc⟩

end Store

/-- **Results are applied at most once**, in every state the calls can reach from one with no
results. -/
theorem results_applied_once (H : Hashing) {s₀ s t : Store} {ops ops' : List Op}
    (h₀ : s₀.results.rows = []) (hs : (registry H).Run s₀ ops s) (ht : (registry H).Run s ops' t) :
    (∀ r₁ ∈ s.results, ∀ r₂ ∈ s.results, r₁.commandId = r₂.commandId →
      r₁.AppliedTerminal → r₂.AppliedTerminal → r₁ = r₂) ∧
    (∀ r ∈ s.results, ∀ c auth now, s.commands.find r.commandId = some c →
      c.hostId = auth.hostId → s.ensureAuthenticatedGeneration auth now = .ok () →
      s.recordCommandResult H auth r.result now = .ok (r.disposition, s)) ∧
    (∀ auth result now u, s.recordCommandResult H auth result now = .ok (.stale, u) →
      u = { s with results := u.results }) ∧
    (∀ id c, s.commands.find id = some c → c.state.isFinal →
      ∃ d, t.commands.find id = some d ∧ d.state = c.state) := by
  have hanswered : Answered H s := (Answered.of_no_results h₀).run hs
  refine ⟨hanswered.once, ?_, ?_, ?_⟩
  · intro r hr c auth now hc hhost hauth
    exact Store.recordCommandResult_replay hanswered hr hc hhost hauth
  · intro auth result now u hrecord
    exact Store.recordCommandResult_stale hrecord
  · intro id c hc hfinal
    exact Store.run_isFinal ht hc hfinal

namespace Sample

def answeredStart : List Op :=
  [.issue 1 start (.start 1) 30000 1 1000,
   .poll auth 10 2000,
   .record auth (answer 1 start (.start 1) 30000 1000 1 started) 3000,
   .record auth (answer 1 start (.start 1) 30000 1000 2 (.failed .runtime false none)) 4000]

end Sample

theorem results_applied_once_sample :
    let s := Sample.answeredStart.foldl (Store.exec Sample.hashing) Sample.store
    s.recordCommandResult Sample.hashing Sample.auth
        (Sample.answer 1 Sample.start (.start 1) 30000 1000 1 Sample.started) 5000 =
      .ok (.applied, s) ∧
    s.recordCommandResult Sample.hashing Sample.auth
        (Sample.answer 1 Sample.start (.start 1) 30000 1000 2 (.failed .runtime false none)) 5000 =
      .ok (.stale, s) := by
  intro s
  have h := results_applied_once Sample.hashing (rfl : Sample.store.results.rows = [])
    (registry_run Sample.hashing Sample.store Sample.answeredStart) (.nil s)
  exact ⟨h.2.1 ⟨1, 1, "r1", .applied, _, 3000⟩ (by decide) _ _ 5000 (rfl : _ = some _) rfl rfl,
    h.2.1 ⟨2, 1, "r2", .stale, _, 4000⟩ (by decide) _ _ 5000 (rfl : _ = some _) rfl rfl⟩

end Gridops.Fleet
