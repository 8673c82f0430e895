import Gridops.Fleet.Reconciler.Drive
import Gridops.Fleet.Registry.Release
import Gridops.Fleet.Registry.Writes

/-!
# No start is lost while its command is open

`issue_command` and `mark_starting` are committed apart, and `mark_starting`
writes `starting` whatever the placement's state is. Every transaction of the
host that ends the start command also moves the placement out of `starting`
(`StartStep`), so a placement marked while the command is still open leaves
`starting` with it. A command that ends between the two steps is overwritten:
`start_succeeds_before_mark` is a run in which the reconciler then cleans up a
runner that started.
-/

namespace Gridops.Fleet

open Gridops.Lib

def NoStart (s t : Store) : Prop :=
  ∀ p y, t.placements.find p = some y → y.state = .starting →
    ∃ x, s.placements.find p = some x ∧ x.state = .starting

namespace NoStart

variable {s t u : Store} {p : PlacementId} {now : Millis}

theorem of_eq (h : t.placements = s.placements) : NoStart s t := fun _ y hy hstate =>
  ⟨y, h ▸ hy, hstate⟩

theorem refl (s : Store) : NoStart s s := of_eq rfl

theorem trans (h₁ : NoStart s t) (h₂ : NoStart t u) : NoStart s u := fun p z hz hstate => by
  obtain ⟨y, hy, hystate⟩ := h₂ p z hz hstate
  exact h₁ p y hy hystate

theorem of_writes {P : PlacementId → Prop} (h : Writes P (· ≠ .starting) s t) : NoStart s t := by
  intro p y hy hstate
  obtain ⟨x, hx, hid, hstate⟩ := h.unmoved (by simp) y (Table.mem_of_find hy) hstate
  exact ⟨x, Table.find_some_iff.mpr ⟨hx, hid.trans (Table.key_of_find hy)⟩, hstate⟩

end NoStart

/-! ## The start command and its placement -/

def StartRow (s : Store) (p : PlacementId) (id : CommandId) : Prop :=
  ∃ c, s.commands.find id = some c ∧ c.kind = .startRunner ∧ c.placementId = some p

/-- The command has not ended and may still be answered. -/
def Live (s : Store) (id : CommandId) : Prop :=
  ∃ c, s.commands.find id = some c ∧ c.state.isTerminal = false

/-- What a transaction of the host does to starts: one that ends a live start command
leaves its placement in another state than `starting`. -/
structure StartStep (s t : Store) : Prop where
  noStart : NoStart s t
  row : ∀ p id, StartRow s p id → StartRow t p id
  ends : ∀ p id, StartRow s p id → Live s id →
    ∀ y, t.placements.find p = some y → y.state = .starting → Live t id

namespace StartStep

variable {s t u : Store} {c : Command} {p : PlacementId} {now : Millis}

theorem of_noStart (h : NoStart s t) (hc : t.commands = s.commands) : StartStep s t where
  noStart := h
  row _ _ := by
    unfold StartRow
    rw [hc]
    exact id
  ends _ _ _ hlive _ _ _ := by
    unfold Live
    rw [hc]
    exact hlive

theorem refl (s : Store) : StartStep s s := of_noStart (.refl s) rfl

theorem trans (h₁ : StartStep s t) (h₂ : StartStep t u) : StartStep s u where
  noStart := h₁.noStart.trans h₂.noStart
  row p id h := h₂.row p id (h₁.row p id h)
  ends p id hrow hlive z hz hstate := by
    obtain ⟨y, hy, hystate⟩ := h₂.noStart p z hz hstate
    exact h₂.ends p id (h₁.row p id hrow) (h₁.ends p id hrow hlive y hy hystate) z hz hstate

theorem of_command {f : Command → Command} (hf : ∀ d, (f d).id = d.id)
    (hc : s.commands.find c.id = some c) (hno : NoStart s t)
    (hcommands : t.commands = s.commands.update (·.id == c.id) f hf)
    (hkind : (f c).kind = c.kind) (hplacement : (f c).placementId = c.placementId)
    (hends : c.kind = .startRunner → c.state.isTerminal = false → (f c).state.isTerminal →
      ∀ p, c.placementId = some p → ∀ y, t.placements.find p = some y → y.state ≠ .starting) :
    StartStep s t := by
  have hfind : ∀ id d, s.commands.find id = some d →
      t.commands.find id = some (if d.id == c.id then f d else d) := by
    intro id d hd
    rw [hcommands, Table.find_update, hd]
    rfl
  have hself : ∀ id d, s.commands.find id = some d → (d.id == c.id) = true → d = c := by
    intro id d hd hid
    exact Table.eq_of_key (Table.mem_of_find hd) (Table.mem_of_find hc) (by simpa using hid)
  refine ⟨hno, ?_, ?_⟩
  · rintro p id ⟨d, hd, hdkind, hdp⟩
    refine ⟨_, hfind id d hd, ?_⟩
    by_cases hid : (d.id == c.id) = true
    · obtain rfl := hself id d hd hid
      rw [if_pos hid]
      exact ⟨hkind.trans hdkind, hplacement.trans hdp⟩
    · rw [if_neg hid]
      exact ⟨hdkind, hdp⟩
  · rintro p id ⟨d, hd, hdkind, hdp⟩ ⟨d', hd', hlive⟩ y hy hstate
    cases hd.symm.trans hd'
    refine ⟨_, hfind id d hd, ?_⟩
    by_cases hid : (d.id == c.id) = true
    · obtain rfl := hself id d hd hid
      rw [if_pos hid]
      cases hterminal : (f d).state.isTerminal with
      | false => rfl
      | true => exact absurd hstate (hends hdkind hlive hterminal p hdp y hy)
    · rw [if_neg hid]
      exact hlive

/-! ## The host's transactions -/

theorem state_of_setPlacementState {next : PlacementState} {y : Placement}
    (hy : (s.setPlacementState p next now).placements.find p = some y) : y.state = next := by
  rw [Store.setPlacementState, Store.find_setPlacementStateWhere] at hy
  obtain ⟨x, hx, rfl⟩ := Option.map_eq_some_iff.mp hy
  have hid : x.id = p := Table.key_of_find hx
  simp [hid]

theorem cancelRow (hc : s.commands.find c.id = some c)
    (hstate : c.state = .delivered ∨ c.state = .pending) :
    StartStep s (Store.cancelRow now s c) := by
  have hno : NoStart s (Store.cancelRow now s c) := .of_writes
    (.cancelRow (P := fun _ => True) s (fun _ _ => trivial) (by decide) (by decide))
  refine of_command (fun _ => by rfl) hc hno (Store.expirePlacement_frame c).commands rfl rfl ?_
  intro hkind _ _ p hp y hy
  simp only [Store.cancelRow, Store.expirePlacement, hp, hkind] at hy
  rcases hstate with h | h
  · simp only [h] at hy
    rw [state_of_setPlacementState hy]
    decide
  · simp only [h] at hy
    rw [state_of_setPlacementState hy]
    decide

theorem settleRow {hostId : HostId} (hc : s.commands.find c.id = some c) :
    StartStep s (Store.settleRow hostId now s c) := by
  have hno : NoStart s (Store.settleRow hostId now s c) := .of_writes
    (.settleRow (P := fun _ => True) s hostId (fun _ _ => trivial) (by decide))
  refine of_command (fun _ => by rfl) hc hno (Store.losePlacement_frame c).commands rfl rfl ?_
  intro hkind _ _ p hp y hy hstate
  simp only [Store.settleRow, Store.losePlacement, hp, hkind, CommandKind.creates, if_true] at hy
  rw [Store.find_setPlacementStateWhere] at hy
  obtain ⟨x, hx, rfl⟩ := Option.map_eq_some_iff.mp hy
  have hid : x.id = p := Table.key_of_find hx
  by_cases hwait : Store.awaitsCreation x.state = true
  · simp [hid, hwait] at hstate
  · simp only [hid, beq_self_eq_true, Bool.true_and, if_neg hwait] at hstate
    simp [hstate, Store.awaitsCreation] at hwait

theorem pollCommands {auth : AuthenticatedHost} {session : SessionId}
    {cs : List AgentCommandEnvelope} (h : s.pollCommands auth session now = .ok (cs, t)) :
    StartStep s t := by
  have hcancel : StartStep s (s.cancelUndeliverable auth.hostId now) :=
    Store.cancelUndeliverable_rel refl (fun _ _ _ => trans) (fun _ _ => cancelRow) s auth.hostId
  rcases Store.pollCommands_cases h with ⟨-, rfl | rfl⟩ | ⟨c, -, -, hc, -, -, rfl⟩
  · exact refl _
  · exact hcancel
  · refine hcancel.trans (of_command (fun _ => by rfl) hc (.of_eq rfl) rfl rfl rfl ?_)
    intro _ _ hterminal
    cases hterminal

theorem settleUnreceived (s : Store) (hostId : HostId) (epoch : Nat) (session : SessionId)
    (now : Millis) : StartStep s (s.settleUnreceived hostId epoch session now) := by
  refine Store.settleUnreceived_rel refl (fun _ _ _ => trans) (fun _ _ hc _ => settleRow hc)
    (fun u ps => of_noStart (.of_writes (P := fun _ => True) ?_)
      (Store.foldl_resumeTouched_frame ps).commands) s epoch session
  exact foldl_rel .refl (fun _ _ _ => .trans)
    (fun t _ => .resumeTouched t trivial (by decide) (by decide)) ps u

theorem applyToPlacement_start {outcome : CommandOutcome} (hterminal : outcome.commandState.isTerminal)
    {y : Placement} (hy : (s.applyToPlacement p .startRunner outcome now).placements.find p = some y) :
    y.state ≠ .starting := by
  cases outcome with
  | accepted _ | running _ => cases hterminal
  | succeeded _ | failed _ _ _ | uncertain _ _ =>
    rw [state_of_setPlacementState hy]
    decide

theorem recordCommandResult {H : Hashing} {auth : AuthenticatedHost} {result : AgentCommandResult}
    {disposition : ResultDisposition}
    (h : s.recordCommandResult H auth result now = .ok (disposition, t)) : StartStep s t := by
  have hno : NoStart s t := .of_writes (.recordCommandResult h)
  obtain ⟨c, hfind, -, -, ⟨-, -, -, rfl⟩ | ⟨-, results, -, ⟨-, -, rfl⟩ | ⟨-, -, rfl⟩⟩⟩ :=
    Store.recordCommandResult_cases h
  · exact refl _
  · exact of_noStart (.of_eq rfl) rfl
  · have hc : s.commands.find c.id = some c := Table.find_key (Table.mem_of_find hfind)
    refine of_command (fun _ => by rfl) hc hno (Store.settleCommand_commands _ _ _) rfl rfl ?_
    intro hkind hlive hterminal p hp y hy
    -- A live command is not late, so its answer is applied whatever the placement's state.
    have hlate : s.isLate c = false := by
      cases hstate : c.state <;> simp_all [Store.isLate, CommandState.isTerminal]
    rw [hlate] at hy
    have happlied : (Store.applyToPlacement ((Store.setCommandState { s with results := results }
        c.id result.outcome.commandState).recordAttempt c result.outcome.commandState now) p
        .startRunner result.outcome now).placements.find p = some y := by
      simpa [Store.settleCommand, Store.applyResult, hp, hkind, Store.auditAndEvent] using hy
    exact applyToPlacement_start hterminal happlied

theorem exec {H : Hashing} {op : Op} (hop : op.isHostCall) : StartStep s (s.exec H op) := by
  cases op with
  | poll auth session now => exact Store.committed_rel (refl s) fun _ _ => pollCommands
  | record auth result now => exact Store.committed_rel (refl s) fun _ _ => recordCommandResult
  | settle host epoch session now => exact settleUnreceived s host epoch session now
  | repair _ _ _ _ | abandon _ _ | issue _ _ _ _ _ _ | markStarting _ _ _ | setState _ _ _ _ =>
    cases hop

theorem issueCommand {H : Hashing} {operation : AgentOperation} {key : IdempotencyKey}
    {ttl : Millis} {freshId : CommandId} {issued : Option CommandId}
    (h : s.issueCommand H p operation key ttl freshId now = .ok (issued, t)) : StartStep s t := by
  rcases Store.issueCommand_cases h with ⟨-, rfl⟩ | ⟨c, commands, -, -, hinsert, rfl⟩
  · exact refl _
  · have hkept : ∀ id d, s.commands.find id = some d → commands.find id = some d := by
      intro id d hd
      simp [Table.find_insert? hinsert, hd]
    refine ⟨.of_eq rfl, ?_, ?_⟩
    · rintro p id ⟨d, hd, hrow⟩
      exact ⟨d, hkept id d hd, hrow⟩
    · rintro p id - ⟨d, hd, hlive⟩ y - -
      exact ⟨d, hkept id d hd, hlive⟩

theorem abandonUnstarted {changed : Bool} (h : s.abandonUnstarted p now = .ok (changed, t)) :
    StartStep s t := by
  refine of_noStart ?_ (Store.abandonUnstarted_frame h).commands
  exact .of_writes (.abandonUnstarted (P := fun _ => True) trivial (by decide) h)

theorem finish {H : Hashing} {freshId : CommandId} : StartStep s (s.finish H p freshId now) := by
  unfold Store.finish
  split
  · exact Store.committed_rel (refl s) fun _ _ => abandonUnstarted
  · split
    · exact Store.committed_rel (refl s) fun _ _ => issueCommand
    · exact refl s
  · exact refl s

end StartStep

/-! ## The two processes together -/

def Phase.command : Phase → Option CommandId
  | .issued id | .marked id | .seen id | .stuck id => some id
  | _ => none

/-- The issued command is the placement's start, and after `mark_starting` a placement
in `starting` waits for a live one. -/
structure Drive.Sound (p : PlacementId) (d : Drive) : Prop where
  row : ∀ id, d.phase.command = some id → StartRow d.store p id
  waits : ∀ id, d.phase.started = some id → ∀ y, d.store.placements.find p = some y →
    y.state = .starting → Live d.store id

/-- `mark_starting` runs only while the start command is live. -/
def MarksLive (d : Drive) (a : DriveStep) : Prop :=
  ∀ runner now id, a = .mark runner now → d.phase = .issued id → Live d.store id

namespace Drive.Sound

variable {H : Hashing} {p : PlacementId} {d d' : Drive}

theorem command_of_started {ph : Phase} {id : CommandId} (h : ph.started = some id) :
    ph.command = some id := by
  cases ph <;> simp_all [Phase.started, Phase.command]

theorem of_no_command (h : d.phase.command = none) : d.Sound p where
  row id hid := by
    rw [h] at hid
    cases hid
  waits id hid := by
    rw [command_of_started hid] at h
    cases h

theorem store (h : d.Sound p) (hst : StartStep d.store d'.store)
    (hcommand : d'.phase.command = d.phase.command) (hstarted : d'.phase.started = d.phase.started) :
    d'.Sound p where
  row id hid := hst.row p id (h.row id (hcommand ▸ hid))
  waits id hid y hy hstate := by
    rw [hstarted] at hid
    obtain ⟨x, hx, hxstate⟩ := hst.noStart p y hy hstate
    exact hst.ends p id (h.row id (command_of_started hid)) (h.waits id hid x hx hxstate) y hy hstate

theorem step {a : DriveStep} (h : d.Sound p) (hok : MarksLive d a)
    (hstep : (reconciler H p).step d a = some d') : d'.Sound p := by
  cases a with
  | host op =>
    simp only [reconciler, Drive.step, Option.ite_none_right_eq_some, Option.some.injEq] at hstep
    obtain ⟨hop, rfl⟩ := hstep
    exact h.store (.exec hop) rfl rfl
  | register runnerStarting reference sealed now =>
    simp only [reconciler, Drive.step] at hstep
    split at hstep
    · cases hstep
      cases (d.store.register p runnerStarting reference sealed now).2 <;> exact of_no_command rfl
    · cases hstep
  | issue freshId now =>
    simp only [reconciler, Drive.step] at hstep
    split at hstep
    · split at hstep
      · next id s hissue =>
        cases hstep
        rcases Store.issueCommand_cases hissue with ⟨hnone, -⟩ | ⟨c, commands, hid, hissued, hinsert, rfl⟩
        · cases hnone
        · cases hid
          refine ⟨fun id hid => ?_, fun _ hid => ?_⟩
          · cases hid
            refine ⟨c, ?_, hissued.kind, hissued.placementId⟩
            exact Table.find_key ((Table.mem_insert? hinsert).mpr (.inr rfl))
          · cases hid
      · cases hstep
        exact of_no_command rfl
      · cases hstep
        exact of_no_command rfl
    · cases hstep
  | mark runner now =>
    simp only [reconciler, Drive.step] at hstep
    split at hstep
    · next id hphase =>
      cases hstep
      refine ⟨fun _ hid => ?_, fun _ hid _ _ _ => ?_⟩
      · cases hid
        exact h.row id (by rw [hphase]; rfl)
      · cases hid
        exact hok runner now id rfl hphase
    · cases hstep
  | fetch =>
    simp only [reconciler, Drive.step] at hstep
    split at hstep
    · next id hphase =>
      split at hstep
      · cases hstep
        exact h.store (.refl _) (by rw [hphase]; rfl) (by rw [hphase]; rfl)
      · cases hstep
        exact h
    · cases hstep
  | judge now =>
    simp only [reconciler, Drive.step] at hstep
    split at hstep
    · next id hphase =>
      cases hstep
      cases d.store.isStuck p now <;>
        exact h.store (.refl _) (by rw [hphase]; rfl) (by rw [hphase]; rfl)
    · cases hstep
  | giveUp now =>
    simp only [reconciler, Drive.step] at hstep
    split at hstep
    · next id hphase =>
      cases hstep
      have hno : NoStart d.store (d.store.setState p .starting .uncertain now) := .of_writes
        (.setPlacementStateWhere (P := fun _ => True) (N := (· ≠ .starting)) _ trivial _ (by decide))
      exact h.store (.of_noStart hno rfl) (by rw [hphase]; rfl) (by rw [hphase]; rfl)
    · cases hstep
  | finish freshId now =>
    simp only [reconciler, Drive.step] at hstep
    split at hstep
    · cases hstep
      exact h.store .finish rfl rfl
    · cases hstep

end Drive.Sound

theorem Store.find_setState_of_ne {s : Store} {p : PlacementId} {current next : PlacementState}
    {now : Millis} (h : ∀ x, s.placements.find p = some x → x.state ≠ current) :
    (s.setState p current next now).placements.find p = s.placements.find p := by
  rw [Store.setState, Store.find_setPlacementStateWhere]
  cases hx : s.placements.find p with
  | none => rfl
  | some x => simp [h x hx]

/-- **No start is lost when it is marked in time**: once the command has ended, the placement is not
`starting`. -/
theorem start_not_lost {H : Hashing} {p : PlacementId} {s₀ : Store} {d : Drive}
    {as : List DriveStep} (hrun : (reconciler H p).Runs MarksLive ⟨s₀, .idle⟩ as d)
    {id : CommandId} (hstarted : d.phase.started = some id) {c : Command}
    (hc : d.store.commands.find id = some c) (hfinal : c.state.isFinal) :
    (∀ x, d.store.placements.find p = some x → x.state ≠ .starting) ∧
      ∀ now d', (reconciler H p).step d (.giveUp now) = some d' →
        d'.store.placements.find p = d.store.placements.find p := by
  have hsound : d.Sound p :=
    hrun.inv (fun _ _ _ hok hstep hd => hd.step hok hstep) (.of_no_command rfl)
  have hmoved : ∀ x, d.store.placements.find p = some x → x.state ≠ .starting := by
    intro x hx hstate
    obtain ⟨e, he, hlive⟩ := hsound.waits id hstarted x hx hstate
    cases hstate : c.state <;> simp_all [CommandState.isFinal, CommandState.isTerminal]
  refine ⟨hmoved, fun now d' hstep => ?_⟩
  simp only [reconciler, Drive.step] at hstep
  split at hstep
  · cases hstep
    exact Store.find_setState_of_ne hmoved
  · cases hstep

namespace Sample

def preparedStore : Store :=
  [Op.issue 1 (.prepareEnvironment prepare) (.prepare 1) 1200000 1 1000,
   .poll auth 10 2000,
   .record auth (answer 1 (.prepareEnvironment prepare) (.prepare 1) 1200000 1000 1
     (.succeeded (.preparedEnvironment 1))) 3000].foldl (Store.exec hashing) store

def startedOnHost : List DriveStep :=
  let registered := AgentOperation.startRunner ⟨1, 1, 1, 1, 64000, request, [1]⟩
  [.host (.poll auth 10 6000),
   .host (.record auth (answer 2 registered (.start 1) 30000 5000 2 started) 7000)]

def markedInTime : List DriveStep :=
  [.register true 1 "sealed" 4000, .issue 2 5000, .mark 1 5500] ++ startedOnHost

def markedLate : List DriveStep :=
  [.register true 1 "sealed" 4000, .issue 2 5000] ++ startedOnHost ++ [.mark 1 8000]

def givenUp : List DriveStep := [.fetch, .judge 400000, .giveUp 400000, .finish 3 401000]

end Sample

theorem start_not_lost_sample :
    ∃ d, (reconciler Sample.hashing 1).exec ⟨Sample.preparedStore, .idle⟩ Sample.markedInTime = some d ∧
      ∃ x, d.store.placements.find 1 = some x ∧ x.state ≠ .starting := by
  have hother : ∀ {d : Drive} {a : DriveStep}, (∀ runner now, a ≠ .mark runner now) → MarksLive d a :=
    fun h runner now _ ha => absurd ha (h runner now)
  have hrun : (reconciler Sample.hashing 1).Runs MarksLive ⟨Sample.preparedStore, .idle⟩
      Sample.markedInTime _ :=
    .cons (hother (by simp)) rfl <| .cons (hother (by simp)) rfl <|
      .cons (fun _ _ _ _ hphase => by cases hphase; exact ⟨_, rfl, rfl⟩) rfl <|
      .cons (hother (by simp)) rfl <| .cons (hother (by simp)) rfl <| .nil _
  have hmoved := (start_not_lost hrun (rfl : _ = some 2) (rfl : _ = some _) rfl).1
  exact ⟨_, rfl, _, rfl, hmoved _ rfl⟩

/-- **A start that succeeds before it is marked is lost**, and its runner is cleaned up. -/
theorem start_succeeds_before_mark :
    ((reconciler Sample.hashing 1).exec ⟨Sample.preparedStore, .idle⟩ Sample.markedLate).map
        (fun d => (d.phase.started, (d.store.commands.find 2).map (·.state),
          (d.store.placements.find 1).map (·.state))) =
      some (some 2, some .succeeded, some .starting) ∧
    ((reconciler Sample.hashing 1).exec ⟨Sample.preparedStore, .idle⟩
        (Sample.markedLate ++ Sample.givenUp)).map
        (fun d => ((d.store.commands.find 2).map (·.state), (d.store.placements.find 1).map (·.state),
          (d.store.commands.find 3).map (·.payload.operation))) =
      some (some .succeeded, some .uncertain, some (.cleanup Sample.runner)) := by
  exact ⟨by decide, by decide⟩

end Gridops.Fleet
