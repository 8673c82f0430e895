import Gridops.Fleet.Placement

/-!
# What the registry's transactions do to commands

One lemma for each transaction, so that no later proof unfolds one. A write to a
placement leaves commands, results and hosts alone (`PlacementFrame`). Every
transaction but `record_command_result` moves commands without an answer: along
pending, delivered, uncertain, cancelled and never back (`SilentStep`). What a
recorded result does to its command is `recordCommandResult_cases`.
-/

namespace Gridops.Fleet

open Gridops.Lib

/-! ## Placement writes -/

/-- `t` differs from `s` in placements, allocations and registration material only. -/
def PlacementFrame (s t : Store) : Prop :=
  t = { s with placements := t.placements, allocations := t.allocations, bootstrap := t.bootstrap }

namespace PlacementFrame

variable {s t u : Store}

theorem refl (s : Store) : PlacementFrame s s := rfl

theorem trans (h₁ : PlacementFrame s t) (h₂ : PlacementFrame t u) : PlacementFrame s u := by
  unfold PlacementFrame at *
  rw [h₂, h₁]

theorem commands (h : PlacementFrame s t) : t.commands = s.commands := by rw [h]

theorem results (h : PlacementFrame s t) : t.results = s.results := by rw [h]

theorem hosts (h : PlacementFrame s t) : t.hosts = s.hosts := by rw [h]

end PlacementFrame

namespace Store

variable {s t : Store} {p : PlacementId} {now : Millis}

theorem setPlacementState_frame (next : PlacementState) :
    PlacementFrame s (s.setPlacementState p next now) := rfl

theorem applyToPlacement_frame (kind : CommandKind) (outcome : CommandOutcome) :
    PlacementFrame s (s.applyToPlacement p kind outcome now) := by
  unfold applyToPlacement
  split <;> split <;> (try split) <;> rfl

theorem applyResult_frame (c : Command) (late : Bool) (outcome : CommandOutcome) :
    PlacementFrame s (s.applyResult c late outcome now) := by
  unfold applyResult
  split
  · exact .refl s
  · split
    · exact applyToPlacement_frame _ _
    · split
      · exact (applyToPlacement_frame _ _).trans rfl
      · exact .refl s

theorem expirePlacement_frame (c : Command) : PlacementFrame s (expirePlacement now s c) := by
  unfold expirePlacement
  split
  · exact .refl s
  · split
    · exact .refl s
    · split
      · exact setPlacementState_frame _
      · split <;> rfl

theorem losePlacement_frame (c : Command) : PlacementFrame s (losePlacement now s c) := by
  unfold losePlacement
  split
  · exact .refl s
  · split <;> rfl

theorem resumeTouched_frame : PlacementFrame s (resumeTouched now s p) := rfl

theorem foldl_resumeTouched_frame (ps : List PlacementId) :
    PlacementFrame s (ps.foldl (resumeTouched now) s) := by
  induction ps generalizing s with
  | nil => exact .refl s
  | cons p ps ih => exact resumeTouched_frame.trans ih

end Store

/-! ## Silent moves -/

/-- The place of a state among those a command passes through with no answer. -/
def CommandState.silentRank : CommandState → Option Nat
  | .pending => some 0
  | .delivered => some 1
  | .uncertain => some 2
  | .cancelled => some 3
  | _ => none

/-- A move made without an answer: none at all, or upwards in `silentRank`. -/
def CommandState.Silent (a b : CommandState) : Prop :=
  a = b ∨ ∃ i j, a.silentRank = some i ∧ b.silentRank = some j ∧ i < j

theorem CommandState.Silent.refl (a : CommandState) : a.Silent a := .inl rfl

theorem CommandState.Silent.trans {a b c : CommandState} (h₁ : a.Silent b) (h₂ : b.Silent c) :
    a.Silent c := by
  rcases h₁ with rfl | ⟨i, j, ha, hb, hij⟩
  · exact h₂
  · rcases h₂ with rfl | ⟨j', k, hb', hc, hjk⟩
    · exact .inr ⟨i, j, ha, hb, hij⟩
    · rw [hb] at hb'
      cases hb'
      exact .inr ⟨i, k, ha, hc, Nat.lt_trans hij hjk⟩

/-- Succeeded, failed and cancelled commands are done for good. -/
def CommandState.isFinal : CommandState → Bool
  | .succeeded | .failed | .cancelled => true
  | _ => false

theorem CommandState.Silent.of_final {a b : CommandState} (h : a.Silent b) (ha : a.isFinal) :
    b = a := by
  rcases h with rfl | ⟨i, j, hi, hj, hij⟩
  · rfl
  · cases a <;> cases b <;> simp_all [CommandState.silentRank, CommandState.isFinal] <;> omega

theorem CommandState.Silent.isTerminal {a b : CommandState} (h : a.Silent b) (ha : a.isTerminal) :
    b.isTerminal := by
  rcases h with rfl | ⟨i, j, hi, hj, hij⟩
  · exact ha
  · cases a <;> cases b <;> simp_all [CommandState.silentRank, CommandState.isTerminal] <;> omega

/-- The same command after a silent move: only its state and attempt count differ. -/
structure Command.Silent (c d : Command) : Prop where
  same : d = { c with state := d.state, attemptCount := d.attemptCount }
  state : c.state.Silent d.state

theorem Command.Silent.refl (c : Command) : c.Silent c := ⟨rfl, .refl _⟩

theorem Command.Silent.trans {c d e : Command} (h₁ : c.Silent d) (h₂ : d.Silent e) : c.Silent e :=
  ⟨by rw [h₂.same, h₁.same], h₁.state.trans h₂.state⟩

/-- No result was recorded and every command made a silent move. -/
structure SilentStep (s t : Store) : Prop where
  results : t.results = s.results
  hosts : t.hosts = s.hosts
  commands : ∀ id, Option.Rel Command.Silent (s.commands.find id) (t.commands.find id)

namespace SilentStep

variable {s t u : Store} {id : CommandId} {c d : Command}

theorem forward (h : SilentStep s t) (hc : s.commands.find id = some c) :
    ∃ d, t.commands.find id = some d ∧ c.Silent d := by
  have hrel := h.commands id
  rw [hc] at hrel
  cases hd : t.commands.find id with
  | none => rw [hd] at hrel; cases hrel
  | some d => rw [hd] at hrel; cases hrel with | some hs => exact ⟨d, rfl, hs⟩

theorem backward (h : SilentStep s t) (hd : t.commands.find id = some d) :
    ∃ c, s.commands.find id = some c ∧ c.Silent d := by
  have hrel := h.commands id
  rw [hd] at hrel
  cases hc : s.commands.find id with
  | none => rw [hc] at hrel; cases hrel
  | some c => rw [hc] at hrel; cases hrel with | some hs => exact ⟨c, rfl, hs⟩

theorem of_commands (hr : t.results = s.results) (hh : t.hosts = s.hosts)
    (hc : t.commands = s.commands) : SilentStep s t where
  results := hr
  hosts := hh
  commands id := by
    rw [hc]
    cases s.commands.find id with
    | none => exact .none
    | some c => exact .some (.refl c)

theorem refl (s : Store) : SilentStep s s := of_commands rfl rfl rfl

theorem of_frame (h : PlacementFrame s t) : SilentStep s t :=
  of_commands h.results h.hosts h.commands

theorem trans (h₁ : SilentStep s t) (h₂ : SilentStep t u) : SilentStep s u where
  results := h₂.results.trans h₁.results
  hosts := h₂.hosts.trans h₁.hosts
  commands id := by
    have hrel₁ := h₁.commands id
    have hrel₂ := h₂.commands id
    cases hrel : t.commands.find id with
    | none =>
      rw [hrel] at hrel₁ hrel₂
      cases hs : s.commands.find id with
      | some _ => rw [hs] at hrel₁; cases hrel₁
      | none =>
        cases hu : u.commands.find id with
        | some _ => rw [hu] at hrel₂; cases hrel₂
        | none => exact .none
    | some d =>
      obtain ⟨c, hc, hcd⟩ := h₁.backward hrel
      obtain ⟨e, he, hde⟩ := h₂.forward hrel
      rw [hc, he]
      exact .some (hcd.trans hde)

theorem of_update {p : Command → Bool} {f : Command → Command} (hf : ∀ c, (f c).id = c.id)
    (hr : t.results = s.results) (hh : t.hosts = s.hosts)
    (hc : t.commands = s.commands.update p f hf)
    (hmove : ∀ c ∈ s.commands, p c → c.Silent (f c)) : SilentStep s t where
  results := hr
  hosts := hh
  commands id := by
    rw [hc, Table.find_update]
    cases hfind : s.commands.find id with
    | none => exact .none
    | some c =>
      by_cases hp : p c
      · simpa [hp] using Option.Rel.some (hmove c (Table.mem_of_find hfind) hp)
      · simpa [hp] using Option.Rel.some (Command.Silent.refl c)

end SilentStep

/-! ## Loops over selected commands -/

namespace Store

variable {s t : Store} {c : Command} {id : CommandId} {now : Millis}

variable {next : CommandState} {hostId : HostId} {session : SessionId} {R : Store → Store → Prop}
  {auth : AuthenticatedHost} {H : Hashing}

theorem find_setCommandState_of_ne {id' : CommandId} (h : id' ≠ id) :
    (s.setCommandState id next).commands.find id' = s.commands.find id' := by
  unfold setCommandState
  rw [Table.find_update]
  cases hfind : s.commands.find id' with
  | none => rfl
  | some d =>
    have hd : d.id = id' := Table.key_of_find hfind
    simp [hd, h]

theorem find_setCommandState_self (h : s.commands.find id = some c) :
    (s.setCommandState id next).commands.find id = some { c with state := next } := by
  unfold setCommandState
  rw [Table.find_update, h]
  simp [show c.id = id from Table.key_of_find h]

theorem setCommandState_silent (h : s.commands.find id = some c) (hmove : c.state.Silent next) :
    SilentStep s (s.setCommandState id next) := by
  refine .of_update (fun _ => by rfl) rfl rfl rfl fun d hd hid => ?_
  have hdc : d = c := by
    have := Table.find_key hd
    rw [show d.id = id by simpa using hid, h] at this
    exact (Option.some.inj this).symm
  exact ⟨rfl, hdc ▸ hmove⟩

theorem filter_rows_nodup (p : Command → Bool) :
    ((s.commands.rows.filter p).map Command.id).Nodup :=
  (List.filter_sublist.map _).nodup s.commands.unique

theorem find_of_mem_filter {p : Command → Bool} (hc : c ∈ s.commands.rows.filter p) :
    s.commands.find c.id = some c :=
  Table.find_key (List.mem_of_mem_filter hc)

theorem mem_undeliverable (hc : c ∈ s.undeliverable hostId now) :
    s.commands.find c.id = some c ∧ c.hostId = hostId ∧ ∃ h, s.hosts.find hostId = some h ∧
      Command.undeliverable c h now := by
  unfold undeliverable at hc
  split at hc
  · cases hc
  · next h hh =>
    have hp := List.of_mem_filter hc
    simp only [Bool.and_eq_true, beq_iff_eq] at hp
    exact ⟨find_of_mem_filter hc, hp.1, h, hh, hp.2⟩

theorem undeliverable_nodup :
    ((s.undeliverable hostId now).map Command.id).Nodup := by
  unfold undeliverable
  split
  · exact List.nodup_nil
  · exact filter_rows_nodup _

theorem undeliverable_state {h : Host} (hc : Command.undeliverable c h now) :
    c.state = .delivered ∨ c.state = .pending := by
  simp only [Command.undeliverable, Bool.or_eq_true, Bool.and_eq_true, beq_iff_eq] at hc
  exact hc.imp And.left And.left

theorem mem_unreceived {epoch : Nat} :
    c ∈ s.unreceived hostId epoch session ↔ c ∈ s.commands ∧ c.hostId = hostId ∧
      c.hostEpoch = epoch ∧ (c.state = .delivered ∨ c.state = .uncertain) ∧
      c.payload.authoritySessionId ≠ session ∧ ∀ r ∈ s.results, r.commandId ≠ c.id := by
  simp [unreceived, Table.mem_rows, and_assoc]

theorem cancelRow_find {id : CommandId} (h : id ≠ c.id) :
    (cancelRow now s c).commands.find id = s.commands.find id := by
  unfold cancelRow
  rw [(expirePlacement_frame c).commands, find_setCommandState_of_ne h]

theorem settleRow_find {id : CommandId} (h : id ≠ c.id) :
    (settleRow hostId now s c).commands.find id = s.commands.find id := by
  unfold settleRow
  rw [(losePlacement_frame c).commands]
  exact find_setCommandState_of_ne h

theorem cancelRow_silent (hc : s.commands.find c.id = some c)
    (hstate : c.state = .delivered ∨ c.state = .pending) : SilentStep s (cancelRow now s c) := by
  refine (setCommandState_silent hc ?_).trans (.of_frame (expirePlacement_frame c))
  rcases hstate with h | h
  · exact .inr ⟨1, 2, by rw [h]; rfl, by simp [expiredState, h, CommandState.silentRank], by omega⟩
  · exact .inr ⟨0, 3, by rw [h]; rfl, by simp [expiredState, h, CommandState.silentRank], by omega⟩

theorem settleRow_silent (hc : s.commands.find c.id = some c)
    (hstate : c.state = .delivered ∨ c.state = .uncertain) :
    SilentStep s (settleRow hostId now s c) := by
  have haudit (e : AuditEvent) : SilentStep (s.setCommandState c.id .cancelled)
      ((s.setCommandState c.id .cancelled).auditAndEvent e) := .of_commands rfl rfl rfl
  refine .trans ?_ ((haudit _).trans (.of_frame (losePlacement_frame c)))
  refine setCommandState_silent hc ?_
  rcases hstate with h | h
  · exact .inr ⟨1, 3, by rw [h]; rfl, rfl, by omega⟩
  · exact .inr ⟨2, 3, by rw [h]; rfl, rfl, by omega⟩

theorem cancelUndeliverable_rel (hrefl : ∀ s, R s s) (htrans : ∀ s t u, R s t → R t u → R s u)
    (hrow : ∀ u c, u.commands.find c.id = some c → c.state = .delivered ∨ c.state = .pending →
      R u (cancelRow now u c)) (s : Store) (hostId : HostId) :
    R s (s.cancelUndeliverable hostId now) := by
  refine Table.foldl_selected (A := fun s c => s.commands.find c.id = some c) hrefl htrans
    undeliverable_nodup (fun c hc => (mem_undeliverable hc).1)
    (fun _ _ _ _ _ hne hfind => (cancelRow_find hne).trans hfind) fun t c hc hfind => ?_
  obtain ⟨-, -, h, -, hund⟩ := mem_undeliverable hc
  exact hrow t c hfind (undeliverable_state hund)

theorem settleUnreceived_rel (hrefl : ∀ s, R s s) (htrans : ∀ s t u, R s t → R t u → R s u)
    (hrow : ∀ u c, u.commands.find c.id = some c → c.state = .delivered ∨ c.state = .uncertain →
      R u (settleRow hostId now u c))
    (hresume : ∀ u (ps : List PlacementId), R u (ps.foldl (resumeTouched now) u)) (s : Store)
    (epoch : Nat) (session : SessionId) : R s (s.settleUnreceived hostId epoch session now) := by
  have hrows : R s ((s.unreceived hostId epoch session).foldl (settleRow hostId now) s) := by
    refine Table.foldl_selected (A := fun s c => s.commands.find c.id = some c) hrefl htrans
      (filter_rows_nodup _) (fun c hc => find_of_mem_filter hc)
      (fun _ _ _ _ _ hne hfind => (settleRow_find hne).trans hfind) fun t c hc hfind => ?_
    exact hrow t c hfind (mem_unreceived.mp hc).2.2.2.1
  exact htrans _ _ _ hrows (hresume _ _)

/-! ## The silent transactions -/

theorem cancelUndeliverable_silent (s : Store) (hostId : HostId) (now : Millis) :
    SilentStep s (s.cancelUndeliverable hostId now) :=
  cancelUndeliverable_rel .refl (fun _ _ _ => .trans) (fun _ _ => cancelRow_silent) s hostId

theorem settleUnreceived_silent (s : Store) (hostId : HostId) (epoch : Nat) (session : SessionId)
    (now : Millis) : SilentStep s (s.settleUnreceived hostId epoch session now) :=
  settleUnreceived_rel .refl (fun _ _ _ => .trans) (fun _ _ => settleRow_silent)
    (fun _ _ => .of_frame (foldl_resumeTouched_frame _)) s epoch session

/-- What a poll can do: nothing, cancel what is undeliverable, or deliver one command
after that. -/
theorem pollCommands_cases {cs : List AgentCommandEnvelope}
    (h : s.pollCommands auth session now = .ok (cs, t)) :
    (cs = [] ∧ (t = s ∨ t = s.cancelUndeliverable auth.hostId now)) ∨
      ∃ c attempts, cs = [c.payload] ∧
        (s.cancelUndeliverable auth.hostId now).commands.find c.id = some c ∧
        (s.cancelUndeliverable auth.hostId now).authorized auth.hostId session now ∧
        (s.cancelUndeliverable auth.hostId now).deliverable auth.hostId session now c ∧
        t = { (s.cancelUndeliverable auth.hostId now).markDelivered c with attempts := attempts } := by
  unfold pollCommands at h
  cases hauth : s.ensureAuthenticatedGeneration auth now with
  | error e => simp [hauth, bind, Except.bind] at h
  | ok _ =>
    simp only [hauth] at h
    split at h
    · cases h
      exact .inl ⟨rfl, .inl rfl⟩
    · split at h
      · cases h
        exact .inl ⟨rfl, .inr rfl⟩
      · next hauthorized =>
        split at h
        · cases h
          exact .inl ⟨rfl, .inr rfl⟩
        · next c hfind =>
          unfold deliver at h
          split at h
          · cases h
          · next attempts _ =>
            cases h
            refine .inr ⟨c, attempts, rfl, Table.find_key (List.mem_of_find?_eq_some hfind), ?_, ?_, rfl⟩
            · simpa using hauthorized
            · exact List.find?_some hfind

theorem deliverable_state (h : s.deliverable hostId session now c) :
    c.state = .pending ∨ c.state = .delivered := by
  simp only [deliverable, Bool.and_eq_true, Bool.or_eq_true, beq_iff_eq] at h
  exact h.2.imp id fun h => h.1.1

theorem markDelivered_silent (hc : s.commands.find c.id = some c)
    (hstate : c.state = .pending ∨ c.state = .delivered) : SilentStep s (s.markDelivered c) := by
  refine .of_update (fun _ => by rfl) rfl rfl rfl fun d hd hid => ?_
  have hdc : d = c := Table.eq_of_key hd (Table.mem_of_find hc) (by simpa using hid)
  refine ⟨rfl, ?_⟩
  rcases hstate with h | h
  · exact .inr ⟨0, 1, by rw [hdc, h]; rfl, rfl, by omega⟩
  · exact .inl (hdc ▸ h)

theorem pollCommands_silent {cs : List AgentCommandEnvelope}
    (h : s.pollCommands auth session now = .ok (cs, t)) :
    SilentStep s t := by
  have hcancel := cancelUndeliverable_silent s auth.hostId now
  rcases pollCommands_cases h with ⟨-, rfl | rfl⟩ | ⟨c, -, -, hc, -, hdel, rfl⟩
  · exact .refl _
  · exact hcancel
  · exact hcancel.trans ((markDelivered_silent hc (deliverable_state hdel)).trans
      (.of_commands rfl rfl rfl))

theorem cancelOpen_silent (s : Store) (p : PlacementId) : SilentStep s (s.cancelOpen p) := by
  refine .of_update (fun _ => by rfl) rfl rfl rfl fun d _ hd => ⟨rfl, ?_⟩
  simp only [repairCancels, Bool.and_eq_true] at hd
  have hopen := hd.2
  cases hstate : d.state with
  | pending => exact .inr ⟨0, 3, rfl, rfl, by omega⟩
  | delivered => exact .inr ⟨1, 3, rfl, rfl, by omega⟩
  | uncertain => exact .inr ⟨2, 3, rfl, rfl, by omega⟩
  | cancelled => exact .inl rfl
  | accepted | running | succeeded | failed => simp [hstate, isOpenForRepair] at hopen

theorem repairOne_silent (user : UserId) (hostId : HostId) (now : Millis)
    (acc : Store × List PlacementId) (p : PlacementId) :
    SilentStep acc.1 (repairOne user hostId now acc p).1 := by
  obtain ⟨s, -⟩ := acc
  simp only [repairOne]
  split
  · split
    · refine (cancelOpen_silent s p).trans ?_
      split <;> exact .of_commands rfl rfl rfl
    · exact .refl s
  · exact .refl s

theorem repairUnconfirmed_silent (s : Store) (user : UserId) (hostId : HostId)
    (ps : List PlacementId) (now : Millis) :
    SilentStep s (s.repairUnconfirmed user hostId ps now).1 := by
  suffices h : ∀ acc : Store × List PlacementId,
      SilentStep acc.1 (ps.foldl (repairOne user hostId now) acc).1 from h (s, [])
  induction ps with
  | nil => exact fun acc => .refl acc.1
  | cons p ps ih => exact fun acc => (repairOne_silent user hostId now acc p).trans (ih _)

theorem abandonUnstarted_frame {p : PlacementId} {changed : Bool}
    (h : s.abandonUnstarted p now = .ok (changed, t)) : PlacementFrame s t := by
  unfold abandonUnstarted at h
  split at h
  · cases h
    exact .refl s
  · simp only at h
    split at h
    · cases h
    · cases h
      rfl

/-- A command issued for a placement: a fresh pending row sealed to the session that
holds the host. -/
structure Issued (s : Store) (placement : PlacementId) (operation : AgentOperation)
    (key : IdempotencyKey) (c : Command) : Prop where
  fresh : ∀ d ∈ s.commands, d.id ≠ c.id
  freshKey : ∀ d ∈ s.commands, d.hostId = c.hostId → d.idempotencyKey ≠ key
  state : c.state = .pending
  placementId : c.placementId = some placement
  kind : c.kind = operation.databaseKind
  key : c.idempotencyKey = key
  payloadId : c.payload.commandId = c.id
  payloadHost : c.payload.hostId = c.hostId
  operation : c.payload.operation = operation
  scope : ∃ backend generation, c.payload.scope = .placement placement backend generation
  host : ∃ x h, s.placements.find placement = some x ∧ s.hosts.find c.hostId = some h ∧
    x.hostId = c.hostId ∧ h.agentSessionId = some c.payload.authoritySessionId ∧
    c.hostEpoch = h.epoch

theorem sealHash_ok {e e' : AgentCommandEnvelope} (h : e.sealHash H.envelope = .ok e') :
    e' = { e with requestHash := e.canonicalHash H.envelope } ∧ e.checkShape = .ok () := by
  unfold AgentCommandEnvelope.sealHash at h
  cases hshape : e.checkShape with
  | error _ => simp [hshape] at h
  | ok _ =>
    simp only [hshape, bind, Except.bind, pure, Except.pure, Except.ok.injEq] at h
    exact ⟨h.symm, rfl⟩

theorem issuingHost_some {x : Placement} {h : Host} {incarnation : Incarnation}
    (hh : s.issuingHost x now = some (h, session, incarnation)) :
    s.hosts.find x.hostId = some h ∧ x.hostEpoch = h.epoch ∧ h.agentSessionId = some session := by
  unfold issuingHost at hh
  split at hh
  · cases hh
  · next h' hfind =>
    split at hh
    · next hcond =>
      split at hh
      · next session' incarnation' hsession _ =>
        cases hh
        exact ⟨hfind, hcond.1, hsession⟩
      · cases hh
    · cases hh

theorem issueCommand_cases {p : PlacementId} {operation : AgentOperation} {key : IdempotencyKey}
    {ttl : Millis} {freshId : CommandId} {issued : Option CommandId}
    (h : s.issueCommand H p operation key ttl freshId now = .ok (issued, t)) :
    (issued = none ∧ t = s) ∨
      ∃ c commands, issued = some c.id ∧ Issued s p operation key c ∧
        s.commands.insert? c = some commands ∧ t = { s with commands := commands } := by
  unfold issueCommand at h
  split at h
  · cases h
    exact .inl ⟨rfl, rfl⟩
  · next x hx =>
    split at h
    · cases h
      exact .inl ⟨rfl, rfl⟩
    · next host session incarnation hhost =>
      split at h
      · cases h
      · next envelope hseal =>
        obtain ⟨hhostFind, -, hsession⟩ := issuingHost_some hhost
        obtain ⟨rfl, -⟩ := sealHash_ok hseal
        unfold insertCommand at h
        split at h
        · cases h
          exact .inl ⟨rfl, rfl⟩
        · next hkey =>
          obtain ⟨-, h⟩ := guard_eq_ok h
          split at h
          · cases h
          · next commands hinsert =>
            cases h
            have hid : x.id = p := Table.key_of_find hx
            refine .inr ⟨_, commands, rfl, ?_, hinsert, rfl⟩
            refine ⟨?_, ?_, rfl, by rw [← hid]; rfl, rfl, rfl, rfl, rfl, rfl, ?_, ?_⟩
            · intro d hd hdid
              exact (Table.insert?_some.mp hinsert).1 (hdid ▸ List.mem_map_of_mem hd)
            · intro d hd hdhost hdkey
              apply hkey
              rw [List.any_eq_true]
              exact ⟨d, hd, by simp [commandRow, placementEnvelope, hdkey] at hdhost ⊢; exact hdhost⟩
            · exact ⟨x.backendId, x.generation, by rw [← hid]; rfl⟩
            · exact ⟨x, host, hx, hhostFind, rfl, hsession, rfl⟩

/-! ## Recording a result -/

/-- A recorded result is an exact replay, kept as stale for a closed command, or applied. -/
theorem recordCommandResult_cases {result : AgentCommandResult} {disposition : ResultDisposition}
    (h : s.recordCommandResult H auth result now = .ok (disposition, t)) :
    ∃ c, s.commands.find result.commandId = some c ∧ c.hostId = auth.hostId ∧
      result.validateAgainst H.bytes c.payload = .ok () ∧
      ((∃ row, s.recorded H result = some row ∧ disposition = row.disposition ∧ t = s) ∨
        s.recorded H result = none ∧ ∃ results,
          s.results.insert? ⟨result.resultId, result.commandId, H.result result, disposition,
            result, now⟩ = some results ∧
          ((s.isClosed c ∧ disposition = .stale ∧ t = { s with results := results }) ∨
            (s.isClosed c = false ∧ disposition = .applied ∧
              t = { s with results := results }.settleCommand c auth.hostId (s.isLate c)
                result.outcome now))) := by
  unfold recordCommandResult at h
  cases hauth : s.ensureAuthenticatedGeneration auth now with
  | error e => simp [hauth, bind, Except.bind] at h
  | ok _ =>
    simp only [hauth] at h
    split at h
    · cases h
    · next c hfind =>
      rw [Option.filter_eq_some_iff] at hfind
      obtain ⟨hfind, hhost⟩ := hfind
      split at h
      · cases h
      · next hvalid =>
        refine ⟨c, hfind, by simpa using hhost, hvalid, ?_⟩
        split at h
        · next row hrow =>
          cases h
          exact .inl ⟨row, hrow, rfl, rfl⟩
        · next hrow =>
          split at h
          · cases h
          · next results hinsert =>
            cases hclosed : s.isClosed c with
            | true =>
              simp only [hclosed] at h hinsert
              obtain ⟨rfl, rfl⟩ := h
              exact .inr ⟨hrow, results, hinsert, .inl ⟨rfl, rfl, rfl⟩⟩
            | false =>
              simp only [hclosed] at h hinsert
              obtain ⟨rfl, rfl⟩ := h
              exact .inr ⟨hrow, results, hinsert, .inr ⟨rfl, rfl, rfl⟩⟩

theorem settleCommand_commands (hostId : HostId) (late : Bool) (outcome : CommandOutcome) :
    (s.settleCommand c hostId late outcome now).commands =
      (s.setCommandState c.id outcome.commandState).commands :=
  (applyResult_frame _ _ _).commands

theorem settleCommand_results (hostId : HostId) (late : Bool) (outcome : CommandOutcome) :
    (s.settleCommand c hostId late outcome now).results = s.results :=
  (applyResult_frame _ _ _).results

theorem settleCommand_hosts (hostId : HostId) (late : Bool) (outcome : CommandOutcome) :
    (s.settleCommand c hostId late outcome now).hosts = s.hosts :=
  (applyResult_frame _ _ _).hosts

theorem committed_rel {ε α : Type} {x : Except ε (α × Store)} (hrefl : R s s)
    (hok : ∀ a t, x = .ok (a, t) → R s t) : R s (committed s x) := by
  cases h : x with
  | error _ => exact hrefl
  | ok r => exact hok r.1 r.2 h

/-- **What one call can do to commands and results.** -/
theorem exec_cases (H : Hashing) (s : Store) (op : Op) :
    SilentStep s (s.exec H op) ∨
      (∃ p operation key c commands, Issued s p operation key c ∧
        s.commands.insert? c = some commands ∧ s.exec H op = { s with commands := commands }) ∨
      ∃ auth result now disposition,
        s.recordCommandResult H auth result now = .ok (disposition, s.exec H op) := by
  cases op with
  | poll auth session now => exact .inl (committed_rel (.refl s) fun _ _ => pollCommands_silent)
  | record auth result now =>
    cases h : s.recordCommandResult H auth result now with
    | error _ => exact .inl (by simpa [exec, h, committed] using SilentStep.refl s)
    | ok r => exact .inr (.inr ⟨auth, result, now, r.1, by simp [exec, h, committed]⟩)
  | settle host epoch session now => exact .inl (settleUnreceived_silent s host epoch session now)
  | repair user host ps now => exact .inl (repairUnconfirmed_silent s user host ps now)
  | abandon p now =>
    exact .inl (committed_rel (.refl s) fun _ _ h => .of_frame (abandonUnstarted_frame h))
  | issue p operation key ttl freshId now =>
    cases h : s.issueCommand H p operation key ttl freshId now with
    | error _ => exact .inl (by simpa [exec, h, committed] using SilentStep.refl s)
    | ok r =>
      rcases issueCommand_cases h with ⟨-, ht⟩ | ⟨c, commands, -, hissued, hinsert, ht⟩
      · exact .inl (by simpa [exec, h, committed, ht] using SilentStep.refl s)
      · exact .inr (.inl ⟨p, operation, key, c, commands, hissued, hinsert, by
          simp [exec, h, committed, ht]⟩)
  | markStarting p runner now => exact .inl (.of_commands rfl rfl rfl)
  | setState p current next now => exact .inl (.of_commands rfl rfl rfl)

end Store

end Gridops.Fleet
