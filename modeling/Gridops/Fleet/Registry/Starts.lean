import Gridops.Fleet.Registry.Handshake
import Gridops.Fleet.Registry.Release

/-!
# How a command moves

`Moves Q s t`: every command of `t` is one of `s` that kept its state or moved as `Q`
allows. Each transaction has its own `Q`: a poll expires what cannot be delivered and
hands out one command, a result gives its command the state of the outcome, and a
settlement cancels what another session never received.

`Commanded` is what the outbox keeps: a command is filed under its envelope's id and
kind, and a placement has at most one start, on its own host.
-/

namespace Gridops.Fleet

open Gridops.Lib

/-- The same command with another state or attempt count. -/
def Command.Same (c d : Command) : Prop :=
  d = { c with state := d.state, attemptCount := d.attemptCount }

namespace Command.Same

variable {c d e : Command}

theorem refl (c : Command) : c.Same c := rfl

theorem trans (h₁ : c.Same d) (h₂ : d.Same e) : c.Same e := by
  unfold Command.Same at *
  rw [h₂, h₁]

theorem id (h : c.Same d) : d.id = c.id := by rw [h]

theorem hostId (h : c.Same d) : d.hostId = c.hostId := by rw [h]

theorem kind (h : c.Same d) : d.kind = c.kind := by rw [h]

theorem payload (h : c.Same d) : d.payload = c.payload := by rw [h]

theorem placementId (h : c.Same d) : d.placementId = c.placementId := by rw [h]

theorem idempotencyKey (h : c.Same d) : d.idempotencyKey = c.idempotencyKey := by rw [h]

end Command.Same

namespace Store

def HasResult (s : Store) (id : CommandId) : Prop := ∃ r ∈ s.results, r.commandId = id

/-! ## Moves -/

/-- Every command of `t` is one of `s` that kept its state or moved as `Q` allows. -/
def Moves (Q : Command → CommandState → Prop) (s t : Store) : Prop :=
  ∀ d ∈ t.commands, ∃ c ∈ s.commands, c.Same d ∧ (d.state = c.state ∨ Q c d.state)

namespace Moves

variable {Q Q' : Command → CommandState → Prop} {s t u : Store} {c : Command} {now : Millis}

theorem of_commands (h : t.commands = s.commands) : Moves Q s t := fun d hd =>
  ⟨d, h ▸ hd, .refl d, .inl rfl⟩

theorem refl (s : Store) : Moves Q s s := of_commands rfl

theorem mono (h : Moves Q s t) (hQ : ∀ c b, Q c b → Q' c b) : Moves Q' s t := fun d hd => by
  obtain ⟨c, hc, hsame, hstate⟩ := h d hd
  exact ⟨c, hc, hsame, hstate.imp_right (hQ c _)⟩

theorem trans (hQ : ∀ c d b, c.Same d → (d.state = c.state ∨ Q c d.state) → Q d b → Q c b)
    (h₁ : Moves Q s t) (h₂ : Moves Q t u) : Moves Q s u := fun e he => by
  obtain ⟨d, hd, hde, hstate⟩ := h₂ e he
  obtain ⟨c, hc, hcd, hstate'⟩ := h₁ d hd
  refine ⟨c, hc, hcd.trans hde, ?_⟩
  rcases hstate with hsame | hmove
  · rw [hsame]
    exact hstate'
  · exact .inr (hQ c d _ hcd hstate' hmove)

theorem append {R : Command → CommandState → Prop} (h₁ : Moves Q s t) (h₂ : Moves R t u)
    (hQ : ∀ c b, Q c b → Q' c b)
    (hR : ∀ c d b, c.Same d → (d.state = c.state ∨ Q c d.state) → R d b → Q' c b) :
    Moves Q' s u := fun e he => by
  obtain ⟨d, hd, hde, hstate⟩ := h₂ e he
  obtain ⟨c, hc, hcd, hstate'⟩ := h₁ d hd
  refine ⟨c, hc, hcd.trans hde, ?_⟩
  rcases hstate with hsame | hmove
  · rw [hsame]
    exact hstate'.imp_right (hQ c _)
  · exact .inr (hR c d _ hcd hstate' hmove)

theorem of_update {p : Command → Bool} {f : Command → Command} (hf : ∀ c, (f c).id = c.id)
    (ht : t.commands = s.commands.update p f hf)
    (hrow : ∀ c ∈ s.commands, p c → c.Same (f c) ∧ Q c (f c).state) : Moves Q s t := by
  unfold Moves
  rw [ht, Table.forall_mem_update]
  intro c hc
  split
  · next hp => exact ⟨c, hc, (hrow c hc hp).1, .inr (hrow c hc hp).2⟩
  · exact ⟨c, hc, .refl c, .inl rfl⟩

theorem setCommandState {next : CommandState} (hc : s.commands.find c.id = some c)
    (hQ : Q c next) : Moves Q s (s.setCommandState c.id next) := by
  refine of_update (fun _ => by rfl) rfl fun d hd hid => ?_
  have hdc : d = c := Table.eq_of_key hd (Table.mem_of_find hc) (by simpa using hid)
  exact ⟨rfl, hdc ▸ hQ⟩

end Moves

/-- An overdue delivered command may have acted; a pending one never left the outbox. -/
def Expires (c : Command) (next : CommandState) : Prop :=
  (c.state = .delivered ∧ next = .uncertain) ∨ (c.state = .pending ∧ next = .cancelled)

theorem Expires.trans {c d : Command} {b : CommandState} (_ : c.Same d)
    (hstate : d.state = c.state ∨ Expires c d.state) (h : Expires d b) : Expires c b := by
  rcases hstate with hsame | ⟨-, hd⟩ | ⟨-, hd⟩
  · unfold Expires at h ⊢
    rwa [hsame] at h
  · rcases h with ⟨h, -⟩ | ⟨h, -⟩ <;> rw [hd] at h <;> cases h
  · rcases h with ⟨h, -⟩ | ⟨h, -⟩ <;> rw [hd] at h <;> cases h

theorem cancelRow_moves {u : Store} {c : Command} {now : Millis}
    (hc : u.commands.find c.id = some c) (hstate : c.state = .delivered ∨ c.state = .pending) :
    Moves Expires u (cancelRow now u c) := by
  have hnext : Expires c (expiredState c) := by
    rcases hstate with h | h
    · exact .inl ⟨h, by simp [expiredState, h]⟩
    · exact .inr ⟨h, by simp [expiredState, h]⟩
  exact (Moves.setCommandState hc hnext).trans (fun _ _ _ => Expires.trans)
    (.of_commands (expirePlacement_frame c).commands)

theorem cancelUndeliverable_moves (s : Store) (hostId : HostId) (now : Millis) :
    Moves Expires s (s.cancelUndeliverable hostId now) :=
  cancelUndeliverable_rel .refl (fun _ _ _ => .trans fun _ _ _ => Expires.trans)
    (fun _ _ => cancelRow_moves) s hostId

/-- What a poll does to a command: it expires, or is handed out. -/
def Polled (handed : List AgentCommandEnvelope) (c : Command) (next : CommandState) : Prop :=
  Expires c next ∨ (next = .delivered ∧ (c.state = .pending ∨ c.state = .delivered) ∧
    handed = [c.payload])

theorem pollCommands_moves {s t : Store} {auth : AuthenticatedHost} {session : SessionId}
    {now : Millis} {cs : List AgentCommandEnvelope}
    (h : s.pollCommands auth session now = .ok (cs, t)) :
    Moves (Polled cs) s t ∧ ∀ e ∈ cs, ∃ c ∈ t.commands, c.payload = e ∧ c.hostId = auth.hostId ∧
      c.state = .delivered := by
  have hcancel := cancelUndeliverable_moves s auth.hostId now
  rcases pollCommands_cases h with ⟨rfl, rfl | rfl⟩ | ⟨c, -, rfl, hc, -, hdel, rfl⟩
  · exact ⟨.refl _, by simp⟩
  · exact ⟨hcancel.mono fun _ _ => .inl, by simp⟩
  · have hstate := deliverable_state hdel
    have hhost : c.hostId = auth.hostId := by
      simp only [deliverable, Bool.and_eq_true, beq_iff_eq] at hdel
      exact hdel.1.1.1
    constructor
    · refine hcancel.append (R := fun d b => d = c ∧ b = .delivered)
        (.of_update (fun _ => by rfl) rfl ?_)
        (fun _ _ => .inl) ?_
      · intro d hd hid
        have hdc : d = c := Table.eq_of_key hd (Table.mem_of_find hc) (by simpa using hid)
        exact ⟨by subst hdc; rfl, hdc, rfl⟩
      · rintro c₀ d b hsame hmoved ⟨rfl, rfl⟩
        refine .inr ⟨rfl, ?_, by rw [hsame.payload]⟩
        rcases hmoved with hkept | ⟨-, hd⟩ | ⟨-, hd⟩
        · exact hkept ▸ hstate
        · rcases hstate with h | h <;> rw [hd] at h <;> cases h
        · rcases hstate with h | h <;> rw [hd] at h <;> cases h
    · intro e he
      rw [List.mem_singleton] at he
      subst he
      simp only [markDelivered, Table.mem_update]
      exact ⟨_, ⟨c, Table.mem_of_find hc, if_pos (by simp)⟩, rfl, hhost, rfl⟩

/-- What a settlement for `session` cancels. -/
def Unreceived (results : Table CommandResult.id) (hostId : HostId) (session : SessionId)
    (c : Command) (next : CommandState) : Prop :=
  next = .cancelled ∧ (c.state = .delivered ∨ c.state = .uncertain) ∧ c.hostId = hostId ∧
    c.payload.authoritySessionId ≠ session ∧ ∀ r ∈ results, r.commandId ≠ c.id

theorem settleUnreceived_moves (s : Store) (hostId : HostId) (epoch : Nat) (session : SessionId)
    (now : Millis) :
    Moves (Unreceived s.results hostId session) s (s.settleUnreceived hostId epoch session now) := by
  have htrans : ∀ c d b, c.Same d → (d.state = c.state ∨ Unreceived s.results hostId session c d.state) →
      Unreceived s.results hostId session d b → Unreceived s.results hostId session c b := by
    rintro c d b hsame hmoved ⟨rfl, hstate, hhost, hsession, hresults⟩
    rw [hsame.hostId] at hhost
    rw [hsame.payload] at hsession
    rw [hsame.id] at hresults
    refine ⟨rfl, ?_, hhost, hsession, hresults⟩
    rcases hmoved with hkept | ⟨hcancelled, -⟩
    · exact hkept ▸ hstate
    · rcases hstate with h | h <;> rw [hcancelled] at h <;> cases h
  have hrows : Moves (Unreceived s.results hostId session) s
      ((s.unreceived hostId epoch session).foldl (settleRow hostId now) s) := by
    refine Table.foldl_selected (A := fun s c => s.commands.find c.id = some c) .refl
      (fun _ _ _ => .trans htrans) (filter_rows_nodup _) (fun c hc => find_of_mem_filter hc)
      (fun _ _ _ _ _ hne hfind => (settleRow_find hne).trans hfind) fun t c hc hfind => ?_
    obtain ⟨-, hhost, -, hstate, hsession, hresults⟩ := mem_unreceived.mp hc
    refine (Moves.setCommandState hfind ⟨rfl, hstate, hhost, hsession, hresults⟩).trans htrans ?_
    refine Moves.of_commands ?_
    unfold settleRow
    rw [(losePlacement_frame c).commands]
    rfl
  exact hrows.trans htrans (.of_commands (foldl_resumeTouched_frame _).commands)

theorem recordCommandResult_moves {H : Hashing} {s t : Store} {auth : AuthenticatedHost}
    {result : AgentCommandResult} {now : Millis} {disposition : ResultDisposition}
    (h : s.recordCommandResult H auth result now = .ok (disposition, t)) :
    Moves (fun c next => c.id = result.commandId ∧ c.hostId = auth.hostId ∧
      next = result.outcome.commandState) s t ∧ (∀ r ∈ s.results, r ∈ t.results) ∧
      t.HasResult result.commandId ∧ t.hosts = s.hosts := by
  obtain ⟨c, hc, hhost, -, hcases⟩ := recordCommandResult_cases h
  have hid : c.id = result.commandId := Table.key_of_find hc
  rcases hcases with ⟨row, hrow, -, rfl⟩ | ⟨-, results, hinsert, hcases⟩
  · refine ⟨.refl _, fun _ h => h, ⟨row, List.mem_of_find?_eq_some hrow, ?_⟩, rfl⟩
    have := List.find?_some hrow
    simp only [Bool.and_eq_true, beq_iff_eq] at this
    exact this.1
  · have hgrow : ∀ r ∈ s.results, r ∈ results := fun r hr => (Table.mem_insert? hinsert).mpr (.inl hr)
    have hnew : ∃ r ∈ results, r.commandId = result.commandId :=
      ⟨_, (Table.mem_insert? hinsert).mpr (.inr rfl), rfl⟩
    rcases hcases with ⟨-, -, rfl⟩ | ⟨-, -, rfl⟩
    · exact ⟨.of_commands rfl, hgrow, hnew, rfl⟩
    · unfold HasResult
      rw [settleCommand_results]
      refine ⟨?_, hgrow, hnew, settleCommand_hosts _ _ _⟩
      have hset : Moves (fun c next => c.id = result.commandId ∧ c.hostId = auth.hostId ∧
          next = result.outcome.commandState) s
          ({ s with results := results }.setCommandState c.id result.outcome.commandState) := by
        have hfind : ({ s with results := results } : Store).commands.find c.id = some c :=
          hid ▸ hc
        intro d hd
        exact Moves.setCommandState (Q := fun c next => c.id = result.commandId ∧
          c.hostId = auth.hostId ∧ next = result.outcome.commandState) hfind ⟨hid, hhost, rfl⟩ d hd
      intro d hd
      refine hset d ?_
      rwa [← Table.mem_rows, settleCommand_commands] at hd

/-! ## The outbox -/

structure Commanded (s : Store) : Prop where
  payloadId : ∀ c ∈ s.commands, c.payload.commandId = c.id
  kind : ∀ c ∈ s.commands, c.kind = c.payload.operation.databaseKind
  start : ∀ c ∈ s.commands, c.kind = .startRunner → ∃ p b g x, c.placementId = some p ∧
    c.idempotencyKey = .start p ∧ c.payload.scope = .placement p b g ∧
    s.placements.find p = some x ∧ x.hostId = c.hostId
  key : ∀ c ∈ s.commands, ∀ d ∈ s.commands, c.kind = .startRunner → d.kind = .startRunner →
    c.hostId = d.hostId → c.idempotencyKey = d.idempotencyKey → c = d

namespace Commanded

variable {s t : Store}

theorem start_eq (h : s.Commanded) {c d : Command} {p : PlacementId} {b : BackendId} {g : Nat}
    (hc : c ∈ s.commands) (hd : d ∈ s.commands) (hck : c.kind = .startRunner)
    (hdk : d.kind = .startRunner) (hcp : c.placementId = some p)
    (hds : d.payload.scope = .placement p b g) : c = d := by
  obtain ⟨p₁, _, _, x₁, hp₁, hkey₁, -, hx₁, hhost₁⟩ := h.start c hc hck
  obtain ⟨p₂, _, _, x₂, -, hkey₂, hscope₂, hx₂, hhost₂⟩ := h.start d hd hdk
  rw [hcp] at hp₁
  cases hp₁
  rw [hds] at hscope₂
  cases hscope₂
  rw [hx₁] at hx₂
  cases hx₂
  exact h.key c hc d hd hck hdk (hhost₁.symm.trans hhost₂) (hkey₁.trans hkey₂.symm)

theorem of_same (h : s.Commanded)
    (hrow : ∀ d ∈ t.commands, (∃ c ∈ s.commands, c.Same d) ∨ (d.kind ≠ .startRunner ∧
      d.kind = d.payload.operation.databaseKind ∧ d.payload.commandId = d.id))
    (hplacements : ∀ p x, s.placements.find p = some x →
      ∃ y, t.placements.find p = some y ∧ y.hostId = x.hostId) : t.Commanded where
  payloadId d hd := by
    rcases hrow d hd with ⟨c, hc, hsame⟩ | ⟨-, -, hid⟩
    · rw [hsame.payload, hsame.id]
      exact h.payloadId c hc
    · exact hid
  kind d hd := by
    rcases hrow d hd with ⟨c, hc, hsame⟩ | ⟨-, hkind, -⟩
    · rw [hsame.payload, hsame.kind]
      exact h.kind c hc
    · exact hkind
  start d hd hstart := by
    rcases hrow d hd with ⟨c, hc, hsame⟩ | ⟨hne, -, -⟩
    · obtain ⟨p, b, g, x, hp, hkey, hscope, hx, hhost⟩ := h.start c hc (hsame.kind ▸ hstart)
      obtain ⟨y, hy, hyx⟩ := hplacements p x hx
      refine ⟨p, b, g, y, hsame.placementId ▸ hp, hsame.idempotencyKey ▸ hkey,
        hsame.payload ▸ hscope, hy, ?_⟩
      rw [hyx, hhost, hsame.hostId]
    · exact absurd hstart hne
  key d₁ hd₁ d₂ hd₂ hk₁ hk₂ hhost hkey := by
    rcases hrow d₁ hd₁ with ⟨c₁, hc₁, hs₁⟩ | ⟨hne, -, -⟩
    · rcases hrow d₂ hd₂ with ⟨c₂, hc₂, hs₂⟩ | ⟨hne, -, -⟩
      · have hcc := h.key c₁ hc₁ c₂ hc₂ (hs₁.kind ▸ hk₁) (hs₂.kind ▸ hk₂)
          (by rw [← hs₁.hostId, ← hs₂.hostId, hhost])
          (by rw [← hs₁.idempotencyKey, ← hs₂.idempotencyKey, hkey])
        exact Table.eq_of_key hd₁ hd₂ (by rw [hs₁.id, hs₂.id, hcc])
      · exact absurd hk₂ hne
    · exact absurd hk₁ hne

theorem issued (h : s.Commanded) {p : PlacementId} {operation : AgentOperation}
    {key : IdempotencyKey} {c : Command} {commands : Table Command.id}
    (hissued : Issued s p operation key c) (hinsert : s.commands.insert? c = some commands)
    (hkey : operation.databaseKind = .startRunner → key = .start p) :
    ({ s with commands := commands } : Store).Commanded := by
  have hmem : ∀ d, d ∈ commands ↔ d ∈ s.commands ∨ d = c := fun d => Table.mem_insert? hinsert
  obtain ⟨x, host, hx, -, hxhost, -⟩ := hissued.host
  refine ⟨fun d hd => ?_, fun d hd => ?_, fun d hd hstart => ?_, ?_⟩
  · rcases (hmem d).mp hd with hd | rfl
    · exact h.payloadId d hd
    · exact hissued.payloadId
  · rcases (hmem d).mp hd with hd | rfl
    · exact h.kind d hd
    · rw [hissued.kind, hissued.operation]
  · rcases (hmem d).mp hd with hd | rfl
    · exact h.start d hd hstart
    · obtain ⟨b, g, hscope⟩ := hissued.scope
      exact ⟨p, b, g, x, hissued.placementId, hissued.key.trans (hkey (hissued.kind ▸ hstart)),
        hscope, hx, hxhost⟩
  · intro d₁ hd₁ d₂ hd₂ hk₁ hk₂ hhost hkeys
    rcases (hmem d₁).mp hd₁ with hd₁ | rfl <;> rcases (hmem d₂).mp hd₂ with hd₂ | rfl
    · exact h.key d₁ hd₁ d₂ hd₂ hk₁ hk₂ hhost hkeys
    · exact absurd (hkeys.trans hissued.key) (hissued.freshKey d₁ hd₁ hhost)
    · exact absurd (hkeys.symm.trans hissued.key) (hissued.freshKey d₂ hd₂ hhost.symm)
    · rfl

end Commanded

theorem Evolves.placement_host {s t : Store} (h : s.Evolves t) {p : PlacementId} {x : Placement}
    (hx : s.placements.find p = some x) :
    ∃ y, t.placements.find p = some y ∧ y.hostId = x.hostId := by
  obtain ⟨y, hy, hxy⟩ := forall₂_mem_left h.placements (Table.mem_of_find hx)
  exact ⟨y, Table.find_some_iff.mpr ⟨hy, hxy.id.trans (Table.key_of_find hx)⟩, hxy.hostId⟩

end Store

end Gridops.Fleet
