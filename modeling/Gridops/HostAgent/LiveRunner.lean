import Gridops.Fleet.Registry.Starts
import Gridops.HostAgent.Session

/-!
# Capacity is not freed under a live runner

A start's capacity is freed in three ways: its result says failed, it is cancelled in the outbox, or
a handshake that declares its results flushed settles it. The first is true because the agent tells
a start as failed only when nothing of it is left, the second because a command in the outbox was
handed to nobody. The third relies on two things that the sessions do not ensure: that
`deliver_results` reported everything the agent ever received, and that the handshake comes from the
newest session. `OnTime` says so of a step.
-/

namespace Gridops.HostAgent

open Gridops.Lib Gridops.Fleet

/-! ## The backlog of a session -/

/-- The commands `deliver_results` has still to report. -/
def Holder.pending : Holder → List CommandId
  | .flushing queue => queue.map (·.1.commandId)
  | .recovering queue job => job.envelope.commandId :: queue.map (·.1.commandId)
  | .posting queue id _ => id :: queue.map (·.1.commandId)
  | _ => []

@[simp] theorem Holder.atStage_pending (st : Stage) (holder : Holder) :
    (holder.atStage st).pending = holder.pending := by cases holder <;> rfl

section

variable {H : Hashing} {trust : Trust} {a a' : Agent} {step : AgentStep}

/-- A pending command stays pending until it is acknowledged or `deliver_results` fails. -/
theorem Agent.step_pending (h : a.step H trust step = some a') {id : CommandId}
    (hid : id ∈ a.holder.pending) :
    id ∈ a'.holder.pending ∨
      (step = .acknowledged ∧ ∃ queue result, a.holder = .posting queue id result) ∨
      (a'.holder = .free ∧ ∀ now, step ≠ .next now) := by
  cases Agent.moves_of_step h with
  | refused hfree | repeated hfree | interrupted hfree | received hfree | flushes hfree
  | returns hfree | drained hfree =>
    rw [hfree] at hid
    cases hid
  | called | goes => exact .inl (by simpa using hid)
  | recovered hholder | posts hholder | recovers hholder =>
    rw [hholder] at hid
    exact .inl hid
  | acknowledged hholder =>
    rw [hholder] at hid ⊢
    rcases List.mem_cons.mp hid with rfl | hid
    · exact .inr (.inl ⟨rfl, _, _, rfl⟩)
    · exact .inl hid
  | fails | aborted | crashed => exact .inr (.inr ⟨rfl, by simp⟩)
  | posted | delivered => exact .inl hid

theorem Agent.step_queue (h : a.step H trust step = some a') :
    ∀ p ∈ a'.holder.queue, p ∈ a.holder.queue ∨
      ∃ c ∈ a.journal.commands, (c.envelope, c.result) = p := by
  rcases Agent.step_cases h with ⟨hbook, -, -⟩ | ⟨_, _, _, _, _, _, -, hreceives⟩ |
    ⟨_, _, _, -, hworks⟩
  · exact hbook.queue
  · obtain ⟨_, _, _, hholder, -⟩ := hreceives.job
    rw [hholder]
    intro p hp
    cases hp
  · exact fun p hp => .inl (hworks.queue hp)

theorem Agent.step_posting (h : a.step H trust step = some a') {queue : Backlog} {id : CommandId}
    {result : AgentCommandResult} (hposting : a'.holder = .posting queue id result) :
    a.holder = .posting queue id result ∨
      (∃ e, (e, some result) ∈ a.holder.queue ∧ e.commandId = id) ∨ result.commandId = id := by
  cases Agent.moves_of_step h with
  | refused hfree | repeated hfree =>
    simp only [hfree] at hposting
    cases hposting
  | called | goes =>
    generalize a.holder = holder at hposting ⊢
    cases holder <;> cases hposting
    exact .inl rfl
  | recovered hholder hjs =>
    cases hposting
    obtain ⟨o, freshId, -, -, hresult, -⟩ := Job.step_done hjs
    exact .inr (.inr (hresult ▸ finalResult_commandId _ _ _ _))
  | posts hholder =>
    cases hposting
    exact .inr (.inl ⟨_, by rw [hholder]; exact List.mem_cons_self, rfl⟩)
  | posted | delivered => exact .inl hposting
  | _ => cases hposting

end

variable {c : Connection} {holder : Holder}

theorem Connection.after_flushing {step : AgentStep} (h : c.after step holder = .flushing) :
    c = .flushing ∧ holder ≠ .free := by
  have hc : c = .flushing := by
    unfold Connection.after at h
    split at h <;> first | exact h | cases h
  refine ⟨hc, ?_⟩
  rintro rfl
  subst hc
  cases step <;> cases h

theorem Connection.after_flushed {step : AgentStep} (h : c.after step holder = .flushed) :
    c = .flushed ∨ (c = .flushing ∧ holder = .free ∧ ∃ now, step = .next now) := by
  unfold Connection.after at h
  split at h
  · cases h
  · next now => exact .inr ⟨rfl, rfl, now, rfl⟩
  · cases h
  · exact .inl h

theorem Connection.after_session {step : AgentStep} {session : SessionId}
    (h : c.after step holder = .connecting session ∨ c.after step holder = .connected session) :
    c.after step holder = c := by
  unfold Connection.after at h ⊢
  all_goals
    split at h
    all_goals first
      | rfl
      | (rcases h with h | h <;> cases h)

/-! ## The invariant -/

namespace Network

/-- The server has a result of the command, or the journal shows that it is no start. -/
def Done (z : Network) (id : CommandId) : Prop :=
  z.store.HasResult id ∨
    ∃ c ∈ z.site.agent.journal.commands, c.commandId = id ∧ ¬ c.envelope.isStart

/-- Why a start's capacity may be free: it was never handed out, was told as failed, or was
cancelled and will not be taken. -/
structure Safe (j : Journal) (handed : List AgentCommandEnvelope) (newest : Option SessionId)
    (c : Command) : Prop where
  pending : c.state = .pending → c.payload ∉ handed
  failed : c.state = .failed → ∃ row ∈ j.commands, row.commandId = c.id ∧
    ∃ r, row.result = some r ∧ r.outcome.commandState = .failed
  cancelled : c.state = .cancelled → (∀ row ∈ j.commands, row.commandId ≠ c.id) ∧
    (c.payload ∉ handed ∨ newest ≠ some c.payload.authoritySessionId)

namespace Safe

variable {j : Journal} {handed handed' : List AgentCommandEnvelope} {newest : Option SessionId}
  {c d : Command}

theorem of_state (hpending : c.state ≠ .pending) (hfailed : c.state ≠ .failed)
    (hcancelled : c.state ≠ .cancelled) : Safe j handed newest c :=
  ⟨fun h => absurd h hpending, fun h => absurd h hfailed, fun h => absurd h hcancelled⟩

theorem kept (h : Safe j handed newest c) (hsame : c.Same d) (hstate : d.state = c.state)
    (hhanded : d.payload ∈ handed' → d.payload ∈ handed ∨ d.state = .delivered) :
    Safe j handed' newest d where
  pending hp hmem := by
    rcases hhanded hmem with hold | hdel
    · exact h.pending (hstate ▸ hp) (hsame.payload ▸ hold)
    · rw [hdel] at hp
      cases hp
  failed hf := by
    rw [hsame.id]
    exact h.failed (hstate ▸ hf)
  cancelled hc := by
    rw [hsame.id]
    obtain ⟨hnone, hnever⟩ := h.cancelled (hstate ▸ hc)
    refine ⟨hnone, hnever.imp (fun hnot hmem => ?_) (fun hnot => hsame.payload ▸ hnot)⟩
    rcases hhanded hmem with hold | hdel
    · exact hnot (hsame.payload ▸ hold)
    · rw [hdel] at hc
      cases hc

end Safe

structure Tracked (H : Hashing) (host : HostId) (z : Network) : Prop where
  truthful : z.site.Truthful H z.handed
  commanded : z.store.Commanded
  handed : ∀ e ∈ z.handed, ∃ c ∈ z.store.commands, c.payload = e ∧ c.hostId = host
  safe : ∀ c ∈ z.store.commands, c.hostId = host → c.kind = .startRunner →
    Safe z.site.agent.journal z.handed z.sessions.head? c
  bound : ∀ c ∈ z.store.commands, c.hostId = host → c.kind = .startRunner →
    c.payload.authoritySessionId ∈ z.sessions
  assigned : ∀ x session, z.store.hosts.find host = some x → x.agentSessionId = some session →
    session ∈ z.sessions
  requests : ∀ r ∈ z.handshakes, r.agentSessionId ∈ z.sessions
  newest : ∀ session, z.connection = .connecting session ∨ z.connection = .connected session →
    z.sessions.head? = some session
  reported : ∀ c ∈ z.site.agent.journal.commands, c.envelope.isStart →
    z.store.HasResult c.commandId ∨ z.sessions.head? = some c.envelope.authoritySessionId
  backlog : z.connection = .flushing → ∀ c ∈ z.site.agent.journal.commands, c.envelope.isStart →
    z.store.HasResult c.commandId ∨ c.commandId ∈ z.site.agent.holder.pending
  flushed : z.connection = .flushed → ∀ c ∈ z.site.agent.journal.commands, c.envelope.isStart →
    z.store.HasResult c.commandId
  delivered : ∀ id ∈ z.site.agent.journal.delivered, z.Done id
  answered : ∀ r, r ∈ z.taken ∨ r ∈ z.rejected → z.Done r.commandId
  paired : ∀ e r, (e, some r) ∈ z.site.agent.holder.queue → r.commandId = e.commandId
  posting : ∀ queue id r, z.site.agent.holder = .posting queue id r → r.commandId = id

namespace Tracked

variable {H : Hashing} {trust : Trust} {digest : HandshakeRequest → String} {host : HostId}
  {z z' : Network}

theorem handed_eq (h : z.Tracked H host) :
    ∀ e ∈ z.handed, ∀ e' ∈ z.handed, e.commandId = e'.commandId → e = e' := by
  intro e he e' he' hid
  obtain ⟨c, hc, rfl, -⟩ := h.handed e he
  obtain ⟨c', hc', rfl, -⟩ := h.handed e' he'
  rw [h.commanded.payloadId c hc, h.commanded.payloadId c' hc'] at hid
  rw [Table.eq_of_key hc hc' hid]

theorem hasResult {id : CommandId} (hdone : z.Done id) {c : JournaledCommand}
    (hc : c ∈ z.site.agent.journal.commands) (hid : c.commandId = id) (hstart : c.envelope.isStart) :
    z.store.HasResult id := by
  rcases hdone with hresult | ⟨d, hd, hdid, hno⟩
  · exact hresult
  · rw [Table.eq_of_key hd hc (hdid.trans hid.symm)] at hno
    exact absurd hstart hno

variable {c : Command} {now : Millis} {t : Store} {auth : AuthenticatedHost}

theorem command_of_handed (h : z.Tracked H host) {e : AgentCommandEnvelope}
    (hc : c ∈ z.store.commands) (he : e ∈ z.handed) (hid : e.commandId = c.id) :
    c.payload = e ∧ c.hostId = host := by
  obtain ⟨d, hd, rfl, hhost⟩ := h.handed e he
  rw [h.commanded.payloadId d hd] at hid
  rw [← Table.eq_of_key hd hc hid]
  exact ⟨rfl, hhost⟩

/-! ### The agent's steps -/

theorem agent {step : AgentStep} {w : Site} {c : Connection} (h : z.Tracked H host)
    (hstep : z.site.step H trust (.agent step) = some w)
    (hdispatch : ∀ e session now receivedAt boot bootstrap,
      step = .dispatch e session now receivedAt boot bootstrap →
        z.connection = .connected session.authoritySessionId ∧ e ∈ z.handed)
    (hacknowledged : step = .acknowledged → ∀ queue id r,
      z.site.agent.holder = .posting queue id r → r ∈ z.taken ∨ r ∈ z.rejected)
    (hdelivered : ∀ r, step = .delivered r → r ∈ z.taken)
    (hsession : ∀ session, c = .connecting session ∨ c = .connected session → z.connection = c)
    (hbacklog : c = .flushing → ∀ c ∈ w.agent.journal.commands, c.envelope.isStart →
      z.store.HasResult c.commandId ∨ c.commandId ∈ w.agent.holder.pending)
    (hflushed : c = .flushed → ∀ c ∈ w.agent.journal.commands, c.envelope.isStart →
      z.store.HasResult c.commandId) :
    ({ z with site := w, connection := c } : Network).Tracked H host := by
  have htruthful : w.Truthful H z.handed := h.truthful.step h.handed_eq
    (fun e session now receivedAt boot bootstrap heq => by
      cases heq
      exact (hdispatch _ _ _ _ _ _ rfl).2) hstep
  simp only [Site.step, Option.ite_none_right_eq_some] at hstep
  obtain ⟨-, hstep⟩ := hstep
  obtain ⟨a, hagent, rfl⟩ := Option.map_eq_some_iff.mp hstep
  obtain ⟨hext, hrows⟩ := Agent.step_rows hagent
  -- A command stays in the journal with its envelope.
  have hkeep : ∀ row ∈ z.site.agent.journal.commands, ∃ row' ∈ a.journal.commands,
      row'.commandId = row.commandId ∧ row'.envelope = row.envelope ∧
      (row.result.isSome → row'.result = row.result) := fun row hrow => by
    obtain ⟨result, hfind, hresult⟩ := hext _ row (Table.find_key hrow)
    exact ⟨_, Table.mem_of_find hfind, rfl, rfl, hresult⟩
  have hdone : ∀ id, z.Done id →
      ({ z with site := ⟨a, z.site.launching ++ z.site.launched step, z.site.running⟩,
                connection := c } : Network).Done id := fun id hid => by
    refine hid.imp_right ?_
    rintro ⟨row, hrow, hrid, hno⟩
    obtain ⟨row', hrow', hid', henv, -⟩ := hkeep row hrow
    exact ⟨row', hrow', hid'.trans hrid, henv ▸ hno⟩
  refine
    { truthful := htruthful
      commanded := h.commanded
      handed := h.handed
      bound := h.bound
      assigned := h.assigned
      requests := h.requests
      backlog := hbacklog
      flushed := hflushed
      safe := fun d hd hhost hkind => ⟨(h.safe d hd hhost hkind).pending, ?_, ?_⟩
      newest := fun session hc => h.newest session ?_
      reported := ?_
      delivered := fun id hid => hdone id ?_
      answered := fun r hr => hdone _ (h.answered r hr)
      paired := ?_
      posting := ?_ }
  · intro hfailed
    obtain ⟨row, hrow, hid, r, hr, hout⟩ := (h.safe d hd hhost hkind).failed hfailed
    obtain ⟨row', hrow', hid', -, hkept⟩ := hkeep row hrow
    exact ⟨row', hrow', hid'.trans hid, r, (hkept (by rw [hr]; rfl)).trans hr, hout⟩
  · intro hcancelled
    obtain ⟨hnone, hnever⟩ := (h.safe d hd hhost hkind).cancelled hcancelled
    refine ⟨fun row hrow hid => ?_, hnever⟩
    rcases hrows row hrow with ⟨old, hold, hoid, -⟩ |
      ⟨session, now, receivedAt, boot, bootstrap, hdisp, hrid, hbound⟩
    · exact hnone old hold (hoid.symm.trans hid)
    · -- A new delivery is bound to the open session, which takes no cancelled command.
      obtain ⟨hconn, hhanded⟩ := hdispatch _ _ _ _ _ _ hdisp
      obtain ⟨hpayload, -⟩ := h.command_of_handed hd hhanded (hrid.symm.trans hid)
      rw [hpayload] at hnever
      rcases hnever with hnot | hnot
      · exact hnot hhanded
      · rw [h.newest _ (.inr hconn), (AgentCommandEnvelope.validateBinding_ok _ hbound).2.1] at hnot
        exact hnot rfl
  · rcases hc with hc | hc
    · rw [hsession session (.inl hc)]
      exact .inl hc
    · rw [hsession session (.inr hc)]
      exact .inr hc
  · intro row hrow hstart
    rcases hrows row hrow with ⟨old, hold, hoid, henv⟩ |
      ⟨session, now, receivedAt, boot, bootstrap, hdisp, -, hbound⟩
    · rw [hoid, henv]
      exact h.reported old hold (henv ▸ hstart)
    · obtain ⟨hconn, -⟩ := hdispatch _ _ _ _ _ _ hdisp
      rw [h.newest _ (.inr hconn), (AgentCommandEnvelope.validateBinding_ok _ hbound).2.1]
      exact .inr rfl
  · rcases Agent.step_delivered hagent hid with hold | ⟨hack, queue, r, hholder⟩ | ⟨r, hdel, rfl⟩
    · exact h.delivered id hold
    · rw [← h.posting queue id r hholder]
      exact h.answered r (hacknowledged hack queue id r hholder)
    · exact h.answered r (.inl (hdelivered r hdel))
  · intro e r hr
    rcases Agent.step_queue hagent _ hr with hold | ⟨row, hrow, heq⟩
    · exact h.paired e r hold
    · obtain ⟨rfl, hresult⟩ := Prod.mk.inj heq
      rw [(h.truthful.rows row hrow).2]
      exact h.truthful.once.keyed row hrow r hresult
  · intro queue id r hholder
    rcases Agent.step_posting hagent hholder with hold | ⟨e, he, rfl⟩ | hid
    · exact h.posting queue id r hold
    · exact h.paired e r he
    · exact hid

theorem site {s : SiteStep} (h : z.Tracked H host)
    (hstep : z.step H trust digest host (.site s) = some z') : z'.Tracked H host := by
  simp only [Network.step, Option.ite_none_right_eq_some] at hstep
  obtain ⟨hpermits, hstep⟩ := hstep
  obtain ⟨w, hw, rfl⟩ := Option.map_eq_some_iff.mp hstep
  cases s with
  | comesUp e =>
    have htruthful : w.Truthful H z.handed := h.truthful.step h.handed_eq (by rintro _ _ _ _ _ _ ⟨⟩) hw
    simp only [Site.step, Option.ite_none_right_eq_some, Option.some.injEq] at hw
    obtain ⟨-, rfl⟩ := hw
    exact { h with truthful := htruthful }
  | exits e =>
    have htruthful : w.Truthful H z.handed := h.truthful.step h.handed_eq (by rintro _ _ _ _ _ _ ⟨⟩) hw
    cases hw
    exact { h with truthful := htruthful }
  | agent step =>
    have hdispatch : ∀ e session now receivedAt boot bootstrap,
        step = .dispatch e session now receivedAt boot bootstrap →
          z.connection = .connected session.authoritySessionId ∧ e ∈ z.handed := by
      rintro e session now receivedAt boot bootstrap rfl
      simpa [permits] using hpermits
    have hack : step = .acknowledged → ∀ queue id r,
        z.site.agent.holder = .posting queue id r → r ∈ z.taken ∨ r ∈ z.rejected := by
      rintro rfl queue id r hholder
      simpa [permits, hholder] using hpermits
    have hagent : z.site.agent.step H trust step = some w.agent := by
      simp only [Site.step, Option.ite_none_right_eq_some] at hw
      obtain ⟨-, hw⟩ := hw
      obtain ⟨a, ha, rfl⟩ := Option.map_eq_some_iff.mp hw
      exact ha
    -- Outside an open session nothing new is journaled.
    have hold : (∀ session, z.connection ≠ .connected session) →
        ∀ row ∈ w.agent.journal.commands, ∃ old ∈ z.site.agent.journal.commands,
          row.commandId = old.commandId ∧ row.envelope = old.envelope := fun hclosed row hrow => by
      rcases (Agent.step_rows hagent).2 row hrow with hold | ⟨session, _, _, _, _, hdisp, -⟩
      · exact hold
      · exact absurd (hdispatch _ _ _ _ _ _ hdisp).1 (hclosed _)
    refine h.agent hw hdispatch hack ?_ ?_ ?_ ?_
    · rintro r rfl
      simpa [permits] using hpermits
    · intro session hc
      exact (Connection.after_session hc).symm
    · intro hc row hrow hstart
      obtain ⟨hflushing, hbusy⟩ := Connection.after_flushing hc
      obtain ⟨old, hmem, hid, henv⟩ := hold (by simp [hflushing]) row hrow
      rw [hid]
      rcases h.backlog hflushing old hmem (henv ▸ hstart) with hresult | hpending
      · exact .inl hresult
      · rcases Agent.step_pending hagent hpending with hkept | ⟨hacked, queue, r, hholder⟩ | ⟨hfree, -⟩
        · exact .inr hkept
        · have hdone := h.answered r (hack hacked queue _ r hholder)
          rw [h.posting queue _ r hholder] at hdone
          exact .inl (hasResult hdone hmem rfl (henv ▸ hstart))
        · exact absurd hfree hbusy
    · intro hc row hrow hstart
      rcases Connection.after_flushed hc with hflushed | ⟨hflushing, hfree, now, rfl⟩
      · obtain ⟨old, hmem, hid, henv⟩ := hold (by simp [hflushed]) row hrow
        rw [hid]
        exact h.flushed hflushed old hmem (henv ▸ hstart)
      · obtain ⟨old, hmem, hid, henv⟩ := hold (by simp [hflushing]) row hrow
        rw [hid]
        rcases h.backlog hflushing old hmem (henv ▸ hstart) with hresult | hpending
        · exact hresult
        · rcases Agent.step_pending hagent hpending with hkept | ⟨hacked, -⟩ | ⟨-, hnext⟩
          · rw [hfree] at hkept
            cases hkept
          · cases hacked
          · exact absurd rfl (hnext now)

/-- `deliver_results` begins, and nothing the server may miss is too old for it. -/
theorem deliverResults (h : z.Tracked H host)
    (hstep : z.step H trust digest host (.deliverResults now) = some z')
    (hontime : ∀ c ∈ z.site.agent.journal.commands, c.commandId ∉ z.site.agent.journal.delivered →
      now - resultRedeliveryWindow ≤ c.receivedAt) : z'.Tracked H host := by
  simp only [Network.step, Option.ite_none_right_eq_some] at hstep
  obtain ⟨-, hstep⟩ := hstep
  obtain ⟨w, hw, rfl⟩ := Option.map_eq_some_iff.mp hstep
  refine h.agent hw (by rintro _ _ _ _ _ _ ⟨⟩) (by rintro ⟨⟩) (by rintro _ ⟨⟩)
    (fun _ hc => by rcases hc with hc | hc <;> cases hc) (fun _ => ?_) (by rintro ⟨⟩)
  simp only [Site.step, Site.allows, if_true, Agent.step] at hw
  split at hw
  · simp only [Option.map_some, Option.some.injEq] at hw
    subst hw
    intro c hc hstart
    by_cases hdel : c.commandId ∈ z.site.agent.journal.delivered
    · exact .inl (hasResult (h.delivered _ hdel) hc rfl hstart)
    · refine .inr (List.mem_map.mpr ⟨(c.envelope, c.result), ?_, (h.truthful.rows c hc).2⟩)
      exact Journal.mem_undelivered.mpr ⟨c, hc, hontime c hc hdel, hdel, rfl⟩
  · cases hw

theorem connect {request : HandshakeRequest} (h : z.Tracked H host)
    (hstep : z.step H trust digest host (.connect request) = some z') : z'.Tracked H host := by
  simp only [Network.step, Option.ite_none_right_eq_some, Option.some.injEq] at hstep
  obtain ⟨⟨hflushed, hfresh, -, -⟩, rfl⟩ := hstep
  exact { h with
    safe := fun c hc hhost hkind =>
      ⟨(h.safe c hc hhost hkind).pending, (h.safe c hc hhost hkind).failed, fun hcancelled => by
        refine ⟨((h.safe c hc hhost hkind).cancelled hcancelled).1, .inr fun hhead => hfresh ?_⟩
        rw [Option.some.inj hhead]
        exact h.bound c hc hhost hkind⟩
    bound := fun c hc hhost hkind => List.mem_cons_of_mem _ (h.bound c hc hhost hkind)
    assigned := fun x session hx hs => List.mem_cons_of_mem _ (h.assigned x session hx hs)
    requests := fun r hr => by
      rcases List.mem_append.mp hr with hr | hr
      · exact List.mem_cons_of_mem _ (h.requests r hr)
      · rw [List.mem_singleton] at hr
        exact hr ▸ List.mem_cons_self
    newest := fun session hc => by
      rcases hc with hc | hc <;> cases hc
      rfl
    reported := fun c hc hstart => .inl (h.flushed hflushed c hc hstart)
    backlog := by rintro ⟨⟩
    flushed := by rintro ⟨⟩ }

theorem established (h : z.Tracked H host)
    (hstep : z.step H trust digest host .established = some z') : z'.Tracked H host := by
  simp only [Network.step] at hstep
  split at hstep
  · next session hconn =>
    simp only [Option.ite_none_right_eq_some, Option.some.injEq] at hstep
    obtain ⟨-, rfl⟩ := hstep
    exact { h with
      newest := fun session' hc => by
        rcases hc with hc | hc <;> cases hc
        exact h.newest session (.inl hconn)
      backlog := by rintro ⟨⟩
      flushed := by rintro ⟨⟩ }
  · cases hstep

theorem disconnect (h : z.Tracked H host)
    (hstep : z.step H trust digest host .disconnect = some z') : z'.Tracked H host := by
  simp only [Network.step] at hstep
  split at hstep
  · cases hstep
    exact { h with
      newest := fun _ hc => by rcases hc with hc | hc <;> cases hc
      backlog := by rintro ⟨⟩
      flushed := by rintro ⟨⟩ }
  · cases hstep
    exact { h with
      newest := fun _ hc => by rcases hc with hc | hc <;> cases hc
      backlog := by rintro ⟨⟩
      flushed := by rintro ⟨⟩ }
  · cases hstep

/-! ### The server's steps -/

/-- A transaction that keeps every command and result, with `handed` and the answers it
gives the agent. -/
theorem server {handed : List AgentCommandEnvelope} {taken rejected : List AgentCommandResult}
    {accepted : List SessionId} (h : z.Tracked H host) (hcommanded : t.Commanded)
    (hkeep : ∀ c ∈ z.store.commands, ∃ d ∈ t.commands, c.Same d)
    (hresults : ∀ r ∈ z.store.results, r ∈ t.results) (hhanded : z.handed ⊆ handed)
    (hnewly : ∀ e ∈ handed, e ∈ z.handed ∨ ∃ c ∈ t.commands, c.payload = e ∧ c.hostId = host)
    (hsafe : ∀ c ∈ t.commands, c.hostId = host → c.kind = .startRunner →
      Safe z.site.agent.journal handed z.sessions.head? c ∧
        c.payload.authoritySessionId ∈ z.sessions)
    (hassigned : ∀ x session, t.hosts.find host = some x → x.agentSessionId = some session →
      session ∈ z.sessions)
    (hanswered : ∀ r, r ∈ taken ∨ r ∈ rejected → (r ∈ z.taken ∨ r ∈ z.rejected) ∨
      ({ z with store := t } : Network).Done r.commandId) :
    ({ z with store := t, handed := handed, taken := taken, rejected := rejected,
              accepted := accepted } : Network).Tracked H host := by
  have hhas : ∀ id, z.store.HasResult id → t.HasResult id := fun id ⟨r, hr, hid⟩ =>
    ⟨r, hresults r hr, hid⟩
  have hdone : ∀ id, z.Done id → ({ z with store := t } : Network).Done id := fun id hid =>
    hid.imp_left (hhas id)
  exact { h with
    truthful := h.truthful.handed_mono hhanded
    commanded := hcommanded
    handed := fun e he => by
      rcases hnewly e he with hold | hnew
      · obtain ⟨c, hc, rfl, hhost⟩ := h.handed e hold
        obtain ⟨d, hd, hsame⟩ := hkeep c hc
        exact ⟨d, hd, hsame.payload, hsame.hostId.trans hhost⟩
      · exact hnew
    safe := fun c hc hhost hkind => (hsafe c hc hhost hkind).1
    bound := fun c hc hhost hkind => (hsafe c hc hhost hkind).2
    assigned := hassigned
    reported := fun c hc hstart => (h.reported c hc hstart).imp_left (hhas _)
    backlog := fun hc c hmem hstart => (h.backlog hc c hmem hstart).imp_left (hhas _)
    flushed := fun hc c hmem hstart => hhas _ (h.flushed hc c hmem hstart)
    delivered := fun id hid => hdone id (h.delivered id hid)
    answered := fun r hr => by
      rcases hanswered r hr with hold | hnew
      · exact hdone _ (h.answered r hold)
      · exact hnew }

theorem row_command (h : z.Tracked H host) {row : JournaledCommand}
    (hrow : row ∈ z.site.agent.journal.commands) (hc : c ∈ z.store.commands)
    (hid : row.commandId = c.id) : c.payload = row.envelope ∧ row.envelope ∈ z.handed := by
  obtain ⟨hhanded, hrid⟩ := h.truthful.rows row hrow
  exact ⟨(h.command_of_handed hc hhanded (hrid.trans hid)).1, hhanded⟩

theorem isStart_payload (h : z.Tracked H host) (hc : c ∈ z.store.commands)
    (hkind : c.kind = .startRunner) : c.payload.isStart := by
  unfold AgentCommandEnvelope.isStart
  rw [← h.commanded.kind c hc, hkind]
  rfl

theorem same_of_silent {s : Store} (h : SilentStep s t) :
    ∀ c ∈ s.commands, ∃ d ∈ t.commands, c.Same d := fun c hc => by
  obtain ⟨d, hd, hsilent⟩ := h.forward (Table.find_key hc)
  exact ⟨d, Table.mem_of_find hd, hsilent.same⟩

theorem poll (h : z.Tracked H host) (auth : AuthenticatedHost) (session : SessionId)
    (now : Millis) : (z.poll host auth session now).Tracked H host := by
  unfold Network.poll
  split
  · next cs t hpoll =>
    obtain ⟨hmoves, hdelivered⟩ := Store.pollCommands_moves hpoll
    have hsilent := Store.pollCommands_silent hpoll
    have hcommanded : t.Commanded := h.commanded.of_same
      (fun d hd => .inl (let ⟨c, hc, hsame, _⟩ := hmoves d hd; ⟨c, hc, hsame⟩))
      fun _ _ => (Store.Evolves.of_writes (.pollCommands hpoll)).placement_host
    have hmem : ∀ e, e ∈ (if auth.hostId = host then z.handed ++ cs else z.handed) →
        e ∈ z.handed ∨ ∃ c ∈ t.commands, c.payload = e ∧ c.hostId = host ∧ c.state = .delivered := by
      intro e he
      split at he
      · next hhost =>
        rw [List.mem_append] at he
        exact he.imp_right fun he => hhost ▸ hdelivered e he
      · exact .inl he
    refine h.server hcommanded (same_of_silent hsilent) (fun r hr => hsilent.results ▸ hr) ?_
      (fun e he => (hmem e he).imp_right fun ⟨c, hc, hpayload, hhost, _⟩ => ⟨c, hc, hpayload, hhost⟩)
      ?_ (fun x session hx => h.assigned x session (hsilent.hosts ▸ hx)) (fun r hr => .inl hr)
    · split
      · exact List.subset_append_left _ _
      · exact List.Subset.refl _
    · intro d hd hhost hkind
      obtain ⟨c, hc, hsame, hstate⟩ := hmoves d hd
      have hchost := hsame.hostId ▸ hhost
      have hckind := hsame.kind ▸ hkind
      have hsafe := h.safe c hc hchost hckind
      refine ⟨?_, hsame.payload ▸ h.bound c hc hchost hckind⟩
      -- Only a delivered command is handed out.
      have hnew : d.payload ∈ (if auth.hostId = host then z.handed ++ cs else z.handed) →
          d.payload ∈ z.handed ∨ d.state = .delivered := fun he => by
        refine (hmem _ he).imp_right fun ⟨c', hc', hpayload, _, hdel⟩ => ?_
        have hid : c'.id = d.id := by
          rw [← hcommanded.payloadId c' hc', hpayload, hcommanded.payloadId d hd]
        rw [← Table.eq_of_key hc' hd hid, hdel]
      rcases hstate with hkept | (⟨-, hstate⟩ | ⟨hpending, hstate⟩) | ⟨hstate, -⟩
      · exact hsafe.kept hsame hkept hnew
      · exact .of_state (by simp [hstate]) (by simp [hstate]) (by simp [hstate])
      · have hnot := hsafe.pending hpending
        refine ⟨by simp [hstate], by simp [hstate], fun _ => ⟨fun row hrow hid => ?_, .inl fun he => ?_⟩⟩
        · obtain ⟨hpayload, hhanded⟩ := h.row_command hrow hc (hid.trans hsame.id)
          exact hnot (hpayload ▸ hhanded)
        · rcases hnew he with hold | hdel
          · exact hnot (hsame.payload ▸ hold)
          · rw [hdel] at hstate
            cases hstate
      · exact .of_state (by simp [hstate]) (by simp [hstate]) (by simp [hstate])
  · exact h

theorem commandState_cases (o : CommandOutcome) :
    o.commandState ≠ .pending ∧ o.commandState ≠ .cancelled := by
  cases o <;> simp [CommandOutcome.commandState]

theorem not_refused (h : z.Tracked H host) (hhost : auth.hostId = host)
    {result : AgentCommandResult} (hposted : result ∈ z.site.agent.posted) :
    z.store.recordCommandResult H auth result now ≠ .error .notFound ∧
      ∀ reason, z.store.recordCommandResult H auth result now ≠ .error (.invalidRequest reason) := by
  obtain ⟨row, hrow, hresult⟩ := h.truthful.once.stored result (.inr hposted)
  have hmem := Table.mem_of_find hrow
  have hrid : row.commandId = result.commandId := Table.key_of_find hrow
  obtain ⟨hhanded, hid⟩ := h.truthful.rows row hmem
  obtain ⟨c, hc, hpayload, hchost⟩ := h.handed _ hhanded
  have hfind : z.store.commands.find result.commandId = some c := by
    have hcid : c.id = result.commandId := by
      rw [← h.commanded.payloadId c hc, hpayload, hid, hrid]
    exact hcid ▸ Table.find_key hc
  have hvalid : result.validateAgainst H.bytes c.payload = .ok () :=
    hpayload ▸ h.truthful.valid row hmem result hresult
  have hfilter : (z.store.commands.find result.commandId).filter (·.hostId == auth.hostId) =
      some c := by
    rw [hfind, Option.filter_some, if_pos (by simp [hchost, hhost])]
  unfold Store.recordCommandResult
  rw [hfilter]
  unfold Store.ensureAuthenticatedGeneration
  dsimp only
  split <;> simp only [bind, Except.bind, hvalid]
  · constructor
    · split
      · simp
      · split <;> simp
    · split
      · simp
      · split <;> simp
  · simp

theorem record (h : z.Tracked H host) {result : AgentCommandResult}
    (hposted : auth.hostId = host → result ∈ z.site.agent.posted) :
    (z.record H host auth result now).Tracked H host := by
  unfold Network.record
  split
  · next disposition t hrecord =>
    obtain ⟨hmoves, hresults, hhas, hhosts⟩ := Store.recordCommandResult_moves hrecord
    have hkeep : ∀ c ∈ z.store.commands, ∃ d ∈ t.commands, c.Same d := by
      intro c hc
      obtain ⟨c₀, -, -, -, hcases⟩ := Store.recordCommandResult_cases hrecord
      rcases hcases with ⟨-, -, -, rfl⟩ | ⟨-, -, -, ⟨-, -, rfl⟩ | ⟨-, -, rfl⟩⟩
      · exact ⟨c, hc, .refl c⟩
      · exact ⟨c, hc, .refl c⟩
      · refine ⟨if c.id == c₀.id then { c with state := result.outcome.commandState } else c, ?_, ?_⟩
        · rw [← Table.mem_rows, Store.settleCommand_commands]
          simp only [Store.setCommandState, Table.mem_rows, Table.mem_update]
          exact ⟨c, hc, rfl⟩
        · split <;> rfl
    have hback : ∀ d ∈ t.commands, ∃ c ∈ z.store.commands, c.Same d := by
      intro d hd
      obtain ⟨c, hc, hsame, -⟩ := hmoves d hd
      exact ⟨c, hc, hsame⟩
    refine h.server (h.commanded.of_same (fun d hd => .inl (hback d hd))
      fun _ _ => (Store.Evolves.of_writes (.recordCommandResult hrecord)).placement_host) hkeep
      hresults
      (List.Subset.refl _) (fun e he => .inl he) ?_
      (fun x session hx => h.assigned x session (hhosts ▸ hx)) ?_
    · intro d hd hhost hkind
      obtain ⟨c, hc, hsame, hstate⟩ := hmoves d hd
      have hchost := hsame.hostId ▸ hhost
      have hckind := hsame.kind ▸ hkind
      refine ⟨?_, hsame.payload ▸ h.bound c hc hchost hckind⟩
      rcases hstate with hkept | ⟨hid, hauth, hstate⟩
      · exact (h.safe c hc hchost hckind).kept hsame hkept .inl
      · obtain ⟨hpending, hcancelled⟩ := commandState_cases result.outcome
        refine ⟨fun hp => absurd (hstate.symm.trans hp) hpending, fun hfailed => ?_,
          fun hx => absurd (hstate.symm.trans hx) hcancelled⟩
        obtain ⟨row, hrow, hresult⟩ := h.truthful.once.stored result
          (.inr (hposted (hauth.symm.trans hchost)))
        refine ⟨row, Table.mem_of_find hrow, ?_, result, hresult, hstate.symm.trans hfailed⟩
        rw [hsame.id, hid]
        exact Table.key_of_find hrow
    · intro r hr
      split at hr
      · rw [List.mem_append, List.mem_singleton] at hr
        rcases hr with (hr | rfl) | hr
        · exact .inl (.inl hr)
        · exact .inr (.inl hhas)
        · exact .inl (.inr hr)
      · exact .inl hr
  · next hrecord =>
    split
    · next hhost => exact absurd hrecord (h.not_refused hhost (hposted hhost)).1
    · exact h
  · next reason hrecord =>
    split
    · next hhost => exact absurd hrecord ((h.not_refused hhost (hposted hhost)).2 reason)
    · exact h
  · exact h

theorem unrelated {t : Store} (h : z.Tracked H host) (hc : t.commands = z.store.commands)
    (hr : t.results = z.store.results) (hh : t.hosts = z.store.hosts)
    (hevolves : z.store.Evolves t) : ({ z with store := t } : Network).Tracked H host := by
  refine h.server (h.commanded.of_same (fun d hd => .inl ⟨d, hc ▸ hd, .refl d⟩)
    fun _ _ => hevolves.placement_host) (fun c hmem => ⟨c, hc ▸ hmem, .refl c⟩)
    (fun r hmem => hr ▸ hmem) (List.Subset.refl _) (fun e he => .inl he) ?_
    (fun x session hx => h.assigned x session (hh ▸ hx)) (fun r hr => .inl hr)
  intro c hmem hhost hkind
  rw [hc] at hmem
  exact ⟨h.safe c hmem hhost hkind, h.bound c hmem hhost hkind⟩

theorem issue (h : z.Tracked H host) {p : PlacementId} {operation : AgentOperation}
    {key : IdempotencyKey} {ttl : Millis} {freshId : CommandId}
    (hkey : operation.databaseKind = .startRunner → key = .start p) :
    ({ z with store := z.store.exec H (.issue p operation key ttl freshId now) } :
      Network).Tracked H host := by
  simp only [Store.exec]
  cases hissue : z.store.issueCommand H p operation key ttl freshId now with
  | error e => exact h
  | ok r =>
    obtain ⟨issued, t⟩ := r
    rcases Store.issueCommand_cases hissue with ⟨-, rfl⟩ | ⟨c, commands, -, hissued, hinsert, rfl⟩
    · exact h
    · have hmem : ∀ d, d ∈ commands ↔ d ∈ z.store.commands ∨ d = c := fun d =>
        Table.mem_insert? hinsert
      refine h.server (h.commanded.issued hissued hinsert hkey)
        (fun d hd => ⟨d, (hmem d).mpr (.inl hd), .refl d⟩) (fun r hr => hr) (List.Subset.refl _)
        (fun e he => .inl he) ?_ h.assigned (fun r hr => .inl hr)
      intro d hd hhost hkind
      rcases (hmem d).mp hd with hold | rfl
      · exact ⟨h.safe d hold hhost hkind, h.bound d hold hhost hkind⟩
      · refine ⟨⟨fun _ hhanded => ?_, by simp [hissued.state], by simp [hissued.state]⟩, ?_⟩
        · obtain ⟨c, hc, hpayload, -⟩ := h.handed _ hhanded
          refine hissued.fresh c hc ?_
          rw [← h.commanded.payloadId c hc, hpayload, hissued.payloadId]
        · obtain ⟨x, host', -, hfind, -, hsession, -⟩ := hissued.host
          exact h.assigned host' _ (hhost ▸ hfind) hsession

theorem call {op : Op} (h : z.Tracked H host)
    (hstep : z.step H trust digest host (.call op) = some z') : z'.Tracked H host := by
  simp only [Network.step] at hstep
  cases op with
  | poll auth session now =>
    cases hstep
    exact h.poll auth session now
  | record auth result now =>
    simp only [Network.call] at hstep
    split at hstep
    · cases hstep
    · next hposted =>
      cases hstep
      exact h.record fun hhost => by_contra fun hnot => hposted ⟨hhost, hnot⟩
  | settle _ _ _ _ => cases hstep
  | repair _ _ _ _ => cases hstep
  | issue p operation key ttl freshId now =>
    simp only [Network.call] at hstep
    split at hstep
    · cases hstep
    · next hkey =>
      cases hstep
      exact h.issue fun hkind => by_contra fun hnot => hkey ⟨hkind, hnot⟩
  | abandon p now =>
    simp only [Network.call, Option.some.injEq] at hstep
    subst hstep
    have hframe : PlacementFrame z.store (z.store.exec H (.abandon p now)) :=
      Store.committed_rel (.refl _) fun _ _ hok => Store.abandonUnstarted_frame hok
    exact h.unrelated hframe.commands hframe.results hframe.hosts (.exec H _ _)
  | markStarting p runner now =>
    cases hstep
    exact h.unrelated rfl rfl rfl (.exec H _ (.markStarting p runner now))
  | setState p current next now =>
    cases hstep
    exact h.unrelated rfl rfl rfl (.exec H _ (.setState p current next now))

theorem sessionFrame {hostId : HostId} {session : SessionId} (h : z.Tracked H host)
    (hframe : Store.SessionFrame z.store t hostId session)
    (hsession : host = hostId → session ∈ z.sessions) :
    ({ z with store := t } : Network).Tracked H host := by
  refine h.server (h.commanded.of_same (fun d hd => .inl ⟨d, hframe.commands ▸ hd, .refl d⟩)
    fun p x hx => ⟨x, by rw [hframe.placements]; exact hx, rfl⟩)
    (fun c hc => ⟨c, hframe.commands ▸ hc, .refl c⟩) (fun r hr => hframe.results ▸ hr)
    (List.Subset.refl _) (fun e he => .inl he) ?_ ?_ (fun r hr => .inl hr)
  · intro c hc hhost hkind
    rw [hframe.commands] at hc
    exact ⟨h.safe c hc hhost hkind, h.bound c hc hhost hkind⟩
  · intro y σ hy hσ
    obtain ⟨x, hx, hkept | ⟨hhost, hgiven⟩⟩ := hframe.hosts host y hy
    · exact h.assigned x σ hx (hkept ▸ hσ)
    · rw [hgiven] at hσ
      cases hσ
      exact hsession hhost

/-- **A settlement for the newest session frees nothing that lives**: the agent never received what
it cancels. -/
theorem settled {hostId : HostId} {epoch : Nat} {session : SessionId} (h : z.Tracked H host)
    (hnewest : hostId = host → z.sessions.head? = some session) :
    ({ z with store := z.store.settleUnreceived hostId epoch session now } : Network).Tracked H
      host := by
  have hmoves := Store.settleUnreceived_moves z.store hostId epoch session now
  have hsilent := Store.settleUnreceived_silent z.store hostId epoch session now
  refine h.server (h.commanded.of_same
    (fun d hd => .inl (let ⟨c, hc, hsame, _⟩ := hmoves d hd; ⟨c, hc, hsame⟩))
    fun _ _ => (Store.Evolves.of_writes (.settleUnreceived ..)).placement_host)
    (same_of_silent hsilent) (fun r hr => hsilent.results ▸ hr) (List.Subset.refl _)
    (fun e he => .inl he) ?_ (fun x σ hx => h.assigned x σ (hsilent.hosts ▸ hx))
    (fun r hr => .inl hr)
  intro d hd hhost hkind
  obtain ⟨c, hc, hsame, hstate⟩ := hmoves d hd
  have hchost := hsame.hostId ▸ hhost
  have hckind := hsame.kind ▸ hkind
  refine ⟨?_, hsame.payload ▸ h.bound c hc hchost hckind⟩
  rcases hstate with hkept | ⟨hcancelled, -, hsettled, hother, hnone⟩
  · exact (h.safe c hc hchost hckind).kept hsame hkept .inl
  · have hhead := hnewest (hsettled.symm.trans hchost)
    have hpast : z.sessions.head? ≠ some c.payload.authoritySessionId := by
      rw [hhead]
      exact fun heq => hother (Option.some.inj heq).symm
    refine ⟨by simp [hcancelled], by simp [hcancelled],
      fun _ => ⟨fun row hrow hid => ?_, .inr (hsame.payload ▸ hpast)⟩⟩
    obtain ⟨hpayload, -⟩ := h.row_command hrow hc (hid.trans hsame.id)
    have hstart : row.envelope.isStart := hpayload ▸ h.isStart_payload hc hckind
    rcases h.reported row hrow hstart with ⟨r, hr, hrid⟩ | hcurrent
    · exact hnone r hr (hrid.trans (hid.trans hsame.id))
    · exact hpast (hpayload ▸ hcurrent)

theorem accepted {accepted : List SessionId} (h : z.Tracked H host) :
    ({ z with accepted := accepted } : Network).Tracked H host := { h with }

theorem handshake {request : HandshakeRequest} (h : z.Tracked H host)
    (hstep : z.step H trust digest host (.handshake auth request now) = some z')
    (hnewest : auth.hostId = host → z.sessions.head? = some request.agentSessionId) :
    z'.Tracked H host := by
  obtain ⟨hsent, hstep⟩ := Option.ite_none_left_eq_some.mp hstep
  cases hstep
  have hrequest : host = auth.hostId → request.agentSessionId ∈ z.sessions := fun heq =>
    h.requests request (by_contra fun hnot => hsent ⟨heq.symm, hnot⟩)
  refine accepted (z := { z with store := (z.store.handshake digest auth request now).1 }) ?_
  rcases Store.handshake_cases digest z.store auth request now with hframe | ⟨u, epoch, e, hframe, heq⟩
  · exact h.sessionFrame hframe hrequest
  · rw [heq]
    have hu := h.sessionFrame hframe hrequest
    refine Tracked.unrelated (z := { z with
      store := u.settleFlushed auth.hostId epoch request now }) ?_ rfl rfl rfl (.of_eq rfl rfl rfl)
    unfold Store.settleFlushed
    split
    · exact hu.settled hnewest
    · exact hu

theorem elsewhere (h : z.Tracked H host)
    (hstep : z.step H trust digest host (.elsewhere t) = some z') : z'.Tracked H host := by
  simp only [Network.step, Option.ite_none_right_eq_some, Option.some.injEq] at hstep
  obtain ⟨hleaves, rfl⟩ := hstep
  simp only [leavesStarts, Bool.and_eq_true, List.all_eq_true, List.any_eq_true, Bool.or_eq_true,
    beq_iff_eq, bne_iff_ne, Option.isNone_iff_eq_none] at hleaves
  obtain ⟨⟨⟨⟨hkeep, hnew⟩, hresults⟩, hplacements⟩, hhosts⟩ := hleaves
  have hsame : ∀ c ∈ z.store.commands, ∃ d ∈ t.commands, c.Same d ∧
      (c.kind = .startRunner → d = c) := fun c hc => by
    obtain ⟨d, hd, heq, hstart⟩ := hkeep c hc
    exact ⟨d, hd, heq, fun hkind => hstart.resolve_left (absurd hkind)⟩
  have hback : ∀ d ∈ t.commands, (∃ c ∈ z.store.commands, c.Same d ∧
      (c.kind = .startRunner → d = c)) ∨ (d.kind ≠ .startRunner ∧
        d.kind = d.payload.operation.databaseKind ∧ d.payload.commandId = d.id) := fun d hd => by
    rcases hnew d hd with ⟨c, hc, hid⟩ | ⟨⟨hkind, hop⟩, hid⟩
    · obtain ⟨d', hd', hcd, hstart⟩ := hsame c hc
      have hdd : d' = d := Table.eq_of_key hd' hd (hcd.id.trans hid)
      rw [hdd] at hcd hstart
      exact .inl ⟨c, hc, hcd, hstart⟩
    · exact .inr ⟨hkind, hop, hid⟩
  refine h.server (h.commanded.of_same
    (fun d hd => (hback d hd).imp_left fun ⟨c, hc, hcd, _⟩ => ⟨c, hc, hcd⟩) ?_)
    (fun c hc => let ⟨d, hd, hcd, _⟩ := hsame c hc; ⟨d, hd, hcd⟩) (fun r hr => hresults ▸ hr)
    (List.Subset.refl _) (fun e he => .inl he) ?_ ?_ (fun r hr => .inl hr)
  · intro p x hx
    obtain ⟨y, hy, hid, hhost⟩ := hplacements x (Table.mem_of_find hx)
    exact ⟨y, Table.find_some_iff.mpr ⟨hy, hid.trans (Table.key_of_find hx)⟩, hhost⟩
  · intro d hd hhost hkind
    rcases hback d hd with ⟨c, hc, hcd, hstart⟩ | ⟨hno, -⟩
    · cases hstart (hcd.kind ▸ hkind)
      exact ⟨h.safe d hc hhost hkind, h.bound d hc hhost hkind⟩
    · exact absurd hkind hno
  · intro y σ hy hσ
    rcases hhosts y (Table.mem_of_find hy) with (hid | hnone) | ⟨x, hx, hxid, hxs⟩
    · exact absurd (Table.key_of_find hy) hid
    · rw [hnone] at hσ
      cases hσ
    · exact h.assigned x σ (Table.find_some_iff.mpr ⟨hx, hxid⟩) (hxs.trans hσ)

end Tracked

/-! ## Every run -/

def enrolled (store : Store) (identity : Option Identity) : Network where
  store := store
  site := ⟨.fresh identity, [], []⟩
  connection := .idle
  sessions := []
  handshakes := []
  accepted := []
  handed := []
  taken := []
  rejected := []

/-- What is not acknowledged is young enough for `deliver_results`, and only the newest session's
handshake is taken. -/
def OnTime (host : HostId) (z : Network) : NetworkStep → Prop
  | .deliverResults now => ∀ c ∈ z.site.agent.journal.commands,
      c.commandId ∉ z.site.agent.journal.delivered → now - resultRedeliveryWindow ≤ c.receivedAt
  | .handshake auth request _ =>
    auth.hostId = host → z.sessions.head? = some request.agentSessionId
  | _ => True

instance (host : HostId) (z : Network) (step : NetworkStep) : Decidable (z.OnTime host step) :=
  match step with
  | .deliverResults now => inferInstanceAs (Decidable (∀ c ∈ z.site.agent.journal.commands.rows,
      c.commandId ∉ z.site.agent.journal.delivered → now - resultRedeliveryWindow ≤ c.receivedAt))
  | .handshake auth request _ => inferInstanceAs (Decidable
      (auth.hostId = host → z.sessions.head? = some request.agentSessionId))
  | .site _ | .connect _ | .established | .disconnect | .call _ | .elsewhere _ =>
    inferInstanceAs (Decidable True)

variable {H : Hashing} {host : HostId}

theorem Tracked.step {trust : Trust} {digest : HandshakeRequest → String} {z z' : Network}
    {step : NetworkStep} (h : z.Tracked H host) (hontime : z.OnTime host step)
    (hstep : z.step H trust digest host step = some z') : z'.Tracked H host := by
  cases step with
  | site s => exact h.site hstep
  | deliverResults now => exact h.deliverResults hstep hontime
  | connect request => exact h.connect hstep
  | established => exact h.established hstep
  | disconnect => exact h.disconnect hstep
  | call op => exact h.call hstep
  | handshake auth request now => exact h.handshake hstep hontime
  | elsewhere t => exact h.elsewhere hstep

theorem Tracked.enrolled {store : Store} (hcommanded : store.Commanded)
    (hnone : ∀ c ∈ store.commands, c.hostId ≠ host)
    (hsession : ∀ x, store.hosts.find host = some x → x.agentSessionId = none)
    (identity : Option Identity) : (Network.enrolled store identity).Tracked H host where
  truthful := .fresh identity
  commanded := hcommanded
  handed e he := by cases he
  safe c hc hhost := absurd hhost (hnone c hc)
  bound c hc hhost := absurd hhost (hnone c hc)
  assigned x σ hx hσ := by
    rw [hsession x hx] at hσ
    cases hσ
  requests r hr := by cases hr
  newest σ hc := by rcases hc with hc | hc <;> cases hc
  reported c hc := by cases hc
  backlog := by rintro ⟨⟩
  flushed := by rintro ⟨⟩
  delivered id hid := by cases hid
  answered r hr := by rcases hr with hr | hr <;> cases hr
  paired e r hr := by cases hr
  posting queue id r hholder := by cases hholder

/-- The capacity of the placement is free and its start failed or was cancelled. -/
def FreedByStart (s : Store) (p : PlacementId) : Prop :=
  s.Released p ∧ ∃ c ∈ s.commands, c.placementId = some p ∧ c.kind = .startRunner ∧
    (c.state = .failed ∨ c.state = .cancelled)

def Runs (z : Network) (p : PlacementId) : Prop :=
  ∃ e ∈ z.site.running, ∃ b g, e.scope = .placement p b g

theorem Tracked.not_runs {z : Network} (h : z.Tracked H host) {p : PlacementId}
    (hfreed : FreedByStart z.store p) : ¬ z.Runs p := by
  rintro ⟨e, he, b, g, hscope⟩
  obtain ⟨-, c, hc, hplacement, hkind, hstate⟩ := hfreed
  have hlive : e ∈ z.site.launching ++ z.site.running := List.mem_append_right _ he
  obtain ⟨hcalled, hstart⟩ := h.truthful.live e hlive
  obtain ⟨d, hd, hpayload, hhost⟩ := h.handed e (h.truthful.calls e hcalled).1
  have hdkind : d.kind = .startRunner := by
    rw [h.commanded.kind d hd, hpayload]
    simpa [AgentCommandEnvelope.isStart] using hstart
  have hcd : c = d := h.commanded.start_eq hc hd hkind hdkind hplacement (hpayload ▸ hscope)
  subst hcd
  have hid : e.commandId = c.id := by rw [← h.commanded.payloadId c hc, hpayload]
  have hsafe := h.safe c hc hhost hkind
  obtain ⟨row, hrow, -⟩ := h.truthful.once.called e hcalled
  rcases hstate with hfailed | hcancelled
  · obtain ⟨row', hrow', hrid, r, hr, hout⟩ := hsafe.failed hfailed
    have henv := h.truthful.row_envelope h.handed_eq hrow' (h.truthful.calls e hcalled).1
      (hid.trans hrid.symm)
    exact h.truthful.result row' hrow' (henv ▸ hstart) r hr hout e hlive (hid.trans hrid.symm)
  · exact (hsafe.cancelled hcancelled).1 row (Table.mem_of_find hrow)
      ((Table.key_of_find hrow).trans hid)

end Network

/-- **Capacity is not freed under a live runner** in a run whose sessions are on time. -/
theorem freed_not_live {H : Hashing} {trust : Trust} {digest : HandshakeRequest → String}
    {host : HostId} {store : Store} {identity : Option Identity} {steps : List NetworkStep}
    {z : Network} (hcommanded : store.Commanded)
    (hnone : ∀ c ∈ store.commands, c.hostId ≠ host)
    (hsession : ∀ x, store.hosts.find host = some x → x.agentSessionId = none)
    (hrun : (network H trust digest host).Runs (Network.OnTime host)
      (.enrolled store identity) steps z) :
    ∀ p, Network.FreedByStart z.store p → ¬ z.Runs p := by
  have htracked : z.Tracked H host := hrun.inv (fun _ _ _ hok hstep h => h.step hok hstep)
    (.enrolled hcommanded hnone hsession identity)
  exact fun _ => htracked.not_runs

namespace Sample

def idleStore : Store :=
  { Fleet.Sample.store with
    hosts := ⟨[{ Fleet.Sample.host with agentSessionId := none, authorityExpiresAt := none }],
      by decide⟩ }

def hello (session : SessionId) : HandshakeRequest := ⟨session, session, "boot", 1, 1, "1", none, true⟩

def readyStore : Store :=
  { Fleet.Sample.store with
    sessions := ⟨[Store.observing Fleet.Sample.auth 1 7 "digest" (hello 10) 0], by decide⟩ }

def prepareEnvelope : AgentCommandEnvelope :=
  Fleet.Sample.envelope 1 (.prepareEnvironment Fleet.Sample.prepare) (.prepare 1) 30000 1000

def startEnvelope : AgentCommandEnvelope :=
  Fleet.Sample.envelope 2 Fleet.Sample.start (.start 1) 30000 3000

def prepared : AgentCommandResult :=
  resultFor prepareEnvelope 1 (.succeeded (.preparedEnvironment 1)) 2000

def startSteps : List NetworkStep :=
  [.deliverResults 0, .site (.agent (.next 0)), .connect (hello 10),
   .handshake Fleet.Sample.auth (hello 10) 0, .established, .elsewhere readyStore,
   .call (.issue 1 (.prepareEnvironment Fleet.Sample.prepare) (.prepare 1) 30000 1 1000),
   .call (.poll Fleet.Sample.auth 10 2000),
   .site (.agent (.dispatch prepareEnvelope session 2000 2000 "boot" none)),
   .site (.agent (.job (.decide 1))), .site (.agent (.job .call)),
   .site (.agent (.job (.respond (.succeeded (.preparedEnvironment 1))))),
   .site (.agent (.job .write)), .site (.agent (.job (.complete 1))),
   .site (.agent (.post prepared)), .call (.record Fleet.Sample.auth prepared 2000),
   .site (.agent (.delivered prepared)),
   .call (.issue 1 Fleet.Sample.start (.start 1) 30000 2 3000),
   .call (.poll Fleet.Sample.auth 10 4000),
   .site (.agent (.dispatch startEnvelope session 4000 4000 "boot" none)),
   .site (.agent (.job (.decide 0))), .site (.agent (.job .call))]

def deniedSteps : List NetworkStep :=
  let result := resultFor startEnvelope 2 (.failed .runtime false none) 4000
  [.site (.exits startEnvelope), .site (.agent (.job (.respond (.failed .runtime false)))),
   .site (.agent (.job (.complete 2))), .site (.agent (.post result)),
   .call (.record Fleet.Sample.auth result 5000)]

def outageSteps : List NetworkStep :=
  [.site (.comesUp startEnvelope), .site (.agent .crash), .deliverResults 90000000,
   .site (.agent (.next 90000000)), .connect (hello 11),
   .handshake Fleet.Sample.auth (hello 11) 90000000]

/-- The handshake of session 9 arrives after session 10 has replaced it and its start came up. -/
def lateSteps : List NetworkStep :=
  [.deliverResults 0, .site (.agent (.next 0)), .connect (hello 9), .disconnect]
    ++ startSteps ++ [.site (.comesUp startEnvelope), .handshake Fleet.Sample.auth (hello 9) 6000]

def sampleNetwork : Machine Network NetworkStep :=
  network Fleet.Sample.hashing ⟨false⟩ (fun _ => "digest") 1

theorem idleStore_commanded : idleStore.Commanded where
  payloadId c hc := by cases hc
  kind c hc := by cases hc
  start c hc := by cases hc
  key c hc := by cases hc

end Sample

theorem freed_not_live_sample : ∃ z, Sample.sampleNetwork.Runs (Network.OnTime 1)
      (.enrolled Sample.idleStore none) (Sample.startSteps ++ Sample.deniedSteps) z ∧
    Network.FreedByStart z.store 1 ∧ ¬ z.Runs 1 := by
  obtain ⟨z, hexec, hreleased, c, hc, hplacement, hkind, hstate⟩ : ∃ z,
      Sample.sampleNetwork.execIf (Network.OnTime 1) (.enrolled Sample.idleStore none)
        (Sample.startSteps ++ Sample.deniedSteps) = some z ∧ z.store.Released 1 ∧
      ∃ c ∈ z.store.commands, c.placementId = some 1 ∧ c.kind = .startRunner ∧ c.state = .failed :=
    ⟨_, rfl, by decide, by decide⟩
  have hrun := Machine.runs_of_execIf hexec
  have hfreed : Network.FreedByStart z.store 1 := ⟨hreleased, c, hc, hplacement, hkind, .inl hstate⟩
  exact ⟨z, hrun, hfreed, freed_not_live Sample.idleStore_commanded (by rintro c ⟨⟩)
    (by rintro x ⟨⟩; rfl) hrun 1 hfreed⟩

/-- **Capacity is freed under a live runner**, after a long absence or by a late handshake. -/
theorem freed_under_live_runner :
    (∃ z, Sample.sampleNetwork.exec (.enrolled Sample.idleStore none)
        (Sample.startSteps ++ Sample.outageSteps) = some z ∧
      Network.FreedByStart z.store 1 ∧ z.Runs 1) ∧
    ∃ z, Sample.sampleNetwork.exec (.enrolled Sample.idleStore none) Sample.lateSteps = some z ∧
      Network.FreedByStart z.store 1 ∧ z.Runs 1 := by
  constructor
  · exact ⟨_, rfl, ⟨by decide, by decide⟩, Sample.startEnvelope, by decide, 1, 1, rfl⟩
  · exact ⟨_, rfl, ⟨by decide, by decide⟩, Sample.startEnvelope, by decide, 1, 1, rfl⟩

end Gridops.HostAgent
