import Gridops.Fleet.Registry.Handshake
import Gridops.Fleet.Registry.Release
import Gridops.HostAgent.Site

/-!
# Sessions of an agent with the control plane

`supervisor.rs`: a session begins by reporting the results the server has not taken
(`deliver_results`), draws a session id, and makes a handshake that declares its results flushed.
Then it polls for commands and dispatches them until it fails, and the next session begins.

Requests and answers may be lost or late. A request, once sent, may reach the server any number of
times and at any time (`handshakes`, the agent's `posted`); what the server answered (`handed`,
`taken`, `rejected`, `accepted`) may reach the agent at any time or never. A crash or an outage ends
the session.
-/

namespace Gridops.HostAgent

open Gridops.Lib Gridops.Fleet

def resultRedeliveryWindow : Millis := 24 * 60 * 60 * 1000

inductive Connection
  | idle
  | flushing
  | flushed
  | connecting (session : SessionId)
  | connected (session : SessionId)
deriving DecidableEq

structure Network where
  store : Store
  site : Site
  connection : Connection
  /-- The session ids the agent has drawn, newest first. -/
  sessions : List SessionId
  handshakes : List HandshakeRequest
  accepted : List SessionId
  handed : List AgentCommandEnvelope
  taken : List AgentCommandResult
  rejected : List AgentCommandResult
deriving DecidableEq

inductive NetworkStep
  | site (step : SiteStep)
  /-- A session begins: `deliver_results` reads the journal. -/
  | deliverResults (now : Millis)
  | connect (request : HandshakeRequest)
  | established
  | disconnect
  | call (op : Op)
  | handshake (auth : AuthenticatedHost) (request : HandshakeRequest) (now : Millis)
  | elsewhere (store : Store)
deriving DecidableEq

/-- Where the session stands after a step of the agent: `deliver_results` is done when the
queue is empty, and fails with anything else that ends it. -/
def Connection.after (c : Connection) (step : AgentStep) (holder : Holder) : Connection :=
  match step, c, holder with
  | .crash, _, _ => .idle
  | .next _, .flushing, .free => .flushed
  | _, .flushing, .free => .idle
  | _, _, _ => c

/-- The rest of the control plane changes no start and no identity, and begins no agent session. -/
def leavesStarts (host : HostId) (s t : Store) : Bool :=
  s.commands.rows.all (fun c => t.commands.rows.any fun d =>
    d == { c with state := d.state, attemptCount := d.attemptCount }
      && (c.kind != .startRunner || d == c))
    && t.commands.rows.all (fun d => s.commands.rows.any (·.id == d.id)
      || (d.kind != .startRunner && d.kind == d.payload.operation.databaseKind
        && d.payload.commandId == d.id))
    && s.results == t.results
    && s.placements.rows.all (fun x => t.placements.rows.any fun y =>
      y.id == x.id && y.hostId == x.hostId)
    && t.hosts.rows.all (fun y => y.id != host || y.agentSessionId.isNone
      || s.hosts.rows.any fun x => x.id == host && x.agentSessionId == y.agentSessionId)

namespace Network

section

variable (H : Hashing) (trust : Trust) (digest : HandshakeRequest → String) (host : HostId)

variable (z : Network)

def permits : SiteStep → Bool
  | .agent (.dispatch e session _ _ _ _) =>
    z.connection == .connected session.authoritySessionId && decide (e ∈ z.handed)
  | .agent (.flush _) => false
  | .agent .acknowledged =>
    match z.site.agent.holder with
    | .posting _ _ result => decide (result ∈ z.taken ∨ result ∈ z.rejected)
    | _ => false
  | .agent (.delivered result) => decide (result ∈ z.taken)
  | _ => true

def reconnect (w : Site) : SiteStep → Connection
  | .agent step => z.connection.after step w.agent.holder
  | _ => z.connection

def record (auth : AuthenticatedHost) (result : AgentCommandResult) (now : Millis) :
    Network :=
  match z.store.recordCommandResult H auth result now with
  | .ok (_, t) =>
    { z with store := t, taken := if auth.hostId = host then z.taken ++ [result] else z.taken }
  | .error .notFound | .error (.invalidRequest _) =>
    { z with rejected := if auth.hostId = host then z.rejected ++ [result] else z.rejected }
  | .error _ => z

def poll (auth : AuthenticatedHost) (session : SessionId) (now : Millis) : Network :=
  match z.store.pollCommands auth session now with
  | .ok (commands, t) =>
    { z with store := t, handed := if auth.hostId = host then z.handed ++ commands else z.handed }
  | .error _ => z

/-- One call of the registry. Settlements are part of a handshake, and starts are issued
under the key of their placement. -/
def call : Op → Option Network
  | .poll auth session now => some (z.poll host auth session now)
  | .record auth result now =>
    if auth.hostId = host ∧ result ∉ z.site.agent.posted then none
    else some (z.record H host auth result now)
  | .settle .. | .repair .. => none
  | .issue p operation key ttl freshId now =>
    if operation.databaseKind = .startRunner ∧ key ≠ .start p then none
    else some { z with store := z.store.exec H (.issue p operation key ttl freshId now) }
  | op => some { z with store := z.store.exec H op }

def isSupported : Except HandshakeError HandshakeResponse → Bool
  | .ok response => response.negotiatedProtocol != .incompatible
  | .error _ => false

def step : NetworkStep → Option Network
  | .site s =>
    if z.permits s then
      (z.site.step H trust s).map fun w => { z with site := w, connection := z.reconnect w s }
    else none
  | .deliverResults now =>
    if z.connection = .idle then
      (z.site.step H trust (.agent (.flush (now - resultRedeliveryWindow)))).map fun w =>
        { z with site := w, connection := .flushing }
    else none
  | .connect request =>
    if z.connection = .flushed ∧ request.agentSessionId ∉ z.sessions
        ∧ request.resultsFlushed ∧ request.expectedHostEpoch = none then
      some { z with
        sessions := request.agentSessionId :: z.sessions
        handshakes := z.handshakes ++ [request]
        connection := .connecting request.agentSessionId }
    else none
  | .established =>
    match z.connection with
    | .connecting session =>
      if session ∈ z.accepted then some { z with connection := .connected session } else none
    | _ => none
  | .disconnect =>
    match z.connection with
    | .connecting _ | .connected _ => some { z with connection := .idle }
    | _ => none
  | .call op => z.call H host op
  | .handshake auth request now =>
    if auth.hostId = host ∧ request ∉ z.handshakes then none
    else
      let (t, answer) := z.store.handshake digest auth request now
      some { z with
        store := t
        accepted := if auth.hostId = host ∧ isSupported answer then
          z.accepted ++ [request.agentSessionId] else z.accepted }
  | .elsewhere t => if leavesStarts host z.store t then some { z with store := t } else none

end

end Network

def network (H : Hashing) (trust : Trust) (digest : HandshakeRequest → String) (host : HostId) :
    Machine Network NetworkStep := ⟨Network.step H trust digest host⟩

/-! ## What a step of the agent leaves in the journal -/

section

variable {H : Hashing} {trust : Trust} {a a' : Agent} {step : AgentStep}

theorem Agent.step_rows (h : a.step H trust step = some a') :
    a.journal.Extends a'.journal ∧ ∀ d ∈ a'.journal.commands,
      (∃ c ∈ a.journal.commands, d.commandId = c.commandId ∧ d.envelope = c.envelope) ∨
      ∃ session now receivedAt boot bootstrap,
        step = .dispatch d.envelope session now receivedAt boot bootstrap ∧
        d.commandId = d.envelope.commandId ∧
        d.envelope.validateBinding H.envelope session = .ok () := by
  rcases Agent.step_cases h with ⟨hbook, -, -⟩ |
    ⟨e, session, now, receivedAt, boot, bootstrap, rfl, hreceives⟩ | ⟨js, job, progress, rfl, hworks⟩
  · refine ⟨.of_commands hbook.commands, fun d hd => .inl ⟨d, ?_, rfl, rfl⟩⟩
    rwa [hbook.commands] at hd
  · obtain ⟨receivedAt', boot', commands, hinsert, hjournal⟩ := hreceives.row
    rw [hjournal]
    refine ⟨.insert hinsert, fun d hd => ?_⟩
    rcases (Table.mem_insert? hinsert).mp hd with hd | rfl
    · exact .inl ⟨d, hd, rfl, rfl⟩
    · exact .inr ⟨session, now, receivedAt, boot, bootstrap, rfl, rfl, hreceives.bound⟩
  · rcases Job.step_cases hworks.step with ⟨-, -, hjournal, -⟩ | ⟨-, hcommands, -, -⟩ |
      ⟨-, result, -, -, hcomplete⟩
    · rw [hjournal]
      exact ⟨.refl _, fun d hd => .inl ⟨d, hd, rfl, rfl⟩⟩
    · refine ⟨.of_commands hcommands, fun d hd => .inl ⟨d, ?_, rfl, rfl⟩⟩
      rwa [hcommands] at hd
    · refine ⟨.complete hcomplete, ?_⟩
      obtain ⟨-, hjournal⟩ := Journal.complete_cases hcomplete
      rw [hjournal, Table.forall_mem_update]
      intro c hc
      refine .inl ⟨c, hc, ?_, ?_⟩ <;> split <;> rfl

theorem Agent.step_delivered (h : a.step H trust step = some a') {id : CommandId}
    (hid : id ∈ a'.journal.delivered) :
    id ∈ a.journal.delivered ∨
      (step = .acknowledged ∧ ∃ queue result, a.holder = .posting queue id result) ∨
      ∃ result, step = .delivered result ∧ result.commandId = id := by
  rcases Agent.step_cases h with ⟨hbook, -, -⟩ | ⟨e, session, -, -, -, -, rfl,
    hreceives⟩ | ⟨js, job, progress, rfl, hworks⟩
  · exact hbook.delivered id hid
  · obtain ⟨-, -, commands, -, hjournal⟩ := hreceives.row
    rw [hjournal] at hid
    exact .inl hid
  · rcases Job.step_cases hworks.step with ⟨-, -, hjournal, -⟩ | ⟨-, -, hdelivered, -⟩ |
      ⟨-, result, -, -, hcomplete⟩
    · exact .inl (hjournal ▸ hid)
    · exact .inl (hdelivered ▸ hid)
    · rw [(Journal.complete_cases hcomplete).2] at hid
      exact .inl hid

end

end Gridops.HostAgent
