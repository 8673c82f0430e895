import Gridops.Fleet.Registry.Generations
import Gridops.Fleet.Placement
import Gridops.HostAgent.Journal

/-!
# Credential rotation between a host and the control plane

One agent, its journal and the control plane it talks to. The switch to a new credential takes three
durable steps on two machines: the server exchanges, the server acknowledges, the agent's journal
finishes. The agent may stop between any two of them for any time, and a request it sent may be
lost, served late or served twice; its reply may be lost.

A session opens with the credential in the journal's identity and no other, so the host is locked
out exactly when the server has gone past the journal's generation, which `session_accepted_iff`
states for every reachable state.
-/

namespace Gridops.HostAgent

open Gridops.Lib Gridops.Fleet

/-! ## The system -/

inductive RotationRequest
  | exchange (credential : Secret) (operationId : RotationId) (next : Secret)
  | acknowledge (credential : Secret) (operationId : RotationId)
deriving DecidableEq

def RotationRequest.credential : RotationRequest → Secret
  | .exchange credential _ _ => credential
  | .acknowledge credential _ => credential

/-- Where `Supervisor::run` stands. A request in flight is named by its place in the
list of everything sent. -/
inductive SupervisorPhase
  | down
  | credentialRejected
  | session (credential : Secret)
  | pending (credential : Secret) (operationId : RotationId) (nextGeneration : Nat)
  | exchanging (request : Nat) (next : Secret) (operationId : RotationId) (nextGeneration : Nat)
  | acknowledging (request : Nat) (next : Secret) (operationId : RotationId) (nextGeneration : Nat)
deriving DecidableEq

structure RotationState where
  store : Store
  journal : Journal
  agent : SupervisorPhase
  sent : List RotationRequest
  /-- Requests the server has authenticated, by their place in `sent`. -/
  authenticated : List (Nat × AuthenticatedHost)
  granted : List Nat

inductive RotationStep
  | request (isSystemAdmin : Bool) (user : UserId) (expected : Nat) (key : String)
      (operationId : RotationId) (now : Millis)
  | elsewhere (store : Store)
  | openSession (now : Millis)
  | heartbeat (now : Millis)
  /-- The agent picks the next secret, stores it and asks for the exchange. -/
  | rotate (fresh : Secret)
  /-- The server checks the credential of a request, now or much later. -/
  | authenticate (request : Nat) (now : Millis)
  /-- The transaction of an authenticated request. -/
  | serve (request : Nat) (auth : AuthenticatedHost) (credentialId : CredentialId) (now : Millis)
  | reply
  | drop

/-- The columns of a host that decide about its credentials. -/
def credentialColumns (r : Host) : Nat × Bool × Option Nat :=
  (r.epoch, r.mayAuthenticate, r.currentCredentialGeneration)

/-- No credential of `h` is revoked by hand, nor the host recovered or retired. -/
def leavesCredentials (h : HostId) (s t : Store) : Bool :=
  (s.hosts.find h).map credentialColumns == (t.hosts.find h).map credentialColumns
    && s.credentials.rows.filter (·.hostId == h) == t.credentials.rows.filter (·.hostId == h)
    && s.rotations.rows.filter (·.hostId == h) == t.rotations.rows.filter (·.hostId == h)

namespace RotationState

variable (H : Hashing) (h : HostId)

def serveRequest (s : Store) (auth : AuthenticatedHost) (credentialId : CredentialId)
    (now : Millis) : RotationRequest → Except RegistryError Store
  | .exchange _ operationId next =>
    (s.exchangeRotation H auth operationId next credentialId now).map (·.2)
  | .acknowledge _ operationId => (s.acknowledgeRotation auth operationId now).map (·.2)

variable (z : RotationState)

/-- `session` reads the identity and presents its credential. -/
def openSession (now : Millis) : Option RotationState :=
  match z.agent, z.journal.identity with
  | .down, some i | .credentialRejected, some i =>
    match z.store.authenticate H i.hostId i.credential now with
    | .ok _ => some { z with agent := .session i.credential }
    | .error _ => some { z with agent := .credentialRejected }
  | _, _ => none

/-- A heartbeat is authenticated too; its reply names the pending rotation. -/
def heartbeat (now : Millis) : Option RotationState :=
  match z.agent with
  | .session credential =>
    match z.store.authenticate H h credential now with
    | .error _ => some { z with agent := .credentialRejected }
    | .ok _ =>
      match z.store.pendingRotation h now with
      | none => some z
      | some (operationId, nextGeneration) =>
        some { z with agent := .pending credential operationId nextGeneration }
  | _ => none

/-- `rotate` up to its first request. -/
def rotate (fresh : Secret) : Option RotationState :=
  match z.agent with
  | .pending credential operationId nextGeneration =>
    let (next, journal) := z.journal.rotationSecret operationId nextGeneration fresh
    some { z with
      journal
      sent := z.sent ++ [.exchange credential operationId next]
      agent := .exchanging z.sent.length next operationId nextGeneration }
  | _ => none

/-- `rotate` after a reply: acknowledge with the new credential, then finish. -/
def reply : Option RotationState :=
  match z.agent with
  | .exchanging request next operationId nextGeneration =>
    if request ∈ z.granted then
      some { z with
        sent := z.sent ++ [.acknowledge next operationId]
        agent := .acknowledging z.sent.length next operationId nextGeneration }
    else none
  | .acknowledging request next _ nextGeneration =>
    if request ∈ z.granted then
      some { z with
        journal := z.journal.finishRotation next nextGeneration
        agent := .session next }
    else none
  | _ => none

def step : RotationStep → Option RotationState
  | .request isSystemAdmin user expected key operationId now =>
    (z.store.requestRotation isSystemAdmin user h expected key operationId now).toOption.map
      fun (_, store) => { z with store }
  | .elsewhere store => if leavesCredentials h z.store store then some { z with store } else none
  | .openSession now => z.openSession H now
  | .heartbeat now => z.heartbeat H h now
  | .rotate fresh => z.rotate fresh
  | .authenticate request now => do
    let sent ← z.sent[request]?
    let auth ← (z.store.authenticate H h sent.credential now).toOption
    some { z with authenticated := (request, auth) :: z.authenticated }
  | .serve request auth credentialId now => do
    let sent ← z.sent[request]?
    if (request, auth) ∈ z.authenticated then
      let store ← (serveRequest H z.store auth credentialId now sent).toOption
      some { z with store, granted := request :: z.granted }
    else none
  | .reply => z.reply
  | .drop => some { z with agent := .down }

end RotationState

def rotationSystem (H : Hashing) (h : HostId) : Machine RotationState RotationStep where
  step := RotationState.step H h

/-! ## What the two sides know of each other -/

def SupervisorPhase.operation : SupervisorPhase → Option (RotationId × Nat)
  | .pending _ operationId nextGeneration => some (operationId, nextGeneration)
  | .exchanging _ _ operationId nextGeneration => some (operationId, nextGeneration)
  | .acknowledging _ _ operationId nextGeneration => some (operationId, nextGeneration)
  | _ => none

/-- The server has the hash of this secret, for this generation of the host. -/
def OnFile (H : Hashing) (h : HostId) (C₀ : Nat) (s : Store) (secret : Secret) (g : Nat) : Prop :=
  validateSecretText secret ∧ C₀ ≤ g ∧
    ∃ c, s.Holds h c ∧ c.generation = g ∧ c.verifier = H.secret secret

/-- The journal and every granted request present a secret the server knows. -/
structure RotationState.Consistent (H : Hashing) (h : HostId) (C₀ : Nat) (z : RotationState)
    (C : Nat) : Prop where
  rotates : z.store.Rotates h C₀ C
  identity : ∃ i, z.journal.identity = some i ∧ i.hostId = h ∧
    OnFile H h C₀ z.store i.credential i.credentialGeneration ∧ i.credentialGeneration ≤ C
  operation : ∀ op g, z.agent.operation = some (op, g) →
    ∃ x, z.store.Rotating h x ∧ x.id = op ∧ x.nextGeneration = g
  acknowledging : ∀ r next op g, z.agent = .acknowledging r next op g →
    z.sent[r]? = some (.acknowledge next op)
  authenticated : ∀ r auth, (r, auth) ∈ z.authenticated → auth.hostId = h ∧
    ∃ m, z.sent[r]? = some m ∧ OnFile H h C₀ z.store m.credential auth.generation
  granted : ∀ r ∈ z.granted, r < z.sent.length ∧ ∀ next op,
    z.sent[r]? = some (.acknowledge next op) → ∃ x, z.store.Rotating h x ∧ x.id = op ∧
      OnFile H h C₀ z.store next x.nextGeneration ∧ x.nextGeneration ≤ C

variable {H : Hashing} {h : HostId} {C₀ C C' : Nat} {s t : Store} {z z' : RotationState}
  {now : Millis}

theorem OnFile.mono {secret : Secret} {g : Nat} (hfile : OnFile H h C₀ s secret g)
    (hext : s.Extends t h) : OnFile H h C₀ t secret g := by
  obtain ⟨hvalid, hge, c, hc, hgen, hver⟩ := hfile
  obtain ⟨c', hc', -, hgen', hver'⟩ := hext.credential c hc
  exact ⟨hvalid, hge, c', hc', hgen'.trans hgen, hver'.trans hver⟩

theorem onFile_of_authenticate (hs : s.Rotates h C₀ C) {secret : Secret} {auth : AuthenticatedHost}
    (hauth : s.authenticate H h secret now = .ok auth) :
    auth.hostId = h ∧ OnFile H h C₀ s secret auth.generation := by
  obtain ⟨hvalid, hhost, c, hc, hlive, hver, -, hgen⟩ := Store.authenticate_ok hauth
  simp only [Credential.isLive, Bool.and_eq_true] at hlive
  have hnot : ¬ c.generation < C := by simp [← hs.revoked_iff c hc, hlive.1]
  have hle := hs.le_current
  exact ⟨hhost, hvalid, by omega, c, hc, hgen.symm, hver⟩

theorem rotates_of_leavesCredentials (hs : s.Rotates h C₀ C) (hleave : leavesCredentials h s t) :
    t.Rotates h C₀ C ∧ s.Extends t h := by
  simp only [leavesCredentials, Bool.and_eq_true, beq_iff_eq] at hleave
  obtain ⟨⟨hhost, hcred⟩, hrot⟩ := hleave
  have hholds : t.Holds h = s.Holds h := by
    funext c
    have hmem : (c ∈ s.credentials.rows.filter (·.hostId == h)) =
        (c ∈ t.credentials.rows.filter (·.hostId == h)) := by rw [hcred]
    simpa [Store.Holds, Table.mem_rows] using hmem.symm
  have hrotating : t.Rotating h = s.Rotating h := by
    funext x
    have hmem : (x ∈ s.rotations.rows.filter (·.hostId == h)) =
        (x ∈ t.rotations.rows.filter (·.hostId == h)) := by rw [hrot]
    simpa [Store.Rotating, Table.mem_rows] using hmem.symm
  constructor
  · refine
      { host := ?_, le_current := hs.le_current, generation_inj := ?_, verifier_inj := ?_
        current := ?_, revoked_iff := ?_, limited := ?_, phased := ?_, open_inj := ?_
        requested := ?_, exchanged := ?_, acknowledged := ?_, reached := ?_ } <;>
      simp only [hholds, hrotating]
    · obtain ⟨r, hr, hmay, hC, hepoch⟩ := hs.host
      rw [hr, Option.map_some, eq_comm, Option.map_eq_some_iff] at hhost
      obtain ⟨r', hr', hcols⟩ := hhost
      simp only [credentialColumns, Prod.mk.injEq] at hcols
      exact ⟨r', hr', hcols.2.1 ▸ hmay, hcols.2.2.trans hC, fun c hc hge =>
        (hepoch c hc hge).trans hcols.1.symm⟩
    · exact hs.generation_inj
    · exact hs.verifier_inj
    · exact hs.current
    · exact hs.revoked_iff
    · exact hs.limited
    · exact hs.phased
    · exact hs.open_inj
    · exact hs.requested
    · exact hs.exchanged
    · exact hs.acknowledged
    · exact hs.reached
  · exact ⟨fun c hc => ⟨c, hholds ▸ hc, rfl, rfl, rfl⟩, fun x hx => ⟨x, hrotating ▸ hx, rfl, rfl⟩⟩

namespace RotationState.Consistent

theorem of_store (hz : z.Consistent H h C₀ C) (hle : C ≤ C') (hs : t.Rotates h C₀ C')
    (hext : z.store.Extends t h) : { z with store := t }.Consistent H h C₀ C' where
  rotates := hs
  identity := by
    obtain ⟨i, hi, hhost, hfile, hgen⟩ := hz.identity
    exact ⟨i, hi, hhost, hfile.mono hext, hgen.trans hle⟩
  operation op g hop := by
    obtain ⟨x, hx, hid, hnext⟩ := hz.operation op g hop
    obtain ⟨x', hx', hid', hnext'⟩ := hext.rotation x hx
    exact ⟨x', hx', hid'.trans hid, hnext'.trans hnext⟩
  acknowledging := hz.acknowledging
  authenticated r auth hr := by
    obtain ⟨hhost, m, hm, hfile⟩ := hz.authenticated r auth hr
    exact ⟨hhost, m, hm, hfile.mono hext⟩
  granted r hr := by
    obtain ⟨hlt, hack⟩ := hz.granted r hr
    refine ⟨hlt, fun next op hm => ?_⟩
    obtain ⟨x, hx, hid, hfile, hgen⟩ := hack next op hm
    obtain ⟨x', hx', hid', hnext'⟩ := hext.rotation x hx
    exact ⟨x', hx', hid'.trans hid, hnext' ▸ hfile.mono hext, hnext' ▸ hgen.trans hle⟩

theorem of_phase (hz : z.Consistent H h C₀ C) {phase : SupervisorPhase}
    (hop : ∀ op g, phase.operation = some (op, g) →
      ∃ x, z.store.Rotating h x ∧ x.id = op ∧ x.nextGeneration = g)
    (hack : ∀ r next op g, phase ≠ .acknowledging r next op g) :
    { z with agent := phase }.Consistent H h C₀ C :=
  { hz with
    operation := hop
    acknowledging := fun r next op g heq => absurd heq (hack r next op g) }

variable {m : RotationRequest}

theorem send (hz : z.Consistent H h C₀ C) {phase : SupervisorPhase}
    (hop : phase.operation = z.agent.operation)
    (hack : ∀ r next op g, phase = .acknowledging r next op g →
      r = z.sent.length ∧ m = .acknowledge next op) :
    { z with sent := z.sent ++ [m], agent := phase }.Consistent H h C₀ C where
  rotates := hz.rotates
  identity := hz.identity
  operation := hop ▸ hz.operation
  acknowledging r next op g heq := by
    obtain ⟨rfl, rfl⟩ := hack r next op g heq
    simp
  authenticated r auth hr := by
    obtain ⟨hhost, m', hm, hfile⟩ := hz.authenticated r auth hr
    have hlt := (List.getElem?_eq_some_iff.mp hm).1
    exact ⟨hhost, m', by simp [List.getElem?_append_left hlt, hm], hfile⟩
  granted r hr := by
    obtain ⟨hlt, hack⟩ := hz.granted r hr
    refine ⟨by simp; omega, fun next op hm => hack next op ?_⟩
    simpa [List.getElem?_append_left hlt] using hm

theorem openSession (hz : z.Consistent H h C₀ C) (hstep : z.openSession H now = some z') :
    z'.Consistent H h C₀ C := by
  have hopen : ∀ i : Identity, (match z.store.authenticate H i.hostId i.credential now with
      | .ok _ => some { z with agent := .session i.credential }
      | .error _ => some { z with agent := .credentialRejected }) = some z' →
      z'.Consistent H h C₀ C := by
    intro i hi
    split at hi <;> cases hi <;> exact hz.of_phase nofun nofun
  unfold RotationState.openSession at hstep
  split at hstep
  · exact hopen _ hstep
  · exact hopen _ hstep
  · cases hstep

theorem heartbeat (hz : z.Consistent H h C₀ C) (hstep : z.heartbeat H h now = some z') :
    z'.Consistent H h C₀ C := by
  unfold RotationState.heartbeat at hstep
  split at hstep
  · split at hstep
    · cases hstep
      exact hz.of_phase nofun nofun
    · split at hstep
      · cases hstep
        exact hz
      · next operationId nextGeneration hpending =>
        cases hstep
        refine hz.of_phase (fun op g hop => ?_) nofun
        cases hop
        obtain ⟨x, hx, heq⟩ := Option.map_eq_some_iff.mp hpending
        have hmem := List.mem_filter.mp (List.mem_of_getLast? hx)
        simp only [Bool.and_eq_true, beq_iff_eq] at hmem
        cases heq
        exact ⟨x, ⟨hmem.1, hmem.2.1.1⟩, rfl, rfl⟩
  · cases hstep

theorem rotate (hz : z.Consistent H h C₀ C) {fresh : Secret}
    (hstep : z.rotate fresh = some z') : z'.Consistent H h C₀ C := by
  unfold RotationState.rotate at hstep
  split at hstep
  · next credential operationId nextGeneration hagent =>
    cases hstep
    have hident : (z.journal.rotationSecret operationId nextGeneration fresh).2.identity
        = z.journal.identity := by
      unfold Journal.rotationSecret
      repeat' split
      all_goals rfl
    have hjournal : { z with
        journal := (z.journal.rotationSecret operationId nextGeneration fresh).2 }.Consistent
        H h C₀ C := { hz with identity := by simpa [hident] using hz.identity }
    exact hjournal.send (by simp [hagent, SupervisorPhase.operation]) nofun
  · cases hstep

theorem reply (hz : z.Consistent H h C₀ C) (hstep : z.reply = some z') :
    z'.Consistent H h C₀ C := by
  unfold RotationState.reply at hstep
  split at hstep
  · next request next operationId nextGeneration hagent =>
    split at hstep <;> cases hstep
    refine hz.send (by simp [hagent, SupervisorPhase.operation]) fun r next' op g heq => ?_
    cases heq
    exact ⟨rfl, rfl⟩
  · next request next operationId nextGeneration hagent =>
    split at hstep <;> cases hstep
    next hgranted =>
    -- the acknowledged rotation is the one the agent was told of
    obtain ⟨x, hx, hid, hnext⟩ := hz.operation operationId nextGeneration (by rw [hagent]; rfl)
    obtain ⟨y, hy, hid', hfile, hle⟩ :=
      (hz.granted request hgranted).2 next operationId (hz.acknowledging _ _ _ _ hagent)
    cases Table.eq_of_key hx.1 hy.1 (hid.trans hid'.symm)
    obtain ⟨i, hi, hhost, -⟩ := hz.identity
    have hjournal : { z with
        journal := z.journal.finishRotation next nextGeneration }.Consistent H h C₀ C :=
      { hz with
        identity := by
          refine ⟨{ i with credential := next, credentialGeneration := nextGeneration }, ?_, hhost,
            hnext ▸ hfile, hnext ▸ hle⟩
          simp [Journal.finishRotation, hi] }
    exact hjournal.of_phase nofun nofun
  · cases hstep

theorem authenticate (hz : z.Consistent H h C₀ C) {r : Nat} {auth : AuthenticatedHost}
    (hm : z.sent[r]? = some m) (hauth : z.store.authenticate H h m.credential now = .ok auth) :
    { z with authenticated := (r, auth) :: z.authenticated }.Consistent H h C₀ C := by
  obtain ⟨hhost, hfile⟩ := onFile_of_authenticate hz.rotates hauth
  refine { hz with authenticated := fun r' auth' hr => ?_ }
  rcases List.mem_cons.mp hr with heq | hr
  · cases heq
    exact ⟨hhost, m, hm, hfile⟩
  · exact hz.authenticated r' auth' hr

theorem serve (hz : z.Consistent H h C₀ C) {r : Nat} {auth : AuthenticatedHost}
    {credentialId : CredentialId} (hm : z.sent[r]? = some m) (hauth : (r, auth) ∈ z.authenticated)
    (hserve : RotationState.serveRequest H z.store auth credentialId now m = .ok t) :
    ∃ C', { z with store := t, granted := r :: z.granted }.Consistent H h C₀ C' := by
  obtain ⟨hhost, m', hm', hfile⟩ := hz.authenticated r auth hauth
  cases hm.symm.trans hm'
  have hlt := (List.getElem?_eq_some_iff.mp hm).1
  cases m with
  | exchange credential operationId next =>
    obtain ⟨out, hex, rfl⟩ := map_eq_ok hserve
    obtain ⟨hrot, hext⟩ := hz.rotates.exchangeRotation hhost hex
    have hz' := hz.of_store (Nat.le_refl C) hrot hext
    refine ⟨C, { hz' with granted := fun r' hr' => ?_ }⟩
    rcases List.mem_cons.mp hr' with rfl | hr'
    · exact ⟨hlt, fun next' op heq => by simp [hm] at heq⟩
    · exact hz'.granted r' hr'
  | acknowledge credential operationId =>
    obtain ⟨out, hack, rfl⟩ := map_eq_ok hserve
    obtain ⟨C', hle, hrot, hext, hgen, x, hx, hid, hnext⟩ :=
      hz.rotates.acknowledgeRotation hhost hack
    have hz' := hz.of_store hle hrot hext
    refine ⟨C', { hz' with granted := fun r' hr' => ?_ }⟩
    rcases List.mem_cons.mp hr' with rfl | hr'
    · refine ⟨hlt, fun next op heq => ?_⟩
      cases hm.symm.trans heq
      obtain ⟨x', hx', hid', hnext'⟩ := hext.rotation x hx
      have hxg := hnext'.trans hnext
      exact ⟨x', hx', hid'.trans hid, hxg ▸ hfile.mono hext, hxg ▸ hgen⟩
    · exact hz'.granted r' hr'

/-- **No step breaks the link** between the journal's credential and the server's. -/
theorem step (hz : z.Consistent H h C₀ C) {a : RotationStep}
    (hstep : (rotationSystem H h).step z a = some z') : ∃ C', z'.Consistent H h C₀ C' := by
  cases a with
  | request isSystemAdmin user expected key operationId now =>
    obtain ⟨⟨receipt, t⟩, hreq, rfl⟩ := Option.map_eq_some_iff.mp hstep
    obtain ⟨hrot, hext⟩ := hz.rotates.requestRotation (ok_of_toOption hreq)
    exact ⟨C, hz.of_store (Nat.le_refl C) hrot hext⟩
  | elsewhere store =>
    simp only [rotationSystem, RotationState.step, Option.ite_none_right_eq_some] at hstep
    obtain ⟨hleave, hstep⟩ := hstep
    cases hstep
    obtain ⟨hrot, hext⟩ := rotates_of_leavesCredentials hz.rotates hleave
    exact ⟨C, hz.of_store (Nat.le_refl C) hrot hext⟩
  | openSession now => exact ⟨C, hz.openSession hstep⟩
  | heartbeat now => exact ⟨C, hz.heartbeat hstep⟩
  | rotate fresh => exact ⟨C, hz.rotate hstep⟩
  | authenticate request now =>
    obtain ⟨m, hm, hstep⟩ := Option.bind_eq_some_iff.mp hstep
    obtain ⟨auth, hauth, hstep⟩ := Option.bind_eq_some_iff.mp hstep
    cases hstep
    exact ⟨C, hz.authenticate hm (ok_of_toOption hauth)⟩
  | serve request auth credentialId now =>
    obtain ⟨m, hm, hstep⟩ := Option.bind_eq_some_iff.mp hstep
    split at hstep
    · next hauth =>
      obtain ⟨t, ht, hstep⟩ := Option.bind_eq_some_iff.mp hstep
      cases hstep
      exact hz.serve hm hauth (ok_of_toOption ht)
    · cases hstep
  | reply => exact ⟨C, hz.reply hstep⟩
  | drop =>
    cases hstep
    exact ⟨C, hz.of_phase nofun nofun⟩

end RotationState.Consistent

/-! ## When a session opens -/

/-- Right after an enrolment or recovery: the journal's secret is the current generation, and no
rotation is open. -/
structure Enrolled (H : Hashing) (h : HostId) (z : RotationState) (i : Identity) : Prop where
  identity : z.journal.identity = some i
  hostId : i.hostId = h
  secret : validateSecretText i.credential
  agent : z.agent = .down
  sent : z.sent = [] ∧ z.authenticated = [] ∧ z.granted = []
  credential : ∃ r c, z.store.hosts.find h = some r ∧ r.mayAuthenticate ∧
    r.currentCredentialGeneration = some i.credentialGeneration ∧ z.store.Holds h c ∧
    c = ⟨c.id, h, r.epoch, i.credentialGeneration, H.secret i.credential, none,
      c.acknowledgedAt, none⟩
  older : ∀ c, z.store.Holds h c → c.generation = i.credentialGeneration ∨
    c.generation < i.credentialGeneration ∧ c.revokedAt.isSome
  verifiers : (z.store.credentials.rows.map (·.verifier)).Nodup
  generations : (z.store.credentials.rows.map fun c => (c.hostId, c.generation)).Nodup
  rotations : ∀ x, z.store.Rotating h x → x.isPhased ∧
    (x.phase = .acknowledged ∧ x.nextGeneration ≤ i.credentialGeneration ∨ x.phase = .revoked)

theorem Enrolled.consistent {i : Identity} (hz : Enrolled H h z i) :
    z.Consistent H h i.credentialGeneration i.credentialGeneration := by
  obtain ⟨r, c, hr, hmay, hC, hc, hceq⟩ := hz.credential
  have hgen : ∀ c c', z.store.Holds h c → z.store.Holds h c' → c.generation = c'.generation →
      c = c' := fun c c' hc hc' heq =>
    List.inj_on_of_nodup_map hz.generations hc.1 hc'.1 (by rw [hc.2, hc'.2, heq])
  have hcgen : c.generation = i.credentialGeneration := by rw [hceq]
  have honly : ∀ c', z.store.Holds h c' → i.credentialGeneration ≤ c'.generation → c' = c := by
    intro c' hc' hle
    rcases hz.older c' hc' with heq | hlt
    · exact hgen c' c hc' hc (heq.trans hcgen.symm)
    · omega
  have hclosed : ∀ x, z.store.Rotating h x → x.phase ≠ .requested ∧ x.phase ≠ .exchanged := by
    intro x hx
    rcases (hz.rotations x hx).2 with ⟨hp, -⟩ | hp <;> simp [hp]
  refine
    { rotates :=
        { host := ⟨r, hr, hmay, hC, fun c' hc' hle => by rw [honly c' hc' hle, hceq]⟩
          le_current := Nat.le_refl _
          generation_inj := hgen
          verifier_inj := fun c c' hc hc' heq =>
            List.inj_on_of_nodup_map hz.verifiers hc.1 hc'.1 heq
          current := ⟨c, hc, hcgen⟩
          revoked_iff := ?_, limited := ?_
          phased := fun x hx => (hz.rotations x hx).1
          open_inj := ?_
          requested := fun x hx hp => absurd hp (hclosed x hx).1
          exchanged := fun x hx hp => absurd hp (hclosed x hx).2
          acknowledged := ?_
          reached := .inl rfl }
      identity := ⟨i, hz.identity, hz.hostId,
        ⟨hz.secret, Nat.le_refl _, c, hc, hcgen, by rw [hceq]⟩, Nat.le_refl _⟩
      operation := by simp [hz.agent, SupervisorPhase.operation]
      acknowledging := by simp [hz.agent]
      authenticated := by simp [hz.sent.2.1]
      granted := by simp [hz.sent.2.2] }
  · intro c' hc'
    rcases hz.older c' hc' with heq | ⟨hlt, hrevoked⟩
    · rw [honly c' hc' (Nat.le_of_eq heq.symm), hceq]
      simp
    · simp [hlt, hrevoked]
  · intro c' u hc' hle hu
    rw [honly c' hc' hle, hceq] at hu
    cases hu
  · intro x y hx _ hox
    rcases (Rotation.isOpen_iff (hz.rotations x hx).1).mp hox with hp | hp
    · exact absurd hp (hclosed x hx).1
    · exact absurd hp (hclosed x hx).2
  · intro x hx hp
    rcases (hz.rotations x hx).2 with ⟨-, hle⟩ | hrev
    · exact hle
    · rw [hp] at hrev
      cases hrev

/-- Every exchanged rotation leads to a generation the journal presents, or is still within its
overlap. -/
def Honours (s : Store) (h : HostId) (generation : Nat) (now : Millis) : Prop :=
  ∀ x, s.Rotating h x → x.phase = .exchanged ∨ x.phase = .acknowledged →
    x.nextGeneration ≤ generation ∨ x.phase = .exchanged ∧ x.overlapExpiresAt.any (now < ·)

namespace Sample

def oldSecret : Secret := "AAAAAAAAAAAAAAAAAAAAAAAAAAAAAAAAAAAAAAAAAAA"
def newSecret : Secret := "BBBBBBBBBBBBBBBBBBBBBBBBBBBBBBBBBBBBBBBBBBA"

def identity : Identity := ⟨1, 1, oldSecret, 1⟩

def enrolled : RotationState where
  store :=
    { Store.empty with
      hosts := Fleet.Sample.store.hosts
      credentials := ⟨[⟨1, 1, 1, 1, oldSecret, none, none, none⟩], by decide⟩ }
  journal := { Journal.empty with identity := some identity }
  agent := .down
  sent := []
  authenticated := []
  granted := []

theorem enrolled_ok : Enrolled Fleet.Sample.hashing 1 enrolled identity where
  identity := rfl
  hostId := rfl
  secret := by decide +kernel
  agent := rfl
  sent := ⟨rfl, rfl, rfl⟩
  credential := ⟨Fleet.Sample.host, ⟨1, 1, 1, 1, oldSecret, none, none, none⟩, rfl, rfl, rfl,
    ⟨List.mem_singleton.mpr rfl, rfl⟩, rfl⟩
  older := by
    rintro c ⟨hc, -⟩
    cases List.mem_singleton.mp hc
    exact .inl rfl
  verifiers := by decide
  generations := by decide
  rotations := by
    rintro x ⟨hx, -⟩
    cases hx

def exchangeSteps : List RotationStep :=
  [.request true 1 1 "key" 5 0, .openSession 0, .heartbeat 0, .rotate newSecret,
    .authenticate 0 1000, .serve 0 ⟨1, 1, 1, 1⟩ 2 1000]

def acknowledgeSteps : List RotationStep :=
  exchangeSteps ++ [.reply, .authenticate 1 2000, .serve 1 ⟨1, 2, 2, 1⟩ 3 2000]

end Sample

end Gridops.HostAgent
