import Gridops.Fleet.Registry.KeyRing
import Gridops.Fleet.Registry.Owners
import Gridops.Fleet.Registry.Service

/-!
# The registry's transactions, statement by statement

Every call of the registry is a sequence of single statements (`statements_of_call`), each
with what the call has checked before it: an agent's call is authenticated and an
administrator's finds the host in the fleet, so nothing is written about a retired host. What
a statement keeps holds after every call, and so after every run.
-/

namespace Gridops.Fleet

open Gridops.Lib Relation

def Store.keys (s : Store) : KeyRing := ⟨s.hosts.rows.map (·.id), s.credentials, s.rotations⟩

abbrev Registry.keys (r : Registry) : KeyRing := r.store.keys

def Store.isRetired (s : Store) (id : HostId) : Bool :=
  (s.hosts.find id).any (·.lifecycleState == .retired)

theorem Store.isRetired_of_find {s : Store} {id : HostId} {x : Host}
    (hx : s.hosts.find id = some x) (hlive : x.lifecycleState ≠ .retired) :
    s.isRetired id = false := by
  simpa [isRetired, hx] using hlive

theorem Store.isRetired_update {s : Store} {id : HostId} {p : Host → Bool} {f : Host → Host}
    (hf : ∀ h, (f h).id = h.id)
    (hrow : ∀ h, (f h).lifecycleState = .retired → h.lifecycleState = .retired)
    (hlive : s.isRetired id = false) :
    { s with hosts := s.hosts.update p f hf }.isRetired id = false := by
  simp only [isRetired, Table.find_update, Option.any_map, Option.any_eq_false,
    beq_eq_false_iff_ne] at hlive ⊢
  intro h hh hretired
  refine hlive h hh ?_
  split at hretired
  · exact hrow h hretired
  · exact hretired

theorem Store.ensureAuthenticatedGeneration_host {s : Store} {auth : AuthenticatedHost}
    {now : Millis} (h : s.ensureAuthenticatedGeneration auth now = .ok ()) :
    ∃ x, s.hosts.find auth.hostId = some x ∧ x.epoch = auth.epoch ∧
      x.lifecycleState ≠ .retired := by
  obtain ⟨hone, h⟩ := check_eq_ok h
  obtain ⟨c, hc⟩ := List.exists_mem_of_length_pos (hone ▸ Nat.one_pos)
  obtain ⟨-, hlive⟩ := List.mem_filter.mp hc
  simp only [Bool.and_eq_true, beq_iff_eq, List.any_eq_true, bne_iff_ne] at hlive
  obtain ⟨⟨⟨⟨⟨⟨-, hhost⟩, -⟩, -⟩, -⟩, -⟩, x, hx, ⟨⟨hid, hepoch⟩, -⟩, hnot⟩ := hlive
  exact ⟨x, Table.find_some_iff.mpr ⟨hx, hid.trans hhost⟩, hepoch, hnot⟩

theorem Store.isRetired_of_authenticated {s : Store} {auth : AuthenticatedHost} {now : Millis}
    (h : s.ensureAuthenticatedGeneration auth now = .ok ()) : s.isRetired auth.hostId = false := by
  obtain ⟨x, hx, -, hlive⟩ := ensureAuthenticatedGeneration_host h
  exact isRetired_of_find hx hlive

/-- The columns an authority rests on, and the authority itself. -/
structure Host.Sustains (h h' : Host) : Prop where
  id : h'.id = h.id
  epoch : h'.epoch = h.epoch
  enrollmentState : h'.enrollmentState = h.enrollmentState
  integrityState : h'.integrityState = h.integrityState
  agentSessionId : h'.agentSessionId = h.agentSessionId
  works : h.lifecycleState.works → h'.lifecycleState.works
  authorityExpiresAt : h'.authorityExpiresAt = h.authorityExpiresAt

theorem Host.Sustains.refl (h : Host) : h.Sustains h := ⟨rfl, rfl, rfl, rfl, rfl, fun h => h, rfl⟩

/-- What happens to the row of a code: it may be used or revoked, once. -/
structure Enrollment.Ages (e e' : Enrollment) : Prop where
  id : e'.id = e.id
  codeVerifier : e'.codeVerifier = e.codeVerifier
  mode : e'.mode = e.mode
  issuedBy : e'.issuedBy = e.issuedBy
  idempotencyKey : e'.idempotencyKey = e.idempotencyKey
  consumed : e.consumed.isSome → e'.consumed.isSome
  revokedAt : e.revokedAt.isSome → e'.revokedAt.isSome

/-- What one statement does to the codes on file. -/
inductive EnrollmentMove (es : Table Enrollment.id) : Table Enrollment.id → Prop
  | same : EnrollmentMove es es
  | insert {e : Enrollment} {ts : Table Enrollment.id}
      (hnew : ∀ e' ∈ es, e'.codeVerifier ≠ e.codeVerifier) (h : es.insert? e = some ts) :
      EnrollmentMove es ts
  | age {p : Enrollment → Bool} {f : Enrollment → Enrollment}
      (hf : ∀ e, (f e).id = e.id) (h : ∀ e, p e → e.Ages (f e)) :
      EnrollmentMove es (es.update p f hf)

def OneOpen (sessions : Table ObservationSession.sessionId) : Prop :=
  ∀ o ∈ sessions, ∀ o' ∈ sessions, o.hostId = o'.hostId → o.endedAt = none → o'.endedAt = none →
    o = o'

namespace Registry

def inventorySession (r : Registry) (id : HostId) : Option SessionId :=
  (r.profiles.find id).bind fun p => if p.inventoryComplete then p.inventorySessionId else none

def identity (r : Registry) :=
  (r.store.hosts, r.profiles, r.store.sessions, r.store.credentials, r.store.rotations, r.grants,
    r.enrollments)

theorem identity_of_frame {r : Registry} {store : Store} (h : IdentityFrame r.store store) :
    identity { r with store } = r.identity := by
  simp [identity, h.hosts, h.credentials, h.rotations, h.sessions]

def view (r : Registry) := (r.identity, r.store.placements, r.store.commands)

/-- One statement of a transaction at `now`; `single` is whether no host had two open sessions
before the transaction. -/
inductive Statement (now : Millis) (single : Prop) : Registry → Registry → Prop
  | beside {r t} (h : t.view = r.view) : Statement now single r t
  | work {r t} (hostId) (hlive : r.store.isRetired hostId = false) (h : t.identity = r.identity)
      (hwork : WorkStep (r.store.HasCommand hostId) r.store t.store) : Statement now single r t
  | codes {r enrollments} (h : EnrollmentMove r.enrollments enrollments) :
      Statement now single r { r with enrollments }
  | grants {r grants} (hostId) (hlive : r.store.isRetired hostId = false)
      (h : ∀ id, id ≠ hostId → grants.rows.filter (·.hostId == id)
        = r.grants.rows.filter (·.hostId == id)) : Statement now single r { r with grants }
  | keys {r credentials rotations} (h : r.keys.Move { r.keys with credentials, rotations }) :
      Statement now single r { r with store := { r.store with credentials, rotations } }
  | enroll {r id hosts} {c : Credential} {credentials} (profiles)
      (hhosts : r.store.hosts.insert? (pendingHost id) = some hosts) (hc : c.hostId = id)
      (hver : ∀ c' ∈ r.store.credentials, c'.verifier ≠ c.verifier)
      (hins : r.store.credentials.insert? c = some credentials)
      (hprofiles : ∀ k, k ≠ id → profiles.find k = r.profiles.find k) :
      Statement now single r { r with store := { r.store with hosts, credentials }, profiles }
  /-- A host's row, but nothing its authority rests on. -/
  | sustain {r hostId f} (profiles) (hf : ∀ h, (f h).id = h.id)
      (hlive : r.store.isRetired hostId = false)
      (hrow : ∀ h : Host, h.Sustains (f h) ∧
        ((f h).lifecycleState = .retired → h.lifecycleState = .retired))
      (hprofiles : ∀ id, inventorySession { r with profiles } id = r.inventorySession id) :
      Statement now single r { r with
        store := { r.store with hosts := r.store.hosts.update (·.id == hostId) f hf }, profiles }
  /-- A host's row, and its authority is withdrawn. -/
  | withdraw {r hostId} (w : HostWrite) (hlive : r.store.isRetired hostId = false)
      (hrow : ∀ h, (w.host h).authorityExpiresAt = none ∧
        ((w.host h).lifecycleState = .retired → h.lifecycleState = .retired)) :
      Statement now single r (r.updateHost hostId w)
  | retire {r hostId} (hlive : r.store.isRetired hostId = false)
      (hover : ∀ x ∈ r.store.placements, x.hostId = hostId → x.state.isOver) :
      Statement now single r (r.updateHost hostId retirement)
  | approve {r hostId} {x : Host} (hx : r.store.hosts.find hostId = some x)
      (hlive : x.lifecycleState ≠ .retired) (hpending : x.enrollmentState = .pending) :
      Statement now single r (r.updateHost hostId approval)
  /-- The inventory of the session the host is given to. -/
  | inventory {r auth} {x : Host} {request : InventoryRequest} {revision}
      (hx : r.store.hosts.find auth.hostId = some x) (hlive : x.lifecycleState ≠ .retired)
      (hagent : x.agentSessionId = some request.session.sessionId) :
      Statement now single r (r.updateHost auth.hostId (inventoryWrite auth request revision now))
  /-- Columns of a host's sessions that leave them open or ended. -/
  | session {r hostId p f} (hf : ∀ o, (f o).sessionId = o.sessionId)
      (hlive : r.store.isRetired hostId = false)
      (hp : ∀ o ∈ r.store.sessions, p o → o.hostId = hostId)
      (hrow : ∀ o : ObservationSession, (f o).hostId = o.hostId ∧ (f o).hostEpoch = o.hostEpoch ∧
        (f o).endedAt = o.endedAt) :
      Statement now single r { r with
        store := { r.store with sessions := r.store.sessions.update p f hf } }
  /-- A session ends, and the authority of its host with it. -/
  | endSession {r} {o : ObservationSession} {f g} (hf : ∀ o, (f o).sessionId = o.sessionId)
      (hg : ∀ h, (g h).id = h.id) (hlive : r.store.isRetired o.hostId = false)
      (ho : o ∈ r.store.sessions)
      (hrow : ∀ o : ObservationSession, (f o).hostId = o.hostId ∧ (f o).endedAt ≠ none)
      (hhost : ∀ h : Host, (g h).authorityExpiresAt = none ∧
        ((g h).lifecycleState = .retired → h.lifecycleState = .retired)) :
      Statement now single r { r with
        store := { r.store with
          sessions := r.store.sessions.update (·.sessionId == o.sessionId) f hf
          hosts := r.store.hosts.update (·.id == o.hostId) g hg }
        profiles := r.clearedProfiles o.hostId }
  | openSession {r} {o : ObservationSession} {sessions}
      (hlive : r.store.isRetired o.hostId = false)
      (hins : r.store.sessions.insert? o = some sessions)
      (hnone : single → ∀ o' ∈ r.store.sessions, o'.hostId = o.hostId → o'.endedAt ≠ none) :
      Statement now single r { r with store := { r.store with sessions } }
  | grantAuthority {r} {o : ObservationSession} (ready : Bool) {x : Host}
      (hx : r.store.hosts.find o.hostId = some x) (hlive : x.lifecycleState ≠ .retired)
      (hepoch : x.epoch = o.hostEpoch) (ho : o ∈ r.store.sessions) (hopen : o.endedAt = none) :
      Statement now single r (r.grantAuthority o.hostId o.sessionId ready now)

abbrev Statements (now : Millis) (single : Prop) : Registry → Registry → Prop :=
  ReflTransGen (Statement now single)

namespace Statements

variable {H : Hashing} {d : Directory} {r t u : Registry} {user : UserId} {now : Millis}
  {hostId : HostId} {auth : AuthenticatedHost} {single : Prop}

theorem beside (h : r.Statements now single t) (hview : u.view = t.view) :
    r.Statements now single u :=
  h.tail (.beside hview)

theorem rel {R : Registry → Registry → Prop} (hrefl : ∀ r, R r r)
    (htrans : ∀ r t u, R r t → R t u → R r u) (hone : ∀ r t, Statement now single r t → R r t)
    (h : r.Statements now single t) : R r t := by
  induction h with
  | refl => exact hrefl r
  | tail _ hlast ih => exact htrans _ _ _ ih (hone _ _ hlast)

/-! ## Enrollment -/

theorem issues {key : String} {answer : EnrollmentIssue} (h : Issues H r user key answer t) :
    r.Statements now single t := by
  cases h with
  | replay => exact .refl
  | created _ _ _ hnew hinsert =>
    exact beside (.single (.codes (.insert (fun e' he' => (hnew e' he').1) hinsert))) rfl

theorem revokeEnrollment {id : EnrollmentId} (h : r.revokeEnrollment d user id now = .ok t) :
    r.Statements now single t := by
  rcases revokeEnrollment_cases h with ⟨e, -, -, rfl⟩ | ⟨e, -, -, -, -, rfl⟩
  · exact .refl
  · exact beside (.single (.codes (.age (f := fun e => { e with revokedAt := some now })
      (fun _ => rfl) fun _ _ => ⟨rfl, rfl, rfl, rfl, rfl, fun h => h, fun _ => rfl⟩))) rfl

theorem markConsumed (r : Registry) (id : EnrollmentId) (hostId : HostId) (now : Millis) :
    Statement now single r (r.markConsumed id hostId now) :=
  .codes (.age (f := fun e => { e with consumed := some (now, hostId) }) (fun _ => rfl)
    fun _ _ => ⟨rfl, rfl, rfl, rfl, rfl, fun _ => rfl, fun h => h⟩)

theorem revokeCredentials (r : Registry) (hostId : HostId) (which : Credential → Bool)
    (now : Millis) :
    Statement now single r { r with store := r.store.revokeCredentials hostId which now } :=
  .keys (.age (f := fun c => { c with revokedAt := some now }) (fun _ => rfl)
    fun _ _ => ⟨⟨rfl, rfl, rfl, rfl, rfl⟩, fun _ => rfl⟩)

theorem revokeOpenRotations (r : Registry) (hostId : HostId) (actor : Option UserId)
    (action : AdminAction) (now : Millis) :
    r.Statements now single (r.revokeOpenRotations hostId actor action now) := by
  have hclose : Statement now single r
      { r.revokeOpenRotations hostId actor action now with audits := r.audits } := by
    refine .keys (.close fun x hx => ?_)
    simp only [Bool.and_eq_true, Bool.or_eq_true, beq_iff_eq] at hx
    exact hx.2
  exact beside (.single hclose) rfl

variable {fresh : FreshHost} {receipt : EnrollmentReceipt} {operationId : RotationId}
  {store : Store} {o : ObservationSession}

theorem enroll {e : Enrollment} (h : r.enroll H e fresh now = .ok (receipt, t)) :
    r.Statements now single t := by
  obtain ⟨hosts, -, credentials, -, rfl, hhosts, hcred, rfl⟩ := enroll_cases h
  obtain ⟨hfree, hins⟩ := Store.insertCredential_some hcred
  refine beside (.head (.enroll (r.profiles.upsert (.enrolled fresh.hostId e.id)
    (fun p => .enrolled p.hostId e.id) fun _ => HostProfile.enrolled_hostId _ _) hhosts rfl
    (fun c' hc' => (hfree c' hc').1) hins fun k hk => ?_)
    (.single (markConsumed _ e.id fresh.hostId now))) rfl
  rw [Table.find_upsert, if_neg (by simpa using Ne.symm hk)]

theorem startOver_credential (r : Registry) (e : Enrollment) {hostId : HostId}
    (epoch generation : Nat) (now : Millis) {c : Credential}
    (hc : c ∈ (r.startOver e hostId epoch generation now).store.credentials)
    (hhost : c.hostId = hostId) :
    c.revokedAt.isSome ∧ ∃ c' ∈ r.store.credentials, c'.hostId = hostId ∧
      c.generation = c'.generation := by
  simp only [startOver, updateHost, Registry.markConsumed, Store.revokeCredentials,
    Table.mem_update] at hc
  obtain ⟨c', hc', rfl⟩ := hc
  split at hhost
  · next hp =>
    rw [if_pos hp]
    exact ⟨rfl, c', hc', hhost, rfl⟩
  · next hp =>
    simp only [hhost, beq_self_eq_true, Bool.true_and, Option.isNone_iff_eq_none] at hp
    rw [if_neg (by simpa [hhost] using hp)]
    exact ⟨Option.isSome_iff_ne_none.mpr hp, c', hc', hhost, rfl⟩

theorem startOver_rotation (r : Registry) (e : Enrollment) {hostId : HostId}
    (epoch generation : Nat) (now : Millis) {x : Rotation}
    (hx : x ∈ (r.startOver e hostId epoch generation now).store.rotations)
    (hhost : x.hostId = hostId) : x.phase ≠ .requested := by
  simp only [startOver, updateHost, Registry.markConsumed, Store.revokeCredentials,
    Registry.revokeOpenRotations, Table.mem_update] at hx
  obtain ⟨x', -, rfl⟩ := hx
  split at hhost
  · next hp =>
    rw [if_pos hp]
    exact RotationPhase.noConfusion
  · next hp =>
    rw [if_neg hp]
    intro hphase
    exact hp (by simp [hhost, hphase])

theorem mem_ids_of_find {s : Store} {id : HostId} {h : Host} (hfind : s.hosts.find id = some h) :
    id ∈ s.hosts.rows.map (·.id) :=
  List.mem_map.mpr ⟨h, Table.mem_of_find hfind, Table.key_of_find hfind⟩

theorem recover {e : Enrollment} {epoch revision : Nat}
    (h : r.recover H e hostId epoch revision fresh now = .ok (receipt, t)) :
    r.Statements now single t := by
  obtain ⟨x, p, credentials, -, hx, -, rfl, -, hlive, -, hcred, rfl⟩ := recover_cases h
  obtain ⟨hfree, hins⟩ := Store.insertCredential_some hcred
  have hstart : r.Statements now single
      (r.startOver e hostId (x.epoch + 1) (r.store.nextGeneration hostId) now) := by
    refine (((revokeOpenRotations r hostId none .rotationRevokedByRecovery now).tail
      (revokeCredentials _ hostId (fun _ => true) now)).tail (markConsumed _ e.id hostId now)).tail
      (.withdraw (renewal (x.epoch + 1) (r.store.nextGeneration hostId) e.id) ?_
        fun h => ⟨rfl, fun h => by cases h⟩)
    exact Store.isRetired_of_find hx hlive
  refine beside (hstart.tail (.keys (.recover ?_ (fun c' hc' => (hfree c' hc').1)
    (fun c hc hhost => ?_)
    (fun y hy hhost => startOver_rotation r e (x.epoch + 1)
      (r.store.nextGeneration hostId) now hy hhost) hins))) rfl
  · simp only [Store.keys, startOver, updateHost, Table.map_key_update]
    exact mem_ids_of_find hx
  · obtain ⟨-, c', hc', hhost', hgen⟩ := startOver_credential r e (x.epoch + 1)
      (r.store.nextGeneration hostId) now hc hhost
    exact hgen ▸ Store.generation_lt_nextGeneration ⟨hc', hhost'⟩

theorem consumeEnrollment {code : Secret}
    (h : r.consumeEnrollment H d code fresh now = .ok (receipt, t)) :
    r.Statements now single t := by
  obtain ⟨e, -, -, -, -, -, ⟨-, henroll⟩ | ⟨hostId, epoch, revision, -, hrecover⟩⟩ :=
    consumeEnrollment_cases h
  · exact enroll henroll
  · exact recover hrecover

theorem approveHost {request : ApproveHost} (h : r.approveHost d user request now = .ok t) :
    r.Statements now single t := by
  obtain ⟨x, p, e, hx, -, hpending, hlive, -, -, -, rfl⟩ := approveHost_cases h
  obtain ⟨grants, event, happrove, hothers⟩ := approve_grants r user request now
  rw [happrove]
  have happroved : Statement now single { r with grants }
      ({ r with grants }.updateHost request.hostId approval) := .approve hx hlive hpending
  exact beside (.head (.grants request.hostId (Store.isRetired_of_find hx hlive) hothers)
    (.single happroved)) rfl

theorem setHostGrant {target : TargetId} {allowSchedule allowNative allowDockerSocket : Bool}
    (h : r.setHostGrant d user hostId target allowSchedule allowNative allowDockerSocket now
      = .ok t) : r.Statements now single t := by
  obtain ⟨-, -, h⟩ := bind_eq_ok h
  split at h
  · cases h
  next hfound =>
  cases h
  refine beside (.single (.grants hostId ?_ fun id hid => Table.filter_upsert
    (beq_eq_false_iff_ne.mpr (Ne.symm hid)) fun g _ hkey => ?_)) rfl
  · cases hx : r.store.hosts.find hostId with
    | none => simp [Store.isRetired, hx]
    | some x =>
      simp only [hx, Bool.or_eq_true, not_or] at hfound
      exact Store.isRetired_of_find hx (by simpa using hfound.1)
  · have hg : g.hostId = hostId := congrArg (·.1) hkey
    simp [hg, Ne.symm hid]

theorem setHostLifecycle {expectedRevision : Nat} {intent : LifecycleState}
    (h : r.setHostLifecycle d user hostId expectedRevision intent now = .ok t) :
    r.Statements now single t := by
  have hintent : intent ≠ .retired := by
    rintro rfl
    simp [Registry.setHostLifecycle] at h
  rcases setHostLifecycle_cases h with rfl | ⟨x, -, hx, -, hlive, rfl⟩
  · exact .refl
  have hlive := Store.isRetired_of_find hx hlive
  cases hworks : intent.works with
  | false =>
    refine beside (.single (.withdraw (lifecycleWrite intent) hlive fun h => ⟨?_, fun h =>
      absurd h hintent⟩)) rfl
    simp [lifecycleWrite, hworks]
  | true =>
    refine beside (.single (.sustain (r.updateHost hostId (lifecycleWrite intent)).profiles
      (lifecycleWrite intent).host_id hlive (fun h => ⟨⟨rfl, rfl, rfl, rfl, rfl, fun _ => hworks,
        by simp [lifecycleWrite, hworks]⟩, fun h => absurd h hintent⟩) fun id => ?_)) rfl
    -- the write leaves the columns the trigger watches as they are
    have hmoves : ∀ h, (lifecycleWrite intent).moves h = false := by
      intro h
      cases h <;> simp [HostWrite.moves, lifecycleWrite, Host.authority]
    simp only [inventorySession, updateHost, Table.find_update, Option.bind_map]
    congr 1
    funext p
    simp only [Function.comp_apply, HostWrite.settled, hmoves]
    split <;> rfl

theorem retireHost {expectedRevision : Nat}
    (h : r.retireHost d user hostId expectedRevision now = .ok t) : r.Statements now single t := by
  obtain ⟨x, hx, ⟨-, rfl⟩ | ⟨hlive, hover, -, rfl⟩⟩ := retireHost_cases h
  · exact .refl
  · exact beside (.head (.retire (Store.isRetired_of_find hx hlive) hover)
      (.single (revokeCredentials _ hostId (fun _ => true) now))) rfl

theorem revokeCredential {generation : Nat}
    (h : r.revokeCredential d user hostId generation now = .ok t) : r.Statements now single t := by
  obtain ⟨x, -, hx, rfl⟩ := revokeCredential_cases h
  have hkeys : r.Statements now single _ :=
    .head (revokeCredentials r hostId (·.generation == generation) now)
    (revokeOpenRotations _ hostId (some user) .rotationRevoked now)
  split
  · exact beside hkeys rfl
  next hlive =>
  exact beside (hkeys.tail (.withdraw quarantine (Store.isRetired_of_find hx hlive)
    fun h => ⟨rfl, fun h => by cases h⟩)) rfl

theorem requestRotation {isSystemAdmin : Bool} {expected : Nat} {key : String}
    {receipt : Store.RotationRequestReceipt}
    (h : r.store.requestRotation isSystemAdmin user hostId expected key operationId now
      = .ok (receipt, store)) : r.Statements now single { r with store } := by
  rcases Store.requestRotation_cases h with
    rfl | ⟨x, y, rotations, e, hx, -, hnone, rfl, hphase, hphased, hnext, hins, rfl⟩
  · exact .refl
  have hclose : Statement now single r
      { r with store := { r.store with
          rotations := (r.store.revokeExpiredRotations y.hostId user now).rotations } } := by
    refine .keys (.close fun z hz => ?_)
    simp only [Store.isExpired, Bool.and_eq_true, beq_iff_eq] at hz
    exact .inl hz.1.2
  refine beside (.head hclose (.single (.keys (.request (mem_ids_of_find hx) hphase hphased
    (fun z hz hhost => hnone z ⟨hz, hhost⟩) (fun c hc hhost => ?_) hins)))) rfl
  exact hnext ▸ Store.generation_lt_nextGeneration ⟨hc, hhost⟩

theorem exchangeRotation {next : Secret} {credentialId : CredentialId}
    {receipt : Store.RotationExchangeReceipt}
    (h : r.store.exchangeRotation H auth operationId next credentialId now = .ok (receipt, store)) :
    r.Statements now single { r with store } := by
  obtain ⟨x, hx, -, rfl | hnew⟩ := Store.exchangeRotation_cases h
  · exact .refl
  obtain ⟨y, credentials, -, -, hcred, -, hphase, rfl⟩ := Store.exchangeNew_cases hnew
  obtain ⟨hfree, hins⟩ := Store.insertCredential_some hcred
  refine beside (.head (.keys (.exchange (H.secret next) now (now + rotationOverlapMillis) hx hphase
    rfl rfl (fun c' hc' => (hfree c' hc').1) hins)) (.single (.keys (.age (p := x.isOld)
      (f := fun c => { c with overlapExpiresAt := some (now + rotationOverlapMillis) })
      (fun _ => rfl) fun _ _ => ⟨⟨rfl, rfl, rfl, rfl, rfl⟩, fun hrevoked => hrevoked⟩)))) rfl

theorem fenced_acknowledge (hosts : List HostId) (rotations : Table Rotation.id)
    {credentials : Table Credential.id} (auth : AuthenticatedHost) (now : Millis)
    (hcurrent : ∃ c ∈ credentials, c.hostId = auth.hostId ∧ c.generation = auth.generation) :
    KeyRing.Fenced ⟨hosts, (credentials.update
      (fun c => c.hostId == auth.hostId && c.generation == auth.generation && c.revokedAt.isNone)
      (fun c => { c with acknowledgedAt := some now }) fun _ => rfl).update
      (fun c => c.hostId == auth.hostId && decide (c.generation < auth.generation)
        && c.revokedAt.isNone)
      (fun c => { c with revokedAt := some now }) fun _ => rfl, rotations⟩ auth.hostId
      auth.generation := by
  constructor
  · rw [Table.forall_mem_update]
    intro c _
    split
    · exact fun _ _ => rfl
    · next hp =>
      intro hhost hlt
      simp only [hhost, hlt, beq_self_eq_true, decide_true, Bool.true_and,
        Option.isNone_iff_eq_none] at hp
      exact Option.isSome_iff_ne_none.mpr hp
  · obtain ⟨c, hc, hhost, hgen⟩ := hcurrent
    simp only [Table.mem_update]
    refine ⟨_, ⟨_, ⟨c, hc, rfl⟩, rfl⟩, ?_⟩
    split_ifs <;> exact ⟨hhost, hgen⟩

theorem acknowledgeRotation {receipt : Store.RotationAckReceipt}
    {profiles : Table HostProfile.hostId}
    (h : r.store.acknowledgeRotation auth operationId now = .ok (receipt, store))
    (hprofiles : ∀ id, inventorySession { r with profiles } id = r.inventorySession id) :
    r.Statements now single { r with store, profiles } := by
  have hlive : r.store.isRetired auth.hostId = false := by
    obtain ⟨⟨⟩, hauth, -⟩ := bind_eq_ok h
    exact Store.isRetired_of_authenticated hauth
  have hsustain : ∀ {f : Host → Host} (hf : ∀ h, (f h).id = h.id), (∀ h : Host, h.Sustains (f h) ∧
      ((f h).lifecycleState = .retired → h.lifecycleState = .retired)) → ∀ credentials rotations,
      Statement now single { r with store := { r.store with credentials, rotations } }
        { r with
          store := { r.store with
            credentials, rotations, hosts := r.store.hosts.update (·.id == auth.hostId) f hf }
          profiles } :=
    fun hf hrow credentials rotations => .sustain profiles hf hlive hrow hprofiles
  obtain ⟨x, hx, -, hhost, hnext, -, -, ⟨-, rfl⟩ | ⟨hphase, hcurrent, -, rfl⟩⟩ :=
    Store.acknowledgeRotation_cases h
  · have hsame : r.store.hosts.update (·.id == auth.hostId) (fun h => h) (fun _ => rfl)
        = r.store.hosts := Table.eq_of_rows (by simp [Table.update])
    have hstatement := hsustain (f := fun h => h) (fun _ => rfl)
      (fun h => ⟨.refl h, fun h => h⟩) r.store.credentials r.store.rotations
    rw [hsame] at hstatement
    exact .single hstatement
  have hfenced := fenced_acknowledge (r.store.hosts.rows.map (·.id)) r.store.rotations auth now
    hcurrent
  refine beside (.head (.keys (.age (p := fun c => c.hostId == auth.hostId
      && c.generation == auth.generation && c.revokedAt.isNone)
      (f := fun c => { c with acknowledgedAt := some now }) (fun _ => rfl)
      fun _ _ => ⟨⟨rfl, rfl, rfl, rfl, rfl⟩, fun h => h⟩))
    (.head (.keys (.age (p := fun c => c.hostId == auth.hostId
        && decide (c.generation < auth.generation) && c.revokedAt.isNone)
        (f := fun c => { c with revokedAt := some now }) (fun _ => rfl)
        fun _ _ => ⟨⟨rfl, rfl, rfl, rfl, rfl⟩, fun _ => rfl⟩))
      (.head (.keys (.acknowledge hx hphase ?_))
        (.single (hsustain (f := fun h => { h with
            currentCredentialGeneration := some auth.generation }) (fun _ => rfl)
          (fun h => ⟨⟨rfl, rfl, rfl, rfl, rfl, fun h => h, rfl⟩, fun h => h⟩) _ _))))) rfl
  rw [hhost, hnext]
  exact hfenced

/-! ## Sessions -/

theorem advance_cases (h : r.store.advanceRotatedSessionCredential o auth now = .ok store) :
    ∃ p event, (∀ x, p x → x.hostId = auth.hostId) ∧
      store = { r.store with
        sessions := r.store.sessions.update p (fun x => { x with
          currentCredentialId := auth.credentialId
          currentCredentialGeneration := auth.generation }) fun _ => rfl }.auditAndEvent event := by
  unfold Store.advanceRotatedSessionCredential at h
  dsimp only at h
  split at h
  · cases h
  split at h
  · cases h
  cases h
  refine ⟨_, _, fun x hx => ?_, rfl⟩
  simp only [Bool.and_eq_true, beq_iff_eq] at hx
  exact hx.1.1.1.1

theorem advance (hlive : r.store.isRetired auth.hostId = false)
    (h : r.store.advanceRotatedSessionCredential o auth now = .ok store) :
    r.Statements now single { r with store } := by
  obtain ⟨p, -, hp, rfl⟩ := advance_cases h
  exact beside (.single (.session (f := fun x => { x with
    currentCredentialId := auth.credentialId, currentCredentialGeneration := auth.generation })
    (fun _ => rfl) hlive (fun x _ hx => hp x hx) fun _ => ⟨rfl, rfl, rfl⟩)) rfl

theorem openSession_some {s : Store} (ho : s.openSession hostId = some o) :
    o ∈ s.sessions ∧ o.hostId = hostId ∧ o.endedAt = none := by
  have := List.find?_some ho
  simp only [Bool.and_eq_true, beq_iff_eq, Option.isNone_iff_eq_none] at this
  exact ⟨List.mem_of_find?_eq_some ho, this⟩

theorem endObservation (hlive : r.store.isRetired hostId = false)
    (hopen : r.store.openSession hostId = some o) :
    Statement now single r (r.endObservation hostId o.sessionId now) := by
  obtain ⟨ho, rfl, -⟩ := openSession_some hopen
  exact .endSession (f := fun o => { o with endedAt := some now })
    (g := fun h => { h with authorityExpiresAt := none }) (fun _ => rfl) (fun _ => rfl) hlive ho
    (fun _ => ⟨rfl, Option.some_ne_none now⟩) fun _ => ⟨rfl, fun h => h⟩

theorem conflictSession (hlive : r.store.isRetired hostId = false)
    (hopen : r.store.openSession hostId = some o) :
    r.Statements now single (r.conflictSession hostId o.sessionId now) := by
  obtain ⟨ho, rfl, -⟩ := openSession_some hopen
  refine beside (.single (.endSession
    (f := fun o => { o with state := .conflicted, endedAt := some now })
    (g := fun h => { h with
      authorityExpiresAt := none, integrityState := .quarantined, lifecycleState := .paused })
    (fun _ => rfl) (fun _ => rfl) hlive ho (fun _ => ⟨rfl, Option.some_ne_none now⟩)
    fun _ => ⟨rfl, fun h => by cases h⟩)) ?_
  simp only [view, identity, Registry.conflictSession, Store.conflictSession, Store.auditAndEvent,
    Store.quarantineHost, Store.clearHostObservation]
  rw [Table.update_update _ fun _ => by rfl]

theorem establishSession {epoch : Nat} {incarnation : Incarnation} {digest : String}
    {request : HandshakeRequest} (hlive : r.store.isRetired auth.hostId = false)
    (hnone : single → ∀ o ∈ r.store.sessions, o.hostId = auth.hostId → o.endedAt ≠ none)
    (h : r.establishSession auth epoch incarnation digest request now = .ok t) :
    r.Statements now single t := by
  obtain ⟨store, -, hstore, rfl⟩ := establishSession_cases h
  unfold Store.establishSession at hstore
  split at hstore
  · cases hstore
  next sessions hins =>
  cases hstore
  have hassigned := Store.isRetired_update (p := (·.id == auth.hostId))
    (assignment incarnation request).host_id (fun _ hretired => hretired) hlive
  refine beside (.head (.withdraw (assignment incarnation request) hlive
    fun _ => ⟨rfl, fun hretired => hretired⟩)
    (.head (.openSession (o := Store.observing auth epoch incarnation digest request now)
      hassigned hins hnone) (.single (.work (t := { r.updateHost auth.hostId
      (assignment incarnation request) with
        store := ({ r.store with sessions }.assignSession auth.hostId incarnation
          request).settleFlushed auth.hostId epoch request now }) auth.hostId hassigned
            ?_ ?_)))) rfl
  · have hframe := IdentityFrame.settleFlushed ({ r.store with sessions }.assignSession
      auth.hostId incarnation request) auth.hostId epoch request now
    simp only [identity, hframe.hosts, hframe.credentials, hframe.rotations, hframe.sessions]
    rfl
  · unfold Store.settleFlushed
    split
    · exact .of_writes (.settleUnreceived ..)
    · exact .refl _

theorem enters {digest : String} {request : HandshakeRequest}
    (hlive : r.store.isRetired auth.hostId = false) (h : Enters r auth digest request now t) :
    r.Statements now (OneOpen r.store.sessions) t := by
  cases h with
  | same => exact .refl
  | replayed hreplay =>
    obtain ⟨store, hstore, rfl⟩ := replaySession_cases hreplay
    unfold Store.replaySession at hstore
    split at hstore
    · cases hstore
    split at hstore
    · exact advance hlive hstore
    · cases hstore
      exact .refl
  | conflicted hopen => exact conflictSession hlive hopen
  | opened _ hopen hestablish =>
    refine establishSession hlive (fun _ o ho hhost hnone => ?_) hestablish
    have := List.find?_eq_none.mp hopen o ho
    simp [hhost, hnone] at this
  | @replaced _ _ o _ _ hopen hestablish =>
    obtain ⟨ho, hhost, hnone⟩ := openSession_some hopen
    refine .head (endObservation hlive hopen) (establishSession
      (Store.isRetired_update _ (fun _ h => h) hlive) (fun hone => ?_) hestablish)
    simp only [Registry.endObservation, Store.clearHostObservation, Store.endSession,
      Table.forall_mem_update]
    intro o' ho'
    split
    · exact fun _ => Option.some_ne_none now
    · next hne =>
      intro hhost' hnone'
      exact hne (by simp [hone o' ho' o ho (hhost'.trans hhost.symm) hnone' hnone])

theorem handshake (digest : HandshakeRequest → String) (r : Registry) (auth : AuthenticatedHost)
    (request : HandshakeRequest) (now : Millis) :
    r.Statements now (OneOpen r.store.sessions) (r.handshake digest auth request now).1 := by
  cases hauth : r.store.ensureAuthenticatedGeneration auth now with
  | error e =>
    rw [Registry.handshake, hauth]
  | ok =>
    exact enters (Store.isRetired_of_authenticated hauth)
      (handshake_enters digest r auth request now)

theorem loadCurrentSession (single : Prop) {session : ReportedSession} {x : SessionReceipts}
    (h : r.loadCurrentSession auth session now = .ok (u, o, x)) :
    r.Statements now single u ∧ ∃ y, u.store.hosts.find auth.hostId = some y ∧
      y.lifecycleState ≠ .retired ∧ y.agentSessionId = some session.sessionId ∧
      ∃ o' ∈ u.store.sessions, o'.sessionId = o.sessionId ∧ o'.hostId = auth.hostId ∧
        o'.hostEpoch = y.epoch ∧ o'.endedAt = none := by
  obtain ⟨hauth, hclaim, hmatch, hpresent⟩ := loadCurrentSession_cases h
  obtain ⟨y, hy, hepoch, hlive⟩ := Store.ensureAuthenticatedGeneration_host hauth
  obtain ⟨ho, -, hhost, hopen, hoEpoch, y', hy', hagent⟩ := matchSession_ok hmatch
  cases Option.some.inj (hy.symm.trans hy')
  have hepoch : o.hostEpoch = y.epoch := hoEpoch.trans (hclaim.trans hepoch.symm)
  rcases presentCredential_cases hpresent with rfl | ⟨store, hstore, rfl⟩
  · exact ⟨.refl, y, hy, hlive, hagent, o, ho, rfl, hhost, hepoch, hopen⟩
  · refine ⟨advance (Store.isRetired_of_find hy hlive) hstore, ?_⟩
    obtain ⟨p, -, -, rfl⟩ := advance_cases hstore
    refine ⟨y, hy, hlive, hagent, _, List.mem_map.mpr ⟨o, ho, rfl⟩, ?_⟩
    split <;> exact ⟨rfl, hhost, hepoch, hopen⟩

theorem renewSession (hlive : r.store.isRetired hostId = false) (session : SessionId)
    (state : ObservationState) (now : Millis) :
    Statement now single r (r.renewSession hostId session state now) := by
  refine .session (f := fun o => { o with state, leaseExpiresAt := now + observationLeaseMillis })
    (fun _ => rfl) hlive (fun o _ ho => ?_) fun _ => ⟨rfl, rfl, rfl⟩
  simp only [Bool.and_eq_true, beq_iff_eq] at ho
  exact ho.2

theorem submitInventory {request : InventoryRequest} {freshDomain : String → DomainId}
    {freshBackend : String → BackendId} {response : InventoryResponse}
    (h : r.submitInventory auth request freshDomain freshBackend now = .ok (response, t)) :
    r.Statements now single t := by
  obtain ⟨u, o, x, hload, hcases⟩ := submitInventory_cases h
  obtain ⟨hloaded, y, hy, hlive, hagent, -⟩ := loadCurrentSession single hload
  rcases hcases with rfl | haccept
  · exact hloaded
  obtain ⟨fleet, -, snapshots, -, -, hfleet, rfl⟩ :=
    acceptInventory_cases haccept
  obtain ⟨domains, hstore⟩ := FleetStore.reconcileInventory_store hfleet
  have hview : view { u with toFleetStore := fleet, snapshots } = u.view := by
    simp [view, identity, hstore]
  have hy' : fleet.store.hosts.find auth.hostId = some y := by
    rw [hstore]
    exact hy
  exact beside ((((hloaded.tail (.beside hview)).tail (.inventory hy' hlive hagent)).tail
    (renewSession (Store.isRetired_update _ (fun _ h => h) (Store.isRetired_of_find hy' hlive))
      o.sessionId .reconciling now))) rfl

theorem heartbeat {request : HeartbeatRequest} {response : HeartbeatResponse}
    (h : r.heartbeat auth request now = .ok (response, t)) : r.Statements now single t := by
  obtain ⟨u, o, x, hload, hcases⟩ := heartbeat_cases h
  obtain ⟨hloaded, y, hy, hlive, -, o', ho', hid, hhost, hepoch, hopen⟩ :=
    loadCurrentSession single hload
  rcases hcases with rfl | rfl
  · exact hloaded
  have hrenewed := hloaded.tail (renewSession (Store.isRetired_of_find hy hlive) o.sessionId
    (u.heartbeatState o) now)
  obtain ⟨o'', ho'', hid', hhost', hepoch', hopen'⟩ : ∃ o'' ∈ (u.renewSession auth.hostId
      o.sessionId (u.heartbeatState o) now).store.sessions, o''.sessionId = o.sessionId ∧
      o''.hostId = auth.hostId ∧ o''.hostEpoch = y.epoch ∧ o''.endedAt = none := by
    refine ⟨_, List.mem_map.mpr ⟨o', ho', rfl⟩, ?_⟩
    split <;> exact ⟨hid, hhost, hepoch, hopen⟩
  simp only [acceptHeartbeat]
  rw [← hid', ← hhost']
  refine (beside hrenewed ?_).tail (.grantAuthority _ (x := y) ?_ hlive hepoch'.symm ?_ hopen')
  · rw [hid', hhost']
    rfl
  · rw [hhost']
    exact hy
  · rw [hid', hhost']
    exact ho''

theorem pollCommands {session : SessionId} {readAt : Millis} {commands : List AgentCommandEnvelope}
    (h : r.store.pollCommands auth session readAt = .ok (commands, store)) :
    r.Statements now single { r with store } := by
  have hwrites := Writes.pollCommands h
  refine .single (.work auth.hostId ?_ (identity_of_frame (.of_writes hwrites))
    (.of_writes hwrites))
  obtain ⟨⟨⟩, hauth, -⟩ := bind_eq_ok h
  exact Store.isRetired_of_authenticated hauth

end Statements

theorem inventorySession_of_revision {r : Registry} {p : HostProfile → Bool} (id : HostId) :
    inventorySession { r with
      profiles := r.profiles.update p (fun p => { p with revision := p.revision + 1 }) fun _ => rfl
      } id = r.inventorySession id := by
  simp only [inventorySession, Table.find_update]
  cases r.profiles.find id with
  | none => rfl
  | some x =>
    simp only [Option.map_some]
    split <;> rfl

end Registry

namespace RegistryService

variable {H : Hashing} {digest : HandshakeRequest → String} {s t : RegistryService}
  {a : RegistryCall} {r : Registry}

/-- **Every call is a sequence of statements**, but a write of the rest of the control plane,
which leaves identities alone. -/
theorem statements_of_call (h : s.call H digest a = some r) :
    s.db.Statements s.now (OneOpen s.db.store.sessions) r ∨
      (∃ store, a = .elsewhere store) ∧ r.identity = s.db.identity := by
  cases a with
  | elsewhere store =>
    simp only [call] at h
    split at h
    · next hleaves =>
      cases h
      exact .inr ⟨⟨store, rfl⟩, Registry.identity_of_frame (.of_leaves hleaves)⟩
    · cases h
  | issueEnrollment d user key scope intendedHostId ttl fresh =>
    obtain ⟨answer, hok⟩ := ok_of_map_toOption h
    exact .inl (.issues (Registry.issueEnrollment_issues hok))
  | revokeEnrollment d user id => exact .inl (.revokeEnrollment (ok_of_toOption h))
  | consumeEnrollment d code fresh =>
    obtain ⟨receipt, hok⟩ := ok_of_map_toOption h
    exact .inl (.consumeEnrollment hok)
  | recoverHost d user hostId expectedRevision key fresh =>
    obtain ⟨answer, hok⟩ := ok_of_map_toOption h
    exact .inl (.issues (Registry.recoverHost_issues hok))
  | approveHost d user request => exact .inl (.approveHost (ok_of_toOption h))
  | setHostGrant d user hostId target x y z => exact .inl (.setHostGrant (ok_of_toOption h))
  | setHostLifecycle d user hostId expectedRevision intent =>
    exact .inl (.setHostLifecycle (ok_of_toOption h))
  | retireHost d user hostId expectedRevision => exact .inl (.retireHost (ok_of_toOption h))
  | revokeCredential d user hostId generation =>
    exact .inl (.revokeCredential (ok_of_toOption h))
  | requestRotation d user hostId expected key operationId =>
    obtain ⟨receipt, hok⟩ := ok_of_map_toOption h
    obtain ⟨⟨_, store⟩, hstore, hok⟩ := bind_eq_ok hok
    cases hok
    exact .inl (.requestRotation hstore)
  | exchangeRotation auth operationId nextSecret credentialId =>
    obtain ⟨receipt, hok⟩ := ok_of_map_toOption h
    obtain ⟨⟨_, store⟩, hstore, hok⟩ := bind_eq_ok hok
    cases hok
    exact .inl (.exchangeRotation hstore)
  | acknowledgeRotation auth operationId =>
    obtain ⟨receipt, hok⟩ := ok_of_map_toOption h
    obtain ⟨⟨_, store⟩, hstore, hok⟩ := bind_eq_ok hok
    dsimp only at hok
    split at hok <;> cases hok
    · exact .inl (.acknowledgeRotation hstore fun _ => rfl)
    · exact .inl (.acknowledgeRotation hstore Registry.inventorySession_of_revision)
  | handshake auth request =>
    cases h
    exact .inl (.handshake ..)
  | submitInventory auth request freshDomain freshBackend =>
    obtain ⟨response, hok⟩ := ok_of_map_toOption h
    exact .inl (.submitInventory hok)
  | heartbeat auth request =>
    obtain ⟨response, hok⟩ := ok_of_map_toOption h
    exact .inl (.heartbeat hok)
  | pollCommands auth session readAt =>
    simp only [call] at h
    split at h
    · obtain ⟨commands, hok⟩ := ok_of_map_toOption h
      obtain ⟨⟨_, store⟩, hstore, hok⟩ := bind_eq_ok hok
      cases hok
      exact .inl (.pollCommands hstore)
    · cases h
  | advance millis =>
    cases h
    exact .inl .refl

theorem rel_of_step {R : Registry → Registry → Prop}
    (hsame : ∀ r t, t.identity = r.identity → R r t)
    (htrans : ∀ r t u, R r t → R t u → R r u)
    (hone : ∀ r t, Registry.Statement s.now (OneOpen s.db.store.sessions) r t → R r t)
    (h : s.step H digest a = some t) : R s.db t.db := by
  obtain ⟨db, hdb, rfl⟩ := Option.map_eq_some_iff.mp h
  rcases statements_of_call hdb with hstatements | ⟨-, hidentity⟩
  · exact Registry.Statements.rel (fun r => hsame r r rfl) htrans hone hstatements
  · exact hsame _ _ hidentity

end RegistryService

end Gridops.Fleet
