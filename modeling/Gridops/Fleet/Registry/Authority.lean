import Gridops.Fleet.Registry.Statements

/-!
# Work authority

A host's authority is the promise that its current session may run work. It rests on the
host's row, on the inventory of that session and on the session being open; every call
that takes one of these away also withdraws the authority. `Guards` says so for one call,
and that an authority is only ever written for 90 seconds ahead.
-/

namespace Gridops.Fleet

open Gridops.Lib

/-! ## What an authority rests on -/

namespace Registry

/-- The host has passed every check for work in its current session. -/
structure Vetted (r : Registry) (h : Host) : Prop where
  approved : h.enrollmentState = .approved
  works : h.lifecycleState.works
  verified : h.integrityState = .verified
  session : ∃ o ∈ r.store.sessions, h.agentSessionId = some o.sessionId ∧
    r.inventorySession h.id = some o.sessionId ∧ o.hostId = h.id ∧ o.endedAt = none ∧
    o.hostEpoch = h.epoch

def KeepsOpen (r t : Registry) (id : HostId) : Prop :=
  ∀ o ∈ r.store.sessions, o.hostId = id → o.endedAt = none → ∃ o' ∈ t.store.sessions,
    o'.sessionId = o.sessionId ∧ o'.hostId = o.hostId ∧ o'.hostEpoch = o.hostEpoch ∧
      o'.endedAt = none

/-- An authority after a call at `now` was there before and rests on the same, or was written for at
most 90 seconds. -/
def Guards (r t : Registry) (now : Millis) : Prop :=
  ∀ h' ∈ t.store.hosts, ∀ v, h'.authorityExpiresAt = some v →
    (∃ h ∈ r.store.hosts, h.id = h'.id ∧ h.authorityExpiresAt = some v ∧
      (r.Vetted h → t.Vetted h')) ∨
    (v ≤ now + workAuthorityMillis ∧ t.Vetted h')

variable {r t u : Registry} {now : Millis} {id : HostId} {h h' : Host}

theorem KeepsOpen.of_eq (hsessions : t.store.sessions = r.store.sessions) : r.KeepsOpen t id :=
  fun o ho _ hopen => ⟨o, hsessions ▸ ho, rfl, rfl, rfl, hopen⟩

theorem KeepsOpen.of_update {p : ObservationSession → Bool}
    {f : ObservationSession → ObservationSession} (hf : ∀ o, (f o).sessionId = o.sessionId)
    (hsessions : t.store.sessions = r.store.sessions.update p f hf)
    (h : ∀ o ∈ r.store.sessions, p o → o.hostId = id → (f o).hostId = o.hostId ∧
      (f o).hostEpoch = o.hostEpoch ∧ (f o).endedAt = o.endedAt) : r.KeepsOpen t id := by
  intro o ho hhost hopen
  refine ⟨_, hsessions ▸ Table.mem_update.mpr ⟨o, ho, rfl⟩, ?_⟩
  split
  · next hp =>
    obtain ⟨hh, hepoch, hended⟩ := h o ho hp hhost
    exact ⟨hf o, hh, hepoch, hended.trans hopen⟩
  · exact ⟨rfl, rfl, rfl, hopen⟩

theorem Vetted.keep (hv : r.Vetted h) (hrow : h.Sustains h')
    (hinventory : t.inventorySession h.id = r.inventorySession h.id)
    (hopen : r.KeepsOpen t h.id) : t.Vetted h' := by
  obtain ⟨o, ho, hagent, hsent, hhost, hended, hepoch⟩ := hv.session
  obtain ⟨o', ho', hid, hhost', hepoch', hended'⟩ := hopen o ho hhost hended
  refine ⟨hrow.enrollmentState.trans hv.approved, hrow.works hv.works,
    hrow.integrityState.trans hv.verified, o', ho', ?_, ?_, ?_, hended', ?_⟩
  · rw [hrow.agentSessionId, hagent, hid]
  · rw [hrow.id, hinventory, hsent, hid]
  · rw [hhost', hhost, hrow.id]
  · rw [hepoch', hepoch, hrow.epoch]

theorem Guards.refl (r : Registry) (now : Millis) : r.Guards r now :=
  fun h hh _ hv => .inl ⟨h, hh, rfl, hv, fun hvetted => hvetted⟩

theorem Guards.trans (h₁ : r.Guards t now) (h₂ : t.Guards u now) : r.Guards u now := by
  intro h'' hh'' v hv
  rcases h₂ h'' hh'' v hv with ⟨h', hh', hid', hv', hkeep'⟩ | hnew
  · rcases h₁ h' hh' v hv' with ⟨h, hh, hid, hv, hkeep⟩ | ⟨hle, hvetted⟩
    · exact .inl ⟨h, hh, hid.trans hid', hv, fun hvetted => hkeep' (hkeep hvetted)⟩
    · exact .inr ⟨hle, hkeep' hvetted⟩
  · exact .inr hnew

theorem Guards.of_sustains
    (hrows : ∀ h' ∈ t.store.hosts, h'.authorityExpiresAt.isSome →
      ∃ h ∈ r.store.hosts, h.Sustains h' ∧ (r.Vetted h →
        t.inventorySession h.id = r.inventorySession h.id ∧ r.KeepsOpen t h.id)) :
    r.Guards t now := by
  intro h' hh' v hv
  obtain ⟨h, hh, hsustains, hkeep⟩ := hrows h' hh' (by simp [hv])
  exact .inl ⟨h, hh, hsustains.id.symm, hsustains.authorityExpiresAt.symm.trans hv,
    fun hvetted => hvetted.keep hsustains (hkeep hvetted).1 (hkeep hvetted).2⟩

theorem inventorySession_of_eq (h : t.profiles = r.profiles) :
    t.inventorySession id = r.inventorySession id := by
  simp [inventorySession, h]

theorem Guards.of_open (hhosts : t.store.hosts = r.store.hosts)
    (hprofiles : t.profiles = r.profiles) (hopen : ∀ id, r.KeepsOpen t id) : r.Guards t now :=
  .of_sustains fun h hh _ => ⟨h, hhosts ▸ hh, .refl h, fun _ =>
    ⟨inventorySession_of_eq hprofiles, hopen h.id⟩⟩

theorem Guards.of_eq (hhosts : t.store.hosts = r.store.hosts) (hprofiles : t.profiles = r.profiles)
    (hsessions : t.store.sessions = r.store.sessions) : r.Guards t now :=
  .of_open hhosts hprofiles fun _ => .of_eq hsessions

theorem inventorySession_updateHost_ne (r : Registry) (w : HostWrite) {other : HostId}
    (hne : other ≠ id) : (r.updateHost id w).inventorySession other = r.inventorySession other := by
  simp only [inventorySession, updateHost, Table.find_update]
  cases hfind : r.profiles.find other with
  | none => rfl
  | some p => simp [Table.key_of_find hfind, hne]

theorem Guards.withdraw (r : Registry) (id : HostId) (w : HostWrite) (now : Millis)
    (hnone : ∀ h, (w.host h).authorityExpiresAt = none) : r.Guards (r.updateHost id w) now := by
  refine .of_sustains fun h' hh' hsome => ?_
  simp only [updateHost, Table.mem_update] at hh'
  obtain ⟨h, hh, rfl⟩ := hh'
  split at hsome
  · rw [hnone] at hsome
    cases hsome
  · next hne =>
    rw [if_neg hne]
    exact ⟨h, hh, .refl h, fun _ =>
      ⟨r.inventorySession_updateHost_ne w (by simpa using hne), .of_eq rfl⟩⟩

theorem find_clearedProfiles (r : Registry) (id k : HostId) :
    (r.clearedProfiles id).find k = (r.profiles.find k).map fun p =>
      if p.hostId == id then { p.invalidated with inventoryDigest := none } else p :=
  Table.find_update

theorem Guards.end_session {o : ObservationSession} {f : ObservationSession → ObservationSession}
    (hf : ∀ o, (f o).sessionId = o.sessionId) (ho : o ∈ r.store.sessions) (hhost : o.hostId = id)
    (hsessions : t.store.sessions = r.store.sessions.update (·.sessionId == o.sessionId) f hf)
    (hprofiles : t.profiles = r.clearedProfiles id)
    (hhosts : ∀ h' ∈ t.store.hosts, h'.authorityExpiresAt.isSome →
      h'.id ≠ id ∧ h' ∈ r.store.hosts) : r.Guards t now := by
  refine .of_sustains fun h hh hsome => ?_
  obtain ⟨hne, hh⟩ := hhosts h hh hsome
  refine ⟨h, hh, .refl h, fun _ => ⟨?_, .of_update hf hsessions fun o' ho' hsame hhost' => ?_⟩⟩
  · simp only [inventorySession, hprofiles, find_clearedProfiles]
    cases hfind : r.profiles.find h.id with
    | none => rfl
    | some p => simp [Table.key_of_find hfind, hne]
  · have : o' = o := Table.eq_of_key ho' ho (by simpa using hsame)
    exact absurd (hhost'.symm.trans (this ▸ hhost)) hne

theorem granted_row {p : HostProfile} {session : SessionId} (current : Host → Bool) {ready : Bool}
    {v : Millis} :
    let first := if current h && (!ready || mayWork p session h) then
      { h with authorityExpiresAt := if ready then some (now + workAuthorityMillis) else none }
      else h
    let second := if current first && first.authorityExpiresAt.isSome && mayNotWork p session first
      then { first with authorityExpiresAt := none } else first
    second.authorityExpiresAt = some v →
      second = h ∨ current h ∧ mayWork p session h ∧ v = now + workAuthorityMillis ∧
        second = { h with authorityExpiresAt := some v } := by
  intro first second hv
  have hsecond : second = first := by
    simp only [second] at hv ⊢
    split at hv
    · cases hv
    · next hnot => rw [if_neg hnot]
  rw [hsecond] at hv ⊢
  simp only [first] at hv ⊢
  split at hv
  · next hfirst =>
    simp only [Bool.and_eq_true] at hfirst
    cases ready with
    | false => cases hv
    | true =>
      cases hv
      rw [if_pos (by simpa using hfirst)]
      exact .inr ⟨hfirst.1, by simpa using hfirst.2, rfl, rfl⟩
  · next hfirst =>
    rw [if_neg hfirst]
    exact .inl rfl

theorem grantAuthority_guards (ready : Bool) {o : ObservationSession} {x : Host}
    (hx : r.store.hosts.find o.hostId = some x) (hepoch : x.epoch = o.hostEpoch)
    (ho : o ∈ r.store.sessions) (hopen : o.endedAt = none) :
    r.Guards (r.grantAuthority o.hostId o.sessionId ready now) now := by
  unfold grantAuthority
  split
  · exact .refl _ _
  next p hp =>
  intro h' hh' v hv
  simp only [Table.mem_update] at hh'
  obtain ⟨_, ⟨h, hh, rfl⟩, rfl⟩ := hh'
  rcases granted_row (fun h => h.id == o.hostId && h.agentSessionId == some o.sessionId) hv with
    hsame | ⟨hcurrent, hwork, rfl, hrow⟩
  · rw [hsame] at hv ⊢
    exact .inl ⟨h, hh, rfl, hv, fun hvetted => hvetted.keep (.refl h) rfl (.of_eq rfl)⟩
  · rw [hrow]
    simp only [Bool.and_eq_true, beq_iff_eq] at hcurrent
    obtain ⟨hid, hagent⟩ := hcurrent
    simp only [mayWork, Bool.and_eq_true, beq_iff_eq] at hwork
    obtain ⟨⟨⟨⟨happroved, hworks⟩, hverified⟩, hcomplete⟩, hsent⟩ := hwork
    have hsame : h = x := Table.eq_of_key hh (Table.mem_of_find hx)
      (hid.trans (Table.key_of_find hx).symm)
    refine .inr ⟨le_rfl, happroved, hworks, hverified, o, ho, hagent, ?_, hid.symm, hopen,
      hsame ▸ hepoch.symm⟩
    simp [inventorySession, hid, hp, hcomplete, hsent]

/-- A host that is approved was pending, so it had no authority to lose. -/
theorem approval_guards {x : Host} (hx : r.store.hosts.find id = some x)
    (hpending : x.enrollmentState = .pending) : r.Guards (r.updateHost id approval) now := by
  intro h' hh' v hv
  simp only [updateHost, Table.mem_update] at hh'
  obtain ⟨h, hh, rfl⟩ := hh'
  refine .inl ⟨h, hh, ?_, ?_, fun hvetted => ?_⟩
  · split <;> rfl
  · split at hv <;> exact hv
  · split
    · next hid =>
      have hsame : h = x := Table.eq_of_key hh (Table.mem_of_find hx)
        ((beq_iff_eq.mp hid).trans (Table.key_of_find hx).symm)
      rw [hsame] at hvetted
      exact absurd (hpending.symm.trans hvetted.approved) (by decide)
    · next hne =>
      exact hvetted.keep (.refl h) (r.inventorySession_updateHost_ne approval (by simpa using hne))
        (.of_eq rfl)

/-- An inventory is of the session the host is given to, so what it completes is what an
authority rests on. -/
theorem inventory_guards {auth : AuthenticatedHost} {request : InventoryRequest} {revision : Nat}
    {x : Host} (hx : r.store.hosts.find auth.hostId = some x)
    (hagent : x.agentSessionId = some request.session.sessionId) :
    r.Guards (r.updateHost auth.hostId (inventoryWrite auth request revision now)) now := by
  refine .of_sustains fun h' hh' _ => ?_
  simp only [updateHost, Table.mem_update] at hh'
  obtain ⟨h, hh, rfl⟩ := hh'
  refine ⟨h, hh, ?_, fun hvetted => ⟨?_, .of_eq rfl⟩⟩
  · split <;> exact .refl h
  by_cases hid : h.id = auth.hostId
  · obtain ⟨o', -, hagent', hsent, -⟩ := hvetted.session
    have hsame : h = x := Table.eq_of_key hh (Table.mem_of_find hx)
      (hid.trans (Table.key_of_find hx).symm)
    rw [hsame, hagent] at hagent'
    obtain ⟨p, hp, -⟩ := Option.bind_eq_some_iff.mp hsent
    have hmoves : ∀ h, (inventoryWrite auth request revision now).moves h = false := by
      cases h <;> simp [HostWrite.moves, inventoryWrite]
    rw [hid] at hp
    rw [hsent, ← hagent', hid]
    simp only [inventorySession, updateHost, Table.find_update, hp, Option.map_some,
      Table.key_of_find hp, beq_self_eq_true, HostWrite.settled, hmoves]
    rfl
  · exact r.inventorySession_updateHost_ne _ hid

theorem Guards.of_identity (h : t.identity = r.identity) : r.Guards t now := by
  simp only [identity, Prod.mk.injEq] at h
  exact .of_eq h.1 h.2.1 h.2.2.1

theorem Statement.guards {single : Prop} (h : Statement now single r t) : r.Guards t now := by
  cases h with
  | beside h => exact .of_identity (congrArg Prod.fst h)
  | work _ _ h => exact .of_identity h
  | codes | grants | keys => exact .of_eq rfl rfl rfl
  | enroll profiles hhosts _ _ _ hprofiles =>
    refine .of_sustains fun h' hh' hsome => ?_
    rcases (Table.mem_insert? hhosts).mp hh' with hh | rfl
    · refine ⟨h', hh, .refl h', fun _ => ⟨?_, .of_eq rfl⟩⟩
      simp only [inventorySession]
      rw [hprofiles]
      intro heq
      exact (Table.insert?_some.mp hhosts).1 (List.mem_map.mpr ⟨h', hh, heq⟩)
    · cases hsome
  | sustain profiles hf _ hrow hprofiles =>
    refine .of_sustains fun h' hh' _ => ?_
    simp only [Table.mem_update] at hh'
    obtain ⟨h, hh, rfl⟩ := hh'
    refine ⟨h, hh, ?_, fun _ => ⟨hprofiles h.id, .of_eq rfl⟩⟩
    split
    · exact (hrow h).1
    · exact .refl h
  | withdraw w _ hrow => exact .withdraw r _ w now fun h => (hrow h).1
  | retire => exact .withdraw r _ retirement now fun _ => rfl
  | approve hx _ hpending => exact approval_guards hx hpending
  | inventory hx _ hagent => exact inventory_guards hx hagent
  | session hf _ _ hrow =>
    exact .of_open rfl rfl fun _ => .of_update hf rfl fun o _ _ _ => hrow o
  | endSession hf hg _ ho _ hhost =>
    refine .end_session hf ho rfl rfl rfl fun h' hh' hsome => ?_
    simp only [Table.mem_update] at hh'
    obtain ⟨h, hh, rfl⟩ := hh'
    split at hsome
    · rw [(hhost h).1] at hsome
      cases hsome
    · next hne =>
      rw [if_neg hne]
      exact ⟨by simpa using hne, hh⟩
  | openSession _ hins =>
    exact .of_open rfl rfl fun id o ho _ hopen =>
      ⟨o, (Table.mem_insert? hins).mpr (.inl ho), rfl, rfl, rfl, hopen⟩
  | grantAuthority ready hx _ hepoch ho hopen =>
    exact grantAuthority_guards ready hx hepoch ho hopen

end Registry

/-! ## One open session -/

namespace OneOpen

variable {sessions ts : Table ObservationSession.sessionId}

theorem update (h : OneOpen sessions) {p : ObservationSession → Bool}
    {f : ObservationSession → ObservationSession} (hf : ∀ o, (f o).sessionId = o.sessionId)
    (hrow : ∀ o, (f o).hostId = o.hostId ∧ ((f o).endedAt = none → o.endedAt = none)) :
    OneOpen (sessions.update p f hf) := by
  have hrow' : ∀ o, (if p o then f o else o).hostId = o.hostId ∧
      ((if p o then f o else o).endedAt = none → o.endedAt = none) := by
    intro o
    split
    · exact hrow o
    · exact ⟨rfl, fun hopen => hopen⟩
  simp only [OneOpen, Table.forall_mem_update]
  intro o ho o' ho' hhost hopen hopen'
  rw [(hrow' o).1, (hrow' o').1] at hhost
  rw [h o ho o' ho' hhost ((hrow' o).2 hopen) ((hrow' o').2 hopen')]

theorem insert (h : OneOpen sessions) {new : ObservationSession}
    (hins : sessions.insert? new = some ts)
    (hnone : ∀ o ∈ sessions, o.hostId = new.hostId → o.endedAt ≠ none) : OneOpen ts := by
  intro o ho o' ho' hhost hopen hopen'
  rcases (Table.mem_insert? hins).mp ho with ho | rfl <;>
    rcases (Table.mem_insert? hins).mp ho' with ho' | rfl
  · exact h o ho o' ho' hhost hopen hopen'
  · exact absurd hopen (hnone o ho hhost)
  · exact absurd hopen' (hnone o' ho' hhost.symm)
  · rfl

theorem of_statement {r t : Registry} {now : Millis} {single : Prop}
    (h : Registry.Statement now single r t) (hsingle : single) (hone : OneOpen r.store.sessions) :
    OneOpen t.store.sessions := by
  cases h with
  | beside h => exact (congrArg (·.1.2.2.1) h : t.store.sessions = r.store.sessions) ▸ hone
  | work _ _ h => exact (congrArg (·.2.2.1) h : t.store.sessions = r.store.sessions) ▸ hone
  | codes | grants | keys | enroll | sustain | withdraw | retire | approve | inventory => exact hone
  | session hf _ _ hrow =>
    exact hone.update hf fun o => ⟨(hrow o).1, (hrow o).2.2.symm.trans⟩
  | endSession hf _ _ _ hrow =>
    exact hone.update hf fun o => ⟨(hrow o).1, fun hopen => absurd hopen (hrow o).2⟩
  | openSession _ hins hnone => exact hone.insert hins (hnone hsingle)
  | grantAuthority =>
    simp only [Registry.grantAuthority]
    split <;> exact hone

end OneOpen

namespace RegistryService

variable {H : Hashing} {digest : HandshakeRequest → String} {s : RegistryService}
  {a : RegistryCall} {t : Registry}

/-- Every call keeps or withdraws the authorities there are and writes new ones for 90
seconds. -/
theorem guards_of_step {t : RegistryService} (h : s.step H digest a = some t) :
    s.db.Guards t.db s.now :=
  rel_of_step (R := fun r t => r.Guards t s.now) (fun _ _ => .of_identity)
    (fun _ _ _ => .trans) (fun _ _ => Registry.Statement.guards) h

theorem oneOpen_of_step {t : RegistryService} (h : s.step H digest a = some t)
    (hone : OneOpen s.db.store.sessions) : OneOpen t.db.store.sessions :=
  rel_of_step (R := fun r t => OneOpen r.store.sessions → OneOpen t.store.sessions)
    (fun r t h hr => (congrArg (·.2.2.1) h : t.store.sessions = r.store.sessions) ▸ hr)
    (fun _ _ _ h₁ h₂ hr => h₂ (h₁ hr)) (fun _ _ h => OneOpen.of_statement h hone) h hone

theorem authorized_of_poll {r : Registry} {auth : AuthenticatedHost} {session : SessionId}
    {now : Millis} {commands : List AgentCommandEnvelope}
    (hpoll : r.pollCommands auth session now = .ok (commands, t)) (hsome : commands ≠ []) :
    ∃ h v, r.store.hosts.find auth.hostId = some h ∧ h.agentSessionId = some session ∧
      h.authorityExpiresAt = some v ∧ now < v := by
  obtain ⟨⟨_, store⟩, hstore, hok⟩ := bind_eq_ok hpoll
  cases hok
  rcases Store.pollCommands_cases hstore with ⟨rfl, -⟩ | ⟨c, -, -, -, hauth, -, -⟩
  · exact absurd rfl hsome
  · have hhosts := (IdentityFrame.of_writes (.cancelUndeliverable r.store auth.hostId now)).hosts
    rw [Store.authorized, hhosts, Option.any_eq_true] at hauth
    obtain ⟨h, hh, hauth⟩ := hauth
    simp only [Bool.and_eq_true, beq_iff_eq, Option.any_eq_true, decide_eq_true_eq] at hauth
    obtain ⟨hsession, v, hv, hlt⟩ := hauth
    exact ⟨h, v, hh, hsession, hv, hlt⟩

end RegistryService

end Gridops.Fleet
