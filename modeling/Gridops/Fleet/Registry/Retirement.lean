import Gridops.Fleet.Registry.Statements

/-!
# Retirement is final

`retire_host` takes a host without work out of the fleet. What makes that final is that every later
call either is about another host or is refused: an agent of the host no longer authenticates, an
administrator's call finds the host retired, a recovery code issued before is refused when it is
used, and no admission finds the host.

The rest of the control plane may write any work in between, but makes no placement and moves none
of a retired host.
-/

namespace Gridops.Fleet

open Gridops.Lib

/-! ## The registry's calls and admissions -/

/-- Writes to work by the rest of the control plane: no new placement, none moved on a
retired host, and every command for the host of its placement. -/
def Store.leavesWork (s t : Store) : Bool :=
  (t.placements.rows.all fun y => (s.placements.find y.id).any fun x =>
      x.hostId == y.hostId && (x == y || !s.isRetired x.hostId))
    && t.commands.rows.all fun c => c.placementId.all fun p =>
      (t.placements.find p).any (·.hostId == c.hostId)

/-- The host half of the candidate query, for the target of an intent. -/
def Registry.offers (r : Registry) (target : TargetId) (now : Millis) (c : Candidate) : Bool :=
  r.toFleetStore.offers c
    && ((r.grants.find (c.hostId, target)).any fun g => g.allowSchedule && g.revokedAt.isNone)
    && match r.store.hosts.find c.hostId, r.profiles.find c.hostId with
      | some h, some p =>
        h.enrollmentState == .approved && h.lifecycleState == .active
          && h.integrityState == .verified
          && (h.authorityExpiresAt.any fun e =>
            decide (now < e) && decide (e ≤ now + workAuthorityMillis))
          && (p.lastInventoryAt.any fun received =>
            decide (now - inventoryFreshMillis < received) && decide (received ≤ now))
          && p.inventoryComplete && h.authorityIncarnation.isSome && h.agentSessionId.isSome
          && h.bootId.isSome && p.inventoryEpoch == some h.epoch
          && p.inventorySessionId == h.agentSessionId && p.inventoryBootId == h.bootId
      | _, _ => false

inductive ControlCall
  | registry (a : RegistryCall)
  | recordCommandResult (auth : AuthenticatedHost) (result : AgentCommandResult)
  | repairUnconfirmed (d : Directory) (user : UserId) (hostId : HostId)
      (placements : List PlacementId)
  | admitOperation (target : TargetId) (intent : Intent) (candidates : List Candidate)
      (fresh : Fresh)

namespace RegistryService

variable (H : Hashing) (digest : HandshakeRequest → String)

def control (s : RegistryService) : ControlCall → Option RegistryService
  | .registry (.elsewhere store) =>
    if s.db.store.leavesWork store then s.step H digest (.elsewhere store) else none
  | .registry a => s.step H digest a
  | .recordCommandResult auth result =>
    let store := committed s.db.store (s.db.store.recordCommandResult H auth result s.now)
    some { s with db := { s.db with store } }
  | .repairUnconfirmed d user hostId placements =>
    if (d.ensureSystemAdmin user).isOk then
      let store := (s.db.store.repairUnconfirmed user hostId placements s.now).1
      some { s with db := { s.db with store } }
    else none
  | .admitOperation target intent candidates fresh =>
    (s.db.store.admitOperation H intent fresh s.now none
      (candidates.filter (s.db.offers target s.now))).toOption.map
      fun (_, store) => { s with db := { s.db with store } }

end RegistryService

def controlPlane (H : Hashing) (digest : HandshakeRequest → String) :
    Machine RegistryService ControlCall where
  step := RegistryService.control H digest

/-! ## What a retired host keeps -/

namespace Registry

/-- The host is out of the fleet: retired, without authority, and all its work over. -/
structure Retired (r : Registry) (id : HostId) : Prop where
  host : ∃ h, r.store.hosts.find id = some h ∧ h.lifecycleState = .retired ∧
    h.authorityExpiresAt = none
  ended : ∀ x ∈ r.store.placements, x.hostId = id → x.state.isOver

theorem Retired.isRetired {r : Registry} {id : HostId} (h : r.Retired id) :
    r.store.isRetired id = true := by
  obtain ⟨x, hx, hretired, -⟩ := h.host
  simp [Store.isRetired, hx, hretired]

theorem ne_of_live {s : Store} {hostId id : HostId} (hlive : s.isRetired hostId = false)
    (hid : s.isRetired id = true) : hostId ≠ id := by
  rintro rfl
  exact absurd (hlive.symm.trans hid) Bool.false_ne_true

/-- What the registry keeps about one host is the same in both. -/
structure SameRecord (r t : Registry) (id : HostId) : Prop where
  host : t.store.hosts.find id = r.store.hosts.find id
  grants : t.grants.rows.filter (·.hostId == id) = r.grants.rows.filter (·.hostId == id)
  sessions : t.store.sessions.rows.filter (·.hostId == id)
    = r.store.sessions.rows.filter (·.hostId == id)

namespace SameRecord

variable {r t u : Registry} {id : HostId}

theorem refl (r : Registry) : r.SameRecord r id := ⟨rfl, rfl, rfl⟩

theorem trans (h₁ : r.SameRecord t id) (h₂ : t.SameRecord u id) : r.SameRecord u id :=
  ⟨h₂.host.trans h₁.host, h₂.grants.trans h₁.grants, h₂.sessions.trans h₁.sessions⟩

theorem of_eq (hh : t.store.hosts = r.store.hosts) (hg : t.grants = r.grants)
    (hs : t.store.sessions = r.store.sessions) : r.SameRecord t id :=
  ⟨by rw [hh], by rw [hg], by rw [hs]⟩

end SameRecord

theorem find_retirement {r : Registry} {id : HostId} {x : Host}
    (hx : r.store.hosts.find id = some x) :
    (r.updateHost id retirement).store.hosts.find id = some (retirement.host x) := by
  unfold updateHost
  rw [Table.find_update, hx]
  simp [Table.key_of_find hx]

/-! ## One statement -/

def RetiresNone (hs ts : Table Host.id) : Prop :=
  ∀ id y, ts.find id = some y → y.lifecycleState = .retired →
    ∃ x, hs.find id = some x ∧ x.lifecycleState = .retired

theorem RetiresNone.of_eq {hs ts : Table Host.id} (h : ts = hs) : RetiresNone hs ts :=
  fun _ y hy hretired => ⟨y, h ▸ hy, hretired⟩

theorem RetiresNone.update {hs ts : Table Host.id} {p : Host → Bool}
    {f : Host → Host} (hnone : RetiresNone hs ts) (hf : ∀ h, (f h).id = h.id)
    (h : ∀ x, (f x).lifecycleState = .retired → x.lifecycleState = .retired) :
    RetiresNone hs (ts.update p f hf) := by
  intro id y hy hretired
  rw [Table.find_update] at hy
  obtain ⟨x, hx, rfl⟩ := Option.map_eq_some_iff.mp hy
  refine hnone id x hx ?_
  split at hretired
  · exact h x hretired
  · exact hretired

/-- Nothing is written about a retired host, and one that is newly retired has no work. -/
structure Spares (r t : Registry) : Prop where
  owned : Owned t.store
  record : ∀ id, r.Retired id → r.SameRecord t id
  placements : ∀ id, r.Retired id →
    ∀ x ∈ t.store.placements, x.hostId = id → x ∈ r.store.placements
  retires : ∀ id y, t.store.hosts.find id = some y → y.lifecycleState = .retired →
    (∃ x, r.store.hosts.find id = some x ∧ x.lifecycleState = .retired) ∨ t.Retired id

namespace Spares

variable {r t u : Registry} {id hostId : HostId}

theorem retired (h : r.Spares t) (hid : r.Retired id) : t.Retired id := by
  obtain ⟨x, hx, hretired⟩ := hid.host
  exact ⟨⟨x, (h.record id hid).host.trans hx, hretired⟩,
    fun y hy hhost => hid.ended y (h.placements id hid y hy hhost) hhost⟩

theorem trans (h₁ : r.Spares t) (h₂ : t.Spares u) : r.Spares u where
  owned := h₂.owned
  record id hid := (h₁.record id hid).trans (h₂.record id (h₁.retired hid))
  placements id hid x hx hhost :=
    h₁.placements id hid x (h₂.placements id (h₁.retired hid) x hx hhost) hhost
  retires id y hy hretired := by
    rcases h₂.retires id y hy hretired with ⟨x, hx, hbefore⟩ | hnew
    · exact (h₁.retires id x hx hbefore).imp_right h₂.retired
    · exact .inr hnew

theorem of_work (hr : Owned r.store) {P : PlacementId → Prop} (h : t.identity = r.identity)
    (hwork : WorkStep P r.store t.store)
    (hspares : ∀ x ∈ r.store.placements, P x.id → ¬ r.Retired x.hostId) : r.Spares t := by
  simp only [identity, Prod.mk.injEq] at h
  refine ⟨hwork.owned hr, fun _ _ => .of_eq h.1 h.2.2.2.2.2.1 h.2.2.1, ?_, fun id y hy hretired =>
    .inl ⟨y, h.1 ▸ hy, hretired⟩⟩
  rintro _ hid x hx rfl
  exact hwork.mem_of_spared hx fun y hy _ hhost hmoved => hspares y hy hmoved (hhost ▸ hid)

theorem of_record (hr : Owned r.store) (hp : t.store.placements = r.store.placements)
    (hc : t.store.commands = r.store.commands)
    (hrecord : ∀ id, r.store.isRetired id = true → r.SameRecord t id)
    (hretires : RetiresNone r.store.hosts t.store.hosts) : r.Spares t where
  owned := (WorkStep.of_eq (P := fun _ => False) hp hc).owned hr
  record id hid := hrecord id hid.isRetired
  placements _ _ _ hx _ := hp ▸ hx
  retires id y hy hretired := .inl (hretires id y hy hretired)

theorem of_beside (hr : Owned r.store) (h : t.view = r.view) : r.Spares t := by
  simp only [view, identity, Prod.mk.injEq] at h
  exact of_record hr h.2.1 h.2.2 (fun _ _ => .of_eq h.1.1 h.1.2.2.2.2.2.1 h.1.2.2.1)
    (.of_eq h.1.1)

theorem find_other {f : Host → Host} (hf : ∀ h, (f h).id = h.id) {p : Host → Bool}
    {hosts : Table Host.id} (hlive : r.store.isRetired hostId = false)
    (hid : r.store.isRetired id = true) (hp : ∀ h, p h → h.id = hostId) :
    (hosts.update p f hf).find id = hosts.find id := by
  refine Table.find_update_other hf fun h hfind => Bool.eq_false_iff.mpr fun hph => ?_
  exact ne_of_live hlive hid ((hp h hph).symm.trans (Table.key_of_find hfind))

theorem of_host (hr : Owned r.store) (hlive : r.store.isRetired hostId = false)
    {f : Host → Host} (hf : ∀ h, (f h).id = h.id)
    (hrow : ∀ h, (f h).lifecycleState = .retired → h.lifecycleState = .retired)
    (ht : t.store = { r.store with hosts := r.store.hosts.update (·.id == hostId) f hf })
    (hg : t.grants = r.grants) : r.Spares t := by
  refine of_record hr (by rw [ht]) (by rw [ht]) (fun id hid => ⟨?_, by rw [hg], by rw [ht]⟩) ?_
  · rw [ht]
    exact find_other hf hlive hid fun h hh => beq_iff_eq.mp hh
  · rw [ht]
    exact (RetiresNone.of_eq rfl).update hf hrow

theorem of_sessions (hr : Owned r.store) (hlive : r.store.isRetired hostId = false)
    {p : ObservationSession → Bool} {f : ObservationSession → ObservationSession}
    (hf : ∀ o, (f o).sessionId = o.sessionId)
    (hp : ∀ o ∈ r.store.sessions, p o → o.hostId = hostId ∧ (f o).hostId = hostId) :
    r.Spares { r with store := { r.store with sessions := r.store.sessions.update p f hf } } := by
  refine of_record hr rfl rfl (fun id hid => ⟨rfl, rfl, ?_⟩) (.of_eq rfl)
  refine Table.filter_update_mem hf fun o ho hpo => ?_
  obtain ⟨hhost, hhost'⟩ := hp o ho hpo
  rw [hhost, hhost']
  exact ⟨beq_eq_false_iff_ne.mpr (ne_of_live hlive hid),
    beq_eq_false_iff_ne.mpr (ne_of_live hlive hid)⟩

theorem of_statement {now : Millis} {single : Prop} (hr : Owned r.store)
    (h : Statement now single r t) : r.Spares t := by
  have hsame : RetiresNone r.store.hosts r.store.hosts := .of_eq rfl
  cases h with
  | beside h => exact of_beside hr h
  | work hostId hlive h hwork =>
    refine of_work hr h hwork fun x hx ⟨c, hc, hhost, hplacement⟩ hretired => ?_
    -- what the agent of a host moves is on its own host
    obtain ⟨y, hy, hid, hown⟩ := hr c hc x.id hplacement
    cases Table.eq_of_key hy hx hid
    exact ne_of_live hlive hretired.isRetired (hhost.symm.trans hown.symm)
  | codes | keys => exact of_record hr rfl rfl (fun _ _ => .of_eq rfl rfl rfl) hsame
  | grants hostId hlive h =>
    exact of_record hr rfl rfl
      (fun id hid => ⟨rfl, h id (Ne.symm (ne_of_live hlive hid)), rfl⟩) hsame
  | enroll profiles hhosts =>
    refine of_record hr rfl rfl (fun id hid => ⟨?_, rfl, rfl⟩) fun id y hy hretired => ?_
    · obtain ⟨x, hx, -⟩ := (Option.any_eq_true _ _).mp hid
      rw [Table.find_insert? hhosts, hx]
      rfl
    · rw [Table.find_insert? hhosts, Option.or_eq_some_iff] at hy
      rcases hy with hy | ⟨-, hy⟩
      · exact ⟨y, hy, hretired⟩
      · obtain ⟨-, ⟨⟩⟩ := Option.ite_none_right_eq_some.mp hy
        cases hretired
  | sustain profiles hf hlive hrow => exact of_host hr hlive hf (fun h => (hrow h).2) rfl rfl
  | withdraw w hlive hrow => exact of_host hr hlive w.host_id (fun h => (hrow h).2) rfl rfl
  | approve hx hlive =>
    exact of_host hr (Store.isRetired_of_find hx hlive) approval.host_id (fun _ h => by cases h)
      rfl rfl
  | inventory hx hlive =>
    exact of_host hr (Store.isRetired_of_find hx hlive) (inventoryWrite ..).host_id
      (fun _ h => h) rfl rfl
  | @retire hostId hlive hover =>
    refine ⟨hr, fun id hid => ⟨?_, rfl, rfl⟩, fun _ _ x hx _ => hx, fun id y hy hretired => ?_⟩
    · exact find_other retirement.host_id hlive hid.isRetired fun h hh => beq_iff_eq.mp hh
    · rw [updateHost, Table.find_update] at hy
      obtain ⟨x, hx, rfl⟩ := Option.map_eq_some_iff.mp hy
      by_cases hid : x.id = hostId
      · cases Table.key_of_find hx
        cases hid
        exact .inr ⟨⟨_, find_retirement hx, rfl, rfl⟩, hover⟩
      · rw [if_neg (by simpa using hid)] at hretired
        exact .inl ⟨x, hx, hretired⟩
  | session hf hlive hp hrow =>
    exact of_sessions hr hlive hf fun o ho hpo =>
      ⟨hp o ho hpo, (hrow o).1.trans (hp o ho hpo)⟩
  | @endSession o f g hf hg hlive ho hrow hhost =>
    have hended := of_sessions hr hlive (p := (·.sessionId == o.sessionId)) hf
      fun o' ho' hid => by
        cases Table.eq_of_key ho' ho (beq_iff_eq.mp hid)
        exact ⟨rfl, (hrow _).1⟩
    refine hended.trans (of_host hended.owned ?_ hg (fun h => (hhost h).2) rfl rfl)
    exact hlive
  | openSession hlive hins =>
    exact of_record hr rfl rfl (fun id hid => ⟨rfl, rfl, Table.filter_insert? hins
      (beq_eq_false_iff_ne.mpr (ne_of_live hlive hid))⟩) hsame
  | grantAuthority ready hx hlive =>
    have hlive := Store.isRetired_of_find hx hlive
    unfold Registry.grantAuthority
    split
    · exact of_beside hr rfl
    refine of_record hr rfl rfl (fun id hid => ⟨?_, rfl, rfl⟩) ?_
    · refine (find_other (fun _ => by rfl) hlive hid fun h hh => ?_).trans
        (find_other (fun _ => by rfl) hlive hid fun h hh => ?_)
      all_goals
        simp only [Bool.and_eq_true, beq_iff_eq] at hh
        tauto
    · dsimp only
      refine .update (.update hsame _ ?_) _ ?_ <;> exact fun _ h => h

theorem of_statements {now : Millis} {single : Prop} (h : r.Statements now single t)
    (hr : Owned r.store) : r.Spares t := by
  induction h with
  | refl => exact of_beside hr rfl
  | tail _ hlast ih => exact ih.trans (of_statement ih.owned hlast)

end Spares

end Registry

theorem repairUnconfirmed_identity (s : Store) (user : UserId) (hostId : HostId)
    (placements : List PlacementId) (now : Millis) :
    IdentityFrame s (s.repairUnconfirmed user hostId placements now).1 := by
  refine foldl_rel (R := fun a b : Store × List PlacementId => IdentityFrame a.1 b.1)
    (fun a => .refl a.1) (fun _ _ _ => .trans) (fun acc p => ?_) placements (s, [])
  exact .of_writes (.repairOne (P := fun _ => True) user hostId now acc fun _ _ _ _ => trivial)

/-! ## One call -/

namespace RegistryService

variable {H : Hashing} {digest : HandshakeRequest → String} {s t : RegistryService}

theorem admission_spares {target : TargetId} {intent : Intent} {candidates : List Candidate}
    {fresh : Fresh} {outcome : Store.AdmissionOutcome} {store : Store} (hs : Owned s.db.store)
    (h : s.db.store.admitOperation H intent fresh s.now none
      (candidates.filter (s.db.offers target s.now)) = .ok (outcome, store)) :
    s.db.Spares { s.db with store } := by
  rcases Store.admitOperation_ok h with rfl | ⟨c, hc, -, hins⟩
  · exact .of_beside hs rfl
  have howned := hs.insertAdmission hins
  obtain ⟨placements, _, _, _, rfl, hplacement, -, -⟩ := Store.insertAdmission_work hins
  refine ⟨howned, fun _ _ => .of_eq rfl rfl rfl, fun id hid x hx hhost => ?_,
    fun id y hy hretired => .inl ⟨y, hy, hretired⟩⟩
  rcases (Table.mem_insert? hplacement).mp hx with hx | rfl
  · exact hx
  · obtain ⟨-, hoffered⟩ := List.mem_filter.mp hc
    obtain ⟨y, hy, hretired, -⟩ := hid.host
    have hcandidate : s.db.store.hosts.find c.hostId = some y := by
      rw [← hy, ← hhost]
      rfl
    simp only [Registry.offers, hcandidate] at hoffered
    cases hprofile : s.db.profiles.find c.hostId with
    | none => simp [hprofile] at hoffered
    | some p => simp [hprofile, hretired] at hoffered

theorem elsewhere_spares {store : Store} (hidentity : leavesIdentity s.db.store store)
    (hleaves : s.db.store.leavesWork store) : s.db.Spares { s.db with store } := by
  have hframe := IdentityFrame.of_leaves hidentity
  simp only [Store.leavesWork, Bool.and_eq_true, List.all_eq_true, Option.any_eq_true,
    Bool.or_eq_true, beq_iff_eq, Option.all_eq_true] at hleaves
  obtain ⟨hplacements, hcommands⟩ := hleaves
  refine ⟨fun c hc p hp => ?_, fun _ _ => .of_eq hframe.hosts rfl hframe.sessions, ?_,
    fun id y hy hretired => .inl ⟨y, hframe.hosts ▸ hy, hretired⟩⟩
  · obtain ⟨x, hx, hown⟩ := hcommands c hc p hp
    exact ⟨x, Table.mem_of_find hx, Table.key_of_find hx, hown⟩
  · rintro _ hid y hy rfl
    obtain ⟨x, hx, hhost, rfl | hlive⟩ := hplacements y hy
    · exact Table.mem_of_find hx
    · simp [hhost, hid.isRetired] at hlive

/-- **One call** writes nothing about a retired host. -/
theorem control_spares {c : ControlCall} (hs : Owned s.db.store)
    (h : s.control H digest c = some t) : s.db.Spares t.db := by
  unfold control at h
  split at h
  · obtain ⟨hleaves, h⟩ := Option.ite_none_right_eq_some.mp h
    obtain ⟨db, hdb, rfl⟩ := Option.map_eq_some_iff.mp h
    obtain ⟨hidentity, ⟨⟩⟩ := Option.ite_none_right_eq_some.mp hdb
    exact elsewhere_spares hidentity hleaves
  · next a ha =>
    obtain ⟨db, hdb, rfl⟩ := Option.map_eq_some_iff.mp h
    rcases statements_of_call hdb with hstatements | ⟨⟨store, rfl⟩, -⟩
    · exact .of_statements hstatements hs
    · exact absurd rfl (ha store)
  · next auth result =>
    cases h
    cases hok : s.db.store.recordCommandResult H auth result s.now with
    | error e => exact .of_beside hs rfl
    | ok answer =>
      obtain ⟨disposition, store⟩ := answer
      have hwrites := Writes.recordCommandResult hok
      have hlive : s.db.store.isRetired auth.hostId = false := by
        obtain ⟨⟨⟩, hauth, -⟩ := bind_eq_ok hok
        exact Store.isRetired_of_authenticated hauth
      have hstatement : Registry.Statement s.now True s.db { s.db with store } :=
        .work auth.hostId hlive (Registry.identity_of_frame (.of_writes hwrites))
          (.of_writes hwrites)
      exact .of_statement hs hstatement
  · next d user hostId placements =>
    obtain ⟨-, ⟨⟩⟩ := Option.ite_none_right_eq_some.mp h
    -- a repair moves unconfirmed placements, and a retired host has none
    refine .of_work hs (Registry.identity_of_frame (repairUnconfirmed_identity ..))
      (.repairUnconfirmed s.db.store user hostId placements s.now) ?_
    rintro x hx ⟨y, hy, hid, -, hstate⟩ hretired
    cases Table.eq_of_key hy hx hid
    have hover := hretired.ended x hx rfl
    rw [hstate] at hover
    cases hover
  · obtain ⟨⟨outcome, store⟩, hadmit, rfl⟩ := Option.map_eq_some_iff.mp h
    exact admission_spares hs (ok_of_toOption hadmit)

/-- Commands name placements of their host, and a retired host has no authority and no work. -/
structure Orderly (s : RegistryService) : Prop where
  owned : Owned s.db.store
  retired : ∀ id x, s.db.store.hosts.find id = some x → x.lifecycleState = .retired →
    s.db.Retired id

theorem orderly_control {c : ControlCall} (h : s.control H digest c = some t) (hs : s.Orderly) :
    t.Orderly := by
  have hspares := control_spares hs.owned h
  refine ⟨hspares.owned, fun id y hy hretired => ?_⟩
  rcases hspares.retires id y hy hretired with ⟨x, hx, hbefore⟩ | hnew
  · exact hspares.retired (hs.retired id x hx hbefore)
  · exact hnew

theorem orderly_run {control : Option ControlPlane} {now₀ : Millis} {cs : List ControlCall}
    (h : (controlPlane H digest).Run (.initial control now₀) cs s) : s.Orderly := by
  refine h.inv (fun s c t _ hstep hs => orderly_control hstep hs) ⟨?_, ?_⟩
  · intro c hc
    cases hc
  · intro id x hx
    cases hx

/-- **Every run.** Nothing more is recorded of a retired host, and its work stays over. -/
theorem retired_run {cs : List ControlCall} {id : HostId} (hs : s.Orderly) (hid : s.db.Retired id)
    (h : (controlPlane H digest).Run s cs t) :
    t.db.Retired id ∧ s.db.SameRecord t.db id ∧
      ∀ x ∈ t.db.store.placements, x.hostId = id → x ∈ s.db.store.placements := by
  have hspares : s.db.Spares t.db :=
    h.rel (I := Orderly) (R := fun s t => Owned s.db.store → s.db.Spares t.db)
      (fun _ hs => .of_beside hs rfl)
      (fun _ _ _ h₁ h₂ hs => (h₁ hs).trans (h₂ (h₁ hs).owned))
      (fun _ _ _ _ hstep hs => orderly_control hstep hs)
      (fun _ _ _ _ hstep _ hs => control_spares hs hstep) hs hs.owned
  exact ⟨hspares.retired hid, hspares.record id hid, hspares.placements id hid⟩

end RegistryService

/-! ## A closed host -/

/-- Host `id` is closed in `u`, a state after `t` in which it was retired. -/
structure Closed (H : Hashing) (digest : HandshakeRequest → String) (id : HostId)
    (t u : RegistryService) : Prop where
  host : ∃ h, u.db.store.hosts.find id = some h ∧ h.lifecycleState = .retired ∧
    h.authorityExpiresAt = none
  /-- No credential is accepted, neither at the door nor inside a call. -/
  authenticate : ∀ secret now auth, u.db.store.authenticate H id secret now ≠ .ok auth
  ensure : ∀ auth now, auth.hostId = id →
    u.db.store.ensureAuthenticatedGeneration auth now ≠ .ok ()
  grants : u.db.grants.rows.filter (·.hostId == id) = t.db.grants.rows.filter (·.hostId == id)
  approve : ∀ d user request now r, request.hostId = id →
    u.db.approveHost d user request now ≠ .ok r
  /-- No recovery code is issued for it; a call under an old key only repeats its metadata. -/
  recover : ∀ d user revision key fresh now answer r,
    u.db.recoverHost H d user id revision key fresh now = .ok (answer, r) →
      answer.code = none ∧ r = u.db
  /-- No code, of whichever time, makes or recovers it. -/
  consume : ∀ d code fresh now receipt r,
    u.db.consumeEnrollment H d code fresh now = .ok (receipt, r) → receipt.hostId ≠ id
  /-- No observation session is new, and none can be opened. -/
  sessions : u.db.store.sessions.rows.filter (·.hostId == id)
    = t.db.store.sessions.rows.filter (·.hostId == id)
  handshake : ∀ auth request now, auth.hostId = id →
    ∃ e, u.db.handshake digest auth request now = (u.db, .error e)
  placements : ∀ x ∈ u.db.store.placements, x.hostId = id → x ∈ t.db.store.placements

namespace Registry

variable {H : Hashing} {r t : Registry} {id : HostId} {x : Host}

variable {now : Millis} {auth : AuthenticatedHost}

theorem authenticate_retired {secret : Secret} (hx : r.store.hosts.find id = some x)
    (hretired : x.lifecycleState = .retired) :
    r.store.authenticate H id secret now ≠ .ok auth := by
  intro h
  unfold Store.authenticate at h
  split at h
  · cases h
  rw [hx] at h
  split at h
  · next y c hy _ =>
    cases hy
    simp [Host.mayAuthenticate, hretired] at h
  · cases h

theorem recoverHost_retired {d : Directory} {user : UserId} {revision : Nat} {key : String}
    {fresh : FreshCode} {answer : EnrollmentIssue} (hx : r.store.hosts.find id = some x)
    (hretired : x.lifecycleState = .retired)
    (h : r.recoverHost H d user id revision key fresh now = .ok (answer, t)) :
    answer.code = none ∧ t = r := by
  obtain ⟨-, -, h⟩ := bind_eq_ok h
  obtain ⟨-, -, h⟩ := bind_eq_ok h
  split at h
  · split at h
    · cases h
    obtain ⟨-, -, h⟩ := bind_eq_ok h
    cases h
    exact ⟨rfl, rfl⟩
  · split at h
    · next y p hy hp =>
      rw [hx] at hy
      obtain ⟨hy, -⟩ := Option.filter_eq_some_iff.mp hy
      cases hy
      simp [hretired] at h
    · cases h

theorem ne_of_authenticated (hx : r.store.hosts.find id = some x)
    (hretired : x.lifecycleState = .retired)
    (h : r.store.ensureAuthenticatedGeneration auth now = .ok ()) : auth.hostId ≠ id :=
  ne_of_live (Store.isRetired_of_authenticated h) (by simp [Store.isRetired, hx, hretired])

theorem handshake_retired {digest : HandshakeRequest → String} {request : HandshakeRequest}
    (hx : r.store.hosts.find id = some x) (hretired : x.lifecycleState = .retired)
    (hauth : auth.hostId = id) :
    ∃ e, r.handshake digest auth request now = (r, .error e) := by
  unfold handshake
  cases hensure : r.store.ensureAuthenticatedGeneration auth now with
  | error e => exact ⟨_, rfl⟩
  | ok _ => exact absurd hauth (ne_of_authenticated hx hretired hensure)

/-- A code makes a host with an id of its own, or starts a host over that is not retired. -/
theorem consumeEnrollment_retired {d : Directory} {code : Secret} {fresh : FreshHost}
    {receipt : EnrollmentReceipt} (hx : r.store.hosts.find id = some x)
    (hretired : x.lifecycleState = .retired)
    (h : r.consumeEnrollment H d code fresh now = .ok (receipt, t)) : receipt.hostId ≠ id := by
  obtain ⟨e, -, -, -, -, -, ⟨-, henroll⟩ | ⟨hostId, epoch, revision, -, hrecover⟩⟩ :=
    consumeEnrollment_cases h
  · obtain ⟨hosts, -, credentials, event, rfl, hhosts, -, rfl⟩ := enroll_cases henroll
    rintro rfl
    exact (Table.insert?_some.mp hhosts).1 (List.mem_map.mpr
      ⟨x, Table.mem_of_find hx, Table.key_of_find hx⟩)
  · obtain ⟨y, p, credentials, event, hy, -, -, -, hlive, rfl, -, rfl⟩ := recover_cases hrecover
    rintro rfl
    cases hx.symm.trans hy
    exact hlive hretired

end Registry

/-- **Retirement is final**, and needs all work of the host to be over. -/
theorem retirement_final {H : Hashing} {digest : HandshakeRequest → String}
    {control : Option ControlPlane} {now₀ : Millis} {cs : List ControlCall}
    {s t : RegistryService} {d : Directory} {user : UserId} {id : HostId} {revision : Nat}
    (hrun : (controlPlane H digest).Run (.initial control now₀) cs s)
    (hretire : (controlPlane H digest).step s (.registry (.retireHost d user id revision))
      = some t) :
    (∀ x ∈ s.db.store.placements, x.hostId = id → x.state.isOver) ∧
      ∀ ds u, (controlPlane H digest).Run t ds u → Closed H digest id t u := by
  have hs := RegistryService.orderly_run hrun
  have hstep : s.control H digest (.registry (.retireHost d user id revision)) = some t := hretire
  have ht := RegistryService.orderly_control hstep hs
  obtain ⟨db, hdb, rfl⟩ := Option.map_eq_some_iff.mp hretire
  obtain ⟨x, hx, hcases⟩ := Registry.retireHost_cases (ok_of_toOption hdb)
  have hover : ∀ x ∈ s.db.store.placements, x.hostId = id → x.state.isOver := by
    rcases hcases with ⟨hretired, -⟩ | ⟨-, hover, -⟩
    · exact (hs.retired id x hx hretired).ended
    · exact hover
  have hid : Registry.Retired db id := by
    rcases hcases with ⟨hretired, rfl⟩ | ⟨-, -, event, rfl⟩
    · exact ht.retired id x hx hretired
    · exact ht.retired id _ (Registry.find_retirement hx) rfl
  refine ⟨hover, fun ds u hrun => ?_⟩
  obtain ⟨⟨⟨y, hy, hretired, hauthority⟩, -⟩, hrecord, hmem⟩ :=
    RegistryService.retired_run ht hid hrun
  exact {
    host := ⟨y, hy, hretired, hauthority⟩
    authenticate := fun _ _ _ => Registry.authenticate_retired hy hretired
    ensure := fun _ _ hauth h => Registry.ne_of_authenticated hy hretired h hauth
    grants := hrecord.grants
    approve := fun _ _ _ _ _ hhost h => by
      obtain ⟨z, p, e, hz, -, -, hlive, -⟩ := Registry.approveHost_cases h
      cases hhost
      cases hy.symm.trans hz
      exact hlive hretired
    recover := fun _ _ _ _ _ _ _ _ h => Registry.recoverHost_retired hy hretired h
    consume := fun _ _ _ _ _ _ h => Registry.consumeEnrollment_retired hy hretired h
    sessions := hrecord.sessions
    handshake := fun _ _ _ hauth => Registry.handshake_retired hy hretired hauth
    placements := hmem }

/-- A host that never worked is retired, and a recovery code issued before does not bring it
back. -/
theorem recovered_host_retires : ∃ s t,
    (controlPlane Sample.hashing fun _ => "digest").Run (.initial (some Sample.control) 0)
      (Sample.recoverCalls.map .registry) s ∧
    (controlPlane Sample.hashing fun _ => "digest").step s
      (.registry (.retireHost Sample.directory 1 1 1)) = some t ∧
    ((∀ x ∈ s.db.store.placements, x.hostId = 1 → x.state.isOver) ∧
      ∀ ds u, (controlPlane Sample.hashing fun _ => "digest").Run t ds u →
        Closed Sample.hashing (fun _ => "digest") 1 t u) := by
  have hrun : ((controlPlane Sample.hashing fun _ => "digest").exec
      (.initial (some Sample.control) 0) (Sample.recoverCalls.map .registry)).isSome := by
    decide +kernel
  obtain ⟨s, hs⟩ := Option.isSome_iff_exists.mp hrun
  have hretire : (((controlPlane Sample.hashing fun _ => "digest").exec
      (.initial (some Sample.control) 0) (Sample.recoverCalls.map .registry)).bind fun s =>
        (controlPlane Sample.hashing fun _ => "digest").step s
          (.registry (.retireHost Sample.directory 1 1 1))).isSome := by
    decide +kernel
  rw [hs] at hretire
  obtain ⟨t, ht⟩ := Option.isSome_iff_exists.mp hretire
  have hrun := Machine.run_iff_exec.mpr hs
  exact ⟨s, t, hrun, ht, retirement_final hrun ht⟩

end Gridops.Fleet
