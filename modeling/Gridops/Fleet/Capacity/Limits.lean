import Gridops.Fleet.Capacity.Commitment
import Gridops.Fleet.Registry.Finality

/-!
# Pool and session limits

Before an intent is placed, admission counts what its pool and its interactive session already
hold: every placement but those whose capacity is released with both absence proofs written. An
operator reads the limits off the states instead: a placement that is not stopped, cleaned or
failed takes a place. The two counts agree as long as a released placement has ended, so the
limits hold in every run in which released placements are left alone.
-/

namespace Gridops.Fleet

open Gridops.Lib

abbrev PoolId := Nat
abbrev InteractiveSessionId := Nat

/-! ## What admission counts -/

/-- The limits, which nobody changes: `runner_pools.max_count` and `host_sessions.max_jobs`. -/
structure Limits where
  maxCount : PoolId → ℕ
  maxJobs : InteractiveSessionId → ℕ

/-- What a placement was admitted for: the pool and kind of its intent, and its session. -/
structure Assignment where
  placementId : PlacementId
  poolId : PoolId
  kind : PreparedWorkload
  sessionId : Option InteractiveSessionId
deriving DecidableEq

namespace Assignment

def isRunnerOf (pool : PoolId) (a : Assignment) : Bool := a.poolId == pool && a.kind == .ciRunner

def isBoundTo (session : InteractiveSessionId) (a : Assignment) : Bool :=
  a.sessionId == some session

end Assignment

structure Roster where
  store : Store
  assignments : Table Assignment.placementId
deriving DecidableEq

/-- Nothing of the placement can exist and all its capacity is released. -/
def Store.freed (s : Store) (x : Placement) : Bool :=
  x.localAbsenceProvenAt.isSome && x.delayedStartsExcludedAt.isSome && !s.isCharged x.id

def PlacementState.isLive : PlacementState → Bool
  | .stopped | .cleaned | .failed => false
  | _ => true

namespace Roster

variable (r : Roster)

/-- The placements with `keep` whose assignment has `mine`. -/
def count (keep : Placement → Bool) (mine : Assignment → Bool) : ℕ :=
  r.store.placements.rows.countP fun x => keep x && (r.assignments.find x.id).any mine

def held (mine : Assignment → Bool) : ℕ := r.count (fun x => !r.store.freed x) mine

def live (mine : Assignment → Bool) : ℕ := r.count (fun x => x.state.isLive) mine

end Roster

structure PoolIntent where
  intent : Intent
  poolId : PoolId
  kind : PreparedWorkload
deriving DecidableEq

/-- A row of the candidate query before a session is chosen: `ready` are the sessions of its host
that could take the intent, by id, if the profile asks for one. -/
structure Offer where
  candidate : Candidate
  requiresInteractive : Bool
  ready : List InteractiveSessionId
  selected : Bool
deriving DecidableEq

structure AdmitCall where
  intent : PoolIntent
  /-- The operation is not queued any more, or it, the control plane or its pool is refused. -/
  refused : Bool
  offers : List Offer
  legacy : ℕ
  fresh : Fresh
  now : Millis

namespace Roster

variable (L : Limits) (r : Roster)

def availableSession (ready : List InteractiveSessionId) : Option InteractiveSessionId :=
  ready.find? fun session => r.held (·.isBoundTo session) < L.maxJobs session

def candidates (offers : List Offer) : List (Candidate × Option InteractiveSessionId) :=
  offers.filterMap fun o =>
    if o.requiresInteractive then
      (r.availableSession L o.ready).bind fun session =>
        if o.selected then some (o.candidate, some session) else none
    else if o.selected then some (o.candidate, none) else none

def poolHasCapacity (i : PoolIntent) (legacy : ℕ) : Bool :=
  i.kind != .ciRunner || legacy + r.held (·.isRunnerOf i.poolId) < L.maxCount i.poolId

/-- Tries the candidates in order, each against the pool's limit and then its domains. -/
def place (H : Hashing) (call : AdmitCall) :
    List (Candidate × Option InteractiveSessionId) → Except FleetError Roster
  | [] => .ok r
  | (c, session) :: rest =>
    if c.refusal.isSome || !r.poolHasCapacity L call.intent call.legacy then place H call rest
    else do
      match ← r.store.domainsFit c.domainId c.hostId c.request with
      | some _ => place H call rest
      | none => do
        let store ← r.store.insertAdmission H call.intent.intent c call.fresh call.now
        match r.assignments.insert?
            ⟨call.fresh.placement, call.intent.poolId, call.intent.kind, session⟩ with
        | none => .error .database
        | some assignments => .ok ⟨store, assignments⟩

def admitOperation (H : Hashing) (call : AdmitCall) : Except FleetError Roster :=
  if call.refused then .ok r else r.place L H call (r.candidates L call.offers)

end Roster

inductive RosterStep
  | admission (call : AdmitCall)
  | call (op : Op)
  | elsewhere (s : Store)

/-- No command was ever issued for a placement of this id, which is drawn at random. -/
def Roster.unused (r : Roster) (p : PlacementId) : Bool :=
  r.store.commands.rows.all fun c => c.placementId != some p

def Roster.step (H : Hashing) (L : Limits) (r : Roster) : RosterStep → Option Roster
  | .admission call => if r.unused call.fresh.placement then (r.admitOperation L H call).toOption else none
  | .call op => some { r with store := r.store.exec H op }
  | .elsewhere s =>
    if s.placements = r.store.placements ∧ s.allocations = r.store.allocations ∧
        s.commands = r.store.commands then
      some { r with store := s }
    else none

def admitting (H : Hashing) (L : Limits) : Machine Roster RosterStep := ⟨Roster.step H L⟩

/-- Commands of one placement do not overlap, and only one that holds capacity is marked as
starting. -/
def Roster.Orderly (r : Roster) : RosterStep → Prop
  | .call (.markStarting p _ _) => ¬r.store.Released p
  | .call (.setState _ current _ _) => current.isEnd = false
  | .call _ => Quiet r.store
  | _ => True

/-! ## Charged placements -/

namespace Roster

variable {L : Limits} {H : Hashing} {r r' : Roster} {mine : Assignment → Bool}

/-- The placements that hold capacity. Admission counts all of them. -/
def charged (r : Roster) (mine : Assignment → Bool) : ℕ :=
  r.count (fun x => r.store.isCharged x.id) mine

theorem charged_le_held (r : Roster) (mine : Assignment → Bool) : r.charged mine ≤ r.held mine := by
  refine List.countP_mono_left fun x _ h => ?_
  simp only [Bool.and_eq_true] at h ⊢
  exact ⟨by simp [Store.freed, h.1], h.2⟩

/-- A live placement holds capacity, because a released one has ended. -/
theorem live_le_charged (r : Roster) (h : Consistent r.store) (mine : Assignment → Bool) :
    r.live mine ≤ r.charged mine := by
  refine List.countP_mono_left fun x hx hlive => ?_
  simp only [Bool.and_eq_true] at hlive ⊢
  refine ⟨Store.isCharged_iff.mpr fun hr => ?_, hlive.2⟩
  have hend := (h.sound x.id x (Table.find_key hx)).ended hr
  cases hstate : x.state <;> simp_all [PlacementState.isEnd, PlacementState.isLive]

theorem charged_eq_ids (r : Roster) (mine : Assignment → Bool) :
    r.charged mine = (r.store.placements.rows.map (·.id)).countP fun p =>
      r.store.isCharged p && (r.assignments.find p).any mine := by
  rw [charged, count, List.countP_map]
  rfl

theorem charged_step {t : Store}
    (hrows : List.Forall₂ Placement.Later r.store.placements.rows t.placements.rows)
    (hstep : PlacementStep r.store t) (mine : Assignment → Bool) :
    { r with store := t }.charged mine ≤ r.charged mine := by
  have hids : ∀ {l l' : List Placement}, List.Forall₂ Placement.Later l l' →
      l'.map (·.id) = l.map (·.id) := by
    intro l l' h
    induction h with
    | nil => rfl
    | cons hxy _ ih => simp only [List.map_cons, hxy.id, ih]
  rw [charged_eq_ids, charged_eq_ids, hids hrows]
  refine List.countP_mono_left fun p _ h => ?_
  simp only [Bool.and_eq_true, Store.isCharged_iff] at h ⊢
  exact ⟨fun hr => h.1 (hstep.released p hr), h.2⟩

/-! ## One admission -/

theorem place_ok {call : AdmitCall} {cs : List (Candidate × Option InteractiveSessionId)}
    (h : r.place L H call cs = .ok r') :
    r' = r ∨ ∃ c session, (c, session) ∈ cs ∧ r.poolHasCapacity L call.intent call.legacy ∧
      r.store.insertAdmission H call.intent.intent c call.fresh call.now = .ok r'.store ∧
      r.assignments.insert? ⟨call.fresh.placement, call.intent.poolId, call.intent.kind, session⟩ =
        some r'.assignments := by
  induction cs with
  | nil =>
    cases h
    exact .inl rfl
  | cons head rest ih =>
    obtain ⟨c, session⟩ := head
    unfold place at h
    split at h
    · exact (ih h).imp_right fun ⟨c', session', hmem, hrest⟩ =>
        ⟨c', session', List.mem_cons_of_mem _ hmem, hrest⟩
    next hpool =>
    obtain ⟨refusal, -, h⟩ := bind_eq_ok h
    split at h
    · exact (ih h).imp_right fun ⟨c', session', hmem, hrest⟩ =>
        ⟨c', session', List.mem_cons_of_mem _ hmem, hrest⟩
    obtain ⟨store, hins, h⟩ := bind_eq_ok h
    split at h
    · cases h
    next assignments hassign =>
    cases h
    simp only [Bool.or_eq_true, not_or, Bool.not_eq_true', Bool.not_eq_false] at hpool
    exact .inr ⟨c, session, List.mem_cons_self, hpool.2, hins, hassign⟩

def limited (L : Limits) (r : Roster) (call : AdmitCall) (c : Candidate) : Candidate :=
  if r.poolHasCapacity L call.intent call.legacy then c
  else { c with refusal := c.refusal.or (some "pool_capacity_exhausted") }

/-- On the store, a call does what `admitOperation` does with the pool's limit among the reasons
for which a candidate is not eligible. -/
theorem place_admitOperation {call : AdmitCall}
    {cs : List (Candidate × Option InteractiveSessionId)} (h : r.place L H call cs = .ok r')
    (reason : Option String) :
    ∃ outcome, r.store.admitOperation H call.intent.intent call.fresh call.now reason
      (cs.map fun c => r.limited L call c.1) = .ok (outcome, r'.store) := by
  induction cs generalizing reason with
  | nil =>
    cases h
    exact ⟨_, rfl⟩
  | cons head rest ih =>
    obtain ⟨c, session⟩ := head
    unfold place at h
    rw [List.map_cons, Store.admitOperation]
    split at h
    · next hskip =>
      have hrefused : (r.limited L call c).refusal.isSome := by
        unfold limited
        split
        · simpa [‹r.poolHasCapacity L call.intent call.legacy = true›] using hskip
        · simp
      obtain ⟨text, htext⟩ := Option.isSome_iff_exists.mp hrefused
      simp only [htext]
      exact ih h (some text)
    next hfree =>
    simp only [Bool.or_eq_true, not_or, Bool.not_eq_true', Bool.not_eq_false,
      Option.not_isSome_iff_eq_none] at hfree
    have hsame : r.limited L call c = c := if_pos hfree.2
    obtain ⟨refusal, hfit, h⟩ := bind_eq_ok h
    simp only [hsame, hfree.1, hfit]
    split at h
    · exact ih h _
    obtain ⟨store, hins, h⟩ := bind_eq_ok h
    split at h
    · cases h
    cases h
    exact ⟨.admitted, by simp [hins, bind, Except.bind, pure, Except.pure]⟩

theorem room_of_candidates {offers : List Offer} {c : Candidate} {session : InteractiveSessionId}
    (h : (c, some session) ∈ r.candidates L offers) :
    r.held (·.isBoundTo session) < L.maxJobs session := by
  obtain ⟨o, -, ho⟩ := List.mem_filterMap.mp h
  split at ho
  · obtain ⟨session', hfound, ho⟩ := Option.bind_eq_some_iff.mp ho
    split at ho <;> cases ho
    simpa using List.find?_some hfound
  · split at ho <;> cases ho

end Roster

namespace Store

variable {s t : Store} {H : Hashing} {intent : Intent} {c : Candidate} {fresh : Fresh}
  {now : Millis}

theorem insertAdmission_commands (h : s.insertAdmission H intent c fresh now = .ok t) :
    ∃ d : Command, d.state = .pending ∧ s.commands.insert? d = some t.commands := by
  unfold insertAdmission at h
  simp only at h
  split at h
  · cases h
  obtain ⟨path, -, h⟩ := bind_eq_ok h
  split at h
  · cases h
  obtain ⟨envelope, -, h⟩ := bind_eq_ok h
  unfold insertPrepare insertCommand at h
  split at h
  · next hcmd =>
    cases h
    split at hcmd
    · cases hcmd
    split at hcmd
    · cases hcmd
    split at hcmd
    · cases hcmd
    · next hins =>
      cases hcmd
      exact ⟨_, rfl, hins⟩
  · cases h
  · cases h

theorem released_insertAdmission (h : s.insertAdmission H intent c fresh now = .ok t) :
    ¬t.Released fresh.placement ∧ ∀ p, p ≠ fresh.placement → (t.Released p ↔ s.Released p) := by
  obtain ⟨path, entries, hpath, -, -, hrows, hdomains, hall⟩ := insertAdmission_ok h
  constructor
  · intro hr
    have hne : entries ≠ [] := by
      rintro rfl
      have hchain := (climbDomains_ok hpath).1
      rw [← hdomains] at hchain
      cases hchain
    obtain ⟨a, ha⟩ := List.exists_mem_of_ne_nil entries hne
    have hmem : a ∈ t.allocations := by
      rw [← Table.mem_rows, hrows]
      exact List.mem_append_right _ ha
    have hstate := hr a hmem (hall a ha).1
    rw [(hall a ha).2.2.2] at hstate
    cases hstate
  · intro p hp
    refine ⟨fun hr a ha hap => hr a ?_ hap, fun hr a ha hap => ?_⟩
    · rw [← Table.mem_rows, hrows]
      exact List.mem_append_left _ ha
    · rw [← Table.mem_rows, hrows, List.mem_append] at ha
      rcases ha with ha | ha
      · exact hr a ha hap
      · exact absurd (hap.symm.trans (hall a ha).1) hp

end Store

theorem Consistent.insertAdmission {s t : Store} {H : Hashing} {intent : Intent} {c : Candidate}
    {fresh : Fresh} {now : Millis} (hs : Consistent s)
    (hunused : ∀ d ∈ s.commands, d.placementId ≠ some fresh.placement)
    (h : s.insertAdmission H intent c fresh now = .ok t) : Consistent t := by
  obtain ⟨-, -, -, -, hplace, -⟩ := Store.insertAdmission_ok h
  obtain ⟨d, hpending, hcommand⟩ := Store.insertAdmission_commands h
  obtain ⟨hnew, hold⟩ := Store.released_insertAdmission h
  have hfresh : ∀ p x, s.placements.find p = some x → p ≠ fresh.placement := by
    rintro p x hx rfl
    obtain ⟨hmem, hid⟩ := Table.find_some_iff.mp hx
    exact (Table.insert?_some.mp hplace).1 (List.mem_map.mpr ⟨x, hmem, hid⟩)
  constructor
  · intro p x hx
    rcases (Table.mem_insert? hplace).mp (Table.mem_of_find hx) with hmem | rfl
    · obtain rfl := Table.key_of_find hx
      have hfind := Table.find_key hmem
      rw [hold _ (hfresh _ x hfind)]
      exact hs.sound _ x hfind
    · have hid : p = fresh.placement := (Table.key_of_find hx).symm
      exact ⟨nofun, fun hr => absurd (hid ▸ hr) hnew⟩
  · intro e he hkind hstate p hp
    rcases (Table.mem_insert? hcommand).mp he with he | rfl
    · have hne : p ≠ fresh.placement := fun hid => hunused e he (hid ▸ hp)
      exact (hold p hne).mpr (hs.prepared e he hkind hstate p hp)
    · rw [hpending] at hstate
      cases hstate

/-! ## Every run -/

namespace Roster

variable {L : Limits} {H : Hashing} {r r' : Roster} {a : RosterStep}

/-- The placements that hold capacity are within the limits. -/
structure Within (L : Limits) (r : Roster) : Prop where
  consistent : Consistent r.store
  pools : ∀ pool, r.charged (·.isRunnerOf pool) ≤ L.maxCount pool
  sessions : ∀ session, r.charged (·.isBoundTo session) ≤ L.maxJobs session

theorem charged_admission {intent : Intent} {c : Candidate} {fresh : Fresh} {now : Millis}
    {b : Assignment} (hb : b.placementId = fresh.placement)
    (hins : r.store.insertAdmission H intent c fresh now = .ok r'.store)
    (hassign : r.assignments.insert? b = some r'.assignments) (mine : Assignment → Bool) :
    r'.charged mine = r.charged mine + if mine b then 1 else 0 := by
  obtain ⟨-, -, -, -, hplace, -⟩ := Store.insertAdmission_ok hins
  obtain ⟨hnew, hold⟩ := Store.released_insertAdmission hins
  rw [charged_eq_ids, charged_eq_ids, (Table.insert?_some.mp hplace).2, List.map_append,
    List.countP_append]
  congr 1
  · refine List.countP_congr fun p hp => ?_
    have hne : p ≠ fresh.placement := fun h => (Table.insert?_some.mp hplace).1 (h ▸ hp)
    rw [Table.find_insert? hassign, if_neg fun h => hne (h.symm.trans hb)]
    simp only [Bool.and_eq_true, Store.isCharged_iff, hold p hne, Option.or_none]
  · have hnone : r.assignments.find fresh.placement = none := by
      refine Option.eq_none_iff_forall_not_mem.mpr fun b' hb' => ?_
      obtain ⟨hmem, hid⟩ := Table.find_some_iff.mp hb'
      exact (Table.insert?_some.mp hassign).1 (List.mem_map.mpr ⟨b', hmem, hid.trans hb.symm⟩)
    have hcharged : r'.store.isCharged fresh.placement := Store.isCharged_iff.mpr hnew
    have hid : (Store.placementFor intent c fresh.placement now).id = fresh.placement := rfl
    simp [hid, hcharged, Table.find_insert? hassign, hb, hnone]

theorem Within.admitOperation {call : AdmitCall} (h : r.Within L) (hunused : r.unused call.fresh.placement)
    (hcall : r.admitOperation L H call = .ok r') : r'.Within L := by
  unfold Roster.admitOperation at hcall
  split at hcall
  · cases hcall
    exact h
  rcases place_ok hcall with rfl | ⟨c, session, hc, hpool, hins, hassign⟩
  · exact h
  have hcharged := charged_admission rfl hins hassign
  refine ⟨h.consistent.insertAdmission (by simpa [unused, Table.mem_rows] using hunused) hins,
    fun pool => ?_, fun session' => ?_⟩
  · rw [hcharged]
    split
    · next hmine =>
      simp only [Assignment.isRunnerOf, Bool.and_eq_true, beq_iff_eq] at hmine
      obtain ⟨rfl, hkind⟩ := hmine
      have hle := r.charged_le_held (·.isRunnerOf call.intent.poolId)
      simp only [poolHasCapacity, hkind, bne_self_eq_false, Bool.false_or, decide_eq_true_eq]
        at hpool
      omega
    · exact h.pools pool
  · rw [hcharged]
    split
    · next hmine =>
      obtain rfl : session = some session' := by simpa [Assignment.isBoundTo] using hmine
      have hroom := room_of_candidates hc
      have hle := r.charged_le_held (·.isBoundTo session')
      omega
    · exact h.sessions session'

theorem Within.kept {t : Store} (h : r.Within L)
    (hrows : List.Forall₂ Placement.Later r.store.placements.rows t.placements.rows)
    (hkept : Kept r.store t) : ({ r with store := t } : Roster).Within L where
  consistent := h.consistent.kept hkept
  pools pool := (charged_step hrows hkept.step _).trans (h.pools pool)
  sessions session := (charged_step hrows hkept.step _).trans (h.sessions session)

theorem markStarting_step {s : Store} {p : PlacementId} {runner : RunnerId} {now : Millis}
    (hcharged : ¬s.Released p) : PlacementStep s (s.markStarting p runner now) where
  released q := (Store.released_congr rfl).mpr
  row q := by
    rw [Store.markStarting, Table.find_update]
    cases hx : s.placements.find q with
    | none => exact .none
    | some x =>
      refine .some fun hsound => ?_
      by_cases hid : x.id = p
      · have hq : q = p := (Table.key_of_find hx).symm.trans hid
        have hr : ¬s.Released q := hq ▸ hcharged
        simp only [hid, beq_self_eq_true]
        exact ⟨⟨fun hlocal hdelayed => absurd (hsound.proven hlocal hdelayed) hr,
          fun h => absurd h hr⟩, fun h => absurd h hr⟩
      · simp only [beq_eq_false_iff_ne.mpr hid, Bool.false_eq_true, if_false]
        exact ⟨hsound, fun _ => trivial⟩

theorem kept_exec {op : Op} (h : Consistent r.store) (hok : r.Orderly (.call op)) :
    Kept r.store (r.store.exec H op) := by
  cases op with
  | markStarting p runner now => exact .of_step (markStarting_step hok) rfl
  | setState p current next now =>
    have hstep : PlacementStep r.store (r.store.setState p current next now) := by
      refine .setPlacementStateWhere fun x _ hsound hr hcurrent => ?_
      have hend := hsound.ended hr
      simp only [beq_iff_eq] at hcurrent
      rw [hcurrent, show current.isEnd = false from hok] at hend
      cases hend
    exact .of_step hstep rfl
  | poll | record | settle | repair | abandon | issue => exact .exec h ⟨rfl, hok⟩

theorem Within.step (h : r.Within L) (hok : r.Orderly a) (hstep : r.step H L a = some r') :
    r'.Within L := by
  cases a with
  | admission call =>
    obtain ⟨hunused, hcall⟩ := Option.ite_none_right_eq_some.mp hstep
    exact h.admitOperation hunused (ok_of_toOption hcall)
  | call op =>
    cases hstep
    exact h.kept (Store.Evolves.exec H r.store op).placements (kept_exec h.consistent hok)
  | elsewhere s =>
    obtain ⟨⟨hp, ha, hc⟩, ⟨⟩⟩ := Option.ite_none_right_eq_some.mp hstep
    exact h.kept (hp ▸ List.forall₂_same.mpr fun x _ => .refl x) (.of_step (.of_eq hp ha) hc)

end Roster

instance {r : Roster} {a : RosterStep} : Decidable (r.Orderly a) := by
  unfold Roster.Orderly; split <;> infer_instance

/-- **Admission respects the limits** of pools and interactive sessions while released placements
are left alone. -/
theorem limits_respected {H : Hashing} {L : Limits} {r₀ r : Roster} {steps : List RosterStep}
    (hplacements : r₀.store.placements.rows = []) (hcommands : r₀.store.commands.rows = [])
    (hrun : (admitting H L).Runs Roster.Orderly r₀ steps r) :
    (∀ pool, r.live (·.isRunnerOf pool) ≤ L.maxCount pool) ∧
    ∀ session, r.live (·.isBoundTo session) ≤ L.maxJobs session := by
  have hcount : ∀ mine, r₀.charged mine = 0 := fun mine => by
    rw [Roster.charged, Roster.count, hplacements, List.countP_nil]
  have hstart : r₀.Within L :=
    { consistent := .of_admitted (by simp [← Table.mem_rows, hplacements])
        (by simp [← Table.mem_rows, hplacements]) (by simp [← Table.mem_rows, hcommands])
      pools := fun pool => hcount _ ▸ Nat.zero_le _
      sessions := fun session => hcount _ ▸ Nat.zero_le _ }
  have h : r.Within L := hrun.inv (fun _ _ _ hok hstep h => h.step hok hstep) hstart
  exact ⟨fun pool => (r.live_le_charged h.consistent _).trans (h.pools pool),
    fun session => (r.live_le_charged h.consistent _).trans (h.sessions session)⟩

namespace Sample

def idleRoster : Roster where
  store :=
    { store with placements := .empty, allocations := .empty, commands := .empty }
  assignments := .empty

def oneRunner : Limits := ⟨fun _ => 1, fun _ => 1⟩

def rootCandidate : Candidate := ⟨1, 1, 1, 1, 10, 7, 1, request, prepare, none⟩

def admitRunner (i : Nat) (command : CommandId) (now : Millis) : RosterStep :=
  .admission
    { intent := ⟨⟨i, 1⟩, 1, .ciRunner⟩
      refused := false
      offers := [⟨rootCandidate, false, [], true⟩]
      legacy := 0
      fresh := ⟨i, command, fun _ => i⟩
      now := now }

def preparing : AgentCommandEnvelope where
  commandId := 1
  operationId := 1
  idempotencyKey := .prepare 1
  hostId := 1
  hostEpoch := 1
  controlPlaneIncarnation := 7
  authoritySessionId := 10
  scope := .placement 1 1 1
  expectedRevision := 1
  issuedAt := 1000 - commandClockSkewMillis
  deadlineAt := 1000 + prepareDeadlineMillis
  requestHash := "sealed"
  operation := .prepareEnvironment prepare

def replacedRunner : List RosterStep :=
  [admitRunner 1 1 1000, .call (.poll auth 10 2000),
    .call (.record auth (resultFor preparing 0 (.failed .runtime false none) 3000) 3000),
    admitRunner 2 2 4000]

def cleanedRunner : List RosterStep :=
  [admitRunner 1 1 1000, .call (.poll auth 10 2000),
    .call (.record auth (resultFor preparing 0 (.succeeded (.preparedEnvironment 1)) 3000) 3000),
    .call (.issue 1 start (.start 1) 50000 2 4000), .call (.markStarting 1 1 4100),
    .call (.poll auth 10 5000),
    .call (.record auth (answer 2 start (.start 1) 50000 4000 1 started) 6000),
    .call (.issue 1 (.cleanup runner) (.cleanup 1 0) 55000 3 59000),
    .call (.issue 1 (.cleanup runner) (.cleanup 1 1) 55000 4 60500),
    .call (.poll auth 10 61000),
    .call (.record auth (answer 3 (.cleanup runner) (.cleanup 1 0) 55000 59000 2 cleaned) 62000)]

def revivedRunner : List RosterStep :=
  [admitRunner 2 5 63000, .call (.poll auth 10 64000), .call (.poll auth 10 120000)]

end Sample

theorem limits_respected_replaced : ∃ r, (admitting Sample.hashing Sample.oneRunner).Runs
      Roster.Orderly Sample.idleRoster Sample.replacedRunner r ∧
    r.store.placements.rows.length = 2 ∧ r.live (·.isRunnerOf 1) ≤ 1 := by
  exact Machine.exists_runs (by decide +kernel) fun r hruns => (limits_respected rfl rfl hruns).1 1

/-- **A revived placement exceeds the pool's limit** when its second cleanup is overdue. -/
theorem revived_placement_exceeds : ∃ r, (admitting Sample.hashing Sample.oneRunner).Run
      Sample.idleRoster (Sample.cleanedRunner ++ Sample.revivedRunner) r ∧
    ¬r.live (·.isRunnerOf 1) ≤ Sample.oneRunner.maxCount 1 := by
  exact Machine.exists_run (by decide +kernel)

end Gridops.Fleet
