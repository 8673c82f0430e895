import Gridops.Fleet.Registry.Effects

/-!
# The single writes of a transaction

Every transaction on commands and placements is a sequence of writes of four kinds.
`Writes P N` is such a sequence that moves placements in `P` only, into states in `N`
only. A relation that holds across each kind of write and composes then holds across
every transaction (`Writes.rel`), whatever its branches.
-/

namespace Gridops.Fleet

open Gridops.Lib

structure Allocation.Later (a b : Allocation) : Prop where
  placementId : b.placementId = a.placementId
  hostId : b.hostId = a.hostId
  domainId : b.domainId = a.domainId
  amount : b.amount = a.amount
  released : a.state = .released → b.state = .released

structure Placement.Later (x y : Placement) : Prop where
  id : y.id = x.id
  hostId : y.hostId = x.hostId
  backendId : y.backendId = x.backendId
  request : y.request = x.request

def Store.HasCommand (s : Store) (hostId : HostId) (p : PlacementId) : Prop :=
  ∃ c ∈ s.commands, c.hostId = hostId ∧ c.placementId = some p

inductive Write (P : PlacementId → Prop) (N : PlacementState → Prop) : Store → Store → Prop
  | records (s : Store) (results attempts bootstrap events) :
      Write P N s { s with results, attempts, bootstrap, events }
  | commands (s : Store) (q : Command → Bool) (f : Command → Command) (hf : ∀ c, (f c).id = c.id)
      (hsame : ∀ c, f c = { c with state := (f c).state, attemptCount := (f c).attemptCount }) :
      Write P N s { s with commands := s.commands.update q f hf }
  | placements (s : Store) (q : Placement → Bool) (f : Placement → Placement)
      (hf : ∀ x, (f x).id = x.id) (hq : ∀ x, q x → P x.id)
      (hstate : ∀ x, (f x).state = x.state ∨ N (f x).state) (hlater : ∀ x : Placement, x.Later (f x)) :
      Write P N s { s with placements := s.placements.update q f hf }
  | allocations (s : Store) (q : Allocation → Bool) (f : Allocation → Allocation)
      (hf : ∀ a, (f a).id = a.id) (hlater : ∀ a : Allocation, q a → a.Later (f a)) :
      Write P N s { s with allocations := s.allocations.update q f hf }

def Writes (P : PlacementId → Prop) (N : PlacementState → Prop) : Store → Store → Prop :=
  Relation.ReflTransGen (Write P N)

namespace Writes

variable {P : PlacementId → Prop} {N : PlacementState → Prop} {s t u : Store} {c : Command}
  {p : PlacementId} {now : Millis}

theorem refl (s : Store) : Writes P N s s := Relation.ReflTransGen.refl

theorem trans (h₁ : Writes P N s t) (h₂ : Writes P N t u) : Writes P N s u :=
  Relation.ReflTransGen.trans h₁ h₂

theorem one (h : Write P N s t) : Writes P N s t := .single h

/-- **What each write keeps, the transaction keeps.** -/
theorem rel {R : Store → Store → Prop} (hrefl : ∀ s, R s s)
    (htrans : ∀ s t u, R s t → R t u → R s u) (hone : ∀ s t, Write P N s t → R s t)
    (h : Writes P N s t) : R s t := by
  induction h with
  | refl => exact hrefl s
  | tail _ hlast ih => exact htrans _ _ _ ih (hone _ _ hlast)

theorem unmoved (h : Writes P N s t) {st : PlacementState} (hst : ¬ N st) :
    ∀ y ∈ t.placements, y.state = st → ∃ x ∈ s.placements, x.id = y.id ∧ x.state = st := by
  refine h.rel (R := fun s t => ∀ y ∈ t.placements, y.state = st →
    ∃ x ∈ s.placements, x.id = y.id ∧ x.state = st) (fun s y hy hstate => ⟨y, hy, rfl, hstate⟩)
    (fun s t u h₁ h₂ z hz hstate => ?_) fun s t hw y hy hstate => ?_
  · obtain ⟨y, hy, hid, hstate⟩ := h₂ z hz hstate
    obtain ⟨x, hx, hxid, hstate⟩ := h₁ y hy hstate
    exact ⟨x, hx, hxid.trans hid, hstate⟩
  · cases hw with
    | records | commands | allocations => exact ⟨y, hy, rfl, hstate⟩
    | placements q f hf _ hmove _ =>
      have hmem : y ∈ s.placements.update q f hf := hy
      obtain ⟨x, hx, rfl⟩ := Table.mem_update.mp hmem
      split at hstate
      · next hq =>
        rw [if_pos hq]
        exact ⟨x, hx, (hf x).symm, ((hmove x).resolve_right (hstate ▸ hst)).symm.trans hstate⟩
      · next hq => exact ⟨x, hx, by rw [if_neg hq], hstate⟩

theorem records (s : Store) (results attempts bootstrap events) :
    Writes P N s { s with results, attempts, bootstrap, events } := one (.records s ..)

theorem setCommandState (s : Store) (id : CommandId) (next : CommandState) :
    Writes P N s (s.setCommandState id next) :=
  one (.commands s _ _ (fun _ => by rfl) fun _ => by rfl)

theorem setPlacementStateWhere (s : Store) (hp : P p) (allowed : PlacementState → Bool)
    {next : PlacementState} (hnext : N next) :
    Writes P N s (s.setPlacementStateWhere p allowed next now) := by
  refine one (.placements s _ _ (fun _ => by rfl) (fun x hx => ?_) (fun _ => .inr hnext)
    fun _ => ⟨rfl, rfl, rfl, rfl⟩)
  simp only [Bool.and_eq_true, beq_iff_eq] at hx
  rwa [hx.1]

theorem proveAbsent (s : Store) (hp : P p) (allowed : PlacementState → Bool) :
    Writes P N s (s.proveAbsent p allowed now) := by
  refine one (.placements s _ _ (fun _ => by rfl) (fun x hx => ?_) (fun _ => .inl (by rfl))
    fun _ => ⟨rfl, rfl, rfl, rfl⟩)
  simp only [Bool.and_eq_true, beq_iff_eq] at hx
  rwa [hx.1]

theorem releaseAllocations (s : Store) : Writes P N s (s.releaseAllocations p now) :=
  one (.allocations s _ _ (fun _ => by rfl) fun _ _ => ⟨rfl, rfl, rfl, rfl, fun _ => rfl⟩)

theorem release (s : Store) (hp : P p) : Writes P N s (s.release p now) :=
  (proveAbsent s hp _).trans (releaseAllocations _)

theorem commitAllocations (s : Store) : Writes P N s (s.commitAllocations p now) :=
  one (.allocations s _ _ (fun _ => by rfl) fun a ha =>
    ⟨rfl, rfl, rfl, rfl, fun hr => by simp [hr] at ha⟩)

theorem eraseBootstrap (s : Store) : Writes P N s (s.eraseBootstrap p now) := records s ..

theorem auditAndEvent (h : Writes P N s t) (e : AuditEvent) : Writes P N s (t.auditAndEvent e) :=
  h.trans (records t ..)

theorem fail (s : Store) (hp : P p) (allowed : PlacementState → Bool) (hN : N .failed) :
    Writes P N s (((s.eraseBootstrap p now).release p now).setPlacementStateWhere p allowed
      .failed now) :=
  (eraseBootstrap s).trans ((release _ hp).trans (setPlacementStateWhere _ hp allowed hN))

/-- A result starts no placement, and only a successful start runs one. -/
theorem applyToPlacement (s : Store) (hp : P p) {kind : CommandKind} {outcome : CommandOutcome}
    (hN : ∀ st, st ≠ .starting →
      (st = .running → kind = .startRunner ∧ outcome.commandState = .succeeded) → N st) :
    Writes P N s (s.applyToPlacement p kind outcome now) := by
  have hend : ∀ (t : Store) {next}, N next →
      Writes P N t ((t.release p now).setPlacementState p next now) := fun t next hnext =>
    (release t hp).trans (setPlacementStateWhere _ hp _ hnext)
  unfold Store.applyToPlacement
  have herase : Writes P N s
      (if kind = .startRunner ∧ !outcome.isProgress then s.eraseBootstrap p now else s) := by
    split
    · exact eraseBootstrap s
    · exact refl s
  refine herase.trans ?_
  generalize (if kind = .startRunner ∧ !outcome.isProgress then s.eraseBootstrap p now else s) = t
  split
  case h_4 => exact (commitAllocations t).trans (setPlacementStateWhere _ hp _
                (hN _ (by decide) fun _ => ⟨rfl, rfl⟩))
  case h_6 => split
              · exact hend t (hN _ (by decide) (by simp))
              · exact refl t
  all_goals first
    | exact refl t
    | exact setPlacementStateWhere t hp _ (hN _ (by decide) (by simp))
    | exact hend t (hN _ (by decide) (by simp))

theorem applyResult (s : Store) (hc : ∀ p, c.placementId = some p → P p) (late : Bool)
    {outcome : CommandOutcome} (hN : ∀ st, st ≠ .starting →
      (st = .running → c.kind = .startRunner ∧ outcome.commandState = .succeeded) → N st) :
    Writes P N s (s.applyResult c late outcome now) := by
  unfold Store.applyResult
  split
  · exact refl s
  next p hp =>
  have happly : Writes P N s (s.applyToPlacement p c.kind outcome now) :=
    applyToPlacement s (hc p hp) hN
  split
  · exact happly
  split
  · exact happly.trans (setPlacementStateWhere _ (hc p hp) _ (hN _ (by decide) (by simp)))
  · exact refl s

theorem recordCommandResult {H : Hashing} {auth : AuthenticatedHost} {result : AgentCommandResult}
    {disposition : ResultDisposition}
    (h : s.recordCommandResult H auth result now = .ok (disposition, t)) :
    Writes (s.HasCommand auth.hostId) (· ≠ .starting) s t := by
  obtain ⟨c, hc, hhost, -, ⟨-, -, -, rfl⟩ | ⟨-, results, -, ⟨-, -, rfl⟩ | ⟨-, -, rfl⟩⟩⟩ :=
    Store.recordCommandResult_cases h
  · exact refl _
  · exact records s ..
  · let v := ({ s with results } : Store).setCommandState c.id result.outcome.commandState
    refine auditAndEvent (.trans (t := { s with results }) (records s ..) ?_) _
    refine .trans (t := v) (setCommandState ..) ?_
    refine .trans (t := v.recordAttempt c result.outcome.commandState now) (records v ..) ?_
    exact applyResult _ (fun p hp => ⟨c, Table.mem_of_find hc, hhost, hp⟩) _ fun _ h _ => h

/-! ## Commands that never arrived, or no longer can -/

theorem losePlacement (s : Store) (hc : ∀ p, c.placementId = some p → P p) (hN : N .failed) :
    Writes P N s (Store.losePlacement now s c) := by
  unfold Store.losePlacement
  split
  · exact refl s
  next p hp =>
  split
  · exact fail s (hc p hp) _ hN
  · exact refl s

theorem settleRow (s : Store) (hostId : HostId) (hc : ∀ p, c.placementId = some p → P p)
    (hN : N .failed) : Writes P N s (Store.settleRow hostId now s c) := by
  have hcancelled : Writes P N s (s.setCommandState c.id .cancelled) := setCommandState ..
  exact (hcancelled.auditAndEvent _).trans (losePlacement _ hc hN)

theorem resumeTouched (s : Store) (hp : P p) (hrunning : N .running) (huncertain : N .uncertain) :
    Writes P N s (Store.resumeTouched now s p) := by
  unfold Store.resumeTouched Store.keepUncertainWhileUnsettled
  exact (setPlacementStateWhere s hp _ hrunning).trans (setPlacementStateWhere _ hp _ huncertain)

theorem settleUnreceived (s : Store) (hostId : HostId) (epoch : Nat) (session : SessionId)
    (now : Millis) : Writes (s.HasCommand hostId) (· ≠ .starting) s
      (s.settleUnreceived hostId epoch session now) := by
  have hrow : ∀ c ∈ s.unreceived hostId epoch session, ∀ p, c.placementId = some p →
      s.HasCommand hostId p := by
    intro c hc p hp
    obtain ⟨hc, hhost, -⟩ := Store.mem_unreceived.mp hc
    exact ⟨c, hc, hhost, hp⟩
  refine .trans (foldl_rel_mem refl (fun _ _ _ => trans) (fun t c hc => ?_) s)
    (foldl_rel_mem refl (fun _ _ _ => trans) (fun t p hp => ?_) _)
  · exact settleRow t hostId (hrow c hc) (by decide)
  · obtain ⟨c, hc, htouched⟩ := List.mem_filterMap.mp hp
    unfold Store.touchedBy at htouched
    split at htouched
    · cases htouched
    · exact resumeTouched t (hrow c hc p htouched) (by decide) (by decide)

theorem expirePlacement (s : Store) (hc : ∀ p, c.placementId = some p → P p)
    (huncertain : N .uncertain) (hfailed : N .failed) :
    Writes P N s (Store.expirePlacement now s c) := by
  unfold Store.expirePlacement
  split
  · exact refl s
  next p hp =>
  split
  · exact refl s
  split
  · exact setPlacementStateWhere s (hc p hp) _ huncertain
  split
  · exact fail s (hc p hp) _ hfailed
  · exact refl s

theorem cancelRow (s : Store) (hc : ∀ p, c.placementId = some p → P p) (huncertain : N .uncertain)
    (hfailed : N .failed) : Writes P N s (Store.cancelRow now s c) :=
  (setCommandState s c.id _).trans (expirePlacement _ hc huncertain hfailed)

theorem cancelUndeliverable (s : Store) (hostId : HostId) (now : Millis) :
    Writes (s.HasCommand hostId) (fun st => st = .uncertain ∨ st = .failed) s
      (s.cancelUndeliverable hostId now) := by
  refine foldl_rel_mem refl (fun _ _ _ => trans) (fun t c hc => ?_) s
  obtain ⟨hfind, hhost, -⟩ := Store.mem_undeliverable hc
  exact cancelRow t (fun p hp => ⟨c, Table.mem_of_find hfind, hhost, hp⟩) (.inl rfl) (.inr rfl)

theorem pollCommands {auth : AuthenticatedHost} {session : SessionId}
    {cs : List AgentCommandEnvelope} (h : s.pollCommands auth session now = .ok (cs, t)) :
    Writes (s.HasCommand auth.hostId) (fun st => st = .uncertain ∨ st = .failed) s t := by
  rcases Store.pollCommands_cases h with ⟨-, rfl | rfl⟩ | ⟨c, -, -, -, -, -, rfl⟩
  · exact refl _
  · exact cancelUndeliverable s auth.hostId now
  · refine (cancelUndeliverable s auth.hostId now).trans (.trans (t := Store.markDelivered _ c) ?_
      (records _ ..))
    exact one (.commands _ _ _ (fun _ => by rfl) fun _ => by rfl)

theorem repairOne (user : UserId) (hostId : HostId) (now : Millis)
    (acc : Store × List PlacementId) (hp : ∀ x, acc.1.placements.find p = some x →
      x.hostId = hostId → x.state = .uncertain → P p) :
    Writes P (fun st => st = .running ∨ st = .failed) acc.1
      (Store.repairOne user hostId now acc p).1 := by
  obtain ⟨s, repaired⟩ := acc
  unfold Store.repairOne
  dsimp only
  split
  · next x h hx _ =>
    split
    · next huncertain =>
      have hP := hp x hx huncertain.1 huncertain.2
      refine auditAndEvent (.trans (t := s.cancelOpen p) ?_ ?_) _
      · exact one (.commands s _ _ (fun _ => by rfl) fun _ => by rfl)
      split
      · exact setPlacementStateWhere _ hP _ (.inl rfl)
      · exact fail _ hP _ (.inr rfl)
    · exact refl s
  · exact refl s

theorem abandonUnstarted {changed : Bool} (hp : P p) (hN : N .failed)
    (h : s.abandonUnstarted p now = .ok (changed, t)) : Writes P N s t := by
  unfold Store.abandonUnstarted at h
  split at h
  · cases h
    exact refl _
  · simp only at h
    split at h <;> cases h
    exact ((proveAbsent s hp _).trans (setPlacementStateWhere _ hp _ hN)).trans
      (releaseAllocations _)

end Writes

end Gridops.Fleet
