import Gridops.Fleet.Capacity.Commitment

/-!
# Work stays with its host

A command is for a placement of its own host (`Owned`, the foreign key of
`host_commands`), and no transaction gives a placement or a command to another host. So a
transaction that handles the commands of one host moves placements of that host only:
`WorkStep P` says that it moves those in `P`, and each lemma below says which they are.
-/

namespace Gridops.Fleet

open Gridops.Lib

/-- Every command about a placement is for the host the placement is on. -/
def Owned (s : Store) : Prop :=
  ∀ c ∈ s.commands, ∀ p, c.placementId = some p → ∃ x ∈ s.placements, x.id = p ∧ x.hostId = c.hostId

def Store.IsUnconfirmed (s : Store) (hostId : HostId) (p : PlacementId) : Prop :=
  ∃ x ∈ s.placements, x.id = p ∧ x.hostId = hostId ∧ x.state = .uncertain

/-- A write that moves at most the placements in `P` and changes no owner. -/
structure WorkStep (P : PlacementId → Prop) (s t : Store) : Prop where
  placements : List.Forall₂ (fun x y : Placement => y.id = x.id ∧ y.hostId = x.hostId ∧
    (¬ P x.id → y = x)) s.placements.rows t.placements.rows
  commands : List.Forall₂ (fun c d : Command => d.hostId = c.hostId ∧
    d.placementId = c.placementId) s.commands.rows t.commands.rows

namespace WorkStep

variable {P : PlacementId → Prop} {s t u : Store} {p : PlacementId} {now : Millis}

theorem of_eq (hp : t.placements = s.placements) (hc : t.commands = s.commands) :
    WorkStep P s t where
  placements := hp ▸ List.forall₂_same.mpr fun _ _ => ⟨rfl, rfl, fun _ => rfl⟩
  commands := hc ▸ List.forall₂_same.mpr fun _ _ => ⟨rfl, rfl⟩

theorem refl (s : Store) : WorkStep P s s := of_eq rfl rfl

theorem trans (h₁ : WorkStep P s t) (h₂ : WorkStep P t u) : WorkStep P s u where
  placements := by
    refine forall₂_trans (fun x y z hxy hyz => ?_) h₁.placements h₂.placements
    refine ⟨hyz.1.trans hxy.1, hyz.2.1.trans hxy.2.1, fun hx => ?_⟩
    exact (hyz.2.2 (by rwa [hxy.1])).trans (hxy.2.2 hx)
  commands := forall₂_trans (fun _ _ _ hxy hyz => ⟨hyz.1.trans hxy.1, hyz.2.trans hxy.2⟩)
    h₁.commands h₂.commands

theorem owned (h : WorkStep P s t) (hs : Owned s) : Owned t := by
  intro d hd p hp
  obtain ⟨c, hc, hhost, hplacement⟩ := forall₂_mem_right h.commands hd
  obtain ⟨x, hx, hid, hx'⟩ := hs c hc p (hplacement ▸ hp)
  obtain ⟨y, hy, hyid, hyhost, -⟩ := forall₂_mem_left h.placements hx
  exact ⟨y, hy, hyid.trans hid, hyhost.trans (hx'.trans hhost.symm)⟩

theorem mem_of_spared (h : WorkStep P s t) {y : Placement} (hy : y ∈ t.placements)
    (hP : ∀ x ∈ s.placements, x.id = y.id → x.hostId = y.hostId → ¬ P x.id) :
    y ∈ s.placements := by
  obtain ⟨x, hx, hid, hhost, hsame⟩ := forall₂_mem_right h.placements hy
  rwa [hsame (hP x hx hid.symm hhost.symm)]

theorem of_placements {q : Placement → Bool} {f : Placement → Placement}
    {hf : ∀ x, (f x).id = x.id} (hq : ∀ x, q x → P x.id) (hhost : ∀ x, (f x).hostId = x.hostId) :
    WorkStep P s { s with placements := s.placements.update q f hf } where
  placements := Table.forall₂_update hf (fun _ => ⟨rfl, rfl, fun _ => rfl⟩)
    fun x hx => ⟨hf x, hhost x, fun hnot => absurd (hq x hx) hnot⟩
  commands := (refl (P := P) s).commands

theorem of_commands {q : Command → Bool} {f : Command → Command} {hf : ∀ c, (f c).id = c.id}
    (hrow : ∀ c, (f c).hostId = c.hostId ∧ (f c).placementId = c.placementId) :
    WorkStep P s { s with commands := s.commands.update q f hf } where
  placements := (refl s).placements
  commands := Table.forall₂_update hf (fun _ => ⟨rfl, rfl⟩) fun c _ => hrow c

theorem of_writes {N : PlacementState → Prop} (h : Writes P N s t) : WorkStep P s t := by
  refine h.rel refl (fun _ _ _ => trans) fun s t hw => ?_
  cases hw with
  | records => exact of_eq rfl rfl
  | commands q f hf hsame => exact of_commands fun c => by rw [hsame c]; exact ⟨rfl, rfl⟩
  | placements q f hf hq _ hlater => exact of_placements hq fun x => (hlater x).hostId
  | allocations => exact of_eq rfl rfl

theorem repairUnconfirmed (s : Store) (user : UserId) (hostId : HostId)
    (placements : List PlacementId) (now : Millis) :
    WorkStep (s.IsUnconfirmed hostId) s (s.repairUnconfirmed user hostId placements now).1 := by
  suffices ∀ acc : Store × List PlacementId, WorkStep (s.IsUnconfirmed hostId) s acc.1 →
      WorkStep (s.IsUnconfirmed hostId) s
        (placements.foldl (Store.repairOne user hostId now) acc).1 from this (s, []) (refl s)
  induction placements with
  | nil => exact fun acc hacc => hacc
  | cons p placements ih =>
    refine fun acc hacc => ih _ ?_
    refine hacc.trans (of_writes (.repairOne user hostId now acc fun x hx hhost hstate => ?_))
    -- a placement the repair did not touch is still the one it started with
    obtain ⟨y, hy, hid, hyhost, hsame⟩ := forall₂_mem_right hacc.placements (Table.mem_of_find hx)
    have hyp : y.id = p := hid.symm.trans (Table.key_of_find hx)
    by_contra hnone
    rw [hyp] at hsame
    exact hnone ⟨y, hy, hyp, hyhost.symm.trans hhost, hsame hnone ▸ hstate⟩

end WorkStep

/-! ## Admissions -/

/-- What an admission writes: a placement on the host of a candidate, its charges, and a
prepare command for it. -/
theorem Store.insertAdmission_work {H : Hashing} {s t : Store} {intent : Intent} {c : Candidate}
    {fresh : Fresh} {now : Millis} (h : s.insertAdmission H intent c fresh now = .ok t) :
    ∃ placements allocations commands envelope, t = { s with placements, allocations, commands } ∧
      s.placements.insert? (placementFor intent c fresh.placement now) = some placements ∧
      s.commands.insert? (commandRow (placementFor intent c fresh.placement now) envelope now)
        = some commands ∧ envelope.operation.databaseKind = .prepareEnvironment := by
  unfold Store.insertAdmission at h
  dsimp only at h
  split at h
  · cases h
  next placements hplacement =>
  obtain ⟨path, -, h⟩ := bind_eq_ok h
  split at h
  · cases h
  obtain ⟨envelope, henvelope, h⟩ := bind_eq_ok h
  unfold prepareEnvelope at henvelope
  dsimp only at henvelope
  split at henvelope <;> cases henvelope
  next hseal =>
  obtain ⟨rfl, -⟩ := Store.sealHash_ok hseal
  unfold insertPrepare insertCommand at h
  split at h
  · next hcommand =>
    cases h
    split at hcommand
    · cases hcommand
    split at hcommand
    · cases hcommand
    split at hcommand
    · cases hcommand
    next hins =>
    cases hcommand
    exact ⟨_, _, _, _, rfl, hplacement, hins, rfl⟩
  · cases h
  · cases h

theorem Owned.insertAdmission {H : Hashing} {s t : Store} {intent : Intent} {c : Candidate}
    {fresh : Fresh} {now : Millis} (hs : Owned s)
    (h : s.insertAdmission H intent c fresh now = .ok t) : Owned t := by
  obtain ⟨placements, _, commands, envelope, rfl, hplacement, hcommand, -⟩ :=
    Store.insertAdmission_work h
  intro d hd p hp
  rcases (Table.mem_insert? hcommand).mp hd with hd | rfl
  · obtain ⟨x, hx, hown⟩ := hs d hd p hp
    exact ⟨x, (Table.mem_insert? hplacement).mpr (.inl hx), hown⟩
  · cases hp
    exact ⟨_, (Table.mem_insert? hplacement).mpr (.inr rfl), rfl, rfl⟩

end Gridops.Fleet
