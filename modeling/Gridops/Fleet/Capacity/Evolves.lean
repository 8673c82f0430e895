import Gridops.Fleet.Registry.Writes
import Gridops.Fleet.Admission

/-!
# How capacity evolves between admissions

`Store.Evolves` is what every transaction but an admission may do to capacity: an
allocation keeps its placement, domain and amount and never comes back once released,
a placement keeps its host, backend and request, and a domain keeps its place in the
tree and never loses budget.
-/

namespace Gridops.Fleet

open Gridops.Lib

structure ResourceDomain.Later (d e : ResourceDomain) : Prop where
  id : e.id = d.id
  hostId : e.hostId = d.hostId
  parentDomainId : e.parentDomainId = d.parentDomainId
  budget : ∀ r, d.budget.of r ≤ e.budget.of r

theorem Allocation.Later.refl (a : Allocation) : a.Later a :=
  ⟨rfl, rfl, rfl, rfl, fun h => h⟩

theorem Allocation.Later.trans {a b c : Allocation} (h₁ : a.Later b) (h₂ : b.Later c) :
    a.Later c where
  placementId := h₂.placementId.trans h₁.placementId
  hostId := h₂.hostId.trans h₁.hostId
  domainId := h₂.domainId.trans h₁.domainId
  amount := h₂.amount.trans h₁.amount
  released h := h₂.released (h₁.released h)

theorem Placement.Later.refl (x : Placement) : x.Later x := ⟨rfl, rfl, rfl, rfl⟩

theorem Placement.Later.trans {x y w : Placement} (h₁ : x.Later y) (h₂ : y.Later w) :
    x.Later w where
  id := h₂.id.trans h₁.id
  hostId := h₂.hostId.trans h₁.hostId
  backendId := h₂.backendId.trans h₁.backendId
  request := h₂.request.trans h₁.request

theorem ResourceDomain.Later.refl (d : ResourceDomain) : d.Later d :=
  ⟨rfl, rfl, rfl, fun _ => Nat.le_refl _⟩

theorem ResourceDomain.Later.trans {d e f : ResourceDomain} (h₁ : d.Later e) (h₂ : e.Later f) :
    d.Later f where
  id := h₂.id.trans h₁.id
  hostId := h₂.hostId.trans h₁.hostId
  parentDomainId := h₂.parentDomainId.trans h₁.parentDomainId
  budget r := (h₁.budget r).trans (h₂.budget r)

namespace Store

/-- What a transaction that admits nothing may do to capacity. -/
structure Evolves (s t : Store) : Prop where
  allocations : List.Forall₂ Allocation.Later s.allocations.rows t.allocations.rows
  placements : List.Forall₂ Placement.Later s.placements.rows t.placements.rows
  domains : ∀ d ∈ s.domains, ∃ e ∈ t.domains, d.Later e

namespace Evolves

variable {s t u : Store} {p : PlacementId} {now : Millis}

theorem of_eq (ha : t.allocations = s.allocations) (hp : t.placements = s.placements)
    (hd : t.domains = s.domains) : s.Evolves t where
  allocations := ha ▸ List.forall₂_same.mpr fun a _ => .refl a
  placements := hp ▸ List.forall₂_same.mpr fun x _ => .refl x
  domains d h := ⟨d, hd ▸ h, .refl d⟩

theorem refl (s : Store) : s.Evolves s := of_eq rfl rfl rfl

theorem trans (h₁ : s.Evolves t) (h₂ : t.Evolves u) : s.Evolves u where
  allocations := forall₂_trans (fun _ _ _ => .trans) h₁.allocations h₂.allocations
  placements := forall₂_trans (fun _ _ _ => .trans) h₁.placements h₂.placements
  domains d hd := by
    obtain ⟨e, he, hde⟩ := h₁.domains d hd
    obtain ⟨f, hf, hef⟩ := h₂.domains e he
    exact ⟨f, hf, hde.trans hef⟩

theorem of_placements {q : Placement → Bool} {f : Placement → Placement}
    {hf : ∀ x, (f x).id = x.id} (hrow : ∀ x : Placement, x.Later (f x)) :
    s.Evolves { s with placements := s.placements.update q f hf } where
  allocations := (refl s).allocations
  placements := Table.forall₂_update hf .refl fun x _ => hrow x
  domains := (refl s).domains

theorem of_allocations {q : Allocation → Bool} {f : Allocation → Allocation}
    {hf : ∀ a, (f a).id = a.id} (hrow : ∀ a : Allocation, q a → a.Later (f a)) :
    s.Evolves { s with allocations := s.allocations.update q f hf } where
  allocations := Table.forall₂_update hf .refl hrow
  placements := (refl s).placements
  domains := (refl s).domains

theorem of_writes {P : PlacementId → Prop} {N : PlacementState → Prop} (h : Writes P N s t) :
    s.Evolves t := by
  refine h.rel refl (fun _ _ _ => trans) fun s t hw => ?_
  cases hw with
  | records => exact of_eq rfl rfl rfl
  | commands => exact of_eq rfl rfl rfl
  | placements q f hf _ _ hlater => exact of_placements hlater
  | allocations q f hf hlater => exact of_allocations hlater

/-- **Every call of the registry only frees capacity.** -/
theorem exec (H : Hashing) (s : Store) (op : Op) : s.Evolves (s.exec H op) := by
  cases op with
  | poll auth session now => exact committed_rel (refl s) fun _ _ h => of_writes (.pollCommands h)
  | record auth result now =>
    exact committed_rel (refl s) fun _ _ h => of_writes (.recordCommandResult h)
  | settle host epoch session now => exact of_writes (.settleUnreceived s host epoch session now)
  | repair user host ps now =>
    refine foldl_rel (R := fun a b : Store × List PlacementId => a.1.Evolves b.1)
      (fun a => refl a.1) (fun _ _ _ => trans) (fun acc p => ?_) ps (s, [])
    exact of_writes (.repairOne (P := fun _ => True) user host now acc fun _ _ _ _ => trivial)
  | abandon p now =>
    exact committed_rel (refl s) fun _ _ h =>
      of_writes (.abandonUnstarted (P := fun _ => True) (N := fun _ => True) trivial trivial h)
  | issue p operation key ttl freshId now =>
    refine committed_rel (refl s) fun _ _ h => ?_
    rcases issueCommand_cases h with ⟨-, rfl⟩ | ⟨c, -, -, -, -, rfl⟩
    · exact refl _
    · exact of_eq rfl rfl rfl
  | markStarting p runner now => exact of_placements fun _ => ⟨rfl, rfl, rfl, rfl⟩
  | setState p current next now => exact of_placements fun _ => ⟨rfl, rfl, rfl, rfl⟩

end Evolves

end Store

namespace FleetStore

/-- What an inventory may do: a backend that is known stays as it is. -/
structure Grows (z z' : FleetStore) : Prop where
  store : z.store.Evolves z'.store
  backends : ∀ id b, z.backends.find id = some b → z'.backends.find id = some b

variable {z z' z'' : FleetStore} {s t : Store} {host : HostId}

theorem Grows.refl (z : FleetStore) : z.Grows z := ⟨.refl _, fun _ _ h => h⟩

theorem Grows.trans (h₁ : z.Grows z') (h₂ : z'.Grows z'') : z.Grows z'' :=
  ⟨h₁.store.trans h₂.store, fun id b h => h₂.backends id b (h₁.backends id b h)⟩

theorem insertDomain_evolves {id parent : DomainId} (h : insertDomain s host id parent = .ok t) :
    s.Evolves t := by
  unfold insertDomain at h
  split at h
  · cases h
  split at h
  · cases h
  next domains hins =>
  cases h
  exact { Store.Evolves.refl s with
    domains := fun d hd => ⟨d, (Table.mem_insert? hins).mpr (.inl hd), .refl d⟩ }

theorem attachDomain_evolves {id : DomainId} {known : List (String × DomainId)}
    {d : ObservedDomain} (h : attachDomain s host id known d = .ok t) : s.Evolves t := by
  unfold attachDomain at h
  split at h
  · cases h
    exact .refl _
  split at h
  · cases h
  split at h
  · exact insertDomain_evolves h
  split at h
  · cases h
  split at h <;> cases h
  exact .refl _

theorem fillBudget_evolves (s : Store) (host : HostId) (id : DomainId) (c : ObservedCapacity) :
    s.Evolves (fillBudget s host id c) where
  allocations := (Store.Evolves.refl s).allocations
  placements := (Store.Evolves.refl s).placements
  domains d hd := by
    have hmem : ∀ e, e ∈ (fillBudget s host id c).domains ↔ _ := fun e => by
      simp only [fillBudget, Table.mem_update]
      exact Iff.rfl
    refine ⟨_, (hmem _).mpr ⟨d, hd, rfl⟩, ?_⟩
    split
    · next hfill =>
      simp only [Bool.and_eq_true, beq_iff_eq] at hfill
      refine ⟨rfl, rfl, rfl, fun r => ?_⟩
      rw [hfill.1.1.2]
      cases r <;> exact Nat.zero_le _
    · exact .refl d

theorem reconcileDomain_grows {root : DomainId} {fresh : String → DomainId}
    {acc acc' : FleetStore × List (String × DomainId)} {d : ObservedDomain}
    (h : reconcileDomain host root fresh acc d = .ok acc') : acc.1.Grows acc'.1 := by
  obtain ⟨id, -, h⟩ := bind_eq_ok h
  obtain ⟨store, hattach, h⟩ := bind_eq_ok h
  obtain ⟨observed, -, h⟩ := bind_eq_ok h
  cases h
  exact ⟨(attachDomain_evolves hattach).trans (fillBudget_evolves _ _ _ _), fun _ _ hb => hb⟩

theorem upsertBackend_grows {fresh : String → BackendId} {known : List (String × DomainId)}
    {b : ObservedBackend} (h : upsertBackend host fresh known z b = .ok z') : z.Grows z' := by
  unfold upsertBackend at h
  split at h
  · cases h
  obtain ⟨id, -, h⟩ := bind_eq_ok h
  obtain ⟨backends, hattach, h⟩ := bind_eq_ok h
  obtain ⟨observed, -, h⟩ := bind_eq_ok h
  cases h
  refine ⟨.of_eq rfl rfl rfl, fun id' b' hb' => ?_⟩
  unfold attachBackend at hattach
  split at hattach
  · split at hattach <;> cases hattach
    exact hb'
  · split at hattach
    · cases hattach
    split at hattach
    · cases hattach
    next backends' hins =>
    cases hattach
    simp only [Table.find_insert? hins, hb', Option.some_or]

/-- **An inventory adds domains and backends and fills budgets, and takes nothing back.** -/
theorem reconcileInventory_grows {report : InventoryReport} {freshDomain : String → DomainId}
    {freshBackend : String → BackendId}
    (h : z.reconcileInventory host report freshDomain freshBackend = .ok z') : z.Grows z' := by
  obtain ⟨-, -, h⟩ := bind_eq_ok h
  split at h
  · cases h
  obtain ⟨acc, hdomains, h⟩ := bind_eq_ok h
  have hgrow := foldlM_rel (R := fun a b : FleetStore × List (String × DomainId) => a.1.Grows b.1)
    (fun a => .refl a.1) (fun _ _ _ => .trans) (fun _ _ _ => reconcileDomain_grows) hdomains
  exact hgrow.trans (foldlM_rel .refl (fun _ _ _ => .trans) (fun _ _ _ => upsertBackend_grows) h)

end FleetStore

end Gridops.Fleet
