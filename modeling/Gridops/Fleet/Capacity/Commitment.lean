import Gridops.Lib.Ledger
import Gridops.Fleet.Capacity.Evolves

/-!
# No domain is over-committed

The allocations are a ledger whose accounts are the resource domains, a tree per host.
An admission posts the whole request to every domain from its backend's up to the root,
after each of them was found to have room; everything else closes entries, opens
accounts or raises budgets. So the ledger stays within the budgets
(`no_overcommitment`), through any interleaving of the transactions.
-/

namespace Gridops.Fleet

open Gridops.Lib

def allocationLedger (r : Resource) : Ledger Allocation DomainId Nat where
  account a := a.domainId
  isOpen a := a.state != .released
  amount a := a.amount.of r

namespace Store

def budgetOf (s : Store) (r : Resource) (d : DomainId) : Option Nat :=
  (s.domains.find d).map (·.budget.of r)

def parentIn (s : Store) (host : HostId) (d : DomainId) : Option (Option DomainId) :=
  ((s.domains.find d).filter (·.hostId == host)).map (·.parentDomainId)

def allocationsOf (s : Store) (p : PlacementId) : List Allocation :=
  s.allocations.rows.filter (·.placementId == p)

end Store

namespace FleetStore

/-- One allocation for the whole request in each domain from the backend's up to the root. -/
def Chained (z : FleetStore) (x : Placement) : Prop :=
  ∃ b chain, z.backends.find x.backendId = some b ∧ b.hostId = x.hostId ∧
    ToRoot (z.store.parentIn x.hostId) b.domainId chain ∧ chain.Nodup ∧
    (z.store.allocationsOf x.id).map (·.domainId) = chain ∧
    ∀ a ∈ z.store.allocationsOf x.id, a.amount = x.request

/-- The ledger is within the budgets, and each placement is charged along its chain. -/
structure Accounted (z : FleetStore) : Prop where
  within : ∀ r, (allocationLedger r).Within z.store.allocations.rows (z.store.budgetOf r)
  domain : ∀ a ∈ z.store.allocations, ∃ d, z.store.domains.find a.domainId = some d ∧
    d.hostId = a.hostId
  placement : ∀ a ∈ z.store.allocations, ∃ x ∈ z.store.placements, x.id = a.placementId
  chained : ∀ x ∈ z.store.placements, z.Chained x

end FleetStore

/-! ## Between admissions -/

theorem Allocation.Later.ledger {a b : Allocation} (h : a.Later b) (r : Resource) :
    (allocationLedger r).Later a b where
  account := h.domainId
  amount := by simp [allocationLedger, h.amount]
  isOpen hb := by
    simp only [allocationLedger, bne_iff_ne] at hb ⊢
    exact fun ha => hb (h.released ha)

namespace Store.Evolves

variable {s t : Store}

theorem find_domain (h : s.Evolves t) {k : DomainId} {d : ResourceDomain}
    (hd : s.domains.find k = some d) : ∃ e, t.domains.find k = some e ∧ d.Later e := by
  obtain ⟨e, he, hde⟩ := h.domains d (Table.mem_of_find hd)
  exact ⟨e, Table.find_some_iff.mpr ⟨he, hde.id.trans (Table.key_of_find hd)⟩, hde⟩

theorem parentIn (h : s.Evolves t) {host : HostId} {k : DomainId} {v : Option DomainId}
    (hv : s.parentIn host k = some v) : t.parentIn host k = some v := by
  obtain ⟨d, hfilter, rfl⟩ := Option.map_eq_some_iff.mp hv
  obtain ⟨hd, hhost⟩ := Option.filter_eq_some_iff.mp hfilter
  obtain ⟨e, he, hde⟩ := h.find_domain hd
  have hhost' : (e.hostId == host) = true := by rw [hde.hostId]; exact hhost
  simp [Store.parentIn, he, Option.filter, hhost', hde.parentDomainId]

theorem allocationsOf (h : s.Evolves t) (p : PlacementId) :
    List.Forall₂ Allocation.Later (s.allocationsOf p) (t.allocationsOf p) := by
  refine List.rel_filter (fun a b hab => ?_) h.allocations
  simp [hab.placementId]

theorem within (h : s.Evolves t) {r : Resource}
    (hdomain : ∀ a ∈ s.allocations, ∃ d, s.domains.find a.domainId = some d)
    (hs : (allocationLedger r).Within s.allocations.rows (s.budgetOf r)) :
    (allocationLedger r).Within t.allocations.rows (t.budgetOf r) := by
  refine (hs.raise ?_).later (h.allocations.imp fun _ _ hab => hab.ledger r)
  intro k b' hb'
  obtain ⟨e, he, rfl⟩ := Option.map_eq_some_iff.mp hb'
  cases hd : s.domains.find k with
  | some d =>
    obtain ⟨e', he', hde⟩ := h.find_domain hd
    cases he.symm.trans he'
    exact .inl ⟨_, by rw [Store.budgetOf, hd, Option.map_some], hde.budget r⟩
  | none =>
    refine .inr fun a ha hak => ?_
    obtain ⟨d, hda⟩ := hdomain a ha
    have hkd : s.domains.find k = some d := hak ▸ hda
    rw [hd] at hkd
    cases hkd

end Store.Evolves

/-- **Whatever admits nothing keeps the accounts.** -/
theorem FleetStore.Accounted.grows {z z' : FleetStore} (hz : z.Accounted) (h : z.Grows z') :
    z'.Accounted where
  within r := h.store.within (fun a ha => (hz.domain a ha).imp fun _ hd => hd.1) (hz.within r)
  domain b hb := by
    obtain ⟨a, ha, hab⟩ := forall₂_mem_right h.store.allocations hb
    obtain ⟨d, hd, hhost⟩ := hz.domain a ha
    obtain ⟨e, he, hde⟩ := h.store.find_domain hd
    exact ⟨e, hab.domainId ▸ he, hde.hostId.trans (hhost.trans hab.hostId.symm)⟩
  placement b hb := by
    obtain ⟨a, ha, hab⟩ := forall₂_mem_right h.store.allocations hb
    obtain ⟨x, hx, hid⟩ := hz.placement a ha
    obtain ⟨y, hy, hxy⟩ := forall₂_mem_left h.store.placements hx
    exact ⟨y, hy, hxy.id.trans (hid.trans hab.placementId.symm)⟩
  chained y hy := by
    obtain ⟨x, hx, hxy⟩ := forall₂_mem_right h.store.placements hy
    obtain ⟨b, chain, hb, hhost, hroot, hnodup, hdomains, hamounts⟩ := hz.chained x hx
    have hlater := h.store.allocationsOf x.id
    refine ⟨b, chain, hxy.backendId ▸ h.backends _ _ hb, hhost.trans hxy.hostId.symm, ?_, hnodup,
      ?_, ?_⟩
    · rw [hxy.hostId]
      exact hroot.mono fun _ _ => h.store.parentIn
    · rw [hxy.id, ← hdomains, eq_comm, ← List.forall₂_eq_eq_eq, List.forall₂_map_left_iff,
        List.forall₂_map_right_iff]
      exact hlater.imp fun _ _ hab => hab.domainId.symm
    · intro a' ha'
      rw [hxy.id] at ha'
      obtain ⟨a, ha, hab⟩ := forall₂_mem_right hlater ha'
      exact hab.amount.trans ((hamounts a ha).trans hxy.request.symm)

/-! ## Finding room -/

namespace Store

variable {s t : Store} {host : HostId}

variable {path : List ResourceDomain} {sum : ResourceRequest} {now : Millis}

/-- The path is the chain to the host's root, and no domain is on it twice. -/
theorem climbDomains_ok {depth : Nat} {seen : List DomainId} {id : DomainId}
    (h : s.climbDomains host depth seen id = .ok path) :
    ToRoot (s.parentIn host) id (path.map (·.id)) ∧ (path.map (·.id)).Nodup ∧
      (∀ d ∈ path, d.id ∉ seen) ∧ ∀ d ∈ path, s.domains.find d.id = some d ∧ d.hostId = host := by
  induction depth generalizing seen id path with
  | zero => cases h
  | succ depth ih =>
    unfold climbDomains at h
    split at h
    · cases h
    next hseen =>
    split at h
    · cases h
    next d hfilter =>
    obtain ⟨hd, hhost⟩ := Option.filter_eq_some_iff.mp hfilter
    have hid : d.id = id := Table.key_of_find hd
    have hfound : s.domains.find d.id = some d ∧ d.hostId = host :=
      ⟨hid ▸ hd, by simpa using hhost⟩
    split at h
    · next hparent =>
      cases h
      have hroot : s.parentIn host id = some none := by simp [parentIn, hfilter, hparent]
      refine ⟨?_, List.nodup_singleton _, ?_, ?_⟩
      · simpa [hid] using ToRoot.root hroot
      · simpa [hid] using hseen
      · simpa using hfound
    · next parent hparent =>
      obtain ⟨rest, hrest, rfl⟩ := map_eq_ok h
      obtain ⟨hchain, hnodup, hfresh, hrows⟩ := ih hrest
      have hstep : s.parentIn host id = some (some parent) := by
        simp [parentIn, hfilter, hparent]
      refine ⟨?_, ?_, ?_, ?_⟩
      · simpa [hid] using ToRoot.step hstep hchain
      · refine List.nodup_cons.mpr ⟨fun hmem => ?_, hnodup⟩
        obtain ⟨e, he, heq⟩ := List.mem_map.mp hmem
        exact hfresh e he (by simp [heq, hid])
      · intro e he
        rcases List.mem_cons.mp he with rfl | he
        · exact hid ▸ hseen
        · exact fun hmem => hfresh e he (List.mem_cons_of_mem _ hmem)
      · intro e he
        rcases List.mem_cons.mp he with rfl | he
        · exact hfound
        · exact hrows e he

theorem length_climbDomains {depth : Nat} {seen : List DomainId} {id : DomainId}
    (h : s.climbDomains host depth seen id = .ok path) : path.length ≤ depth := by
  induction depth generalizing seen id path with
  | zero => cases h
  | succ depth ih =>
    obtain ⟨-, h⟩ := guard_eq_ok h
    split at h
    · cases h
    split at h
    · cases h
      exact Nat.succ_le_succ (Nat.zero_le depth)
    · obtain ⟨rest, hrest, rfl⟩ := map_eq_ok h
      exact Nat.succ_le_succ (ih hrest)

theorem climbDomains_of_toRoot {depth : Nat} {seen ids : List DomainId} {id : DomainId}
    (h : ToRoot (s.parentIn host) id ids) (hnodup : ids.Nodup) (hseen : ∀ k ∈ ids, k ∉ seen)
    (hdepth : ids.length ≤ depth) : ∃ path, s.climbDomains host depth seen id = .ok path ∧
      path.map (·.id) = ids ∧ ∀ d ∈ path, s.domains.find d.id = some d := by
  induction h generalizing depth seen with
  | @root k hk =>
    obtain ⟨d, hd, hparent⟩ := Option.map_eq_some_iff.mp hk
    have hfind := (Option.filter_eq_some_iff.mp hd).1
    cases depth with
    | zero => cases hdepth
    | succ depth =>
      refine ⟨[d], ?_, congrArg (fun k => [k]) (Table.key_of_find hfind), ?_⟩
      · simp [climbDomains, hseen, hd, hparent]
      · simpa [Table.key_of_find hfind] using hfind
  | @step k p ks hk hrest ih =>
    obtain ⟨d, hd, hparent⟩ := Option.map_eq_some_iff.mp hk
    have hfind := (Option.filter_eq_some_iff.mp hd).1
    have hkey := Table.key_of_find hfind
    obtain ⟨hfresh, hks⟩ := List.nodup_cons.mp hnodup
    cases depth with
    | zero => cases hdepth
    | succ depth =>
      have hunseen : ∀ j ∈ ks, j ∉ k :: seen := by
        intro j hj hmem
        rcases List.mem_cons.mp hmem with rfl | hmem
        · exact hfresh hj
        · exact hseen j (List.mem_cons_of_mem k hj) hmem
      obtain ⟨rest, hclimb, hids, hrows⟩ := ih hks hunseen (Nat.le_of_succ_le_succ hdepth)
      refine ⟨d :: rest, ?_, by rw [List.map_cons, hkey, hids],
        List.forall_mem_cons.mpr ⟨?_, hrows⟩⟩
      · simp [climbDomains, hseen k List.mem_cons_self, hd, hparent, hclimb, Except.map]
      · rwa [hkey]

/-- **The path** is returned exactly when the chain of parents stays on the host, repeats no domain
and has at most 64. -/
theorem domainPath_iff (s : Store) (leaf : DomainId) (host : HostId) :
    (∀ path, s.domainPath leaf host = .ok path ↔
      ToRoot (s.parentIn host) leaf (path.map (·.id)) ∧ (path.map (·.id)).Nodup ∧
        path.length ≤ maxResourceDomainDepth ∧ ∀ d ∈ path, s.domains.find d.id = some d) ∧
    ((∃ path, s.domainPath leaf host = .ok path) ↔
      ∃ ids, ToRoot (s.parentIn host) leaf ids ∧ ids.Nodup ∧
        ids.length ≤ maxResourceDomainDepth) := by
  have hclimb : ∀ {ids}, ToRoot (s.parentIn host) leaf ids → ids.Nodup →
      ids.length ≤ maxResourceDomainDepth → ∃ path, s.domainPath leaf host = .ok path ∧
        path.map (·.id) = ids ∧ ∀ d ∈ path, s.domains.find d.id = some d :=
    fun hchain hnodup hdepth => climbDomains_of_toRoot hchain hnodup (by simp) hdepth
  refine ⟨fun path => ⟨fun h => ?_, ?_⟩, fun ⟨path, h⟩ => ?_, ?_⟩
  · obtain ⟨hchain, hnodup, -, hrows⟩ := climbDomains_ok h
    exact ⟨hchain, hnodup, length_climbDomains h, fun d hd => (hrows d hd).1⟩
  · rintro ⟨hchain, hnodup, hdepth, hrows⟩
    obtain ⟨path', hpath, hids, hrows'⟩ := hclimb hchain hnodup (by rwa [List.length_map])
    -- A row is found under its id, so the ids determine the rows.
    have hfinds : ∀ l : List ResourceDomain, (∀ d ∈ l, s.domains.find d.id = some d) →
        (l.map (·.id)).map s.domains.find = l.map some := fun l hl => by
      rw [List.map_map]
      exact List.map_congr_left hl
    have heq := hfinds path' hrows'
    rw [hids, hfinds path hrows] at heq
    rw [List.map_injective_iff.mpr (Option.some_injective _) heq, hpath]
  · obtain ⟨hchain, hnodup, -, -⟩ := climbDomains_ok h
    exact ⟨_, hchain, hnodup, by simpa using length_climbDomains h⟩
  · rintro ⟨ids, hchain, hnodup, hdepth⟩
    obtain ⟨path, hpath, -⟩ := hclimb hchain hnodup hdepth
    exact ⟨path, hpath⟩

theorem addAllocation_ok {row next : ResourceRequest} (h : addAllocation sum row = .ok next)
    (r : Resource) : next.of r = sum.of r + row.of r := by
  unfold addAllocation at h
  split at h
  · cases h
  split at h
  · cases h
  next hadd =>
  cases h
  simp only [ResourceRequest.checkedAdd, Option.ite_none_right_eq_some, Option.some.injEq] at hadd
  rw [← hadd.2]
  cases r <;> rfl

theorem foldlM_addAllocation {rows : List ResourceRequest} {start : ResourceRequest}
    (h : rows.foldlM addAllocation start = .ok sum) (r : Resource) :
    sum.of r = start.of r + (rows.map (·.of r)).sum := by
  induction rows generalizing start with
  | nil => cases h; rfl
  | cons row rows ih =>
    obtain ⟨next, hnext, h⟩ := bind_eq_ok h
    rw [ih h, List.map_cons, List.sum_cons, addAllocation_ok hnext r, Nat.add_assoc]

theorem aggregate_ok {rows : List ResourceRequest} (h : aggregate rows = .ok sum) (r : Resource) :
    sum.of r = (rows.map (·.of r)).sum := by
  rw [foldlM_addAllocation h r]
  cases r <;> exact Nat.zero_add _

theorem domainRefuses_none {request : ResourceRequest} {d : ResourceDomain}
    (h : s.domainRefuses host request d = .ok none) (r : Resource) :
    ((s.used host d).map (·.of r)).sum + request.of r ≤ d.budget.of r := by
  obtain ⟨sum, hsum, h⟩ := bind_eq_ok h
  split at h
  · cases h
  split at h
  · cases h
  next remaining hsub =>
  rw [← aggregate_ok hsum r]
  unfold ResourceRequest.checkedSub at hsub
  simp only [Option.ite_none_right_eq_some, Option.some.injEq] at hsub
  obtain ⟨⟨hcpu, hmem, hdisk⟩, rfl⟩ := hsub
  simp only [Except.ok.injEq, ite_eq_left_iff, reduceCtorEq, imp_false,
    ResourceRequest.fitsRequest, Bool.and_eq_true, decide_eq_true_eq] at h
  cases r <;> simp only [ResourceRequest.of] <;> omega

theorem firstRefusal_none {request : ResourceRequest}
    (h : s.firstRefusal host request path = .ok none) :
    ∀ d ∈ path, s.domainRefuses host request d = .ok none := by
  induction path with
  | nil => simp
  | cons d path ih =>
    obtain ⟨refusal, hrefuse, h⟩ := bind_eq_ok h
    split at h
    · cases h
    · intro e he
      rcases List.mem_cons.mp he with rfl | he
      · exact hrefuse
      · exact ih h e he

/-- No other host charges a domain, so its allocations add up to what is charged. -/
theorem sum_used (hdomain : ∀ a ∈ s.allocations, ∃ d, s.domains.find a.domainId = some d ∧
      d.hostId = a.hostId) {d : ResourceDomain} (hd : s.domains.find d.id = some d)
    (hhost : d.hostId = host) (r : Resource) :
    ((s.used host d).map (·.of r)).sum = (allocationLedger r).charge s.allocations.rows d.id := by
  have hfilter : (s.allocations.rows.filter fun a =>
      a.domainId == d.id && a.hostId == host && a.state != .released) =
      s.allocations.rows.filter fun a => a.domainId == d.id && a.state != .released := by
    refine List.filter_congr fun a ha => ?_
    by_cases hda : a.domainId = d.id
    · obtain ⟨e, he, hea⟩ := hdomain a ha
      cases hd.symm.trans (hda ▸ he)
      simp [hea.symm.trans hhost]
    · rw [beq_eq_false_iff_ne.mpr hda, Bool.false_and]
  rw [used, hfilter, List.map_map]
  rfl

/-! ## Admitting -/

theorem insertAllocations_ok {p : Placement} {fresh : Nat → AllocationId} {i : Nat}
    {allocations allocations' : Table Allocation.id}
    (h : insertAllocations p fresh now i allocations path = some allocations') :
    ∃ entries, allocations'.rows = allocations.rows ++ entries ∧
      entries.map (·.domainId) = path.map (·.id) ∧ ∀ a ∈ entries, a.placementId = p.id ∧
        a.hostId = p.hostId ∧ a.amount = p.request ∧ a.state = .reserved := by
  induction path generalizing i allocations with
  | nil =>
    cases h
    exact ⟨[], (List.append_nil _).symm, rfl, by simp⟩
  | cons d path ih =>
    unfold insertAllocations at h
    split at h
    · cases h
    obtain ⟨next, hins, h⟩ := Option.bind_eq_some_iff.mp h
    obtain ⟨entries, hrows, hdomains, hall⟩ := ih h
    refine ⟨⟨fresh i, p.id, p.hostId, d.id, p.request, .reserved, now, none⟩ :: entries, ?_, ?_, ?_⟩
    · rw [hrows, (Table.insert?_some.mp hins).2, List.append_assoc]
      rfl
    · rw [List.map_cons, List.map_cons, hdomains]
    · intro a ha
      rcases List.mem_cons.mp ha with rfl | ha
      · exact ⟨rfl, rfl, rfl, rfl⟩
      · exact hall a ha

theorem insertAdmission_ok {H : Hashing} {intent : Intent} {c : Candidate} {fresh : Fresh}
    (h : s.insertAdmission H intent c fresh now = .ok t) :
    ∃ path entries, s.domainPath c.domainId c.hostId = .ok path ∧ t.domains = s.domains ∧
      s.placements.insert? (placementFor intent c fresh.placement now) = some t.placements ∧
      t.allocations.rows = s.allocations.rows ++ entries ∧
      entries.map (·.domainId) = path.map (·.id) ∧ ∀ a ∈ entries,
        a.placementId = fresh.placement ∧ a.hostId = c.hostId ∧ a.amount = c.request ∧
        a.state = .reserved := by
  unfold insertAdmission at h
  simp only at h
  split at h
  · cases h
  next placements hplace =>
  obtain ⟨path, hpath, h⟩ := bind_eq_ok h
  split at h
  · cases h
  next allocations halloc =>
  obtain ⟨envelope, -, h⟩ := bind_eq_ok h
  obtain ⟨entries, hrows, hdomains, hall⟩ := insertAllocations_ok halloc
  unfold insertPrepare insertCommand at h
  split at h
  · next hcmd =>
    cases h
    split at hcmd
    · cases hcmd
    split at hcmd
    · cases hcmd
    split at hcmd <;> cases hcmd
    exact ⟨path, entries, hpath, rfl, hplace, hrows, hdomains, hall⟩
  · cases h
  · cases h

theorem admitOperation_ok {H : Hashing} {intent : Intent} {fresh : Fresh} {reason : Option String}
    {candidates : List Candidate} {outcome : AdmissionOutcome}
    (h : s.admitOperation H intent fresh now reason candidates = .ok (outcome, t)) :
    t = s ∨ ∃ c ∈ candidates, s.domainsFit c.domainId c.hostId c.request = .ok none ∧
      s.insertAdmission H intent c fresh now = .ok t := by
  induction candidates generalizing reason with
  | nil =>
    cases h
    exact .inl rfl
  | cons c candidates ih =>
    have hlater : ∀ {reason}, s.admitOperation H intent fresh now reason candidates
        = .ok (outcome, t) → t = s ∨ ∃ c' ∈ c :: candidates,
          s.domainsFit c'.domainId c'.hostId c'.request = .ok none ∧
          s.insertAdmission H intent c' fresh now = .ok t := fun h =>
      (ih h).imp_right fun ⟨c', hc', hrest⟩ => ⟨c', List.mem_cons_of_mem c hc', hrest⟩
    unfold admitOperation at h
    split at h
    · exact hlater h
    obtain ⟨refusal, hfit, h⟩ := bind_eq_ok h
    split at h
    · exact hlater h
    obtain ⟨t', hins, h⟩ := bind_eq_ok h
    cases h
    exact .inr ⟨c, List.mem_cons_self, hfit, hins⟩

end Store

namespace FleetStore

variable {z : FleetStore} {t : Store}

/-- The rows the candidate query returns: a backend in its domain, on a host in its
current epoch and session. -/
def offers (z : FleetStore) (c : Candidate) : Bool :=
  ((z.backends.find c.backendId).any fun b => b.hostId == c.hostId && b.domainId == c.domainId)
    && (z.store.hosts.find c.hostId).any fun h => h.epoch == c.hostEpoch
      && h.agentSessionId == some c.authoritySessionId
      && h.authorityIncarnation == some c.incarnation

/-- **An admission keeps the accounts**: it charges every domain of one chain once, and
each of them had room. -/
theorem Accounted.insertAdmission (hz : z.Accounted) {H : Hashing} {intent : Intent}
    {c : Candidate} {fresh : Fresh} {now : Millis} (hoffer : z.offers c)
    (hfit : z.store.domainsFit c.domainId c.hostId c.request = .ok none)
    (hins : z.store.insertAdmission H intent c fresh now = .ok t) :
    { z with store := t }.Accounted := by
  obtain ⟨path, entries, hpath, hdomains, hplace, hrows, hentries, hall⟩ :=
    Store.insertAdmission_ok hins
  obtain ⟨hchain, hnodup, -, hfound⟩ := Store.climbDomains_ok hpath
  have hroom : ∀ d ∈ path, z.store.domainRefuses c.hostId c.request d = .ok none := by
    obtain ⟨path', hpath', hfit⟩ := bind_eq_ok hfit
    cases hpath.symm.trans hpath'
    split at hfit
    · cases hfit
    exact Store.firstRefusal_none hfit
  -- no allocation of an earlier placement has the new placement's id
  have hnew : ∀ a ∈ z.store.allocations, a.placementId ≠ fresh.placement := by
    intro a ha heq
    obtain ⟨x, hx, hid⟩ := hz.placement a ha
    exact (Table.insert?_some.mp hplace).1
      (List.mem_map.mpr ⟨x, hx, hid.trans heq⟩)
  have hof : ∀ p, t.allocationsOf p = z.store.allocationsOf p ++
      entries.filter (·.placementId == p) := by
    intro p
    rw [Store.allocationsOf, hrows, List.filter_append]
    rfl
  have hparent : ∀ host k, t.parentIn host k = z.store.parentIn host k := by
    intro host k
    rw [Store.parentIn, hdomains]
    rfl
  refine { within := ?_, domain := ?_, placement := ?_, chained := ?_ }
  · intro r
    have hbudget : t.budgetOf r = z.store.budgetOf r := by
      funext k
      rw [Store.budgetOf, hdomains]
      rfl
    rw [hrows, hbudget]
    refine (hz.within r).post (w := c.request.of r) ?_ ?_ ?_
    · rw [show entries.map (allocationLedger r).account = entries.map (·.domainId) from rfl,
        hentries]
      exact hnodup
    · intro a ha
      obtain ⟨-, -, hamount, hstate⟩ := hall a ha
      exact ⟨by simp [allocationLedger, hstate], by simp [allocationLedger, hamount]⟩
    · intro k hk b hb
      rw [show entries.map (allocationLedger r).account = entries.map (·.domainId) from rfl,
        hentries] at hk
      obtain ⟨d, hd, rfl⟩ := List.mem_map.mp hk
      obtain ⟨hdfind, hdhost⟩ := hfound d hd
      rw [Store.budgetOf, hdfind, Option.map_some, Option.some.injEq] at hb
      rw [← hb, ← Store.sum_used hz.domain hdfind hdhost r]
      exact Store.domainRefuses_none (hroom d hd) r
  · intro a ha
    rw [← Table.mem_rows, hrows, List.mem_append] at ha
    rw [hdomains]
    rcases ha with ha | ha
    · exact hz.domain a ha
    · have hmem : a.domainId ∈ path.map (·.id) := hentries ▸ List.mem_map_of_mem ha
      obtain ⟨d, hd, hid⟩ := List.mem_map.mp hmem
      obtain ⟨hdfind, hdhost⟩ := hfound d hd
      exact ⟨d, hid ▸ hdfind, hdhost.trans (hall a ha).2.1.symm⟩
  · intro a ha
    rw [← Table.mem_rows, hrows, List.mem_append] at ha
    rcases ha with ha | ha
    · obtain ⟨x, hx, hid⟩ := hz.placement a ha
      exact ⟨x, (Table.mem_insert? hplace).mpr (.inl hx), hid⟩
    · exact ⟨_, (Table.mem_insert? hplace).mpr (.inr rfl), (hall a ha).1.symm⟩
  · intro x hx
    rcases (Table.mem_insert? hplace).mp hx with hx | rfl
    · have hother : entries.filter (·.placementId == x.id) = [] := by
        refine List.filter_eq_nil_iff.mpr fun a ha heq => ?_
        exact (Table.insert?_some.mp hplace).1 (List.mem_map.mpr
          ⟨x, hx, (beq_iff_eq.mp heq).symm.trans (hall a ha).1⟩)
      obtain ⟨b, chain, hb, hhost, hroot, hnd, hdoms, hamounts⟩ := hz.chained x hx
      refine ⟨b, chain, hb, hhost, hroot.mono fun k v hv => (hparent _ k).trans hv, hnd, ?_, ?_⟩
      · rw [hof, hother, List.append_nil, hdoms]
      · rw [hof, hother, List.append_nil]
        exact hamounts
    · have hmine : t.allocationsOf fresh.placement = entries := by
        have hnone : z.store.allocationsOf fresh.placement = [] :=
          List.filter_eq_nil_iff.mpr fun a ha heq => hnew a ha (beq_iff_eq.mp heq)
        rw [hof, hnone, List.nil_append, List.filter_eq_self]
        exact fun a ha => beq_iff_eq.mpr (hall a ha).1
      simp only [offers, Bool.and_eq_true, Option.any_eq_true, beq_iff_eq] at hoffer
      obtain ⟨⟨b, hb, hbhost, hbdomain⟩, -⟩ := hoffer
      refine ⟨b, path.map (·.id), hb, hbhost, ?_, hnodup, ?_, ?_⟩
      · rw [hbdomain]
        exact hchain.mono fun k v hv => (hparent _ k).trans hv
      · exact (congrArg _ hmine).trans hentries
      · intro a ha
        exact (hall a (hmine ▸ ha)).2.2.1

end FleetStore

/-! ## The fleet as a machine -/

inductive FleetStep
  | call (op : Op)
  | inventory (host : HostId) (report : InventoryReport) (freshDomain : String → DomainId)
      (freshBackend : String → BackendId)
  | admission (intent : Intent) (candidates : List Candidate) (fresh : Fresh) (now : Millis)
  | enroll (host : HostId) (root : DomainId)
  | elsewhere (z : FleetStore)

namespace FleetStore

def insertRoot (s : Store) (host : HostId) (root : DomainId) : Option Store :=
  if s.domains.rows.any fun d => d.hostId == host && d.parentDomainId.isNone then none
  else (s.domains.insert? ⟨root, host, none, ⟨0, 0, 0⟩⟩).map fun domains => { s with domains }

def leavesCapacity (z z' : FleetStore) : Bool :=
  z.store.placements == z'.store.placements && z.store.allocations == z'.store.allocations
    && z.store.domains == z'.store.domains && z.backends == z'.backends

def step (H : Hashing) (z : FleetStore) : FleetStep → Option FleetStore
  | .call op => some { z with store := z.store.exec H op }
  | .inventory host report freshDomain freshBackend =>
    (z.reconcileInventory host report freshDomain freshBackend).toOption
  | .admission intent candidates fresh now =>
    (z.store.admitOperation H intent fresh now none (candidates.filter z.offers)).toOption.map
      fun (_, store) => { z with store }
  | .enroll host root => (insertRoot z.store host root).map fun store => { z with store }
  | .elsewhere z' => if z.leavesCapacity z' then some z' else none

end FleetStore

def fleet (H : Hashing) : Machine FleetStore FleetStep where
  step := FleetStore.step H

namespace FleetStore

variable {z z' : FleetStore} {H : Hashing}

theorem insertRoot_evolves {s t : Store} {host : HostId} {root : DomainId}
    (h : insertRoot s host root = some t) : s.Evolves t := by
  unfold insertRoot at h
  split at h
  · cases h
  obtain ⟨domains, hins, rfl⟩ := Option.map_eq_some_iff.mp h
  exact { Store.Evolves.refl s with
    domains := fun d hd => ⟨d, (Table.mem_insert? hins).mpr (.inl hd), .refl d⟩ }

/-- **Every transaction keeps the accounts.** -/
theorem Accounted.step (hz : z.Accounted) {a : FleetStep}
    (hstep : (fleet H).step z a = some z') : z'.Accounted := by
  cases a with
  | call op =>
    cases hstep
    exact hz.grows ⟨Store.Evolves.exec H z.store op, fun _ _ h => h⟩
  | inventory host report freshDomain freshBackend =>
    exact hz.grows (reconcileInventory_grows (ok_of_toOption hstep))
  | admission intent candidates fresh now =>
    obtain ⟨⟨outcome, t⟩, hadmit, rfl⟩ := Option.map_eq_some_iff.mp hstep
    rcases Store.admitOperation_ok (ok_of_toOption hadmit) with rfl | ⟨c, hc, hfit, hins⟩
    · exact hz
    · exact hz.insertAdmission (List.mem_filter.mp hc).2 hfit hins
  | enroll host root =>
    obtain ⟨t, hroot, rfl⟩ := Option.map_eq_some_iff.mp hstep
    exact hz.grows ⟨insertRoot_evolves hroot, fun _ _ h => h⟩
  | elsewhere w =>
    simp only [fleet, FleetStore.step, Option.ite_none_right_eq_some, Option.some.injEq,
      leavesCapacity, Bool.and_eq_true, beq_iff_eq] at hstep
    obtain ⟨⟨⟨⟨hp, ha⟩, hd⟩, hb⟩, rfl⟩ := hstep
    exact hz.grows ⟨.of_eq ha.symm hp.symm hd.symm, fun id b h => hb ▸ h⟩

theorem Accounted.initial (hp : z.store.placements.rows = [])
    (ha : z.store.allocations.rows = []) : z.Accounted where
  within r k b _ := by
    rw [ha]
    exact Nat.zero_le b
  domain a h := by
    rw [← Table.mem_rows, ha] at h
    cases h
  placement a h := by
    rw [← Table.mem_rows, ha] at h
    cases h
  chained x h := by
    rw [← Table.mem_rows, hp] at h
    cases h

end FleetStore

/-- **No over-commitment**, and every placement is charged once for its whole request in each domain
from its backend's to the root. -/
theorem no_overcommitment {H : Hashing} {z₀ z : FleetStore} {steps : List FleetStep}
    (hp : z₀.store.placements.rows = []) (ha : z₀.store.allocations.rows = [])
    (hrun : (fleet H).Run z₀ steps z) :
    (∀ d ∈ z.store.domains, ∀ r, ((z.store.allocations.rows.filter fun a =>
        a.domainId == d.id && a.state != .released).map fun a => a.amount.of r).sum ≤
      d.budget.of r) ∧
    ∀ x ∈ z.store.placements, z.Chained x := by
  have hz : z.Accounted :=
    hrun.inv (fun _ _ _ _ hstep hz => hz.step hstep) (.initial hp ha)
  refine ⟨fun d hd r => ?_, hz.chained⟩
  exact hz.within r d.id _ (by rw [Store.budgetOf, Table.find_key hd, Option.map_some])

namespace Sample

def emptyFleet : FleetStore where
  store :=
    { Store.empty with
      hosts := store.hosts
      domains := ⟨[⟨1, 1, none, ⟨0, 0, 0⟩⟩], by decide⟩ }
  backends := .empty
  observedDomains := .empty
  observedBackends := .empty

def machineReport : InventoryReport where
  domains := [⟨"vm", some "host", .virtualMachine, none, none, ⟨some 4000, some 4096, some 0⟩⟩,
    ⟨"host", none, .physical, none, none, ⟨some 8000, some 8192, some 0⟩⟩]
  backends := [⟨"docker", "vm", .docker, .linux, .x64, none, none⟩]
  domainKeys := by decide

def vmCandidate : Candidate := ⟨1, 1, 2, 1, 10, 7, 1, request, prepare, none⟩

def admissions : List FleetStep :=
  [.inventory 1 machineReport (fun _ => 2) (fun _ => 1),
    .admission ⟨1, 1⟩ [vmCandidate] ⟨1, 1, fun i => i + 1⟩ 1000,
    .call (.poll auth 10 2000),
    .admission ⟨2, 1⟩ [vmCandidate] ⟨2, 2, fun i => i + 3⟩ 3000]

end Sample

theorem no_overcommitment_sample : ∃ z, (fleet Sample.hashing).exec Sample.emptyFleet
      Sample.admissions = some z ∧ z.store.allocations.rows.length = 4 ∧
    (∀ d ∈ z.store.domains, ∀ r, ((z.store.allocations.rows.filter fun a =>
        a.domainId == d.id && a.state != .released).map fun a => a.amount.of r).sum ≤
      d.budget.of r) ∧
    ∀ x ∈ z.store.placements, z.Chained x := by
  obtain ⟨z, hexec, hlength⟩ : ∃ z, (fleet Sample.hashing).exec Sample.emptyFleet
      Sample.admissions = some z ∧ z.store.allocations.rows.length = 4 := ⟨_, rfl, rfl⟩
  exact ⟨z, hexec, hlength, no_overcommitment rfl rfl (Machine.run_iff_exec.mpr hexec)⟩

end Gridops.Fleet
