import Gridops.Fleet.Admission

/-!
# Room on the machines of a pool

`Room` of `fleet/targets.rs` counts in runners what the machines of a platform still take.
A backend stands in a resource domain, and a runner on it draws on that domain and on all
above it. `slots` adds up what fits on each backend alone, `take` takes one runner's share
from every domain it draws on.

Backends of one machine share its domains, so the sum counts room twice that a runner takes
once. It is what can be placed exactly when each domain has room for all that fits on the
backends below it (`Apart`).
-/

namespace Gridops.Fleet

open Gridops.Lib

abbrev DomainKey := HostId × DomainId

structure RoomDomain where
  key : DomainKey
  parentDomainId : Option DomainId
  free : Resource → Int
  free_le : ∀ a, free a ≤ maxAmount

/-- `backends` and `request` go by the index of a platform. -/
structure Room where
  domains : Table RoomDomain.key
  backends : Nat → List DomainKey
  request : Nat → ResourceRequest

def maxByKey {α : Type} (key : α → Int) (l : List α) : Option α :=
  @List.argmax _ _ Int.instLinearOrder.toPreorder _ key l.reverse

def RoomDomain.minus (q : ResourceRequest) (d : RoomDomain) : RoomDomain where
  key := d.key
  parentDomainId := d.parentDomainId
  free a := d.free a - q.of a
  free_le a := (Int.sub_le_self _ (Int.natCast_nonneg _)).trans (d.free_le a)

theorem RoomDomain.key_minus (q : ResourceRequest) (d : RoomDomain) : (d.minus q).key = d.key := rfl

namespace Room

variable (r : Room)

/-- The loop of `path`. A path has no domain twice, so it ends within the number of domains. -/
def climb (host : HostId) : Nat → List DomainKey → DomainId → List DomainKey
  | 0, path, _ => path
  | fuel + 1, path, domain =>
    if (host, domain) ∈ path then path
    else
      match (r.domains.find (host, domain)).bind (·.parentDomainId) with
      | none => path ++ [(host, domain)]
      | some parent => climb host fuel (path ++ [(host, domain)]) parent

def path (backend : DomainKey) : List DomainKey :=
  r.climb backend.1 (r.domains.rows.length + 1) [] backend.2

def freeOf (d : DomainKey) (a : Resource) : Int :=
  ((r.domains.find d).map (·.free a)).getD 0

def axisFits (request free : Int) : Int :=
  if 0 < request then max free 0 / request else if 0 ≤ free then maxAmount else 0

def fits (i : Nat) (backend : DomainKey) : Int :=
  ((r.path backend).map fun d =>
    (([.cpuMillis, .memoryMib, .diskBytes] : List Resource).map fun a =>
      axisFits ((r.request i).of a) (r.freeOf d a)).min?.getD 0).min?.getD 0

def slots (i : Nat) : Int :=
  ((r.backends i).map (r.fits i)).foldl (fun sum n => min (sum + n) maxAmount) 0

/-- Takes one runner's share from every domain on the path. -/
def reserve (i : Nat) (backend : DomainKey) : Room :=
  { r with
    domains := r.domains.update (fun d => d.key ∈ r.path backend) (RoomDomain.minus (r.request i))
      (RoomDomain.key_minus (r.request i)) }

def take (i : Nat) : Room :=
  match maxByKey (r.fits i) ((r.backends i).filter fun b => 0 < r.fits i b) with
  | none => r
  | some backend => r.reserve i backend

/-- `n` calls of `take` in a row change the room, and the next one does not. -/
inductive Takes (i : Nat) : Room → Nat → Prop
  | done {r : Room} (h : r.take i = r) : Takes i r 0
  | more {r : Room} {n : Nat} (h : r.take i ≠ r) (hn : Takes i (r.take i) n) : Takes i r (n + 1)

/-- What fits on the backends that draw on a domain, each counted alone. -/
def below (i : Nat) (d : DomainKey) : Int :=
  (((r.backends i).filter fun b => d ∈ r.path b).map (r.fits i)).sum

/-- Every domain has room for all that fits on the backends drawing on it. -/
def Apart (i : Nat) : Prop :=
  ∀ d a, r.below i d * (r.request i).of a ≤ max (r.freeOf d a) 0

/-! ## What fits on one backend -/

section

variable {r} {i : Nat} {b b' d : DomainKey} {a : Resource} {n : Int}

theorem climb_ne_nil (host : HostId) (fuel : Nat) {path : List DomainKey} (domain : DomainId)
    (h : path ≠ []) : r.climb host fuel path domain ≠ [] := by
  fun_induction climb r host fuel path domain with
  | case1 | case2 => exact h
  | case3 | case4 => simp_all

theorem path_ne_nil (b : DomainKey) : r.path b ≠ [] := by
  unfold path climb
  rw [if_neg (by simp)]
  split
  · simp
  · exact climb_ne_nil _ _ _ (by simp)

theorem le_axisFits {request : Nat} {free : Int} (hn : 1 ≤ n) :
    n ≤ axisFits request free ↔ n * request ≤ free ∧ (request = 0 → n ≤ maxAmount) := by
  unfold axisFits
  by_cases hpos : 0 < (request : Int)
  · rw [if_pos hpos, Int.le_ediv_iff_mul_le hpos]
    have hmul : 0 < n * request := Int.mul_pos (by omega) hpos
    omega
  · obtain rfl : request = 0 := by omega
    split <;> simp <;> omega

theorem freeOf_le (r : Room) (d : DomainKey) (a : Resource) : r.freeOf d a ≤ maxAmount := by
  unfold freeOf
  cases r.domains.find d with
  | none => exact Int.natCast_nonneg _
  | some x => exact x.free_le a

theorem le_fits_iff_axes : n ≤ r.fits i b ↔ ∀ d ∈ r.path b, ∀ a,
    n ≤ axisFits ((r.request i).of a) (r.freeOf d a) := by
  have hmin : ∀ {l : List Int} (_ : l ≠ []), n ≤ l.min?.getD 0 ↔ ∀ x ∈ l, n ≤ x := by
    intro l hl
    obtain ⟨m, hm⟩ := Option.isSome_iff_exists.mp (List.isSome_min?_iff.mpr hl)
    rw [hm]
    exact List.le_min?_iff hm
  rw [fits, hmin (by simpa using path_ne_nil b)]
  simp only [List.forall_mem_map]
  refine forall₂_congr fun d _ => ?_
  rw [hmin (by simp)]
  constructor
  · intro h a
    cases a <;> exact h _ (by simp)
  · intro h x hx
    simp only [List.map_cons, List.map_nil, List.mem_cons, List.not_mem_nil, or_false] at hx
    rcases hx with rfl | rfl | rfl <;> exact h _

/-- **What fits on a backend**: as many runners as every domain it draws on has room for. -/
theorem le_fits (hcpu : 0 < (r.request i).cpuMillis) (hn : 1 ≤ n) :
    n ≤ r.fits i b ↔ ∀ d ∈ r.path b, ∀ a, n * (r.request i).of a ≤ r.freeOf d a := by
  rw [le_fits_iff_axes]
  refine forall₂_congr fun d _ => ⟨fun h a => ((le_axisFits hn).mp (h a)).1, fun h a => ?_⟩
  refine (le_axisFits hn).mpr ⟨h a, fun _ => ?_⟩
  have hmul : n * 1 ≤ n * ((r.request i).of .cpuMillis : Int) :=
    Int.mul_le_mul_of_nonneg_left (Int.ofNat_le.mpr hcpu) (by omega)
  have := h .cpuMillis
  have := freeOf_le r d .cpuMillis
  omega

theorem fits_nonneg (r : Room) (i : Nat) (b : DomainKey) : 0 ≤ r.fits i b := by
  rw [le_fits_iff_axes]
  intro d _ a
  unfold axisFits
  split
  · exact Int.ediv_nonneg (le_max_right ..) (by omega)
  · split
    · exact Int.natCast_nonneg _
    · exact le_refl _

theorem room_of_fits (hfits : 0 < r.fits i b) (hd : d ∈ r.path b) (a : Resource) :
    ((r.request i).of a : Int) ≤ r.freeOf d a := by
  simpa using ((le_axisFits le_rfl).mp (le_fits_iff_axes.mp hfits d hd a)).1

/-! ## One runner's share -/

@[simp] theorem request_reserve : (r.reserve i b).request = r.request := rfl

@[simp] theorem backends_reserve : (r.reserve i b).backends = r.backends := rfl

theorem find_reserve (d : DomainKey) : (r.reserve i b).domains.find d =
    (r.domains.find d).map fun x => if x.key ∈ r.path b then x.minus (r.request i) else x := by
  rw [reserve, Table.find_update]
  simp

@[simp] theorem path_reserve : (r.reserve i b).path b' = r.path b' := by
  have hclimb : ∀ host fuel path domain,
      (r.reserve i b).climb host fuel path domain = r.climb host fuel path domain := by
    intro host fuel
    induction fuel with
    | zero => exact fun _ _ => rfl
    | succ fuel ih =>
      intro path domain
      have hparent : ((r.reserve i b).domains.find (host, domain)).bind (·.parentDomainId) =
          (r.domains.find (host, domain)).bind (·.parentDomainId) := by
        rw [find_reserve]
        cases r.domains.find (host, domain) with
        | none => rfl
        | some x => simp only [Option.map_some]; split <;> rfl
      simp [climb, hparent, ih]
  have hlength : (r.reserve i b).domains.rows.length = r.domains.rows.length := by
    simp [reserve, Table.update]
  rw [path, path, hclimb, hlength]

theorem freeOf_reserve (hfits : 0 < r.fits i b) (hcpu : 0 < (r.request i).cpuMillis) :
    (r.reserve i b).freeOf d a =
      if d ∈ r.path b then r.freeOf d a - (r.request i).of a else r.freeOf d a := by
  unfold freeOf
  rw [find_reserve]
  cases hd : r.domains.find d with
  | some x =>
    simp only [Option.map_some, Table.key_of_find hd]
    split <;> rfl
  | none =>
    -- an unknown domain has no room, so it is on no path that fits
    rw [if_neg fun hmem => ?_]
    · rfl
    have hroom := room_of_fits hfits hmem .cpuMillis
    simp only [freeOf, hd, Option.map_none, Option.getD_none, ResourceRequest.of] at hroom
    omega

theorem fits_reserve_self (hfits : 0 < r.fits i b) (hcpu : 0 < (r.request i).cpuMillis) :
    (r.reserve i b).fits i b = r.fits i b - 1 := by
  have hle : ∀ n, 1 ≤ n → (n ≤ (r.reserve i b).fits i b ↔ n ≤ r.fits i b - 1) := by
    intro n hn
    rw [le_fits (r := r.reserve i b) hcpu hn, path_reserve, Int.le_sub_one_iff,
      Int.lt_iff_add_one_le, le_fits hcpu (by omega)]
    refine forall₂_congr fun d hd => forall_congr' fun a => ?_
    rw [freeOf_reserve hfits hcpu, if_pos hd, request_reserve, Int.add_mul]
    omega
  have h₁ := hle (r.fits i b - 1)
  have h₂ := hle ((r.reserve i b).fits i b)
  have := fits_nonneg (r.reserve i b) i b
  omega

theorem fits_reserve_le (hfits : 0 < r.fits i b) (hcpu : 0 < (r.request i).cpuMillis) :
    (r.reserve i b).fits i b' ≤ r.fits i b' := by
  by_cases hn : 1 ≤ (r.reserve i b).fits i b'
  · refine (le_fits hcpu hn).mpr fun d hd a => ?_
    have hroom := (le_fits (r := r.reserve i b) hcpu hn).mp le_rfl d (by rwa [path_reserve]) a
    rw [freeOf_reserve hfits hcpu] at hroom
    split at hroom
    · exact hroom.trans (Int.sub_le_self _ (Int.natCast_nonneg _))
    · exact hroom
  · exact (Int.lt_add_one_iff.mp (not_le.mp hn)).trans (fits_nonneg r i b')

theorem take_cases (r : Room) (i : Nat) : (r.take i = r ∧ ∀ b ∈ r.backends i, r.fits i b = 0) ∨
    ∃ b ∈ r.backends i, 0 < r.fits i b ∧ r.take i = r.reserve i b := by
  unfold take maxByKey
  split
  · next hnone =>
    rw [List.argmax_eq_none, List.reverse_eq_nil_iff, List.filter_eq_nil_iff] at hnone
    refine .inl ⟨rfl, fun b hb => ?_⟩
    have := fits_nonneg r i b
    have := hnone b hb
    simp only [decide_eq_true_eq] at this
    omega
  · next b hsome =>
    have hmem := List.mem_filter.mp (List.mem_reverse.mp (List.argmax_mem hsome))
    exact .inr ⟨b, hmem.1, of_decide_eq_true hmem.2, rfl⟩

/-- **A runner takes no room that is not there.** -/
theorem freeOf_take_nonneg (h : 0 ≤ r.freeOf d a) : 0 ≤ (r.take i).freeOf d a := by
  rcases take_cases r i with ⟨hsame, -⟩ | ⟨b, -, hfits, htake⟩
  · rwa [hsame]
  · rw [htake, freeOf, find_reserve]
    cases hd : r.domains.find d with
    | none => exact le_rfl
    | some x =>
      simp only [Option.map_some, Table.key_of_find hd]
      split
      · next hmem =>
        have hroom := room_of_fits hfits hmem a
        simp only [freeOf, hd] at hroom
        exact Int.sub_nonneg_of_le hroom
      · simpa [freeOf, hd] using h

/-! ## The sum over backends -/

def fitting (r : Room) (i : Nat) : Int := ((r.backends i).map (r.fits i)).sum

theorem fitting_nonneg (r : Room) (i : Nat) : 0 ≤ r.fitting i :=
  List.sum_nonneg (List.forall_mem_map.mpr fun b _ => fits_nonneg r i b)

theorem slots_eq (hmax : r.fitting i ≤ maxAmount) : r.slots i = r.fitting i := by
  have hfold : ∀ (l : List DomainKey) (sum : Int), sum + (l.map (r.fits i)).sum ≤ maxAmount →
      (l.map (r.fits i)).foldl (fun sum n => min (sum + n) (maxAmount : Int)) sum =
        sum + (l.map (r.fits i)).sum := by
    intro l
    induction l with
    | nil => simp
    | cons b l ih =>
      intro sum hsum
      simp only [List.map_cons, List.sum_cons, List.foldl_cons] at hsum ⊢
      have hrest : 0 ≤ (l.map (r.fits i)).sum :=
        List.sum_nonneg (List.forall_mem_map.mpr fun b _ => fits_nonneg r i b)
      rw [ih _ (by omega)]
      omega
  unfold fitting at hmax
  unfold slots fitting
  simpa using hfold (r.backends i) 0 (by simpa using hmax)

theorem sum_map_filter_erase {l : List DomainKey} {f : DomainKey → Int} (p : DomainKey → Bool)
    (hb : b ∈ l) : ((l.filter p).map f).sum =
      (if p b then f b else 0) + (((l.erase b).filter p).map f).sum := by
  rw [((List.perm_cons_erase hb).filter p |>.map f).sum_eq, List.filter_cons]
  split <;> simp

variable (hcpu : 0 < (r.request i).cpuMillis) (hnodup : (r.backends i).Nodup)
include hcpu hnodup

/-- The other backends keep what fits on them, so the sum falls by the one runner. -/
theorem fitting_reserve (hb : b ∈ r.backends i) (hfits : 0 < r.fits i b)
    (hothers : ∀ c ∈ r.backends i, c ≠ b → (r.reserve i b).fits i c = r.fits i c) :
    (r.reserve i b).fitting i = r.fitting i - 1 ∧ ((r.reserve i b).Apart i ↔ r.Apart i) := by
  have hrest : ∀ p : DomainKey → Bool, ((((r.backends i).erase b).filter p).map
      ((r.reserve i b).fits i)).sum = ((((r.backends i).erase b).filter p).map (r.fits i)).sum := by
    intro p
    refine congrArg List.sum (List.map_congr_left fun c hc => ?_)
    have hmem := hnodup.mem_erase_iff.mp (List.mem_of_mem_filter hc)
    exact hothers c hmem.2 hmem.1
  have hself := fits_reserve_self hfits hcpu
  constructor
  · have h₁ := sum_map_filter_erase (f := (r.reserve i b).fits i) (fun _ => true) hb
    have h₂ := sum_map_filter_erase (f := r.fits i) (fun _ => true) hb
    rw [hrest] at h₁
    simp only [List.filter_true, if_true] at h₁ h₂
    unfold fitting
    rw [backends_reserve, h₁]
    omega
  · refine forall₂_congr fun d a => ?_
    have h₁ := sum_map_filter_erase (f := (r.reserve i b).fits i) (fun c => d ∈ r.path c) hb
    have h₂ := sum_map_filter_erase (f := r.fits i) (fun c => d ∈ r.path c) hb
    rw [hrest, hself] at h₁
    unfold below
    simp only [backends_reserve, path_reserve, request_reserve, h₁, h₂,
      freeOf_reserve hfits hcpu, decide_eq_true_eq]
    split
    · next hd =>
      have hroom := room_of_fits hfits hd a
      rw [sub_add_eq_add_sub, Int.sub_mul]
      omega
    · rfl

theorem fits_reserve_other (hapart : r.Apart i) (hb : b ∈ r.backends i) (hfits : 0 < r.fits i b)
    {c : DomainKey} (hc : c ∈ r.backends i) (hne : c ≠ b) :
    (r.reserve i b).fits i c = r.fits i c := by
  refine le_antisymm (fits_reserve_le hfits hcpu) ?_
  by_cases hn : 1 ≤ r.fits i c
  · refine (le_fits (r := r.reserve i b) hcpu hn).mpr fun d hd a => ?_
    rw [path_reserve] at hd
    have hroom := (le_fits hcpu hn).mp le_rfl d hd a
    rw [freeOf_reserve hfits hcpu, request_reserve]
    split
    · next hd' =>
      -- the domain has room for what fits on both
      have hboth : r.fits i c + r.fits i b ≤ r.below i d := by
        unfold below
        rw [sum_map_filter_erase _ hb, if_pos (by simpa using hd'),
          sum_map_filter_erase _ (hnodup.mem_erase_iff.mpr ⟨hne, hc⟩), if_pos (by simpa using hd)]
        have : 0 ≤ ((((r.backends i).erase b |>.erase c).filter fun b => d ∈ r.path b).map
            (r.fits i)).sum :=
          List.sum_nonneg (List.forall_mem_map.mpr fun b _ => fits_nonneg r i b)
        omega
      have hmul := Int.mul_le_mul_of_nonneg_right (show r.fits i c + 1 ≤ r.below i d by omega)
        (Int.natCast_nonneg ((r.request i).of a))
      have := hapart d a
      rw [Int.add_mul] at hmul
      have : (0 : Int) ≤ r.fits i c * (r.request i).of a :=
        Int.mul_nonneg (by omega) (Int.natCast_nonneg _)
      omega
    · exact hroom
  · have := fits_nonneg (r.reserve i b) i c
    omega

theorem fitting_reserve_le (hb : b ∈ r.backends i) (hfits : 0 < r.fits i b) :
    (r.reserve i b).fitting i ≤ r.fitting i - 1 ∧
      ((r.reserve i b).fitting i = r.fitting i - 1 →
        ∀ c ∈ r.backends i, c ≠ b → (r.reserve i b).fits i c = r.fits i c) := by
  have h₁ := sum_map_filter_erase (f := (r.reserve i b).fits i) (fun _ => true) hb
  have h₂ := sum_map_filter_erase (f := r.fits i) (fun _ => true) hb
  rw [fits_reserve_self hfits hcpu] at h₁
  simp only [List.filter_true, if_true] at h₁ h₂
  have hle : ∀ c ∈ (r.backends i).erase b, (r.reserve i b).fits i c ≤ r.fits i c :=
    fun c _ => fits_reserve_le hfits hcpu
  have hsum := List.sum_le_sum hle
  unfold fitting
  rw [backends_reserve]
  refine ⟨by omega, fun heq c hc hne => ?_⟩
  by_contra hdiff
  have hmem := hnodup.mem_erase_iff.mpr ⟨hne, hc⟩
  have := List.sum_lt_sum _ _ hle ⟨c, hmem, lt_of_le_of_ne (hle c hmem) hdiff⟩
  omega

/-- The takes never exceed the sum, and reach it exactly where domains have room for all. -/
theorem takes_fitting {n : Nat} (h : Takes i r n) :
    (n : Int) ≤ r.fitting i ∧ (r.fitting i = n ↔ r.Apart i) := by
  induction h with
  | @done r hsame =>
    have hzero : ∀ b ∈ r.backends i, r.fits i b = 0 := by
      rcases take_cases r i with ⟨-, hzero⟩ | ⟨b, -, hfits, htake⟩
      · exact hzero
      · have := fits_reserve_self hfits hcpu
        rw [← htake, hsame] at this
        omega
    have hsum : ∀ p : DomainKey → Bool, (((r.backends i).filter p).map (r.fits i)).sum = 0 :=
      fun p => List.sum_eq_zero (List.forall_mem_map.mpr fun b hb =>
        hzero b (List.mem_of_mem_filter hb))
    refine ⟨fitting_nonneg r i, fun _ d a => ?_, fun _ => ?_⟩
    · rw [below, hsum, Int.zero_mul]
      exact le_max_right ..
    · simpa [fitting] using hsum fun _ => true
  | @more r n hchanges _ ih =>
    obtain ⟨hsame, -⟩ | ⟨b, hb, hfits, htake⟩ := take_cases r i
    · exact absurd hsame hchanges
    rw [htake] at ih
    obtain ⟨hle, hiff⟩ := ih hcpu hnodup
    obtain ⟨hless, hothers⟩ := fitting_reserve_le hcpu hnodup hb hfits
    refine ⟨by push_cast; omega, fun heq => ?_, fun hapart => ?_⟩
    · have hstep := fitting_reserve hcpu hnodup hb hfits (hothers (by push_cast at heq; omega))
      exact hstep.2.mp (hiff.mp (by push_cast at heq; omega))
    · have hstep := fitting_reserve hcpu hnodup hb hfits
        fun c hc hne => fits_reserve_other hcpu hnodup hapart hb hfits hc hne
      have := hiff.mpr (hstep.2.mpr hapart)
      omega

theorem exists_takes : ∃ n, Takes i r n := by
  generalize hm : (r.fitting i).toNat = m
  induction m using Nat.strong_induction_on generalizing r with
  | _ m ih =>
    obtain ⟨hsame, -⟩ | ⟨b, hb, hfits, htake⟩ := take_cases r i
    · exact ⟨0, .done hsame⟩
    have hself := fits_reserve_self hfits hcpu
    have hchanges : r.take i ≠ r := fun hsame => by
      rw [← htake, hsame] at hself
      omega
    have hless := (fitting_reserve_le hcpu hnodup hb hfits).1
    have := fitting_nonneg (r.reserve i b) i
    obtain ⟨n, hn⟩ := ih _ (by omega) (r := r.reserve i b) hcpu hnodup rfl
    exact ⟨n + 1, .more hchanges (htake ▸ hn)⟩

end

/-- **When `slots` counts what can be placed**: exactly when every domain has room for all that
fits on the backends drawing on it. -/
theorem slots_eq_takes_iff (r : Room) (i : Nat) (hcpu : 0 < (r.request i).cpuMillis)
    (hnodup : (r.backends i).Nodup) (hmax : r.fitting i ≤ maxAmount) :
    (∃ n, Takes i r n) ∧ ∀ n, Takes i r n → (r.slots i = n ↔ r.Apart i) := by
  refine ⟨exists_takes hcpu hnodup, fun n hn => ?_⟩
  rw [slots_eq hmax]
  exact (takes_fitting hcpu hnodup hn).2

/-- What runners on these platforms and backends draw from a domain. -/
def drawn (r : Room) (placed : List (Nat × DomainKey)) (d : DomainKey) (a : Resource) : Int :=
  (placed.map fun x => if d ∈ r.path x.2 then ((r.request x.1).of a : Int) else 0).sum

theorem freeOf_reserve_drawn {r : Room} {i : Nat} {b : DomainKey} (hfits : 0 < r.fits i b)
    (d : DomainKey) (a : Resource) :
    (r.reserve i b).freeOf d a = r.freeOf d a - r.drawn [(i, b)] d a := by
  have hroom := fun hd => room_of_fits (d := d) hfits hd a
  simp only [drawn, List.map_cons, List.map_nil, List.sum_singleton]
  unfold freeOf at hroom ⊢
  rw [find_reserve]
  cases hfind : r.domains.find d with
  | some x =>
    simp only [Option.map_some, Table.key_of_find hfind, Option.getD_some]
    split <;> simp [RoomDomain.minus]
  | none =>
    -- an unknown domain has no room, so what fits asks for nothing of it
    simp only [hfind, Option.map_none, Option.getD_none] at hroom ⊢
    split <;> grind

namespace Sample

def machines (second : HostId) : Room where
  domains := ⟨[((1, 1), none), ((1, 2), some 1), ((1, 3), some 1), ((2, 1), none),
    ((2, 3), some 1)].map fun d => RoomDomain.mk d.1 d.2 (fun _ => 1) fun _ => by decide, by decide⟩
  backends _ := [(1, 2), (second, 3)]
  request _ := ⟨1, 1, 1⟩

end Sample

/-- One machine with room for one runner: `slots` counts it for each of its two backends. -/
theorem slots_counts_shared_room :
    (Sample.machines 1).slots 0 = 2 ∧ Takes 0 (Sample.machines 1) 1 := by
  have hchanges : (Sample.machines 1).take 0 ≠ Sample.machines 1 := fun h =>
    absurd (congrArg (fun r => r.slots 0) h) (by decide)
  exact ⟨by decide, .more hchanges (.done rfl)⟩

theorem slots_eq_takes_iff_machines : Takes 0 (Sample.machines 2) 2 ∧
    (Sample.machines 2).slots 0 = 2 ∧ (Sample.machines 2).Apart 0 := by
  have hfirst : (Sample.machines 2).take 0 ≠ Sample.machines 2 := fun h =>
    absurd (congrArg (fun r => r.slots 0) h) (by decide)
  have hsecond : ((Sample.machines 2).take 0).take 0 ≠ (Sample.machines 2).take 0 := fun h =>
    absurd (congrArg (fun r => r.slots 0) h) (by decide)
  have htakes : Takes 0 (Sample.machines 2) 2 := .more hfirst (.more hsecond (.done rfl))
  have hslots : (Sample.machines 2).slots 0 = 2 := by decide
  exact ⟨htakes, hslots,
    ((slots_eq_takes_iff _ 0 (by decide) (by decide) (by decide)).2 2 htakes).mp hslots⟩

end Room

end Gridops.Fleet
