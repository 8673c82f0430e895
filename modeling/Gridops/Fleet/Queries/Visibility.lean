import Gridops.Fleet.Capacity.Slice
import Gridops.Fleet.Queries.Evidence

/-!
# Visibility

Which hosts and backends a reader of `registry/queries.rs` may see. The lists select ids in SQL,
and every row of a page is then read under a check of its own. A machine is also visible through a
profile whose selectors admit it, and admission makes the same choice in Rust.
-/

namespace Gridops.Fleet

open Gridops.Lib
open Gridops.Fleet.Submission (HostSelector AdmissionReads)

/-- `tags_json`, an object whose values are texts. -/
structure HostTags where
  entries : List (String × String)
  distinct : (entries.map Prod.fst).Nodup

def HostTags.get (tags : HostTags) (key : String) : Option String := tags.entries.lookup key

theorem HostTags.mem_entries_iff {tags : HostTags} {key value : String} :
    (key, value) ∈ tags.entries ↔ tags.get key = some value := by
  obtain ⟨entries, hdistinct⟩ := tags
  simp only [get]
  induction entries with
  | nil => simp
  | cons e entries ih =>
    obtain ⟨k, w⟩ := e
    obtain ⟨hfresh, hdistinct⟩ := List.nodup_cons.mp hdistinct
    by_cases hk : key = k
    · subst hk
      have : (key, value) ∉ entries := fun h => hfresh (List.mem_map.mpr ⟨_, h, rfl⟩)
      simp [this, eq_comm]
    · simp [hk, ih hdistinct, List.lookup_cons, beq_false_of_ne hk]

structure PoolExecutionProfile where
  id : ProfileId
  enabled : Bool
  runtimeKind : RuntimeKind
  executionOs : ExecutionOs
  architecture : Architecture
  allAuthorizedHosts : Bool

structure ProfileTarget where
  profileId : ProfileId
  targetId : TargetId
  enabled : Bool
  revokedAt : Option Millis

/-- A row of `host_user_grants`. Each of its permissions lets the user read the host. -/
structure HostUserGrant where
  hostId : HostId
  userId : UserId
  revokedAt : Option Millis

inductive HostVisibility
  | physical | targetOnly
deriving DecidableEq

structure ReadView where
  registry : Registry
  directory : Directory
  reader : ReadSnapshot
  userGrants : List HostUserGrant
  placementTarget : PlacementId → TargetId
  profiles : List PoolExecutionProfile
  profileTargets : List ProfileTarget
  selectors : List (ProfileId × HostSelector)
  tags : HostId → Option HostTags

/-- What the projections do with a row once it may be shown: they fail in other ways only. -/
structure Projections (η β : Type) where
  host : Host → HostVisibility → Option TargetId → Except QueryError η
  backend : Backend → HostVisibility → Option TargetId → Except QueryError β
  host_ne : ∀ h visibility filter, host h visibility filter ≠ .error .notFound
  backend_ne : ∀ b visibility filter, backend b visibility filter ≠ .error .notFound

/-- `ORDER BY id ASC LIMIT limit + 1`, behind the cursor. -/
def page (ids : List ℕ) (after : Option ℕ) (limit : ℕ) : List ℕ :=
  ((ids.filter fun id => after.all (· < id)).insertionSort (· ≤ ·)).take (limit + 1)

theorem mem_of_mem_page {ids : List ℕ} {after : Option ℕ} {limit id : ℕ}
    (h : id ∈ page ids after limit) : id ∈ ids :=
  (List.mem_filter.mp ((List.mem_insertionSort _).mp (List.mem_of_mem_take h))).1

theorem exists_mem_page {ids : List ℕ} {id : ℕ} :
    (∃ after limit, id ∈ page ids after limit) ↔ id ∈ ids := by
  refine ⟨fun ⟨_, _, h⟩ => mem_of_mem_page h, fun h => ⟨none, ids.length, ?_⟩⟩
  rw [page, List.take_of_length_le (by simp)]
  simpa using h

namespace ReadView

variable (v : ReadView)

def readsInstallation (id : InstallationId) : Bool :=
  v.directory.userInstallations.rows.any (fun u =>
      u.userId == v.reader.userId && u.installationId == id)
    && (v.directory.installations.find id).any (·.suspendedAt.isNone)

def mayRead : TargetIdentity → Bool
  | .githubRepository installation repository =>
    v.readsInstallation installation && v.directory.repositories.rows.any fun r =>
      r.id == repository && r.installationId == installation
  | .githubOrganization installation organization =>
    v.readsInstallation installation
      && (v.directory.installations.find installation).any (·.accountId == organization)
  | .bitbucketWorkspace connection workspace | .bitbucketRepository connection workspace _ =>
    v.directory.connectsWorkspace connection workspace
      && v.directory.bitbucketUserGrants.rows.any fun g =>
        g.connectionId == connection && g.userId == v.reader.userId && g.revokedAt.isNone

/-- `readable_targets_cte`. -/
def isReadable (target : TargetId) : Bool :=
  v.directory.targets.rows.any fun t =>
    t.id == target && (v.reader.systemAdmin || v.mayRead t.identity)

variable (host : HostId)

def hasUserGrant : Bool :=
  v.userGrants.any fun g =>
    g.hostId == host && g.userId == v.reader.userId && g.revokedAt.isNone

def hasTargetGrant (target : TargetId → Bool) : Bool :=
  v.registry.grants.rows.any fun g => g.hostId == host && target g.targetId && g.revokedAt.isNone

def hasPlacement (target : TargetId → Bool) : Bool :=
  v.registry.store.placements.rows.any fun p =>
    p.hostId == host && target (v.placementTarget p.id)

/-! ## Selectors -/

def tagRows : List (String × String) := ((v.tags host).map (·.entries)).getD []

def profileSelectorPredicate (p : PoolExecutionProfile) (host : HostId) : Bool :=
  (v.selectors.any (·.1 == p.id) || p.allAuthorizedHosts)
    && (!v.selectors.any (fun hs => hs.1 == p.id && hs.2.isHost)
      || v.selectors.any fun hs => hs.1 == p.id && hs.2 == .host host)
    && !v.selectors.any fun ts => ts.1 == p.id &&
      match ts.2 with
      | .host _ => false
      | .tag key value => !(v.tagRows host).any fun row => row.1 == key && row.2 == value

end ReadView

def zoneTags : HostTags := ⟨[("zone", "a")], by simp⟩

def zoneProfile : PoolExecutionProfile := ⟨1, true, .docker, .linux, .x64, false⟩

/-- A profile asks for a zone, and every host is in it. The reader is an administrator. -/
def zoneView : ReadView where
  registry := .initial none
  directory := ⟨.empty, ⟨[⟨1, .githubOrganization 1 1⟩], by decide⟩, .empty, .empty, .empty, .empty,
    .empty⟩
  reader := ⟨1, true, 1, 0⟩
  userGrants := []
  placementTarget _ := 1
  profiles := [zoneProfile]
  profileTargets := []
  selectors := [(1, .tag "zone" "a")]
  tags _ := some zoneTags

def zoneReads : AdmissionReads where
  authorization := .ok ()
  ready := true
  poolRefusal := none
  rows := []
  selectors := [.tag "zone" "a"]
  allAuthorizedHosts := false
  tagsJson _ := some "zone-a"
  diagnosis := ""
  fresh := ⟨1, 1, fun _ => 1⟩
  now := 0

namespace ReadView

variable (v : ReadView)

def visibleHostIds (filter : Option TargetId) (after : Option HostId) (limit : ℕ) : List HostId :=
  page ((v.registry.store.hosts.rows.filter fun h =>
    (v.reader.systemAdmin || v.hasUserGrant h.id || v.hasTargetGrant h.id v.isReadable
        || v.hasPlacement h.id v.isReadable)
      && filter.all fun target =>
        v.hasTargetGrant h.id (· == target) || v.hasPlacement h.id (· == target)).map (·.id))
    after limit

def hostVisibility (host : HostId) (filter : Option TargetId) :
    Except QueryError HostVisibility :=
  if filter.any (!v.isReadable ·) then .error .notFound
  else if (v.registry.store.hosts.find host).isNone then .error .notFound
  else if v.reader.systemAdmin || v.hasUserGrant host then .ok .physical
  else
    let readable := match filter with
      | some target => v.hasTargetGrant host (· == target) || v.hasPlacement host (· == target)
      | none => v.hasTargetGrant host v.isReadable || v.hasPlacement host v.isReadable
    if readable then .ok .targetOnly else .error .notFound

/-- Some target that passes the test has the backend in use, or has a profile that may use it. -/
def targetClause (b : Backend) (target : TargetId → Bool) : Bool :=
  v.registry.store.placements.rows.any (fun wp =>
      wp.backendId == b.id && wp.hostId == b.hostId && target (v.placementTarget wp.id))
    || v.profiles.any fun p => v.profileTargets.any fun pct => v.registry.grants.rows.any fun tg =>
      pct.profileId == p.id && tg.targetId == pct.targetId
        && tg.hostId == b.hostId && target tg.targetId && tg.revokedAt.isNone
        && pct.enabled && pct.revokedAt.isNone && p.enabled
        && p.runtimeKind == b.runtimeKind && p.executionOs == b.executionOs
        && p.architecture == b.architecture && v.profileSelectorPredicate p b.hostId

def visibleBackendIds (host : HostId) (visibility : HostVisibility) (filter : Option TargetId)
    (after : Option BackendId) (limit : ℕ) : List BackendId :=
  page ((v.registry.backends.rows.filter fun b => b.hostId == host &&
    if visibility == .physical && filter.isNone then true
    else match filter with
      | some target => v.targetClause b (· == target)
      | none => v.targetClause b v.isReadable).map (·.id)) after limit

def backendVisibleForTarget (host : HostId) (backend : BackendId) (filter : Option TargetId) :
    Bool :=
  v.registry.backends.rows.any fun b => b.id == backend && b.hostId == host &&
    match filter with
    | some target => v.targetClause b (· == target)
    | none => v.targetClause b v.isReadable

variable {η β : Type} (P : Projections η β)

def hostProjection (host : HostId) (visibility : HostVisibility) (filter : Option TargetId) :
    Except QueryError η :=
  match v.registry.store.hosts.find host with
  | none => .error .notFound
  | some h => P.host h visibility filter

def backendProjection (expectedHost : HostId) (backend : BackendId) (visibility : HostVisibility)
    (filter : Option TargetId) : Except QueryError β :=
  match v.registry.backends.find backend with
  | none => .error .notFound
  | some b =>
    if b.hostId ≠ expectedHost then .error .notFound
    else if visibility == .targetOnly && !v.backendVisibleForTarget expectedHost backend filter then
      .error .notFound
    else P.backend b visibility filter

def targetFilter (filter : Option TargetId) : Except QueryError Unit :=
  if filter.any (!v.isReadable ·) then .error .notFound else .ok ()

def listHosts (filter : Option TargetId) (after : Option HostId) (limit : ℕ) :
    Except QueryError (List η) := do
  v.targetFilter filter
  ((v.visibleHostIds filter after limit).take limit).mapM fun host => do
    v.hostProjection P host (← v.hostVisibility host filter) filter

def listBackends (host : HostId) (filter : Option TargetId) (after : Option BackendId)
    (limit : ℕ) : Except QueryError (List β) := do
  v.targetFilter filter
  let visibility ← v.hostVisibility host filter
  ((v.visibleBackendIds host visibility filter after limit).take limit).mapM fun backend =>
    v.backendProjection P host backend visibility filter

/-! ## Lists and reads agree -/

variable {v P} {host : HostId} {backend : BackendId} {visibility : HostVisibility}
  {filter : Option TargetId}

theorem hostVisibility_of_mem {after : Option HostId} {limit : ℕ}
    (hreadable : ∀ t ∈ filter, v.isReadable t = true)
    (h : host ∈ v.visibleHostIds filter after limit) :
    ∃ visibility, v.hostVisibility host filter = .ok visibility := by
  obtain ⟨x, hx, rfl⟩ := List.mem_map.mp (mem_of_mem_page h)
  obtain ⟨hx, -⟩ := List.mem_filter.mp hx
  have hfilter : filter.any (!v.isReadable ·) = false := by
    cases filter <;> simp_all
  simp only [hostVisibility, hfilter, Table.find_key hx]
  by_cases hphysical : (v.reader.systemAdmin || v.hasUserGrant x.id) = true
  · exact ⟨.physical, by simp [hphysical]⟩
  · cases filter with
    | none => simp_all
    | some target => simp_all

theorem hostVisibility_none_iff : (∃ visibility, v.hostVisibility host none = .ok visibility) ↔
    ∃ after limit, host ∈ v.visibleHostIds none after limit := by
  constructor
  · rintro ⟨visibility, h⟩
    refine exists_mem_page.mpr (List.mem_map.mpr ?_)
    cases hfind : v.registry.store.hosts.find host with
    | none => simp [hostVisibility, hfind] at h
    | some x =>
      refine ⟨x, List.mem_filter.mpr ⟨Table.mem_of_find hfind, ?_⟩, Table.key_of_find hfind⟩
      rw [Table.key_of_find hfind]
      by_contra hhidden
      simp_all [hostVisibility]
  · rintro ⟨after, limit, h⟩
    exact hostVisibility_of_mem (by simp) h

theorem backendVisibleForTarget_iff : v.backendVisibleForTarget host backend filter = true ↔
    ∃ after limit, backend ∈ v.visibleBackendIds host .targetOnly filter after limit := by
  simp only [visibleBackendIds, exists_mem_page, backendVisibleForTarget]
  cases filter with
  | none => simp [and_assoc, and_left_comm, and_comm]
  | some target => simp [and_assoc, and_left_comm, and_comm]

theorem backendProjection_of_mem {after : Option BackendId} {limit : ℕ}
    (h : backend ∈ v.visibleBackendIds host visibility filter after limit) :
    ∃ b ∈ v.registry.backends, b.id = backend ∧
      v.backendProjection P host backend visibility filter = P.backend b visibility filter := by
  have hlisted := mem_of_mem_page h
  obtain ⟨b, hmem, rfl⟩ := List.mem_map.mp hlisted
  obtain ⟨hmem, hvisible⟩ := List.mem_filter.mp hmem
  have hhost : b.hostId = host := by simpa using (Bool.and_eq_true_iff.mp hvisible).1
  refine ⟨b, hmem, rfl, ?_⟩
  rw [backendProjection, Table.find_key hmem]
  cases visibility with
  | physical => simp [hhost]
  | targetOnly => simp [hhost, backendVisibleForTarget_iff.mpr ⟨after, limit, h⟩]

theorem listHosts_ne_notFound (after : Option HostId) (limit : ℕ)
    (hreadable : ∀ t ∈ filter, v.isReadable t = true) :
    v.listHosts P filter after limit ≠ .error .notFound := by
  have hfilter : v.targetFilter filter = .ok () := by
    cases filter <;> simp_all [targetFilter]
  rw [listHosts, hfilter]
  refine mapM_ne_error fun id hid => ?_
  obtain ⟨visibility, hvisible⟩ := hostVisibility_of_mem hreadable (List.mem_of_mem_take hid)
  rw [hvisible]
  obtain ⟨x, hx, rfl⟩ := List.mem_map.mp (mem_of_mem_page (List.mem_of_mem_take hid))
  change v.hostProjection P x.id visibility filter ≠ _
  rw [hostProjection, Table.find_key (List.mem_filter.mp hx).1]
  exact P.host_ne x visibility filter

theorem listBackends_ne_notFound (after : Option BackendId) (limit : ℕ)
    (hreadable : ∀ t ∈ filter, v.isReadable t = true)
    (hvisible : v.hostVisibility host filter = .ok visibility) :
    v.listBackends P host filter after limit ≠ .error .notFound := by
  have hfilter : v.targetFilter filter = .ok () := by
    cases filter <;> simp_all [targetFilter]
  rw [listBackends, hfilter, hvisible]
  refine mapM_ne_error fun id hid => ?_
  obtain ⟨b, -, -, hshown⟩ := backendProjection_of_mem (P := P) (List.mem_of_mem_take hid)
  rw [hshown]
  exact P.backend_ne b visibility filter

def everyRow : Projections Unit Unit :=
  ⟨fun _ _ _ => .ok (), fun _ _ _ => .ok (), by simp, by simp⟩

end ReadView

end Gridops.Fleet
