import Gridops.Fleet.Registry.Service

/-!
# Approval never widens access

An approval revokes every active grant of the host that was not asked for, and activates
one grant for each requested target. `find_approve` says what the grants are afterwards,
key by key: a requested grant that was active stays as it was, and any other has no
special permission.
-/

namespace Gridops.Fleet

open Gridops.Lib

namespace Registry

variable {r t : Registry} {d : Directory} {user : UserId} {hostId : HostId} {now : Millis}

/-! ## The grants of an approval -/

/-- The grant of a requested target, given the one there was. -/
def activated (user : UserId) (hostId : HostId) (target : TargetId) :
    Option TargetGrant → TargetGrant
  | none => ⟨hostId, target, true, false, false, false, 1, none, user⟩
  | some g =>
    if g.revokedAt.isSome then
      { g with
        allowSchedule := false, allowNative := false, allowInteractive := false
        allowDockerSocket := false, revision := g.revision + 1, revokedAt := none
        grantedBy := user }
    else g

theorem activated_revokedAt (target : TargetId) (g : Option TargetGrant) :
    (activated user hostId target g).revokedAt = none := by
  cases g with
  | none => rfl
  | some g =>
    simp only [activated]
    split
    · rfl
    · next hactive => simpa using hactive

theorem activated_activated (target : TargetId) (g : Option TargetGrant) :
    activated user hostId target (some (activated user hostId target g))
      = activated user hostId target g := by
  rw [activated, activated_revokedAt]
  rfl

variable (r : Registry)

theorem find_activateGrant (target : TargetId) (k : HostId × TargetId) :
    (activateGrant user hostId r target).grants.find k =
      if (hostId, target) = k then some (activated user hostId target (r.grants.find k))
      else r.grants.find k := by
  unfold activateGrant
  split
  · next hnone =>
    have hfree : (r.grants.insert? ⟨hostId, target, true, false, false, false, 1, none,
        user⟩).isSome := by
      rw [Option.isSome_iff_ne_none, ne_eq, Table.insert?_none]
      rintro ⟨g, hg, hkey⟩
      rw [← hkey, Table.find_key hg] at hnone
      cases hnone
    obtain ⟨grants, hins⟩ := Option.isSome_iff_exists.mp hfree
    simp only [hins, Option.getD_some, Table.find_insert? hins]
    split
    · next hk =>
      rw [← hk, hnone]
      rfl
    · rw [Option.or_none]
  · next g hg =>
    rw [Table.find_update]
    split
    · next hk =>
      subst hk
      have hkey : g.hostId = hostId ∧ g.targetId = target := by
        simpa using Table.key_of_find hg
      simp only [hg, Option.map_some, hkey, beq_self_eq_true, Bool.true_and, activated]
    · next hk =>
      cases hfind : r.grants.find k with
      | none => rfl
      | some g' =>
        have hkey := Table.key_of_find hfind
        rw [Option.map_some, if_neg]
        simp only [Bool.and_eq_true, beq_iff_eq]
        rintro ⟨⟨hhost, htarget⟩, -⟩
        exact hk (by rw [← hkey, hhost, htarget])

theorem find_activateGrants (targets : List TargetId) (r : Registry) (k : HostId × TargetId) :
    (targets.foldl (activateGrant user hostId) r).grants.find k =
      if hostId = k.1 ∧ k.2 ∈ targets then some (activated user hostId k.2 (r.grants.find k))
      else r.grants.find k := by
  induction targets generalizing r with
  | nil => simp
  | cons target targets ih =>
    obtain ⟨host, other⟩ := k
    rw [List.foldl_cons, ih, find_activateGrant]
    by_cases hhost : hostId = host
    · by_cases htarget : target = other
      · subst hhost htarget
        simp [activated_activated]
      · simp [htarget, Ne.symm htarget]
    · simp [hhost]

/-- **The grants after an approval**, key by key. -/
theorem find_approve (request : ApproveHost) (k : HostId × TargetId) :
    (r.approve user request now).grants.find k =
      if request.hostId = k.1 then
        if k.2 ∈ request.scope.targetIds then
          some (activated user request.hostId k.2 (r.grants.find k))
        else (r.grants.find k).map fun g =>
          if g.revokedAt.isNone then { g with revokedAt := some now } else g
      else r.grants.find k := by
  have hrevoke : (r.revokeUnrequested request.hostId request.scope now).grants.find k
      = (r.grants.find k).map fun g =>
        if request.hostId = k.1 ∧ g.revokedAt.isNone ∧ k.2 ∉ request.scope.targetIds then
          { g with revokedAt := some now } else g := by
    rw [revokeUnrequested, Table.find_update]
    cases hfind : r.grants.find k with
    | none => rfl
    | some g =>
      have hkey := Table.key_of_find hfind
      subst hkey
      simp [eq_comm (a := request.hostId), and_assoc]
  have hgrants : (r.approve user request now).grants
      = (request.scope.targetIds.foldl (activateGrant user request.hostId)
        (r.revokeUnrequested request.hostId request.scope now)).grants := rfl
  rw [hgrants, find_activateGrants, hrevoke]
  by_cases hhost : request.hostId = k.1
  · by_cases hmem : k.2 ∈ request.scope.targetIds
    · simp [hmem]
    · simp [hhost, hmem]
  · simp [hhost]

theorem mem_activeTargets {r : Registry} {target : TargetId} :
    target ∈ r.activeTargets hostId ↔
      ∃ g, r.grants.find (hostId, target) = some g ∧ g.revokedAt = none := by
  simp only [activeTargets, List.mem_map, List.mem_filter, Bool.and_eq_true, beq_iff_eq,
    Option.isNone_iff_eq_none]
  constructor
  · rintro ⟨g, ⟨hg, rfl, hactive⟩, rfl⟩
    exact ⟨g, Table.find_key hg, hactive⟩
  · rintro ⟨g, hfind, hactive⟩
    have hkey := Table.key_of_find hfind
    simp only [Prod.mk.injEq] at hkey
    exact ⟨g, ⟨Table.mem_of_find hfind, hkey.1, hactive⟩, hkey.2⟩

theorem mem_activeTargets_approve (request : ApproveHost) {target : TargetId} :
    target ∈ (r.approve user request now).activeTargets request.hostId ↔
      target ∈ request.scope.targetIds := by
  rw [mem_activeTargets, find_approve]
  by_cases hmem : target ∈ request.scope.targetIds
  · simp [hmem, activated_revokedAt]
  · simp only [if_true, hmem, if_false, iff_false, not_exists, not_and, Option.map_eq_some_iff]
    rintro _ ⟨g, -, rfl⟩
    split
    · exact fun h => by cases h
    · next hrevoked => simpa using hrevoked

inductive SpecialPermission
  | native | interactive | dockerSocket

def SpecialPermission.heldBy (g : TargetGrant) : SpecialPermission → Bool
  | .native => g.allowNative
  | .interactive => g.allowInteractive
  | .dockerSocket => g.allowDockerSocket

theorem heldBy_activated {permission : SpecialPermission} {target : TargetId}
    {g : Option TargetGrant} (h : permission.heldBy (activated user hostId target g)) :
    ∃ g', g = some g' ∧ g'.revokedAt = none ∧ permission.heldBy g' := by
  cases g with
  | none => cases permission <;> cases h
  | some g =>
    simp only [activated] at h
    split at h
    · cases permission <;> cases h
    · next hactive => exact ⟨g, rfl, by simpa using hactive, h⟩

theorem heldBy_approve (request : ApproveHost) {permission : SpecialPermission} {g : TargetGrant}
    (hg : g ∈ (r.approve user request now).grants) (hactive : g.revokedAt = none)
    (hheld : permission.heldBy g) :
    ∃ g' ∈ r.grants, g'.hostId = g.hostId ∧ g'.targetId = g.targetId ∧ g'.revokedAt = none ∧
      permission.heldBy g' := by
  have hfind := Table.find_key hg
  rw [find_approve] at hfind
  have hbefore : ∃ g', r.grants.find (g.hostId, g.targetId) = some g' ∧ g'.revokedAt = none ∧
      permission.heldBy g' := by
    split at hfind
    · split at hfind
      · have hsame := Option.some.inj hfind
        exact heldBy_activated (by rw [hsame]; exact hheld)
      · obtain ⟨g', hg', rfl⟩ := Option.map_eq_some_iff.mp hfind
        split at hactive
        · cases hactive
        · next hrevoked => exact absurd hactive (by simpa using hrevoked)
    · exact ⟨g, hfind, hactive, hheld⟩
  obtain ⟨g', hg', hrest⟩ := hbefore
  have hkey := Table.key_of_find hg'
  simp only [Prod.mk.injEq] at hkey
  exact ⟨g', Table.mem_of_find hg', hkey.1, hkey.2, hrest⟩

def afterApproval (d : Directory) (user : UserId) (request : ApproveHost) (now : Millis) :
    Registry :=
  match r.approveHost d user request now with
  | .ok t => t
  | .error _ => r

theorem find_host_approve (request : ApproveHost) :
    (r.approve user request now).store.hosts.find request.hostId
      = (r.store.hosts.find request.hostId).map approval.host := by
  obtain ⟨grants, event, happrove, -⟩ := approve_grants r user request now
  simp only [happrove, audit, updateHost, Table.find_update]
  cases hfind : r.store.hosts.find request.hostId with
  | none => rfl
  | some h => simp [Table.key_of_find hfind]

/-- **Approval never widens access**, and a failed one changes nothing. -/
theorem approval_never_widens (r : Registry) (d : Directory) (user : UserId)
    (request : ApproveHost) (now : Millis) :
    match r.approveHost d user request now with
    | .error _ => r.afterApproval d user request now = r
    | .ok t => r.afterApproval d user request now = t ∧
      (∃ h, t.store.hosts.find request.hostId = some h ∧ h.enrollmentState = .approved ∧
        h.lifecycleState = .paused) ∧
      (∀ target, target ∈ t.activeTargets request.hostId ↔ target ∈ request.scope.targetIds) ∧
      (∃ p e, r.profiles.find request.hostId = some p ∧ p.currentEnrollmentId = some e.id ∧
        e ∈ r.enrollments ∧ e.consumed.any (·.2 == request.hostId) ∧
        ∀ target ∈ request.scope.targetIds, target ∈ e.scope.targetIds) ∧
      ∀ g ∈ t.grants, g.revokedAt = none → ∀ permission : SpecialPermission,
        permission.heldBy g → ∃ g' ∈ r.grants, g'.hostId = g.hostId ∧
          g'.targetId = g.targetId ∧ g'.revokedAt = none ∧ permission.heldBy g' := by
  unfold afterApproval
  cases hcall : r.approveHost d user request now with
  | error e => rfl
  | ok t =>
    obtain ⟨x, p, e, hx, hp, -, -, -, hlineage, hsubset, rfl⟩ := approveHost_cases hcall
    refine ⟨rfl, ⟨approval.host x, ?_, rfl, rfl⟩, fun _ => mem_activeTargets_approve r request,
      ?_, fun g hg hactive permission => heldBy_approve r request hg hactive⟩
    · rw [find_host_approve, hx]
      rfl
    · simp only [lineage, hp] at hlineage
      obtain ⟨id, hid, hfind⟩ := Option.bind_eq_some_iff.mp hlineage
      obtain ⟨hfind, hconsumed⟩ := Option.filter_eq_some_iff.mp hfind
      exact ⟨p, e, hp, hid.trans (by rw [Table.key_of_find hfind]), Table.mem_of_find hfind,
        hconsumed, EnrollmentScope.isSubset_iff.mp hsubset⟩

example : ((registryService Sample.hashing fun _ => "").exec
    (.initial (some Sample.control) 0) Sample.approveCalls).map (fun s => s.db.grants.rows)
      = some [⟨1, 1, true, false, false, false, 1, none, 1⟩] := rfl

end Registry

end Gridops.Fleet
