import Gridops.Fleet.Registry.Effects

/-!
# What a transaction does to a placement

When the registry learns that nothing of a placement can exist on its host, it
proves the absence, releases the placement's allocations and ends the placement.
What each single write can do to one placement is `PlacementStep`: capacity is
never charged again, and a placement already released keeps its state.
-/

namespace Gridops.Fleet

open Gridops.Lib

def PlacementState.isEnd : PlacementState → Bool
  | .failed | .cleaned => true
  | _ => false

namespace Store

def Released (s : Store) (p : PlacementId) : Prop :=
  ∀ a ∈ s.allocations, a.placementId = p → a.state = .released

instance (s : Store) (p : PlacementId) : Decidable (s.Released p) :=
  inferInstanceAs (Decidable (∀ a ∈ s.allocations.rows, a.placementId = p → a.state = .released))

variable {s t : Store} {p q : PlacementId} {now : Millis}

theorem released_congr (h : t.allocations = s.allocations) : t.Released p ↔ s.Released p := by
  rw [Released, Released, h]

theorem released_releaseAllocations :
    (s.releaseAllocations p now).Released q ↔ q = p ∨ s.Released q := by
  unfold Released releaseAllocations
  rw [Table.forall_mem_update]
  constructor
  · intro h
    by_cases hq : q = p
    · exact .inl hq
    · exact .inr fun a ha haq => by simpa [haq, hq] using h a ha
  · intro h a ha haq
    by_cases hcond : (a.placementId == p && a.state != .released) = true
    · simp [hcond]
    · rw [if_neg hcond] at haq ⊢
      rcases h with rfl | h
      · simpa [haq] using hcond
      · exact h a ha haq

theorem released_release : (s.release p now).Released q ↔ q = p ∨ s.Released q :=
  released_releaseAllocations.trans (or_congr_right (released_congr rfl))

theorem released_commitAllocations : (s.commitAllocations p now).Released q ↔ s.Released q := by
  unfold Released commitAllocations
  rw [Table.forall_mem_update]
  refine forall₂_congr fun a _ => ?_
  by_cases hcond : (a.placementId == p && a.state == .reserved) = true
  · have hstate : a.state = .reserved := by simpa using (Bool.and_eq_true_iff.mp hcond).2
    rw [if_pos hcond]
    simp [hstate]
  · rw [if_neg hcond]

theorem isCharged_iff : s.isCharged p ↔ ¬ s.Released p := by
  simp [isCharged, Released, Table.mem_rows]

/-! ## Writes to placements -/

theorem find_setPlacementStateWhere {allowed : PlacementState → Bool} {next : PlacementState} :
    (s.setPlacementStateWhere p allowed next now).placements.find q =
      (s.placements.find q).map fun x =>
        if x.id == p && allowed x.state then { x with state := next, updatedAt := now } else x := by
  unfold setPlacementStateWhere
  rw [Table.find_update]

theorem find_release : (s.release p now).placements.find q =
    (s.placements.find q).map fun x =>
      if x.id == p && true then
        { x with
          localAbsenceProvenAt := x.localAbsenceProvenAt.or (some now)
          delayedStartsExcludedAt := x.delayedStartsExcludedAt.or (some now)
          updatedAt := now }
      else x := by
  unfold release releaseAllocations proveAbsent
  rw [Table.find_update]

theorem find_releaseAllocations :
    (s.releaseAllocations p now).placements.find q = s.placements.find q := rfl

theorem find_abandoned :
    ((s.proveAbsent p isUnstarted now).setPlacementStateWhere p isUnstarted .failed
      now).placements.find q = (s.placements.find q).map fun x =>
      if x.id == p && isUnstarted x.state then
        { x with
          localAbsenceProvenAt := x.localAbsenceProvenAt.or (some now)
          delayedStartsExcludedAt := x.delayedStartsExcludedAt.or (some now)
          state := .failed
          updatedAt := now }
      else x := by
  rw [find_setPlacementStateWhere, proveAbsent, Table.find_update, Option.map_map]
  congr 1
  funext x
  by_cases hcond : (x.id == p && isUnstarted x.state) = true
  · simp only [Function.comp_apply, hcond, if_true]
  · simp only [Function.comp_apply, hcond, if_false, Bool.false_eq_true]

theorem releaseProven_iff : s.releaseProven p ↔ ∃ x, s.placements.find p = some x ∧
    x.localAbsenceProvenAt.isSome ∧ x.delayedStartsExcludedAt.isSome := by
  simp only [releaseProven, List.any_eq_true, Bool.and_eq_true, beq_iff_eq, Table.find_some_iff,
    Table.mem_rows, and_assoc]

end Store

/-! ## One placement through one transaction -/

/-- The absence proofs stand only on a released placement, and a released placement
has ended. -/
structure Placement.Sound (x : Placement) (released : Prop) : Prop where
  proven : x.localAbsenceProvenAt.isSome → x.delayedStartsExcludedAt.isSome → released
  ended : released → x.state.isEnd

/-- What a transaction may do to placements: capacity is never charged again, a sound
placement stays sound, and one already released keeps its state. -/
structure PlacementStep (s t : Store) : Prop where
  released : ∀ p, s.Released p → t.Released p
  row : ∀ p, Option.Rel (fun x y => x.Sound (s.Released p) →
    y.Sound (t.Released p) ∧ (s.Released p → y.state = x.state))
    (s.placements.find p) (t.placements.find p)

namespace PlacementStep

variable {s t u : Store} {p : PlacementId}

theorem of_eq (hp : t.placements = s.placements) (ha : t.allocations = s.allocations) :
    PlacementStep s t where
  released p := (Store.released_congr ha).mpr
  row p := by
    rw [hp]
    cases s.placements.find p with
    | none => exact .none
    | some x => exact .some fun hx => ⟨by rwa [Store.released_congr ha], fun _ => rfl⟩

theorem refl (s : Store) : PlacementStep s s := of_eq rfl rfl

theorem trans (h₁ : PlacementStep s t) (h₂ : PlacementStep t u) : PlacementStep s u where
  released p h := h₂.released p (h₁.released p h)
  row p := by
    have hrel₁ := h₁.row p
    have hrel₂ := h₂.row p
    cases hs : s.placements.find p <;> cases ht : t.placements.find p <;>
      cases hu : u.placements.find p <;> rw [hs, ht] at hrel₁ <;> rw [ht, hu] at hrel₂ <;>
      cases hrel₁ <;> cases hrel₂
    · exact .none
    · next hxy hyz =>
      refine .some fun hx => ?_
      obtain ⟨hy, hsame₁⟩ := hxy hx
      obtain ⟨hz, hsame₂⟩ := hyz hy
      exact ⟨hz, fun h => (hsame₂ (h₁.released p h)).trans (hsame₁ h)⟩

theorem framed {s' t' : Store} (h : PlacementStep s t) (hp : s'.placements = s.placements)
    (ha : s'.allocations = s.allocations) (hp' : t'.placements = t.placements)
    (ha' : t'.allocations = t.allocations) : PlacementStep s' t' :=
  (of_eq hp.symm ha.symm).trans (h.trans (of_eq hp' ha'))

theorem setPlacementStateWhere {now : Millis} {allowed : PlacementState → Bool}
    {next : PlacementState}
    (h : ∀ x, s.placements.find p = some x → x.Sound (s.Released p) → s.Released p →
      allowed x.state → next = x.state) :
    PlacementStep s (s.setPlacementStateWhere p allowed next now) where
  released q := (Store.released_congr rfl).mpr
  row q := by
    rw [Store.find_setPlacementStateWhere]
    cases hx : s.placements.find q with
    | none => exact .none
    | some x =>
      refine .some fun hsound => ?_
      have hq : x.id = q := Table.key_of_find hx
      by_cases hcond : (x.id == p && allowed x.state) = true
      · simp only [hcond]
        simp only [Bool.and_eq_true, beq_iff_eq] at hcond
        have hqp : q = p := hq.symm.trans hcond.1
        subst hqp
        have hsame : s.Released q → next = x.state := fun hr => h x hx hsound hr hcond.2
        exact ⟨⟨hsound.proven, fun hr => (hsame hr) ▸ hsound.ended hr⟩, hsame⟩
      · simp only [hcond]
        exact ⟨hsound, fun _ => rfl⟩

theorem release {now : Millis} {allowed : PlacementState → Bool} {next : PlacementState}
    (hcharged : ∀ x, s.placements.find p = some x → ¬ s.Released p →
      allowed x.state = true ∧ next.isEnd = true)
    (hdone : ∀ x, s.placements.find p = some x → x.Sound (s.Released p) → s.Released p →
      allowed x.state → next = x.state) :
    PlacementStep s ((s.release p now).setPlacementStateWhere p allowed next now) where
  released q h := Store.released_release.mpr (.inr h)
  row q := by
    have hrel : ((s.release p now).setPlacementStateWhere p allowed next now).Released q ↔
        q = p ∨ s.Released q := Store.released_release
    rw [hrel, Store.find_setPlacementStateWhere, Store.find_release]
    cases hx : s.placements.find q with
    | none => exact .none
    | some x =>
      refine .some fun hsound => ?_
      have hq : x.id = q := Table.key_of_find hx
      by_cases hqp : q = p
      · subst hqp
        by_cases hr : s.Released q
        · cases hallowed : allowed x.state with
          | true =>
            have hsame := hdone x hx hsound hr hallowed
            simp only [hq, beq_self_eq_true, Bool.true_and, if_true, hallowed]
            exact ⟨⟨fun _ _ => .inl trivial, fun _ => hsame ▸ hsound.ended hr⟩, fun _ => hsame⟩
          | false =>
            simp only [hq, beq_self_eq_true, Bool.true_and, if_true, hallowed]
            exact ⟨⟨fun _ _ => .inl trivial, fun _ => hsound.ended hr⟩, fun _ => rfl⟩
        · obtain ⟨hallowed, hend⟩ := hcharged x hx hr
          simp only [hq, beq_self_eq_true, Bool.true_and, if_true, hallowed]
          exact ⟨⟨fun _ _ => .inl trivial, fun _ => hend⟩, fun h => absurd h hr⟩
      · simp only [hq, beq_eq_false_iff_ne.mpr hqp, Bool.false_and, Bool.false_eq_true, if_false,
          hqp, false_or]
        exact ⟨hsound, fun _ => trivial⟩

theorem commitAllocations (s : Store) (p : PlacementId) (now : Millis) :
    PlacementStep s (s.commitAllocations p now) where
  released q := Store.released_commitAllocations.mpr
  row q := by
    rw [Store.released_commitAllocations]
    show Option.Rel _ (s.placements.find q) (s.placements.find q)
    cases s.placements.find q with
    | none => exact .none
    | some x => exact .some fun hx => ⟨hx, fun _ => rfl⟩

theorem eraseBootstrap (s : Store) (p : PlacementId) (now : Millis) :
    PlacementStep s (s.eraseBootstrap p now) := of_eq rfl rfl

theorem applyToPlacement (hcharged : ¬ s.Released p) (kind : CommandKind)
    (outcome : CommandOutcome) (now : Millis) :
    PlacementStep s (s.applyToPlacement p kind outcome now) := by
  have hmove : ∀ (t : Store) (next : PlacementState), t.allocations = s.allocations →
      PlacementStep t (t.setPlacementState p next now) := fun t next ht =>
    setPlacementStateWhere fun _ _ _ hr => absurd ((Store.released_congr ht).mp hr) hcharged
  have hend : ∀ (t : Store) (next : PlacementState), t.allocations = s.allocations →
      next.isEnd → PlacementStep t ((t.release p now).setPlacementState p next now) :=
    fun t next ht hnext => release (fun _ _ _ => ⟨rfl, hnext⟩)
      fun _ _ _ hr => absurd ((Store.released_congr ht).mp hr) hcharged
  have hcommit : ∀ t : Store, t.allocations = s.allocations →
      PlacementStep t ((t.commitAllocations p now).setPlacementState p .running now) :=
    fun t ht => (commitAllocations t p now).trans (setPlacementStateWhere fun _ _ _ hr =>
      absurd ((Store.released_congr ht).mp (Store.released_commitAllocations.mp hr)) hcharged)
  unfold Store.applyToPlacement
  have herase : PlacementStep s
      (if kind = .startRunner ∧ !outcome.isProgress then s.eraseBootstrap p now else s) := by
    split
    · exact eraseBootstrap s p now
    · exact refl s
  have halloc : (if kind = .startRunner ∧ !outcome.isProgress then s.eraseBootstrap p now
      else s).allocations = s.allocations := by
    split <;> rfl
  refine herase.trans ?_
  generalize (if kind = .startRunner ∧ !outcome.isProgress then s.eraseBootstrap p now else s) = t
    at halloc
  split
  case h_6 => split
              · exact hend t _ halloc rfl
              · exact refl t
  all_goals first
    | exact refl t
    | exact hmove t _ halloc
    | exact hend t _ halloc rfl
    | exact hcommit t halloc

end PlacementStep

end Gridops.Fleet
