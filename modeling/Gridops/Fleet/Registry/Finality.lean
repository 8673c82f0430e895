import Gridops.Fleet.Registry.Release

/-!
# Releasing is final while commands do not overlap

Five transactions write a placement's state, some with a guard on the state and some without. Each
makes a `PlacementStep` from a state in which commands do not overlap (`Quiet`), so over whole runs
of such steps a released placement has ended and never moves again.

With two commands of one placement open at once, the second can move a placement whose capacity is
already free: `released_then_uncertain` is such a run.
-/

namespace Gridops.Fleet

open Gridops.Lib

/-! ## Commands that can still move their placement -/

/-- The command may still change its placement's workload: it is not an inspect and its
fate is open. -/
def Command.isOpen (c : Command) : Bool := c.kind != .inspect && !c.state.isFinal

/-- Commands of one placement do not overlap: a charged placement has at most one open command, and
a released one only a prepare or start that was never answered. -/
structure Quiet (s : Store) : Prop where
  one : ∀ c ∈ s.commands, ∀ d ∈ s.commands, c.isOpen → d.isOpen →
    ∀ p, c.placementId = some p → d.placementId = some p → ¬ s.Released p → c = d
  creating : ∀ c ∈ s.commands, c.isOpen → c.kind.creates →
    ∀ p, c.placementId = some p → ¬ s.Released p →
    ∀ x, s.placements.find p = some x → Store.awaitsCreation x.state
  released : ∀ c ∈ s.commands, c.isOpen → ∀ p, c.placementId = some p → s.Released p →
    c.state = .uncertain ∧ c.kind.creates

set_option synthInstance.maxSize 512 in
instance (s : Store) : Decidable (Quiet s) :=
  decidable_of_iff
    ((∀ c ∈ s.commands.rows, ∀ d ∈ s.commands.rows, c.isOpen → d.isOpen →
      ∀ p ∈ c.placementId.toList, d.placementId = some p → ¬ s.Released p → c = d) ∧
    (∀ c ∈ s.commands.rows, c.isOpen → c.kind.creates → ∀ p ∈ c.placementId.toList,
      ¬ s.Released p → ∀ x ∈ (s.placements.find p).toList, Store.awaitsCreation x.state) ∧
    (∀ c ∈ s.commands.rows, c.isOpen → ∀ p ∈ c.placementId.toList, s.Released p →
      c.state = .uncertain ∧ c.kind.creates)) (by
    simp only [Option.mem_toList]
    exact ⟨fun h => ⟨h.1, h.2.1, h.2.2⟩, fun h => ⟨h.one, h.creating, h.released⟩⟩)

/-- An unanswered prepare has already given its capacity back. -/
def Prepared (s : Store) : Prop :=
  ∀ c ∈ s.commands, c.kind = .prepareEnvironment → c.state = .uncertain →
    ∀ p, c.placementId = some p → s.Released p

/-- What one transaction keeps of a placement's story. -/
structure Kept (s t : Store) : Prop where
  step : PlacementStep s t
  prepared : Prepared s → Prepared t

namespace Kept

variable {s t u : Store} {c : Command} {p : PlacementId} {now : Millis}

theorem refl (s : Store) : Kept s s := ⟨.refl s, id⟩

theorem trans (h₁ : Kept s t) (h₂ : Kept t u) : Kept s u :=
  ⟨h₁.step.trans h₂.step, h₂.prepared ∘ h₁.prepared⟩

theorem of_step (h : PlacementStep s t) (hc : t.commands = s.commands) : Kept s t :=
  ⟨h, fun hprep c hmem hkind hstate p hp =>
    h.released p (hprep c (hc ▸ hmem) hkind hstate p hp)⟩

theorem of_update (h : PlacementStep s t) {q : Command → Bool} {f : Command → Command}
    (hf : ∀ c, (f c).id = c.id) (hc : t.commands = s.commands.update q f hf)
    (hstate : ∀ c, (f c).state ≠ .uncertain) : Kept s t := by
  refine ⟨h, fun hprep => ?_⟩
  unfold Prepared
  rw [hc, Table.forall_mem_update]
  intro c hmem hkind huncertain p hp
  by_cases hq : q c = true
  · rw [if_pos hq] at huncertain
    exact absurd huncertain (hstate c)
  · rw [if_neg hq] at hkind huncertain hp
    exact h.released p (hprep c hmem hkind huncertain p hp)

/-! ## The loops -/

theorem expirePlacement (hopen : ∀ p, c.placementId = some p → c.isOpen → ¬ s.Released p)
    (hstate : c.state = .delivered ∨ c.state = .pending) :
    PlacementStep s (Store.expirePlacement now s c) := by
  unfold Store.expirePlacement
  split
  · exact .refl s
  · next p hp =>
    have hcharged : c.kind ≠ .inspect → ¬ s.Released p := fun hkind =>
      hopen p hp (by rcases hstate with h | h <;> simp [Command.isOpen, hkind, h,
        CommandState.isFinal])
    split
    · exact .refl s
    · split
      · have hr := hcharged fun hi => by simp_all
        exact .setPlacementStateWhere fun _ _ _ h => absurd h hr
      · split
        · next hcreates =>
          have hr := hcharged fun hi => by simp [hi, CommandKind.creates] at hcreates
          exact (PlacementStep.eraseBootstrap s p now).trans
            (.release (fun _ _ _ => ⟨rfl, rfl⟩) fun _ _ _ h => absurd h hr)
        · exact .refl s

theorem expirePlacement_released (hkind : c.kind = .prepareEnvironment)
    (hp : c.placementId = some p) : (Store.expirePlacement now s c).Released p := by
  simp only [Store.expirePlacement, hp, hkind]
  simp [Store.setPlacementState]
  exact Store.released_release.mpr (.inl rfl)

theorem cancelRow (hc : s.commands.find c.id = some c)
    (hopen : ∀ p, c.placementId = some p → c.isOpen → ¬ s.Released p)
    (hstate : c.state = .delivered ∨ c.state = .pending) : Kept s (Store.cancelRow now s c) := by
  have hstep : PlacementStep s (Store.cancelRow now s c) :=
    .trans (t := s.setCommandState c.id (Store.expiredState c)) (.of_eq rfl rfl)
      (expirePlacement hopen hstate)
  refine ⟨hstep, fun hprep => ?_⟩
  have hcommands : (Store.cancelRow now s c).commands =
      (s.setCommandState c.id (Store.expiredState c)).commands :=
    (Store.expirePlacement_frame c).commands
  unfold Prepared
  rw [hcommands, Store.setCommandState, Table.forall_mem_update]
  intro d hd hkind huncertain p hp
  by_cases hid : (d.id == c.id) = true
  · have hdc : d = c := Table.eq_of_key hd (Table.mem_of_find hc) (by simpa using hid)
    subst hdc
    rw [if_pos hid] at hkind hp
    exact expirePlacement_released hkind hp
  · rw [if_neg hid] at hkind huncertain hp
    exact hstep.released p (hprep d hd hkind huncertain p hp)

variable {q : PlacementId} {hostId : HostId}

theorem cancelRow_released {u : Store} (hstate : c.state = .delivered ∨ c.state = .pending)
    (h : (Store.cancelRow now u c).Released q) :
    u.Released q ∨ c.isOpen ∧ c.placementId = some q := by
  unfold Store.cancelRow Store.expirePlacement at h
  split at h
  · exact .inl h
  · next p hp =>
    split at h
    · exact .inl h
    · split at h
      · exact .inl h
      · split at h
        · next hcreates =>
          rcases Store.released_release.mp h with rfl | h
          · refine .inr ⟨?_, hp⟩
            have hkind : c.kind ≠ .inspect := fun hi => by simp [hi, CommandKind.creates] at hcreates
            rcases hstate with h | h <;> simp [Command.isOpen, hkind, h, CommandState.isFinal]
          · exact .inl h
        · exact .inl h

theorem cancelUndeliverable (hquiet : Quiet s) (hostId : HostId) (now : Millis) :
    Kept s (s.cancelUndeliverable hostId now) := by
  have hstate : ∀ c ∈ s.undeliverable hostId now, c.state = .delivered ∨ c.state = .pending := by
    intro c hc
    obtain ⟨-, -, h, -, hund⟩ := Store.mem_undeliverable hc
    exact Store.undeliverable_state hund
  have hmem : ∀ c ∈ s.undeliverable hostId now, c ∈ s.commands := fun c hc =>
    Table.mem_of_find (Store.mem_undeliverable hc).1
  have hcharged : ∀ c ∈ s.undeliverable hostId now, ∀ p, c.placementId = some p → c.isOpen →
      ¬ s.Released p := by
    intro c hc p hp hopen hr
    have huncertain := (hquiet.released c (hmem c hc) hopen p hp hr).1
    rcases hstate c hc with h | h <;> simp [h] at huncertain
  refine Table.foldl_selected (A := fun u c => u.commands.find c.id = some c ∧
    ∀ p, c.placementId = some p → c.isOpen → ¬ u.Released p) refl (fun _ _ _ => trans)
    Store.undeliverable_nodup (fun c hc => ⟨(Store.mem_undeliverable hc).1, hcharged c hc⟩)
    ?_ fun u c hc hA => cancelRow hA.1 hA.2 (hstate c hc)
  -- Another row of the batch cannot release this row's placement: it would be open too.
  intro u c hc d hd hne hA
  refine ⟨(Store.cancelRow_find hne).trans hA.1, fun p hp hopen hr => ?_⟩
  rcases cancelRow_released (hstate c hc) hr with hr | ⟨hcopen, hcp⟩
  · exact hA.2 p hp hopen hr
  · have hdc := hquiet.one d (hmem d hd) c (hmem c hc) hopen hcopen p hp hcp
      (hcharged d hd p hp hopen)
    exact hne (hdc ▸ rfl)

theorem pollCommands (hquiet : Quiet s) {auth : AuthenticatedHost} {session : SessionId}
    {cs : List AgentCommandEnvelope} (h : s.pollCommands auth session now = .ok (cs, t)) :
    Kept s t := by
  have hcancel := cancelUndeliverable hquiet auth.hostId now
  rcases Store.pollCommands_cases h with ⟨-, rfl | rfl⟩ | ⟨c, -, -, -, -, -, rfl⟩
  · exact refl _
  · exact hcancel
  · exact hcancel.trans (of_update (.of_eq rfl rfl) (fun _ => by rfl) rfl fun _ => by simp)

theorem losePlacement_released :
    (Store.losePlacement now s c).Released q ↔
      s.Released q ∨ (c.kind.creates ∧ c.placementId = some q) := by
  unfold Store.losePlacement
  split
  · next hp => simp [hp]
  · next p hp =>
    split
    · next hcreates =>
      have hrelease : ((s.eraseBootstrap p now).release p now).Released q ↔
          q = p ∨ s.Released q := Store.released_release
      refine hrelease.trans ?_
      simp [hp, hcreates, or_comm, eq_comm]
    · next hcreates => simp [hcreates]

theorem settleRow_released :
    (Store.settleRow hostId now s c).Released q ↔
      s.Released q ∨ (c.kind.creates ∧ c.placementId = some q) :=
  losePlacement_released

theorem settleRow_state {y : Placement}
    (hy : (Store.settleRow hostId now s c).placements.find q = some y) :
    ∃ x, s.placements.find q = some x ∧ (y.state = x.state ∨
      (c.kind.creates ∧ c.placementId = some q ∧ Store.awaitsCreation x.state)) := by
  unfold Store.settleRow Store.losePlacement at hy
  split at hy
  · exact ⟨y, hy, .inl rfl⟩
  · next p hp =>
    split at hy
    · next hcreates =>
      rw [Store.find_setPlacementStateWhere, Store.find_release, Option.map_map] at hy
      obtain ⟨x, hx, rfl⟩ := Option.map_eq_some_iff.mp hy
      have hq : x.id = q := Table.key_of_find hx
      refine ⟨x, hx, ?_⟩
      by_cases hqp : q = p
      · cases hwait : Store.awaitsCreation x.state with
        | true => exact .inr ⟨hcreates, hqp ▸ hp, rfl⟩
        | false => exact .inl (by simp [hq, hqp, hwait])
      · exact .inl (by simp [hq, hqp])
    · exact ⟨y, hy, .inl rfl⟩

/-- The placement of a prepare or start that is cancelled was released and has ended, or still waits
for it. -/
def Settles (s u : Store) (c : Command) : Prop :=
  c.kind.creates → ∀ p, c.placementId = some p →
    (s.Released p → u.Released p ∧ ∀ x, u.placements.find p = some x → x.state.isEnd) ∧
    (¬ s.Released p →
      ¬ u.Released p ∧ ∀ x, u.placements.find p = some x → Store.awaitsCreation x.state)

theorem not_awaitsCreation_of_isEnd {st : PlacementState} (h : st.isEnd) :
    Store.awaitsCreation st = false := by
  cases st <;> simp_all [PlacementState.isEnd, Store.awaitsCreation]

theorem settleRow (hc : Settles u s c) :
    Kept s (Store.settleRow hostId now s c) := by
  have hstep : PlacementStep s (Store.settleRow hostId now s c) := by
    refine .trans (t := (s.setCommandState c.id .cancelled).auditAndEvent
      ⟨none, some hostId, c.id, .commandUnreceived c.kind, now⟩) (.of_eq rfl rfl) ?_
    unfold Store.settleRow Store.losePlacement
    split
    · exact .refl _
    · next p hp =>
      split
      · next hcreates =>
        refine (PlacementStep.eraseBootstrap _ p now).trans (.release ?_ ?_)
        · intro x hx hcharged
          by_cases hr : u.Released p
          · exact absurd ((hc hcreates p hp).1 hr).1 hcharged
          · exact ⟨((hc hcreates p hp).2 hr).2 x hx, rfl⟩
        · intro x hx _ hreleased hwait
          by_cases hr : u.Released p
          · have hend := ((hc hcreates p hp).1 hr).2 x hx
            rw [not_awaitsCreation_of_isEnd hend] at hwait
            cases hwait
          · exact absurd hreleased ((hc hcreates p hp).2 hr).1
      · exact .refl _
  exact of_update hstep (fun _ => by rfl) (Store.losePlacement_frame c).commands fun _ => by simp

theorem resumeTouched (hcharged : ¬ s.Released p) : Kept s (Store.resumeTouched now s p) := by
  unfold Store.resumeTouched Store.keepUncertainWhileUnsettled
  refine of_step (.trans (t := s.setPlacementStateWhere p (· == .uncertain) .running now) ?_ ?_) rfl
  · exact .setPlacementStateWhere fun _ _ _ hr => absurd hr hcharged
  · refine .setPlacementStateWhere fun _ _ _ hr => ?_
    exact absurd ((Store.released_congr (s := s) rfl).mp hr) hcharged

theorem foldl_resumeTouched {ps : List PlacementId} (hcharged : ∀ p ∈ ps, ¬ s.Released p) :
    Kept s (ps.foldl (Store.resumeTouched now) s) := by
  induction ps generalizing s with
  | nil => exact refl s
  | cons p ps ih =>
    exact (resumeTouched (hcharged p List.mem_cons_self)).trans
      (ih fun q hq => hcharged q (List.mem_cons_of_mem p hq))

theorem foldl_settleRow_charged {rows : List Command}
    (hrows : ∀ c ∈ rows, c.kind.creates → c.placementId ≠ some p) (hcharged : ¬ s.Released p) :
    ¬ (rows.foldl (Store.settleRow hostId now) s).Released p := by
  induction rows generalizing s with
  | nil => exact hcharged
  | cons c rows ih =>
    refine ih (fun d hd => hrows d (List.mem_cons_of_mem c hd)) fun hr => ?_
    rcases settleRow_released.mp hr with hr | ⟨hcreates, hp⟩
    · exact hcharged hr
    · exact hrows c List.mem_cons_self hcreates hp

end Kept

/-- Every placement is sound and no unanswered prepare holds capacity. -/
structure Consistent (s : Store) : Prop where
  sound : ∀ p x, s.placements.find p = some x → x.Sound (s.Released p)
  prepared : Prepared s

namespace Kept

variable {s t u : Store} {c : Command} {p : PlacementId} {now : Millis}

theorem settleUnreceived (hquiet : Quiet s) (hs : Consistent s) (hostId : HostId) (epoch : Nat)
    (session : SessionId) (now : Millis) :
    Kept s (s.settleUnreceived hostId epoch session now) := by
  have hmem : ∀ c ∈ s.unreceived hostId epoch session, c ∈ s.commands := fun c hc =>
    (Store.mem_unreceived.mp hc).1
  have hopen : ∀ c ∈ s.unreceived hostId epoch session, c.kind ≠ .inspect → c.isOpen := by
    intro c hc hkind
    rcases (Store.mem_unreceived.mp hc).2.2.2.1 with h | h <;>
      simp [Command.isOpen, hkind, h, CommandState.isFinal]
  have hcreating : ∀ c : Command, c.kind.creates → c.kind ≠ .inspect := fun c hc hi => by
    simp [hi, CommandKind.creates] at hc
  have hrows : Kept s ((s.unreceived hostId epoch session).foldl (Store.settleRow hostId now) s) := by
    refine Table.foldl_selected (A := Settles s) refl (fun _ _ _ => trans)
      (Store.filter_rows_nodup _) ?_ ?_ fun u c _ hA => settleRow hA
    · intro c hc hcreates p hp
      have hcopen := hopen c hc (hcreating c hcreates)
      exact ⟨fun hr => ⟨hr, fun x hx => (hs.sound p x hx).ended hr⟩,
        fun hr => ⟨hr, hquiet.creating c (hmem c hc) hcopen hcreates p hp hr⟩⟩
    · intro u c hc d hd hne hA hcreates p hp
      obtain ⟨hdone, hwaits⟩ := hA hcreates p hp
      constructor
      · intro hr
        refine ⟨settleRow_released.mpr (.inl (hdone hr).1), fun y hy => ?_⟩
        obtain ⟨x, hx, hsame | ⟨-, -, hwait⟩⟩ := settleRow_state hy
        · exact hsame ▸ (hdone hr).2 x hx
        · rw [not_awaitsCreation_of_isEnd ((hdone hr).2 x hx)] at hwait
          cases hwait
      · -- A second prepare or start of a charged placement would be open beside this one.
        intro hr
        have hother : c.kind.creates → c.placementId ≠ some p := fun hcc hcp => by
          have hdc := hquiet.one d (hmem d hd) c (hmem c hc) (hopen d hd (hcreating d hcreates))
            (hopen c hc (hcreating c hcc)) p hp hcp hr
          exact hne (hdc ▸ rfl)
        refine ⟨fun hrel => ?_, fun y hy => ?_⟩
        · rcases settleRow_released.mp hrel with h | ⟨hcc, hcp⟩
          · exact (hwaits hr).1 h
          · exact hother hcc hcp
        · obtain ⟨x, hx, hsame | ⟨hcc, hcp, -⟩⟩ := settleRow_state hy
          · exact hsame ▸ (hwaits hr).2 x hx
          · exact (hother hcc hcp).elim
  refine hrows.trans (foldl_resumeTouched fun p hp => ?_)
  obtain ⟨c, hc, htouched⟩ := List.mem_filterMap.mp hp
  unfold Store.touchedBy at htouched
  split at htouched
  · cases htouched
  · next hkind =>
    simp only [Bool.or_eq_true, beq_iff_eq, not_or] at hkind
    have hcopen := hopen c hc hkind.2
    have hcharged : ¬ s.Released p := fun hr =>
      hkind.1 (hquiet.released c (hmem c hc) hcopen p htouched hr).2
    refine foldl_settleRow_charged (fun d hd hdc hdp => ?_) hcharged
    have hdc' := hquiet.one d (hmem d hd) c (hmem c hc) (hopen d hd (hcreating d hdc)) hcopen p hdp
      htouched hcharged
    exact hkind.1 (hdc' ▸ hdc)

/-! ## Results -/

theorem inspect_applyToPlacement (s : Store) (p : PlacementId) (outcome : CommandOutcome) :
    s.applyToPlacement p .inspect outcome now = s := by
  cases outcome <;> simp [Store.applyToPlacement]

variable {code : UncertainCode} {diagnostic : Option DiagnosticReference}

theorem applyToPlacement_prepare_released :
    (s.applyToPlacement p .prepareEnvironment (.uncertain code diagnostic) now).Released p := by
  exact Store.released_release.mpr (.inl rfl)

/-- The answer to a start, stop, drain, cleanup or sandbox command that leaves it
uncertain releases nothing. -/
theorem applyToPlacement_uncertain_charged {kind : CommandKind} (hkind : kind ≠ .prepareEnvironment)
    (hcharged : ¬ s.Released p) :
    ¬ (s.applyToPlacement p kind (.uncertain code diagnostic) now).Released p := by
  have halloc : (s.applyToPlacement p kind (.uncertain code diagnostic) now).allocations =
      s.allocations := by
    cases kind <;> simp_all [Store.applyToPlacement, Store.setPlacementState,
      Store.setPlacementStateWhere, Store.eraseBootstrap, CommandOutcome.isProgress]
  exact fun hr => hcharged ((Store.released_congr halloc).mp hr)

theorem state_of_placementIsUncertain (h : s.placementIsUncertain p) :
    ∃ x, s.placements.find p = some x ∧ x.state = .uncertain := by
  obtain ⟨x, hx, hcond⟩ := List.any_eq_true.mp h
  simp only [Bool.and_eq_true, beq_iff_eq] at hcond
  exact ⟨x, Table.find_some_iff.mpr ⟨hx, hcond.1⟩, hcond.2⟩

theorem exists_open_of_unsettled (h : s.unsettled p) :
    ∃ c ∈ s.commands, c.placementId = some p ∧ c.state = .uncertain ∧ c.isOpen := by
  obtain ⟨c, hc, hcond⟩ := List.any_eq_true.mp h
  simp only [Bool.and_eq_true, beq_iff_eq] at hcond
  exact ⟨c, hc, hcond.1.1, hcond.1.2, by
    simp [Command.isOpen, hcond.2, hcond.1.2, CommandState.isFinal]⟩

theorem isOpen_of_not_isClosed (hkind : c.kind ≠ .inspect) (h : s.isClosed c = false) :
    c.isOpen := by
  cases hstate : c.state <;> simp_all [Store.isClosed, Store.isLate, Command.isOpen,
    CommandState.isFinal, CommandState.isTerminal]

theorem state_of_not_isLate (h : s.isClosed c = false) (hlate : s.isLate c = false) :
    c.state ≠ .uncertain := by
  intro hstate
  simp [Store.isClosed, hlate, hstate, CommandState.isTerminal] at h

theorem applyResult {outcome : CommandOutcome} (now : Millis) (hquiet : Quiet s)
    (hs : Consistent s) (hc : c ∈ s.commands) (hclosed : s.isClosed c = false) (hplacements : u.placements = s.placements)
    (halloc : u.allocations = s.allocations)
    (hcommands : u.commands = (s.setCommandState c.id outcome.commandState).commands) :
    PlacementStep u (u.applyResult c (s.isLate c) outcome now) := by
  unfold Store.applyResult
  split
  · exact .refl u
  · next p hp =>
    by_cases hkind : c.kind = .inspect
    · rw [hkind, inspect_applyToPlacement]
      split
      · exact .refl u
      · split
        · next huncertain =>
          obtain ⟨x, hx, hstate⟩ := state_of_placementIsUncertain huncertain
          refine .setPlacementStateWhere fun y hy _ _ hallowed => ?_
          cases hx.symm.trans hy
          simp [hstate] at hallowed
        · exact .refl u
    · have hopen := isOpen_of_not_isClosed hkind hclosed
      cases hlate : s.isLate c with
      | false =>
        have hcharged : ¬ u.Released p := fun hr =>
          state_of_not_isLate hclosed hlate
            (hquiet.released c hc hopen p hp ((Store.released_congr halloc).mp hr)).1
        exact .applyToPlacement hcharged _ _ _
      | true =>
        split
        · next h => cases h
        · split
          · next huncertain =>
            obtain ⟨x, hx, hstate⟩ := state_of_placementIsUncertain huncertain
            have hcharged : ¬ s.Released p := fun hr => by
              have hend := (hs.sound p x (hplacements ▸ hx)).ended hr
              simp [hstate, PlacementState.isEnd] at hend
            have hcharged' : ¬ u.Released p := fun hr => hcharged ((Store.released_congr halloc).mp hr)
            refine (PlacementStep.applyToPlacement hcharged' _ _ _).trans
              (.setPlacementStateWhere fun y hy _ hr hallowed => ?_)
            -- The command that keeps the placement unsettled can only be this one.
            simp only [Bool.and_eq_true] at hallowed
            obtain ⟨d, hd, hdp, hdstate, hdopen⟩ := exists_open_of_unsettled hallowed.2
            rw [(Store.applyToPlacement_frame _ _).commands, hcommands, Store.setCommandState,
              Table.mem_update] at hd
            obtain ⟨e, he, rfl⟩ := hd
            by_cases hid : (e.id == c.id) = true
            · have hec : e = c := Table.eq_of_key he hc (by simpa using hid)
              subst hec
              rw [if_pos hid] at hdstate
              cases outcome with
              | uncertain code diagnostic =>
                refine (applyToPlacement_uncertain_charged (fun hprepare => ?_) hcharged' hr).elim
                have hstate' : e.state = .uncertain := by
                  simp only [Store.isLate, Bool.and_eq_true, beq_iff_eq] at hlate
                  exact hlate.1
                exact hcharged (hs.prepared e hc hprepare hstate' p hp)
              | accepted _ | running _ | succeeded _ | failed _ _ _ => cases hdstate
            · rw [if_neg hid] at hdp hdopen
              have hec := hquiet.one e he c hc hdopen hopen p hdp hp hcharged
              exact (hid (by simp [hec])).elim
          · exact .refl u

/-- An uncertain answer to a prepare leaves the placement released, whichever way it
is applied. -/
theorem applyResult_prepare_released (hkind : c.kind = .prepareEnvironment)
    (hp : c.placementId = some p) (hlate : s.isLate c → s.Released p)
    (halloc : u.allocations = s.allocations)
    (hstep : PlacementStep u (u.applyResult c (s.isLate c) (.uncertain code diagnostic) now)) :
    (u.applyResult c (s.isLate c) (.uncertain code diagnostic) now).Released p := by
  cases h : s.isLate c with
  | true => exact h ▸ hstep.released p ((Store.released_congr halloc).mpr (hlate h))
  | false =>
    simp only [Store.applyResult, hp, hkind]
    exact applyToPlacement_prepare_released

theorem recordCommandResult {H : Hashing} {auth : AuthenticatedHost} {result : AgentCommandResult}
    {disposition : ResultDisposition} (hquiet : Quiet s) (hs : Consistent s)
    (h : s.recordCommandResult H auth result now = .ok (disposition, t)) : Kept s t := by
  obtain ⟨c, hfind, -, -, ⟨-, -, -, rfl⟩ | ⟨-, results, -, ⟨-, -, rfl⟩ | ⟨hclosed, -, rfl⟩⟩⟩ :=
    Store.recordCommandResult_cases h
  · exact refl _
  · exact of_step (.of_eq rfl rfl) rfl
  · have hc : c ∈ s.commands := Table.mem_of_find hfind
    have happly := applyResult (u := (Store.setCommandState { s with results := results }
      c.id result.outcome.commandState).recordAttempt c result.outcome.commandState now)
      now hquiet hs hc hclosed rfl rfl rfl
    have hstep : PlacementStep s (Store.settleCommand { s with results := results } c auth.hostId
        (s.isLate c) result.outcome now) := happly.framed rfl rfl rfl rfl
    refine ⟨hstep, fun hprep => ?_⟩
    unfold Prepared
    rw [Store.settleCommand_commands, Store.setCommandState, Table.forall_mem_update]
    intro d hd hkind huncertain p hp
    by_cases hid : (d.id == c.id) = true
    · have hdc : d = c := Table.eq_of_key hd hc (by simpa using hid)
      subst hdc
      rw [if_pos hid] at hkind huncertain hp
      cases houtcome : result.outcome with
      | uncertain code diagnostic =>
        rw [houtcome] at happly
        refine applyResult_prepare_released hkind hp (fun hlate => ?_) rfl happly
        simp only [Store.isLate, Bool.and_eq_true, beq_iff_eq] at hlate
        exact hprep d hd hkind hlate.1 p hp
      | accepted _ | running _ | succeeded _ | failed _ _ _ =>
        rw [houtcome] at huncertain
        cases huncertain
    · rw [if_neg hid] at hkind huncertain hp
      exact hstep.released p (hprep d hd hkind huncertain p hp)

/-! ## Repair, abandonment and issue -/

theorem repairOne (user : UserId) (hostId : HostId) (now : Millis)
    (acc : Store × List PlacementId) (p : PlacementId) :
    Kept acc.1 (Store.repairOne user hostId now acc p).1 := by
  obtain ⟨s, -⟩ := acc
  simp only [Store.repairOne]
  split
  · next x h hx hh =>
    split
    · next hcond =>
      have hends : ∀ y, s.placements.find p = some y → y.Sound (s.Released p) → ¬ s.Released p := by
        intro y hy hsound hr
        cases hx.symm.trans hy
        have hend := hsound.ended hr
        simp [hcond.2, PlacementState.isEnd] at hend
      cases s.knownStarted x h with
      | true =>
        have hstep : PlacementStep s (s.setPlacementState p .running now) :=
          .setPlacementStateWhere fun y hy hsound hr => absurd hr (hends y hy hsound)
        exact of_update (hstep.framed rfl rfl rfl rfl) (fun _ => by rfl) rfl fun _ => by simp
      | false =>
        have hstep : PlacementStep s ((s.release p now).setPlacementState p .failed now) :=
          .release (fun _ _ _ => ⟨rfl, rfl⟩) fun y hy hsound hr => absurd hr (hends y hy hsound)
        exact of_update (hstep.framed rfl rfl rfl rfl) (fun _ => by rfl) rfl fun _ => by simp
    · exact refl s
  · exact refl s

theorem repairUnconfirmed (s : Store) (user : UserId) (hostId : HostId) (ps : List PlacementId)
    (now : Millis) : Kept s (s.repairUnconfirmed user hostId ps now).1 := by
  suffices h : ∀ acc : Store × List PlacementId,
      Kept acc.1 (ps.foldl (Store.repairOne user hostId now) acc).1 from h (s, [])
  induction ps with
  | nil => exact fun acc => refl acc.1
  | cons p ps ih => exact fun acc => (repairOne user hostId now acc p).trans (ih _)

/-- Abandoning ends the placement it releases: the trigger refuses a release without the proofs. -/
theorem abandonUnstarted {changed : Bool} (h : s.abandonUnstarted p now = .ok (changed, t)) :
    Kept s t := by
  refine of_step ?_ (Store.abandonUnstarted_frame h).commands
  unfold Store.abandonUnstarted at h
  split at h
  · cases h
    exact .refl s
  · obtain ⟨hallowed, h⟩ := guard_eq_ok h
    cases h
    refine ⟨fun q hr => Store.released_releaseAllocations.mpr (.inr hr), fun q => ?_⟩
    rw [Store.released_releaseAllocations, Store.find_releaseAllocations, Store.find_abandoned]
    cases hx : s.placements.find q with
    | none => exact .none
    | some x =>
      refine .some fun hsound => ?_
      have hq : x.id = q := Table.key_of_find hx
      by_cases hqp : q = p
      · subst hqp
        cases hunstarted : Store.isUnstarted x.state with
        | true =>
          have hfailed : s.Released q → PlacementState.failed = x.state := fun hr => by
            have hend := hsound.ended hr
            cases hstate : x.state <;> simp_all [PlacementState.isEnd, Store.isUnstarted]
          simp only [hq, beq_self_eq_true, hunstarted]
          exact ⟨⟨fun _ _ => .inl trivial, fun _ => rfl⟩, hfailed⟩
        | false =>
          -- Nothing was proven now, so the release needs proofs from before.
          have hr : s.Released q := by
            by_contra hcharged
            have hcharged' : ((s.proveAbsent q Store.isUnstarted now).setPlacementStateWhere q
                Store.isUnstarted .failed now).isCharged q := Store.isCharged_iff.mpr hcharged
            rw [hcharged', Bool.true_and, Bool.not_eq_true', Bool.not_eq_false,
              Store.releaseProven_iff, Store.find_abandoned, hx] at hallowed
            obtain ⟨y, hy, hlocal, hdelayed⟩ := hallowed
            simp only [Option.map_some, hq, beq_self_eq_true, hunstarted, Option.some.injEq] at hy
            subst hy
            exact hcharged (hsound.proven hlocal hdelayed)
          simp only [hq, beq_self_eq_true, hunstarted]
          exact ⟨⟨fun _ _ => .inl trivial, fun _ => hsound.ended hr⟩, fun _ => rfl⟩
      · simp only [hq, beq_eq_false_iff_ne.mpr hqp, Bool.false_and, Bool.false_eq_true, if_false,
          hqp, false_or]
        exact ⟨hsound, fun _ => trivial⟩

theorem issueCommand {H : Hashing} {operation : AgentOperation} {key : IdempotencyKey}
    {ttl : Millis} {freshId : CommandId} {issued : Option CommandId}
    (h : s.issueCommand H p operation key ttl freshId now = .ok (issued, t)) : Kept s t := by
  rcases Store.issueCommand_cases h with ⟨-, rfl⟩ | ⟨c, commands, -, hissued, hinsert, rfl⟩
  · exact refl _
  · refine ⟨.of_eq rfl rfl, fun hprep d hd hkind hstate q hq => ?_⟩
    rcases (Table.mem_insert? hinsert).mp hd with hd | rfl
    · exact hprep d hd hkind hstate q hq
    · rw [hissued.state] at hstate
      cases hstate

end Kept

/-! ## Whole runs -/

namespace Consistent

variable {s t : Store}

theorem of_admitted (hcharged : ∀ x ∈ s.placements, ¬ s.Released x.id)
    (hproofs : ∀ x ∈ s.placements, x.localAbsenceProvenAt = none)
    (hpending : ∀ c ∈ s.commands, c.state = .pending) : Consistent s where
  sound p x hx := by
    have hmem := Table.mem_of_find hx
    obtain rfl : x.id = p := Table.key_of_find hx
    exact ⟨fun h => by simp [hproofs x hmem] at h, fun h => absurd h (hcharged x hmem)⟩
  prepared c hc _ hstate := by
    rw [hpending c hc] at hstate
    cases hstate

theorem kept (hs : Consistent s) (h : Kept s t) : Consistent t where
  sound p y hy := by
    have hrel := h.step.row p
    cases hx : s.placements.find p with
    | none =>
      rw [hx, hy] at hrel
      cases hrel
    | some x =>
      rw [hx, hy] at hrel
      cases hrel with
      | some hxy => exact (hxy (hs.sound p x hx)).1
  prepared := h.prepared hs.prepared

end Consistent

/-- A call that follows commands of the host; `markStarting` and `setState` are the
reconciler's own writes. -/
def Op.isRegistryCall : Op → Bool
  | .markStarting .. | .setState .. => false
  | _ => true

/-- A registry call made while commands do not overlap. -/
def QuietCall (s : Store) (op : Op) : Prop := op.isRegistryCall ∧ Quiet s

theorem Kept.exec {H : Hashing} {s : Store} {op : Op} (hs : Consistent s) (h : QuietCall s op) :
    Kept s (s.exec H op) := by
  cases op with
  | poll auth session now => exact Store.committed_rel (.refl s) fun _ _ => Kept.pollCommands h.2
  | record auth result now =>
    exact Store.committed_rel (.refl s) fun _ _ => Kept.recordCommandResult h.2 hs
  | settle host epoch session now => exact Kept.settleUnreceived h.2 hs host epoch session now
  | repair user host ps now => exact Kept.repairUnconfirmed s user host ps now
  | abandon p now => exact Store.committed_rel (.refl s) fun _ _ => Kept.abandonUnstarted
  | issue p operation key ttl freshId now =>
    exact Store.committed_rel (.refl s) fun _ _ => Kept.issueCommand
  | markStarting _ _ _ | setState _ _ _ _ => cases h.1

section

variable {H : Hashing} {s₀ s t : Store} {ops ops' : List Op}

theorem Consistent.run (hs : Consistent s) (hrun : (registry H).Runs QuietCall s ops t) :
    Consistent t := by
  refine hrun.inv (fun u op v hok hstep hu => ?_) hs
  cases hstep
  exact hu.kept (.exec hu hok)

theorem Kept.run (hs : Consistent s) (hrun : (registry H).Runs QuietCall s ops t) : Kept s t := by
  refine hrun.rel (I := Consistent) .refl (fun _ _ _ => .trans) ?_ ?_ hs
  · intro u op v hok hstep hu
    cases hstep
    exact hu.kept (.exec hu hok)
  · intro u op v hok hstep hu
    cases hstep
    exact .exec hu hok

/-- **Releasing is final while commands do not overlap**: a released placement changes at most from
failed to cleaned. -/
theorem released_final (h₀ : Consistent s₀) (hs : (registry H).Runs QuietCall s₀ ops s)
    (ht : (registry H).Runs QuietCall s ops' t) {p : PlacementId} {x : Placement}
    (hx : s.placements.find p = some x) (hr : s.Released p) :
    (x.state = .failed ∨ x.state = .cleaned) ∧ t.Released p ∧
      ∃ y, t.placements.find p = some y ∧
        (y.state = x.state ∨ x.state = .failed ∧ y.state = .cleaned) := by
  have hcons := h₀.run hs
  have hsound := hcons.sound p x hx
  have hkept := Kept.run hcons ht
  refine ⟨?_, hkept.step.released p hr, ?_⟩
  · have hend := hsound.ended hr
    cases hstate : x.state <;> simp_all [PlacementState.isEnd]
  · have hrel := hkept.step.row p
    rw [hx] at hrel
    cases hy : t.placements.find p with
    | none =>
      rw [hy] at hrel
      cases hrel
    | some y =>
      rw [hy] at hrel
      cases hrel with
      | some hxy => exact ⟨y, rfl, .inl ((hxy hsound).2 hr)⟩

end

namespace Sample

def failedStart : List Op :=
  [.issue 1 start (.start 1) 30000 1 1000,
   .poll auth 10 2000,
   .record auth (answer 1 start (.start 1) 30000 1000 1 (.failed .runtime false none)) 3000]

def doubleCleanup : List Op :=
  [.issue 1 (.cleanup runner) (.cleanup 1 0) 55000 1 1000,
   .issue 1 (.cleanup runner) (.cleanup 1 1) 55000 2 1000,
   .poll auth 10 2000,
   .record auth (answer 1 (.cleanup runner) (.cleanup 1 0) 55000 1000 1 cleaned) 3000]

def overdueCleanup : List Op := [.poll auth 10 4000, .poll auth 10 60000]

end Sample

theorem released_final_sample :
    ∃ y, (Store.exec Sample.hashing (Sample.failedStart.foldl (Store.exec Sample.hashing)
      Sample.store) (.abandon 1 4000)).placements.find 1 = some y ∧ y.state = .failed := by
  have h₀ : Consistent Sample.store := .of_admitted (by decide) (by decide) (by decide)
  have hs : (registry Sample.hashing).Runs QuietCall Sample.store Sample.failedStart
      (Sample.failedStart.foldl (Store.exec Sample.hashing) Sample.store) :=
    .cons ⟨rfl, by decide⟩ rfl (.cons ⟨rfl, by decide⟩ rfl (.cons ⟨rfl, by decide⟩ rfl (.nil _)))
  have ht : (registry Sample.hashing).Runs QuietCall
      (Sample.failedStart.foldl (Store.exec Sample.hashing) Sample.store) [.abandon 1 4000] _ :=
    .cons ⟨rfl, by decide⟩ rfl (.nil _)
  obtain ⟨-, -, y, hy, hstate | ⟨-, hstate⟩⟩ :=
    released_final h₀ hs ht (p := 1) (rfl : _ = some _) (by decide)
  · exact ⟨y, hy, hstate⟩
  · cases hy
    cases hstate

/-- **Releasing is not final with two cleanups open**: the second one's deadline makes the placement
uncertain. -/
theorem released_then_uncertain :
    let s := Sample.doubleCleanup.foldl (Store.exec Sample.hashing) Sample.store
    let t := Sample.overdueCleanup.foldl (Store.exec Sample.hashing) s
    Consistent Sample.store ∧
      (s.Released 1 ∧ (s.placements.find 1).map (·.state) = some .cleaned) ∧
      (t.Released 1 ∧ (t.placements.find 1).map (·.state) = some .uncertain) := by
  exact ⟨.of_admitted (by decide) (by decide) (by decide), by decide, by decide⟩

end Gridops.Fleet
