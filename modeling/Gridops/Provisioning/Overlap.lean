import Gridops.Provisioning.Reconcile

/-!
# The desired count under overlapping passes

A pass counts the active runners and then creates what is missing, with nothing in between that
keeps another pass from counting the same rows. As long as passes do not create at the same time,
the runners a pass has still to create stay within the bound: `due` says how many those are, and
`held` which row is inserted but not yet settled. A refresh and the mark of a busy runner write an
active status without looking at the row.
-/

namespace Gridops.Provisioning

open Autoscaling (RunnerStatus)
open Lib (Table Machine)

variable {d bound : ℕ} {t t' : Runners} {id : RunnerId}

/-! ## Counting rows -/

namespace Runners

def activeBut (t : Runners) (held : Option RunnerId) : ℕ :=
  t.tally fun r => if r.isActive ∧ held ≠ some r.id then 1 else 0

theorem length_counted (t : Runners) : t.counted.length = t.active := by
  have hperm := List.perm_insertionSort (fun a b : Runner => b.createdAt ≤ a.createdAt)
    (t.rows.filter fun r => r.deletedAt.isNone)
  rw [counted, live, ← List.countP_eq_length_filter, hperm.countP_eq, List.countP_filter]
  exact List.countP_congr fun r _ => by simp [Runner.isActive, and_comm]

theorem activeBut_none (t : Runners) : t.activeBut none = t.active := by
  simp only [activeBut, Table.tally, active, ne_eq, reduceCtorEq, not_false_eq_true, and_true]
  induction t.rows with
  | nil => rfl
  | cons r l ih => by_cases h : r.isActive <;> simp [h, ih, Nat.add_comm]

theorem active_le (t : Runners) (held : Option RunnerId) : t.active ≤ t.activeBut held + 1 := by
  rw [← activeBut_none]
  rcases held with _ | k
  · exact Nat.le_succ _
  · refine Table.tally_le_add (k := k) (Nat.zero_le 1) (fun r _ _ => ?_) fun r _ hne => ?_
    · split <;> omega
    · have hk : k ≠ r.id := fun h => hne h.symm
      simp [hk]

theorem activeBut_le (t : Runners) (held : Option RunnerId) :
    t.activeBut held ≤ t.activeBut none := by
  refine Table.tally_mono fun r _ => ?_
  by_cases h : r.isActive
  · simp only [h, ne_eq, reduceCtorEq, not_false_eq_true, and_self, if_true]
    split <;> omega
  · simp [h]

section Write

variable {f : Runner → Runner} {hf : ∀ r, (f r).id = r.id}

theorem activeBut_write_le (h : ∀ r ∈ t, r.id = id → (f r).isActive → r.isActive)
    (held : Option RunnerId) : (t.write id f hf).activeBut held ≤ t.activeBut held := by
  rw [write, activeBut, Table.tally_update]
  refine Table.tally_mono fun r hr => ?_
  by_cases hid : r.id = id
  · by_cases hactive : (f r).isActive <;> simp_all
  · simp [hid]

theorem activeBut_write_held : (t.write id f hf).activeBut (some id) = t.activeBut (some id) := by
  rw [write, activeBut, Table.tally_update, activeBut]
  refine congrArg _ (funext fun r => ?_)
  by_cases hid : r.id = id <;> simp [hid, hf]

theorem activeBut_write_inactive (h : ∀ r, (f r).isActive = false) :
    (t.write id f hf).activeBut none ≤ t.activeBut (some id) := by
  rw [write, activeBut, Table.tally_update]
  refine Table.tally_mono fun r _ => ?_
  by_cases hid : r.id = id
  · simp [hid, h]
  · have hne : id ≠ r.id := fun h => hid h.symm
    simp [hid, hne]

end Write

theorem activeBut_insert {r : Runner} (h : t.insert? r = some t') :
    t'.activeBut (some r.id) ≤ t.activeBut none := by
  have hsame : t'.activeBut (some r.id) = t.activeBut (some r.id) := by
    rw [activeBut, Table.tally_insert? h, activeBut]
    simp
  exact hsame ▸ activeBut_le t (some r.id)

end Runners

/-! ## What a pass has still to create -/

namespace Stage

def creating : Stage → Bool
  | .attempting _ | .launching _ _ | .concluding _ _ | .evicting _ | .reclaiming _ _ => true
  | .removing _ next => next.creating
  | _ => false

def due : Stage → ℕ
  | .attempting turn | .launching turn _ | .evicting turn | .reclaiming turn _ => turn.left + 1
  | .concluding turn _ => turn.left
  | .removing _ next => next.due
  | _ => 0

def held : Stage → Option RunnerId
  | .launching _ id => some id
  | .removing _ next => next.held
  | _ => none

theorem due_pos {st : Stage} (h : st.held.isSome) : 0 < st.due := by
  fun_induction due st <;> simp_all [held]

theorem idle {st : Stage} (h : st.creating = false) : st.held = none ∧ st.due = 0 := by
  fun_induction due st <;> simp_all [held, creating]

/-- With what it has still to create, the pass stays within `bound`. -/
def Fits (bound : ℕ) (t : Runners) (st : Stage) : Prop := t.activeBut st.held + st.due ≤ bound

/-- A pass gives up some of what it has to create, or settles the row it holds. -/
def Eases (st st' : Stage) : Prop :=
  (st'.creating → st.creating) ∧
    (st'.held = st.held ∧ st'.due ≤ st.due ∨ st'.held = none ∧ st'.due < st.due)

theorem Fits.active_le {st : Stage} (h : st.Fits bound t) : t.active ≤ bound := by
  unfold Fits at h
  rcases hheld : st.held with _ | id
  · rw [hheld, Runners.activeBut_none] at h
    omega
  · have hpos : 0 < st.due := due_pos (by simp [hheld])
    have hle := t.active_le st.held
    omega

theorem fits_of_idle {st : Stage} (h : st.creating = false) :
    st.Fits bound t ↔ t.active ≤ bound := by
  obtain ⟨hheld, hdue⟩ := idle h
  rw [Fits, hheld, hdue, Runners.activeBut_none, Nat.add_zero]

theorem Fits.ease {st st' : Stage} (h : st.Fits bound t) (heases : st.Eases st')
    (hlow : ∀ held, t'.activeBut held ≤ t.activeBut held) : st'.Fits bound t' := by
  unfold Fits at h ⊢
  rcases heases.2 with ⟨hheld, hdue⟩ | ⟨hheld, hdue⟩
  · have := hlow st.held
    rw [hheld]
    omega
  · have := hlow none
    have hle := t.active_le st.held
    rw [← Runners.activeBut_none] at hle
    rw [hheld]
    omega

end Stage

def Runners.StillActive (t : Runners) (id : RunnerId) : Prop :=
  ∀ q ∈ t.find id, q.deletedAt = none → q.status.counted

instance : Decidable (t.StillActive id) := by
  unfold Runners.StillActive; infer_instance

/-- A refresh reactivates nothing, and a pass begins to create only alone and below the desired
count. -/
def Pass.Permits (d : ℕ) (s : System) (p : Pass) (o : Outcome) : Prop :=
  match p.stage, o with
  | .refreshing states (r :: _), .ok =>
    ∀ id ∈ r.containerId, (Provisioning.refreshed r (states.lookup id)).counted →
      s.shared.runners.StillActive r.id
  | .removing (r :: _) _, .kept => s.shared.runners.StillActive r.id
  | .reclaiming _ r, .kept => s.shared.runners.StillActive r.id
  | .counting, .ok =>
    p.creates d s.shared.runners →
      (∀ q ∈ s.passes.rows, q.stage.creating → q.id = p.id) ∧
      (p.program = .reconciler → p.pool.paused = false → p.pool.minCount ≤ d)
  | _, _ => True

instance {s : System} {p : Pass} {o : Outcome} : Decidable (p.Permits d s o) := by
  unfold Pass.Permits; split <;> infer_instance

def System.Permits (d : ℕ) (s : System) : Action → Prop
  | .advance id _ o => ∀ p ∈ s.passes.find id, p.Permits d s o
  | _ => True

instance {s : System} {a : Action} : Decidable (s.Permits d a) := by
  unfold System.Permits; split <;> infer_instance

/-! ## One step -/

/-- What a step does to the rows and to what the pass has to create. -/
inductive Effect (d : ℕ) (p : Pass) (s : System) : Runners → Stage → Prop
  | eases {t : Runners} {st : Stage}
      (hlow : ∀ held, t.activeBut held ≤ s.shared.runners.activeBut held)
      (h : p.stage.Eases st) : Effect d p s t st
  | counts (hcreates : p.creates d s.shared.runners) (hle : p.desired d ≤ d)
      (halone : ∀ q ∈ s.passes, q.stage.creating → q.id = p.id) :
      Effect d p s s.shared.runners
        (.attempting ⟨p.desired d - s.shared.runners.counted.length - 1, false, false⟩)
  | inserts {turn : Turn} {r : Runner} {t : Runners} (hstage : p.stage = .attempting turn)
      (h : s.shared.runners.insert? r = some t) : Effect d p s t (.launching turn r.id)
  | records {turn : Turn} {id : RunnerId} {reg : Registration} {r : CreatedRunner}
      (hstage : p.stage = .launching turn id) :
      Effect d p s (s.shared.runners.record id reg r) (.concluding turn id)
  | fails {turn : Turn} {id : RunnerId} {st : Stage} (hstage : p.stage = .launching turn id)
      (hheld : st.held = none) (hdue : st.due ≤ turn.left + 1) :
      Effect d p s (s.shared.runners.fail id) st

section Step

variable {p : Pass} {s s' : Shared} {now : Millis} {o : Outcome} {st : Stage} {r : Runner}

theorem activeBut_delete (held : Option RunnerId) :
    (t.delete id now).activeBut held ≤ t.activeBut held :=
  Runners.activeBut_write_le (fun r _ _ h => by simp [Runner.delete, Runner.isActive] at h) held

theorem activeBut_fail (held : Option RunnerId) :
    (t.fail id).activeBut held ≤ t.activeBut held :=
  Runners.activeBut_write_le
    (fun r _ _ h => by simp [Runner.fail, Runner.isActive, RunnerStatus.counted] at h) held

theorem activeBut_keepBusy (hstill : t.StillActive id) (held : Option RunnerId) :
    (t.keepBusy id).activeBut held ≤ t.activeBut held := by
  refine Runners.activeBut_write_le (fun r hr hid h => ?_) held
  by_cases hdel : r.deletedAt.isNone
  · have hcounted := hstill r (hid ▸ Table.find_key hr) (by simpa using hdel)
    simp [Runner.isActive, hdel, hcounted]
  · simpa [hdel] using h

theorem activeBut_refresh {dockerState : Option String}
    (hstill : (refreshed r dockerState).counted → t.StillActive r.id) (held : Option RunnerId) :
    (t.refresh r dockerState).activeBut held ≤ t.activeBut held := by
  refine Runners.activeBut_write_le (fun q hq hid h => ?_) held
  simp only [Runner.isActive, Bool.and_eq_true] at h ⊢
  exact ⟨h.1, hstill h.2 q (hid ▸ Table.find_key hq) (by simpa using h.1)⟩

theorem activeBut_remove {removed : Option Bool} (h : p.remove s now r o = some (s', removed))
    (hkept : o = .kept → s.runners.StillActive r.id) (held : Option RunnerId) :
    s'.runners.activeBut held ≤ s.runners.activeBut held := by
  cases o <;> simp only [Pass.remove, reduceCtorEq] at h
  case ok =>
    obtain ⟨rfl, -⟩ := h
    exact activeBut_delete held
  case error =>
    obtain ⟨rfl, -⟩ := h
    exact le_rfl
  case kept =>
    obtain ⟨-, h⟩ := Option.ite_none_right_eq_some.mp h
    cases h
    exact activeBut_keepBusy (hkept rfl) held

theorem Stage.Eases.of_idle {st st' : Stage} (h : st'.creating = false) : st.Eases st' := by
  obtain ⟨hheld, hdue⟩ := Stage.idle h
  refine ⟨by simp [h], ?_⟩
  rcases hst : st.held with _ | id
  · exact .inl ⟨hheld, hdue ▸ Nat.zero_le _⟩
  · exact .inr ⟨hheld, hdue ▸ Stage.due_pos (by simp [hst])⟩

theorem creating_removing {todo : List Runner} {next : Stage} :
    (Stage.removing todo next).creating = next.creating := rfl

theorem creating_wrapUp : p.wrapUp.creating = false := by
  unfold Pass.wrapUp; split <;> rfl

theorem creating_afterRotation : p.afterRotation.creating = false := by
  unfold Pass.afterRotation
  split
  · split <;> rfl
  · rfl

theorem onward_spec (turn : Turn) :
    (p.onward turn).held = none ∧ (p.onward turn).due ≤ turn.left := by
  unfold Pass.onward
  split
  · obtain ⟨hheld, hdue⟩ := Stage.idle (creating_wrapUp (p := p))
    exact ⟨hheld, hdue ▸ Nat.zero_le _⟩
  · next hleft => exact ⟨rfl, hleft ▸ le_rfl⟩

theorem postponed_spec (turn : Turn) (full fallBack : Bool) :
    (p.postponed turn full fallBack).held = none ∧
      (p.postponed turn full fallBack).due ≤ turn.left + 1 := by
  unfold Pass.postponed
  split_ifs
  · exact ⟨rfl, le_rfl⟩
  · exact ⟨rfl, le_rfl⟩
  · obtain ⟨hheld, hdue⟩ := Stage.idle (creating_wrapUp (p := p))
    exact ⟨hheld, hdue ▸ Nat.zero_le _⟩

theorem Stage.Eases.of_creating {st st' : Stage} (hst : st.creating) (hheld : st.held = none)
    (hheld' : st'.held = none) (hdue : st'.due ≤ st.due) : st.Eases st' :=
  ⟨fun _ => hst, .inl ⟨hheld'.trans hheld.symm, hdue⟩⟩

theorem desired_le (hmin : p.program = .reconciler → p.pool.paused = false → p.pool.minCount ≤ d) :
    p.desired d ≤ d := by
  unfold Pass.desired
  split
  · exact le_rfl
  · next hprogram =>
    split
    · exact Nat.zero_le d
    · next hpaused =>
      exact max_le (hmin hprogram (by simpa using hpaused)) (min_le_left _ _)

theorem Effect.idle {sys : System} {st' : Stage} (hst : st'.creating = false)
    (h : some (sys.shared, st') = some (s', st)) : Effect d p sys s'.runners st := by
  cases h
  exact .eases (fun _ => le_rfl) (.of_idle hst)

theorem step_effect {sys : System} (h : p.step d now sys.shared o = some (s', st))
    (hok : p.Permits d sys o) : Effect d p sys s'.runners st := by
  unfold Pass.step at h
  split at h
  case h_1 => split at h <;> exact .idle rfl h
  case h_2 | h_4 | h_5 | h_7 | h_11 | h_27 | h_28 => exact .idle rfl h
  case h_3 => exact .idle (by split <;> rfl) h
  case h_6 states r todo hstage =>
    split at h
    · exact .idle rfl h
    · next id hid =>
      cases h
      simp only [Pass.Permits, hstage] at hok
      exact .eases (activeBut_refresh (hok id hid)) (.of_idle rfl)
  case h_8 next hstage =>
    cases h
    refine .eases (fun _ => le_rfl) ?_
    rw [hstage]
    exact ⟨id, .inl ⟨rfl, le_rfl⟩⟩
  case h_9 r todo next o hstage =>
    obtain ⟨⟨s'', removed⟩, hremove, heq⟩ := Option.map_eq_some_iff.mp h
    cases heq
    refine .eases (activeBut_remove hremove ?_) ?_
    · rintro rfl
      simpa only [Pass.Permits, hstage] using hok
    · rw [hstage]
      split
      · exact ⟨id, .inl ⟨rfl, le_rfl⟩⟩
      · exact .of_idle rfl
  case h_10 =>
    split at h
    · exact .idle creating_afterRotation h
    · exact Effect.idle (creating_removing.trans creating_afterRotation) h
  case h_12 => split at h <;> exact .idle rfl h
  case h_13 hstage =>
    split at h
    · next hcreates =>
      cases h
      simp only [Pass.Permits, hstage] at hok
      obtain ⟨halone, hmin⟩ := hok hcreates
      exact .counts hcreates (desired_le hmin) halone
    · exact Effect.idle (creating_removing.trans creating_wrapUp) h
  case h_14 turn selection now hstage =>
    obtain ⟨runners, hinsert, heq⟩ := Option.map_eq_some_iff.mp h
    cases heq
    exact .inserts hstage hinsert
  case h_15 turn full fallBack hstage =>
    obtain ⟨-, h⟩ := Option.ite_none_right_eq_some.mp h
    cases h
    obtain ⟨hheld, hdue⟩ := postponed_spec (p := p) turn full fallBack
    exact .eases (fun _ => le_rfl) (hstage ▸ .of_creating rfl rfl hheld hdue)
  case h_16 =>
    obtain ⟨-, h⟩ := Option.ite_none_right_eq_some.mp h
    exact .idle creating_wrapUp h
  case h_17 turn id reg r hstage =>
    cases h
    exact .records hstage
  case h_18 turn id hstage =>
    obtain ⟨-, h⟩ := Option.ite_none_right_eq_some.mp h
    cases h
    obtain ⟨hheld, hdue⟩ := onward_spec (p := p) turn
    refine .eases (fun _ => le_rfl) (hstage ▸ ⟨fun _ => rfl, .inr ⟨hheld, ?_⟩⟩)
    exact Nat.lt_succ_of_le hdue
  case h_19 turn id hstage =>
    cases h
    exact .fails hstage rfl (Nat.zero_le _)
  case h_20 turn id full fallBack hstage =>
    obtain ⟨-, h⟩ := Option.ite_none_right_eq_some.mp h
    cases h
    obtain ⟨hheld, hdue⟩ := postponed_spec (p := p) turn full fallBack
    exact .fails hstage hheld hdue
  case h_21 turn id hstage =>
    cases h
    obtain ⟨hheld, hdue⟩ := onward_spec (p := p) turn
    exact .eases (fun _ => le_rfl) (hstage ▸ .of_creating rfl rfl hheld hdue)
  case h_22 =>
    split at h
    · cases h
      exact .eases activeBut_fail (.of_idle rfl)
    · exact .idle rfl h
  case h_23 turn id hstage =>
    split at h
    · cases h
      exact .eases (fun _ => le_rfl) (hstage ▸ .of_creating rfl rfl rfl le_rfl)
    · exact .idle creating_wrapUp h
  case h_24 turn r o hstage =>
    obtain ⟨⟨s'', removed⟩, hremove, heq⟩ := Option.map_eq_some_iff.mp h
    cases heq
    refine .eases (activeBut_remove hremove ?_) ?_
    · rintro rfl
      simpa only [Pass.Permits, hstage] using hok
    · rw [hstage]
      split
      · exact .of_creating rfl rfl rfl le_rfl
      · exact .of_idle creating_wrapUp
      · exact .of_idle rfl
  case h_25 => split at h <;> exact .idle rfl h
  case h_26 | h_29 => cases h

section Effect

variable {sys : System}

theorem Effect.quiet (h : Effect d p sys t st) (hidle : p.stage.creating = false)
    (held : Option RunnerId) : t.activeBut held ≤ sys.shared.runners.activeBut held := by
  cases h with
  | eases hlow _ => exact hlow held
  | counts => exact le_rfl
  | inserts hstage => simp [hstage, Stage.creating] at hidle
  | records hstage => simp [hstage, Stage.creating] at hidle
  | fails hstage => simp [hstage, Stage.creating] at hidle

theorem Effect.creating (h : Effect d p sys t st) (hst : st.creating) :
    p.stage.creating ∨ ∀ q ∈ sys.passes, q.stage.creating → q.id = p.id := by
  cases h with
  | eases _ heases => exact .inl (heases.1 hst)
  | counts _ _ halone => exact .inr halone
  | inserts hstage => exact .inl (hstage ▸ rfl)
  | records hstage => exact .inl (hstage ▸ rfl)
  | fails hstage => exact .inl (hstage ▸ rfl)

theorem Effect.fits (h : Effect d p sys t st) (hd : d ≤ bound)
    (hfits : p.stage.Fits bound sys.shared.runners) : st.Fits bound t := by
  cases h with
  | eases hlow heases => exact hfits.ease heases hlow
  | counts hcreates hle _ =>
    simp only [Pass.creates, Bool.and_eq_true, decide_eq_true_eq] at hcreates
    simp only [Stage.Fits, Stage.held, Stage.due, Runners.activeBut_none, Runners.length_counted]
      at hcreates ⊢
    omega
  | inserts hstage hinsert =>
    have hle := Runners.activeBut_insert hinsert
    simp only [hstage, Stage.Fits, Stage.held, Stage.due] at hfits ⊢
    omega
  | @records turn id reg r hstage =>
    have hheld : (sys.shared.runners.record id reg r).activeBut (some id) =
        sys.shared.runners.activeBut (some id) := Runners.activeBut_write_held
    have hle := (sys.shared.runners.record id reg r).active_le (some id)
    simp only [hstage, Stage.Fits, Stage.held, Stage.due, Runners.activeBut_none] at hfits ⊢
    omega
  | @fails turn id _ hstage hheld hdue =>
    have hle : (sys.shared.runners.fail id).activeBut none ≤
        sys.shared.runners.activeBut (some id) :=
      Runners.activeBut_write_inactive fun r => by
        simp [Runner.fail, Runner.isActive, RunnerStatus.counted]
    simp only [hstage, Stage.Fits, Stage.held, Stage.due] at hfits
    rw [Stage.Fits, hheld]
    omega

end Effect

end Step

/-! ## Every run -/

/-- The runners are within `bound`, and stay there with what each pass has still to create; at
most one pass creates. -/
structure Bounded (bound : ℕ) (s : System) : Prop where
  active : s.shared.runners.active ≤ bound
  fits : ∀ p ∈ s.passes, p.stage.Fits bound s.shared.runners
  alone : ∀ p ∈ s.passes, ∀ q ∈ s.passes, p.stage.creating → q.stage.creating → p.id = q.id

section Run

variable {s s' : System} {a : Action}

theorem Bounded.begin {p : Pass} {passes : Table Pass.id} (h : Bounded bound s)
    (hinsert : s.passes.insert? p = some passes) (hstage : p.stage = .start) :
    Bounded bound { s with passes } := by
  have hidle : p.stage.creating = false := by rw [hstage]; rfl
  refine ⟨h.active, fun q hq => ?_, fun q hq q' hq' hcreating hcreating' => ?_⟩
  · rcases (Table.mem_insert? hinsert).mp hq with hq | rfl
    · exact h.fits q hq
    · exact (Stage.fits_of_idle hidle).mpr h.active
  · rcases (Table.mem_insert? hinsert).mp hq with hq | rfl
    · rcases (Table.mem_insert? hinsert).mp hq' with hq' | rfl
      · exact h.alone q hq q' hq' hcreating hcreating'
      · simp [hidle] at hcreating'
    · simp [hidle] at hcreating

theorem Bounded.advance {p : Pass} {shared : Shared} {stage : Stage} (h : Bounded bound s)
    (hd : d ≤ bound) (hp : p ∈ s.passes) (heffect : Effect d p s shared.runners stage) :
    Bounded bound ⟨shared,
      s.passes.update (·.id == p.id) (fun p => { p with stage }) fun _ => rfl⟩ := by
  have hfits := heffect.fits hd (h.fits p hp)
  -- A pass other than `p` that creates has `p` idle, so that the rows cannot grow under it.
  have hothers : ∀ q ∈ s.passes, q.id ≠ p.id → q.stage.Fits bound shared.runners := by
    intro q hq hne
    by_cases hcreating : q.stage.creating
    · have hidle : p.stage.creating = false := by
        by_contra hp'
        exact hne (h.alone q hq p hp hcreating (by simpa using hp'))
      exact (h.fits q hq).ease ⟨id, .inl ⟨rfl, le_rfl⟩⟩ (heffect.quiet hidle)
    · exact (Stage.fits_of_idle (by simpa using hcreating)).mpr hfits.active_le
  have halone : ∀ q ∈ s.passes, q.stage.creating → stage.creating → q.id = p.id := by
    intro q hq hcreating hstage
    rcases heffect.creating hstage with hp' | halone
    · exact h.alone q hq p hp hcreating hp'
    · exact halone q hq hcreating
  have hmoved : ∀ q ∈ s.passes.update (·.id == p.id) (fun p => { p with stage }) fun _ => rfl,
      q.id = p.id ∧ q.stage = stage ∨ q.id ≠ p.id ∧ q ∈ s.passes := by
    intro _ hmem
    obtain ⟨q, hq, rfl⟩ := Table.mem_update.mp hmem
    by_cases hid : q.id = p.id
    · simp [hid]
    · simp [hid, hq]
  refine ⟨hfits.active_le, fun q hq => ?_, fun q hq q' hq' hcreating hcreating' => ?_⟩
  · rcases hmoved q hq with ⟨-, hstage⟩ | ⟨hne, hq⟩
    · exact hstage ▸ hfits
    · exact hothers q hq hne
  · rcases hmoved q hq with ⟨hid, hstage⟩ | ⟨-, hq⟩ <;>
      rcases hmoved q' hq' with ⟨hid', hstage'⟩ | ⟨-, hq'⟩
    · exact hid.trans hid'.symm
    · exact hid.trans (halone q' hq' hcreating' (hstage ▸ hcreating)).symm
    · exact (halone q hq hcreating (hstage' ▸ hcreating')).trans hid'.symm
    · exact h.alone q hq q' hq' hcreating hcreating'

theorem Bounded.step (hd : d ≤ bound) (hok : s.Permits d a) (hstep : s.step d a = some s')
    (h : Bounded bound s) : Bounded bound s' := by
  cases a with
  | begin id program pool blocked =>
    obtain ⟨passes, hinsert, rfl⟩ := Option.map_eq_some_iff.mp hstep
    exact h.begin hinsert rfl
  | advance id now o =>
    obtain ⟨p, hfind, hnext⟩ := Option.bind_eq_some_iff.mp hstep
    obtain ⟨⟨shared, stage⟩, hpass, rfl⟩ := Option.map_eq_some_iff.mp hnext
    have heffect := step_effect hpass (hok p hfind)
    obtain ⟨hp, rfl⟩ := Table.find_some_iff.mp hfind
    exact h.advance hd hp heffect
  | container id state =>
    cases hstep
    exact ⟨h.active, h.fits, h.alone⟩

/-- **Passes that do not create at the same time keep the desired count.** -/
theorem active_bounded {as : List Action} (hnone : s.passes = .empty)
    (h : (reconciling d).Runs (System.Permits d) s as s') :
    s'.shared.runners.active ≤ max d s.shared.runners.active := by
  have hstart : Bounded (max d s.shared.runners.active) s :=
    ⟨le_max_right _ _, by simp [hnone, ← Table.mem_rows, Table.empty],
      by simp [hnone, ← Table.mem_rows, Table.empty]⟩
  exact (h.inv (fun _ _ _ hok hstep => Bounded.step (le_max_left _ _) hok hstep) hstart).active

end Run

section Sample

def emptyPool : System := ⟨⟨.empty, []⟩, .empty⟩

def plainPool : Pool := ⟨false, 0, 4, 1⟩

def sampleRunner (id : RunnerId) : Selection where
  runnerId := id
  runnerName := id
  provider := "docker"
  bitbucketConnection := none
  poolMode := "ephemeral"
  poolEphemeral := true
  grouped := false
  configurationVersion := 1

def advances (id : ℕ) (os : List Outcome) : List Action := os.map (.advance id 0)

def apiCounts (id : ℕ) : List Action :=
  .begin id .api plainPool false :: advances id [.ok, .ok, .ok, .ok, .ok, .ok, .ok, .ok]

def reconcilerCounts (id : ℕ) : List Action :=
  .begin id .reconciler plainPool false ::
    advances id [.ok, .ok, .ok, .ok, .ok, .ok, .ok, .pick none, .ok]

def inserts (id : ℕ) (runner : RunnerId) : List Action :=
  advances id [.insert (sampleRunner runner) 0]

end Sample

/-- A pass of the API creates the one runner that is wanted, and a pass of the reconciler then
finds it. -/
def inTurn : List Action :=
  apiCounts 0 ++ inserts 0 "a" ++
    advances 0 [.created ⟨some 7, none⟩ ⟨"k", true, "running"⟩, .ok] ++
    .begin 1 .reconciler plainPool false ::
    advances 1 [.ok, .ok, .ok, .ok, .ok, .ok, .ok, .ok, .pick none, .ok, .ok]

theorem active_bounded_in_turn : ∃ s, (reconciling 1).Runs (System.Permits 1) emptyPool inTurn s ∧
    s.shared.runners.active ≤ max 1 emptyPool.shared.runners.active := by
  have h : ((reconciling 1).execIf (System.Permits 1) emptyPool inTurn).isSome = true := by
    decide +kernel
  obtain ⟨s, hs⟩ := Option.isSome_iff_exists.mp h
  have hruns := Machine.runs_of_execIf hs
  exact ⟨s, hruns, active_bounded rfl hruns⟩

/-- The API and the reconciler both count no runner where one is wanted, and both create one. -/
theorem overlapping_passes_exceed : ∃ s, (reconciling 1).Run emptyPool
    (apiCounts 0 ++ reconcilerCounts 1 ++ inserts 0 "a" ++ inserts 1 "b") s ∧
    ¬s.shared.runners.active ≤ max 1 emptyPool.shared.runners.active := by
  exact Machine.exists_run (by decide +kernel)

end Gridops.Provisioning
