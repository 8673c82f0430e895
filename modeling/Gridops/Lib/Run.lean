import Mathlib

/-!
# Runs of a deterministic machine

A machine takes a state and an action to the next state, or to none where the action cannot happen.
Everything nondeterministic (who acts next, which message is lost, what time it is) is in the choice
of the action, so a run is a list of actions and can be evaluated.

`Runs ok` are the runs all of whose steps meet a condition `ok` on the state before the step and the
action taken there; `Run` asks for no condition. The rules at the end derive a whole-run result from
a fact about one step.
-/

namespace Gridops.Lib

/-- A state machine with states `σ` and actions `α`. -/
structure Machine (σ α : Type) where
  step : σ → α → Option σ

namespace Machine

variable {σ α : Type} (m : Machine σ α)

/-- Takes the actions in order, stopping at the first one that cannot happen. -/
def exec : σ → List α → Option σ
  | s, [] => some s
  | s, a :: as => (m.step s a).bind fun t => exec t as

/-- The runs whose steps all meet `ok`. -/
inductive Runs (ok : σ → α → Prop) : σ → List α → σ → Prop
  | nil (s : σ) : Runs ok s [] s
  | cons {s t u : σ} {a : α} {as : List α} (hok : ok s a) (hstep : m.step s a = some t)
      (hrest : Runs ok t as u) : Runs ok s (a :: as) u

/-- The runs with no condition on their steps. -/
abbrev Run (s : σ) (as : List α) (t : σ) : Prop := m.Runs (fun _ _ => True) s as t

variable {m} {ok ok' : σ → α → Prop} {s t u : σ} {a : α} {as bs : List α}

theorem run_iff_exec : m.Run s as t ↔ m.exec s as = some t := by
  constructor
  · intro h
    induction h with
    | nil s => rfl
    | cons _ hstep _ ih => simp [exec, hstep, ih]
  · intro h
    induction as generalizing s with
    | nil => cases h; exact .nil _
    | cons a as ih =>
      obtain ⟨v, hstep, hrest⟩ := Option.bind_eq_some_iff.mp h
      exact .cons trivial hstep (ih hrest)

/-- Takes the actions in order, stopping at the first one that cannot happen or does not
meet `ok`. -/
def execIf (m : Machine σ α) (ok : σ → α → Prop) [∀ s a, Decidable (ok s a)] :
    σ → List α → Option σ
  | s, [] => some s
  | s, a :: as => if ok s a then (m.step s a).bind fun t => execIf m ok t as else none

theorem runs_of_execIf [∀ s a, Decidable (ok s a)] (h : m.execIf ok s as = some t) :
    m.Runs ok s as t := by
  induction as generalizing s with
  | nil => cases h; exact .nil _
  | cons a as ih =>
    simp only [execIf, Option.ite_none_right_eq_some] at h
    obtain ⟨v, hstep, hrest⟩ := Option.bind_eq_some_iff.mp h.2
    exact .cons h.1 hstep (ih hrest)

/-- A state that a run ends in, with a property that is found by evaluating the run. -/
theorem exists_exec {P : σ → Prop} [DecidablePred P]
    (h : ((m.exec s as).any fun t => decide (P t)) = true) : ∃ t, m.exec s as = some t ∧ P t := by
  obtain ⟨t, ht, hP⟩ := (Option.any_eq_true _ _).mp h
  exact ⟨t, ht, of_decide_eq_true hP⟩

theorem exists_run {P : σ → Prop} [DecidablePred P]
    (h : ((m.exec s as).any fun t => decide (P t)) = true) : ∃ t, m.Run s as t ∧ P t := by
  obtain ⟨t, ht, hP⟩ := exists_exec h
  exact ⟨t, run_iff_exec.mpr ht, hP⟩

theorem exists_runs {P Q : σ → Prop} [DecidablePred P] [∀ s a, Decidable (ok s a)]
    (h : ((m.execIf ok s as).any fun t => decide (P t)) = true)
    (hQ : ∀ t, m.Runs ok s as t → Q t) : ∃ t, m.Runs ok s as t ∧ P t ∧ Q t := by
  obtain ⟨t, ht, hP⟩ := (Option.any_eq_true _ _).mp h
  exact ⟨t, runs_of_execIf ht, of_decide_eq_true hP, hQ t (runs_of_execIf ht)⟩

theorem Runs.append (h₁ : m.Runs ok s as t) (h₂ : m.Runs ok t bs u) :
    m.Runs ok s (as ++ bs) u := by
  induction h₁ with
  | nil _ => exact h₂
  | cons hok hstep _ ih => exact .cons hok hstep (ih h₂)

theorem Runs.rest (h : m.Runs ok s (as ++ bs) u) (hfirst : m.Runs ok' s as t) :
    m.Runs ok t bs u := by
  induction hfirst with
  | nil _ => exact h
  | cons _ hstep _ ih =>
    cases h with
    | cons _ hstep' hrest =>
      cases hstep.symm.trans hstep'
      exact ih hrest

theorem Runs.split (h : m.Runs ok s as t) (ha : a ∈ as) :
    ∃ bs cs u v, as = bs ++ a :: cs ∧ m.Runs ok s bs u ∧ ok u a ∧ m.step u a = some v ∧
      m.Runs ok v cs t := by
  induction h with
  | nil _ => cases ha
  | @cons s v _ b as hok hstep hrest ih =>
    rcases List.mem_cons.mp ha with rfl | ha
    · exact ⟨[], as, s, v, rfl, .nil s, hok, hstep, hrest⟩
    · obtain ⟨bs, cs, u, w, rfl, hbs, hoku, hstepu, hcs⟩ := ih ha
      exact ⟨b :: bs, cs, u, w, rfl, .cons hok hstep hbs, hoku, hstepu, hcs⟩

theorem Runs.mono (h : m.Runs ok s as t) (hle : ∀ s a, ok s a → ok' s a) : m.Runs ok' s as t := by
  induction h with
  | nil _ => exact .nil _
  | cons hok hstep _ ih => exact .cons (hle _ _ hok) hstep ih

/-- **Invariant rule.** What every permitted step keeps, every run keeps. -/
theorem Runs.inv {I : σ → Prop} (h : m.Runs ok s as t)
    (hstep : ∀ s a t, ok s a → m.step s a = some t → I s → I t) (hs : I s) : I t := by
  induction h with
  | nil _ => exact hs
  | cons hok hs' _ ih => exact ih (hstep _ _ _ hok hs' hs)

/-- **Relation rule.** A reflexive and transitive relation that every permitted
step from an invariant state respects relates the two ends of every run. -/
theorem Runs.rel {I : σ → Prop} {R : σ → σ → Prop} (h : m.Runs ok s as t)
    (hrefl : ∀ s, R s s) (htrans : ∀ s t u, R s t → R t u → R s u)
    (hinv : ∀ s a t, ok s a → m.step s a = some t → I s → I t)
    (hstep : ∀ s a t, ok s a → m.step s a = some t → I s → R s t) (hs : I s) : R s t := by
  induction h with
  | nil s => exact hrefl s
  | cons hok hs' _ ih =>
    exact htrans _ _ _ (hstep _ _ _ hok hs' hs) (ih (hinv _ _ _ hok hs' hs))

/-- **Exactness rule.** If a step from a state with `I` keeps `I` exactly when it is
permitted, the runs through states with `I` are the permitted ones. -/
theorem Run.always_iff_runs {I : σ → Prop} (h : m.Run s as t)
    (hstep : ∀ s a t, m.step s a = some t → I s → (I t ↔ ok s a)) (hs : I s) :
    (∀ bs u, bs <+: as → m.Run s bs u → I u) ↔ m.Runs ok s as t := by
  constructor
  · intro hall
    induction h with
    | nil s => exact .nil s
    | @cons s v _ a as _ hs' _ ih =>
      have hv : I v := hall [a] v ⟨as, rfl⟩ (.cons trivial hs' (.nil v))
      refine .cons ((hstep _ _ _ hs' hs).mp hv) hs' (ih hv ?_)
      exact fun bs u hbs hrun => hall (a :: bs) u (List.prefix_cons_inj a |>.mpr hbs)
        (.cons trivial hs' hrun)
  · intro hruns bs u hbs hrun
    clear h
    induction hrun generalizing as with
    | nil s => exact hs
    | @cons s v u a bs _ hs' _ ih =>
      obtain ⟨cs, rfl⟩ := hbs
      cases hruns with
      | cons hok hs'' hrest =>
        cases hs'.symm.trans hs''
        exact ih ((hstep _ _ _ hs' hs).mpr hok) hrest (List.prefix_append bs cs)

end Machine

/-! ## Loops and functions that may fail -/

theorem bind_eq_ok {ε α β : Type} {x : Except ε α} {f : α → Except ε β} {b : β}
    (h : x >>= f = .ok b) : ∃ a, x = .ok a ∧ f a = .ok b := by
  cases x with
  | error e => cases h
  | ok a => exact ⟨a, rfl, h⟩

theorem map_eq_ok {ε α β : Type} {x : Except ε α} {f : α → β} {b : β} (h : x.map f = .ok b) :
    ∃ a, x = .ok a ∧ f a = b := by
  cases x with
  | error e => cases h
  | ok a => exact ⟨a, rfl, by cases h; rfl⟩

theorem guard_eq_ok {ε α : Type} {p : Prop} [Decidable p] {e : ε} {x : Except ε α} {a : α}
    (h : (if p then .error e else x) = .ok a) : ¬p ∧ x = .ok a := by
  split at h
  · cases h
  · next hp => exact ⟨hp, h⟩

theorem check_eq_ok {ε α : Type} {p : Prop} [Decidable p] {e : ε} {x : Except ε α} {a : α}
    (h : (if p then x else .error e) = .ok a) : p ∧ x = .ok a := by
  split at h
  · next hp => exact ⟨hp, h⟩
  · cases h

/-- A checked constructor succeeds exactly with the value it was given the proof for. -/
theorem dite_eq_ok {ε α : Type} {p : Prop} [Decidable p] {f : p → α} {e : ε} {a : α} :
    (if h : p then Except.ok (f h) else .error e) = .ok a ↔ ∃ h, f h = a := by
  by_cases hp : p
  · simp [hp]
  · simp [hp]

/-- An error none of two steps fails with is none of the sequence's. -/
theorem bind_ne_error {ε α β : Type} {x : Except ε α} {f : α → Except ε β} {e : ε}
    (hx : x ≠ .error e) (hf : ∀ a, f a ≠ .error e) : x >>= f ≠ .error e := by
  cases x with
  | error e' => exact fun h => hx (by cases h; rfl)
  | ok a => exact hf a

theorem forM_ne_error {ε α : Type} {f : α → Except ε Unit} {e : ε} {l : List α}
    (hf : ∀ a, f a ≠ .error e) : l.forM f ≠ .error e := by
  induction l with
  | nil => simp [pure, Except.pure]
  | cons a l ih => exact bind_ne_error (hf a) fun _ => ih

theorem mapM_ne_error {ε α β : Type} {f : α → Except ε β} {e : ε} {l : List α}
    (hf : ∀ a ∈ l, f a ≠ .error e) : l.mapM f ≠ .error e := by
  induction l with
  | nil => simp [pure, Except.pure]
  | cons a l ih =>
    obtain ⟨ha, hl⟩ := List.forall_mem_cons.mp hf
    rw [List.mapM_cons]
    exact bind_ne_error ha fun _ => bind_ne_error (ih hl) fun _ => by simp [pure, Except.pure]

/-- A loop relates its two ends by every reflexive and transitive relation its steps
respect. -/
theorem foldl_rel_mem {α σ : Type} {f : σ → α → σ} {R : σ → σ → Prop} (hrefl : ∀ s, R s s)
    (htrans : ∀ s t u, R s t → R t u → R s u) {l : List α}
    (hstep : ∀ s, ∀ a ∈ l, R s (f s a)) (s : σ) : R s (l.foldl f s) := by
  induction l generalizing s with
  | nil => exact hrefl s
  | cons a l ih =>
    refine htrans _ _ _ (hstep s a List.mem_cons_self) (ih ?_ _)
    exact fun s b hb => hstep s b (List.mem_cons_of_mem a hb)

theorem foldl_rel {α σ : Type} {f : σ → α → σ} {R : σ → σ → Prop} (hrefl : ∀ s, R s s)
    (htrans : ∀ s t u, R s t → R t u → R s u) (hstep : ∀ s a, R s (f s a)) (l : List α) (s : σ) :
    R s (l.foldl f s) :=
  foldl_rel_mem hrefl htrans (fun s a _ => hstep s a) s

/-- A loop of fallible steps that succeeds relates its two ends by every reflexive and
transitive relation its steps respect. -/
theorem foldlM_rel {ε α σ : Type} {f : σ → α → Except ε σ} {R : σ → σ → Prop} {l : List α}
    {s t : σ} (hrefl : ∀ s, R s s) (htrans : ∀ s t u, R s t → R t u → R s u)
    (hstep : ∀ s a t, f s a = .ok t → R s t) (h : l.foldlM f s = .ok t) : R s t := by
  induction l generalizing s with
  | nil => cases h; exact hrefl _
  | cons a l ih =>
    obtain ⟨u, hu, h⟩ := bind_eq_ok h
    exact htrans s u t (hstep s a u hu) (ih h)

theorem ok_of_toOption {ε α : Type} {x : Except ε α} {a : α} (h : x.toOption = some a) :
    x = .ok a := by
  cases x with
  | error e => cases h
  | ok b => cases h; rfl

end Gridops.Lib
