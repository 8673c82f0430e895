import Mathlib

/-!
# Tables with a primary key

A database table is a list of rows in insertion order together with the proof that no two rows share
their key, so a state that breaks a primary key or a unique index cannot be built. `update` is
`UPDATE .. WHERE`, which here may not touch the key; `insert?` is `INSERT`, which fails on a key
that is taken.

The lemmas read a table through `find`.
-/

namespace Gridops.Lib

/-! ## Rows that moved together -/

theorem forall₂_trans {α : Type} {R : α → α → Prop} (htrans : ∀ a b c, R a b → R b c → R a c)
    {l₁ l₂ l₃ : List α} (h₁ : List.Forall₂ R l₁ l₂) (h₂ : List.Forall₂ R l₂ l₃) :
    List.Forall₂ R l₁ l₃ := by
  induction h₁ generalizing l₃ with
  | nil => exact h₂
  | cons hab _ ih =>
    cases h₂ with
    | cons hbc h₂ => exact .cons (htrans _ _ _ hab hbc) (ih h₂)

theorem forall₂_mem_right {α : Type} {R : α → α → Prop} {l l' : List α} {b : α}
    (h : List.Forall₂ R l l') (hb : b ∈ l') : ∃ a ∈ l, R a b := by
  induction h with
  | nil => cases hb
  | @cons a c l l' hac _ ih =>
    rcases List.mem_cons.mp hb with rfl | hb
    · exact ⟨a, List.mem_cons_self, hac⟩
    · obtain ⟨a', ha', hrel⟩ := ih hb
      exact ⟨a', List.mem_cons_of_mem _ ha', hrel⟩

theorem forall₂_mem_left {α : Type} {R : α → α → Prop} {l l' : List α} {a : α}
    (h : List.Forall₂ R l l') (ha : a ∈ l) : ∃ b ∈ l', R a b := by
  obtain ⟨b, hb, hrel⟩ := forall₂_mem_right h.flip ha
  exact ⟨b, hb, hrel⟩

theorem forall₂_mem_both {α β : Type} {R S : α → β → Prop} {l : List α} {l' : List β} {a : α}
    (hR : List.Forall₂ R l l') (hS : List.Forall₂ S l l') (ha : a ∈ l) :
    ∃ b ∈ l', R a b ∧ S a b := by
  induction hR with
  | nil => cases ha
  | @cons c b l l' hcb _ ih =>
    obtain ⟨hS₁, hS₂⟩ := List.forall₂_cons.mp hS
    obtain rfl | ha := List.mem_cons.mp ha
    · exact ⟨b, List.mem_cons_self, hcb, hS₁⟩
    · obtain ⟨b', hb', hrel⟩ := ih hS₂ ha
      exact ⟨b', List.mem_cons_of_mem _ hb', hrel⟩

theorem forall₂_prefix {α : Type} {R : α → α → Prop} {l l' a : List α}
    (h : List.Forall₂ R l l') (ha : a <+: l) : ∃ a', a' <+: l' ∧ List.Forall₂ R a a' := by
  induction h generalizing a with
  | nil => exact ⟨[], List.prefix_refl _, by rw [List.prefix_nil.mp ha]; exact .nil⟩
  | @cons b c l l' hbc _ ih =>
    cases a with
    | nil => exact ⟨[], List.nil_prefix, .nil⟩
    | cons d a =>
      obtain ⟨rfl, htail⟩ := List.cons_prefix_cons.mp ha
      obtain ⟨a', ha', hrel⟩ := ih htail
      exact ⟨c :: a', List.cons_prefix_cons.mpr ⟨rfl, ha'⟩, .cons hbc hrel⟩

/-! ## Tables -/

/-- Rows of type `α`, at most one for each value of `key`. -/
structure Table {α κ : Type} (key : α → κ) where
  rows : List α
  unique : (rows.map key).Nodup

namespace Table

variable {α κ : Type} {key : α → κ}

theorem eq_of_rows {t u : Table key} (h : t.rows = u.rows) : t = u := by
  cases t
  cases h
  rfl

instance [DecidableEq α] : DecidableEq (Table key) := fun t u =>
  decidable_of_iff (t.rows = u.rows) ⟨eq_of_rows, fun h => h ▸ rfl⟩

instance : Membership α (Table key) := ⟨fun t r => r ∈ t.rows⟩

instance [DecidableEq α] (r : α) (t : Table key) : Decidable (r ∈ t) :=
  inferInstanceAs (Decidable (r ∈ t.rows))

theorem mem_rows {t : Table key} {r : α} : r ∈ t.rows ↔ r ∈ t := Iff.rfl

def empty : Table key := ⟨[], List.nodup_nil⟩

/-- `UPDATE .. SET f WHERE p`. -/
def update (t : Table key) (p : α → Bool) (f : α → α) (hf : ∀ r, key (f r) = key r) :
    Table key where
  rows := t.rows.map fun r => if p r then f r else r
  unique := by
    have hkey : (key ∘ fun r => if p r then f r else r) = key := by
      funext r
      by_cases hp : p r <;> simp [hp, hf]
    rw [List.map_map, hkey]
    exact t.unique

/-- `DELETE .. WHERE NOT p`. -/
def retain (t : Table key) (p : α → Bool) : Table key where
  rows := t.rows.filter p
  unique := t.unique.sublist (List.filter_sublist.map key)

theorem mem_retain {t : Table key} {p : α → Bool} {r : α} : r ∈ t.retain p ↔ r ∈ t ∧ p r :=
  List.mem_filter

section Keyed

variable [DecidableEq κ]

/-- `SELECT .. WHERE key = k`. -/
def find (t : Table key) (k : κ) : Option α := t.rows.find? fun r => key r == k

/-- `INSERT`, or `none` where the key is taken. -/
def insert? (t : Table key) (r : α) : Option (Table key) :=
  if h : key r ∈ t.rows.map key then none
  else some ⟨t.rows ++ [r], by
    rw [List.map_append, List.nodup_append]
    refine ⟨t.unique, List.nodup_singleton _, ?_⟩
    intro a ha b hb
    rw [List.map_singleton, List.mem_singleton] at hb
    exact fun hab => h (hb ▸ hab ▸ ha)⟩

/-- `INSERT .. ON CONFLICT (key) DO UPDATE SET f`. -/
def upsert (t : Table key) (r : α) (f : α → α) (hf : ∀ r, key (f r) = key r) : Table key :=
  (t.insert? r).getD (t.update (fun x => key x == key r) f hf)

/-- The same in a table in which `other` is unique as well: no other row may have it. -/
def upsertUnique {β : Type} [DecidableEq β] (t : Table key) (other : α → β) (r : α) (f : α → α)
    (hf : ∀ r, key (f r) = key r) : Option (Table key) :=
  if t.rows.any fun x => other x == other r && key x != key r then none
  else some (t.upsert r f hf)

variable {t u : Table key} {k : κ} {r r' : α} {p : α → Bool} {f : α → α}
  {hf : ∀ r, key (f r) = key r}

theorem find_some_iff : t.find k = some r ↔ r ∈ t ∧ key r = k := by
  constructor
  · intro h
    exact ⟨List.mem_of_find?_eq_some h, by simpa using List.find?_some h⟩
  · rintro ⟨hr, rfl⟩
    obtain ⟨r', hr'⟩ := Option.isSome_iff_exists.mp
      (List.find?_isSome (p := fun x => key x == key r) |>.mpr ⟨r, hr, by simp⟩)
    have hkey : key r' = key r := by simpa using List.find?_some hr'
    have : r' = r := List.inj_on_of_nodup_map t.unique (List.mem_of_find?_eq_some hr') hr hkey
    exact this ▸ hr'

theorem find_key (hr : r ∈ t) : t.find (key r) = some r := find_some_iff.mpr ⟨hr, rfl⟩

theorem mem_of_find (h : t.find k = some r) : r ∈ t := (find_some_iff.mp h).1

theorem key_of_find (h : t.find k = some r) : key r = k := (find_some_iff.mp h).2

omit [DecidableEq κ] in
theorem eq_of_key (hr : r ∈ t) (hr' : r' ∈ t) (h : key r = key r') : r = r' :=
  List.inj_on_of_nodup_map t.unique hr hr' h

omit [DecidableEq κ] in
theorem map_key_update : (t.update p f hf).rows.map key = t.rows.map key := by
  simp only [update, List.map_map]
  refine List.map_congr_left fun r _ => ?_
  by_cases hp : p r <;> simp [hp, hf]

omit [DecidableEq κ] in
theorem mem_update : r ∈ t.update p f hf ↔ ∃ x ∈ t, (if p x then f x else x) = r :=
  List.mem_map

omit [DecidableEq κ] in
theorem forall_mem_update {P : α → Prop} :
    (∀ r ∈ t.update p f hf, P r) ↔ ∀ r ∈ t, P (if p r then f r else r) := by
  simp only [mem_update]
  exact ⟨fun h r hr => h _ ⟨r, hr, rfl⟩, fun h r ⟨x, hx, hxr⟩ => hxr ▸ h x hx⟩

omit [DecidableEq κ] in
theorem update_of_none (h : ∀ r ∈ t, p r = false) : t.update p f hf = t := by
  refine eq_of_rows ((List.map_congr_left fun r hr => ?_).trans (List.map_id _))
  simp [h r hr]

omit [DecidableEq κ] in
theorem update_update {g : α → α} (hg : ∀ r, key (g r) = key r) (hp : ∀ r, p (f r) = p r) :
    (t.update p f hf).update p g hg
      = t.update p (fun r => g (f r)) fun r => (hg (f r)).trans (hf r) := by
  refine eq_of_rows ?_
  simp only [update, List.map_map]
  refine List.map_congr_left fun r _ => ?_
  by_cases h : p r <;> simp [h, hp]

omit [DecidableEq κ] in
theorem forall₂_update {R : α → α → Prop} (hf : ∀ r, key (f r) = key r) (hrefl : ∀ r, R r r)
    (h : ∀ r, p r → R r (f r)) : List.Forall₂ R t.rows (t.update p f hf).rows := by
  rw [update, List.forall₂_map_right_iff, List.forall₂_same]
  intro r _
  split
  · next hp => exact h r hp
  · exact hrefl r

omit [DecidableEq κ] in
/-- An update of rows that a filter drops before and after changes nothing it keeps. -/
theorem filter_update_mem {q : α → Bool} (hf : ∀ r, key (f r) = key r)
    (h : ∀ r ∈ t, p r → q r = false ∧ q (f r) = false) :
    (t.update p f hf).rows.filter q = t.rows.filter q := by
  rw [update, List.filter_map]
  have hq : ∀ r ∈ t.rows, (q ∘ fun r => if p r then f r else r) r = q r := by
    intro r hr
    by_cases hp : p r
    · simp [hp, h r hr hp]
    · simp [hp]
  rw [List.filter_congr hq, List.map_congr_left (g := id), List.map_id]
  intro r hr
  obtain ⟨hr, hkept⟩ := List.mem_filter.mp hr
  rw [if_neg]
  · rfl
  · intro hp
    rw [(h r hr hp).1] at hkept
    cases hkept

omit [DecidableEq κ] in
theorem filter_update {q : α → Bool} (hf : ∀ r, key (f r) = key r)
    (h : ∀ r, p r → q r = false ∧ q (f r) = false) :
    (t.update p f hf).rows.filter q = t.rows.filter q :=
  filter_update_mem hf fun r _ => h r

theorem find_update :
    (t.update p f hf).find k = (t.find k).map fun r => if p r then f r else r := by
  simp only [find, update, List.find?_map]
  congr 2
  funext r
  by_cases hp : p r <;> simp [hp, hf]

theorem find_update_other (hf : ∀ r, key (f r) = key r)
    (h : ∀ r, t.find k = some r → p r = false) :
    (t.update p f hf).find k = t.find k := by
  rw [find_update]
  cases hfind : t.find k with
  | none => rfl
  | some r => simp [h r hfind]

theorem insert?_some : t.insert? r = some u ↔
    key r ∉ t.rows.map key ∧ u.rows = t.rows ++ [r] := by
  unfold insert?
  split
  · next h => simp [h]
  · next h =>
    constructor
    · intro hu
      cases hu
      exact ⟨h, rfl⟩
    · rintro ⟨-, hu⟩
      cases u
      cases hu
      rfl

theorem mem_insert? (h : t.insert? r = some u) : r' ∈ u ↔ r' ∈ t ∨ r' = r := by
  rw [← mem_rows, (insert?_some.mp h).2, List.mem_append, List.mem_singleton, mem_rows]

theorem find_insert? (h : t.insert? r = some u) :
    u.find k = (t.find k).or (if key r = k then some r else none) := by
  simp only [find, (insert?_some.mp h).2]
  by_cases hk : key r = k <;> simp [hk]

theorem filter_insert? {q : α → Bool} (h : t.insert? r = some u) (hr : q r = false) :
    u.rows.filter q = t.rows.filter q := by
  rw [(insert?_some.mp h).2, List.filter_append]
  simp [hr]

theorem insert?_none : t.insert? r = none ↔ ∃ x ∈ t, key x = key r := by
  unfold insert?
  split
  · next h => simpa [mem_rows] using h
  · next h => simpa [mem_rows] using h

theorem find_upsert : (t.upsert r f hf).find k =
    if key r = k then some (((t.find k).map f).getD r) else t.find k := by
  unfold upsert
  cases hins : t.insert? r with
  | some u =>
    have hfree : t.find (key r) = none := by
      rw [Option.eq_none_iff_forall_ne_some]
      intro x hx
      have hmem := List.mem_map_of_mem (f := key) (mem_rows.mpr (mem_of_find hx))
      exact (insert?_some.mp hins).1 (key_of_find hx ▸ hmem)
    rw [Option.getD_some, find_insert? hins]
    by_cases hk : key r = k
    · subst hk
      simp [hfree]
    · simp [hk]
  | none =>
    obtain ⟨x, hx, hkey⟩ := insert?_none.mp hins
    rw [Option.getD_none, find_update]
    by_cases hk : key r = k
    · have hfind : t.find k = some x := find_some_iff.mpr ⟨hx, hkey.trans hk⟩
      simp [hfind, hk, hkey]
    · cases hfind : t.find k with
      | none => simp [hk]
      | some y =>
        have hy : key y ≠ key r := fun heq => hk (heq ▸ key_of_find hfind)
        simp [hk, hy]

/-- An upsert of a row that a filter drops before and after changes nothing it keeps. -/
theorem filter_upsert {q : α → Bool} (hr : q r = false)
    (h : ∀ x ∈ t, key x = key r → q x = false ∧ q (f x) = false) :
    (t.upsert r f hf).rows.filter q = t.rows.filter q := by
  unfold upsert
  cases hins : t.insert? r with
  | some u => exact filter_insert? hins hr
  | none => exact filter_update_mem hf fun x hx hkey => h x hx (by simpa using hkey)

end Keyed

/-- **Loop rule.** Selected rows are handled one by one in a store that changes under the loop. If
handling one keeps what the loop needs (`A`) of the others, a reflexive and transitive relation that
one turn respects relates the two ends. -/
theorem foldl_selected {σ : Type} {step : σ → α → σ} {R : σ → σ → Prop} {A : σ → α → Prop}
    (hrefl : ∀ s, R s s) (htrans : ∀ s t u, R s t → R t u → R s u)
    {rows : List α} (hnodup : (rows.map key).Nodup) {s : σ} (hA : ∀ r ∈ rows, A s r)
    (hkeep : ∀ s, ∀ r ∈ rows, ∀ r' ∈ rows, key r' ≠ key r → A s r' → A (step s r) r')
    (hstep : ∀ s, ∀ r ∈ rows, A s r → R s (step s r)) : R s (rows.foldl step s) := by
  induction rows generalizing s with
  | nil => exact hrefl s
  | cons r rows ih =>
    rw [List.map_cons, List.nodup_cons] at hnodup
    have hfirst := hstep s r List.mem_cons_self (hA r List.mem_cons_self)
    refine htrans _ _ _ hfirst (ih hnodup.2 ?_ ?_ ?_)
    · intro r' hr'
      have hne : key r' ≠ key r := fun heq => hnodup.1 (heq ▸ List.mem_map_of_mem hr')
      exact hkeep s r List.mem_cons_self r' (List.mem_cons_of_mem _ hr') hne
        (hA r' (List.mem_cons_of_mem _ hr'))
    · exact fun s a ha b hb => hkeep s a (List.mem_cons_of_mem _ ha) b (List.mem_cons_of_mem _ hb)
    · exact fun s a ha => hstep s a (List.mem_cons_of_mem _ ha)

/-- A join in which one key at most has rows, and that key one row at most, has one row
at most. -/
theorem length_flatMap_le_one {β : Type} {t : Table key} {f : α → List β}
    (hrow : ∀ r ∈ t, (f r).length ≤ 1)
    (hkey : ∀ r ∈ t, ∀ r' ∈ t, f r ≠ [] → f r' ≠ [] → key r = key r') :
    (t.rows.flatMap f).length ≤ 1 := by
  have hpair : t.rows.Pairwise fun a b => f a = [] ∨ f b = [] := by
    refine (List.pairwise_map.mp t.unique).imp_of_mem fun ha hb hne => ?_
    by_contra hboth
    push Not at hboth
    exact hne (hkey _ ha _ hb hboth.1 hboth.2)
  have hlist : ∀ l : List α, (∀ a ∈ l, (f a).length ≤ 1) →
      (l.Pairwise fun a b => f a = [] ∨ f b = []) → (l.flatMap f).length ≤ 1 := by
    intro l hl hpair
    induction l with
    | nil => exact Nat.zero_le 1
    | cons a l ih =>
      rw [List.pairwise_cons] at hpair
      by_cases ha : f a = []
      · rw [List.flatMap_cons, ha, List.nil_append]
        exact ih (fun b hb => hl b (List.mem_cons_of_mem _ hb)) hpair.2
      · have hrest : l.flatMap f = [] :=
          List.flatMap_eq_nil_iff.mpr fun b hb => (hpair.1 b hb).resolve_left ha
        rw [List.flatMap_cons, hrest, List.append_nil]
        exact hl a List.mem_cons_self
  exact hlist t.rows hrow hpair

theorem length_filter_le_one {t : Table key} {p : α → Bool}
    (hkey : ∀ r ∈ t, ∀ r' ∈ t, p r = true → p r' = true → key r = key r') :
    (t.rows.filter p).length ≤ 1 := by
  rw [← List.filterMap_eq_filter, List.filterMap_eq_flatMap_toList]
  refine length_flatMap_le_one (fun r _ => ?_) fun r hr r' hr' h h' => ?_
  · rw [Option.length_toList]
    split <;> simp
  · refine hkey r hr r' hr' ?_ ?_
    · by_contra hp
      simp [hp] at h
    · by_contra hp
      simp [hp] at h'

end Table

end Gridops.Lib
