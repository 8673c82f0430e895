import Gridops.Lib.Table

/-!
# Tables with a partial unique index

`UNIQUE INDEX .. ON (f) WHERE p`: no two of the rows with `p` share their `f`. As with the
primary key, the table carries the proof, so an insertion that would break the index fails and an
update has to show that it cannot: it makes no row enter the index and moves none inside it.
-/

namespace Gridops.Lib

/-- A table whose rows with `p` differ in `f`. -/
structure Indexed {α κ ι : Type} (key : α → κ) (p : α → Bool) (f : α → ι) extends Table key where
  indexed : ∀ r ∈ rows, ∀ r' ∈ rows, p r → p r' → f r = f r' → key r = key r'

namespace Indexed

variable {α κ ι : Type} {key : α → κ} {p : α → Bool} {f : α → ι}

theorem eq_of_toTable {t u : Indexed key p f} (h : t.toTable = u.toTable) : t = u := by
  cases t
  cases h
  rfl

instance [DecidableEq α] : DecidableEq (Indexed key p f) := fun t u =>
  decidable_of_iff (t.toTable = u.toTable) ⟨eq_of_toTable, fun h => h ▸ rfl⟩

instance : Membership α (Indexed key p f) := ⟨fun t r => r ∈ t.toTable⟩

def empty : Indexed key p f := ⟨Table.empty, fun _ h => (List.not_mem_nil h).elim⟩

@[simp]
theorem not_mem_empty {r : α} : r ∉ (empty : Indexed key p f) := List.not_mem_nil

/-- `UPDATE .. SET g WHERE q`. -/
def update (t : Indexed key p f) (q : α → Bool) (g : α → α) (hkey : ∀ r, key (g r) = key r)
    (hindex : ∀ r, q r → p (g r) → p r ∧ f (g r) = f r) : Indexed key p f where
  toTable := t.toTable.update q g hkey
  indexed := by
    have hback : ∀ x, p (if q x then g x else x) → p x ∧ f (if q x then g x else x) = f x := by
      intro x hx
      split at hx
      · next hq => rw [if_pos hq]; exact hindex x hq hx
      · next hq => rw [if_neg hq]; exact ⟨hx, rfl⟩
    intro r hr r' hr' hp hp' hf
    obtain ⟨x, hx, rfl⟩ := Table.mem_update.mp hr
    obtain ⟨x', hx', rfl⟩ := Table.mem_update.mp hr'
    have hsame := t.indexed x hx x' hx' (hback x hp).1 (hback x' hp').1
      ((hback x hp).2.symm.trans (hf.trans (hback x' hp').2))
    split <;> split <;> simp only [hkey, hsame]

variable {t u : Indexed key p f} {q : α → Bool} {g : α → α} {hkey : ∀ r, key (g r) = key r}
  {hindex : ∀ r, q r → p (g r) → p r ∧ f (g r) = f r} {r r' : α}

theorem mem_update : r ∈ t.update q g hkey hindex ↔ ∃ x ∈ t, (if q x then g x else x) = r :=
  (Table.mem_update : r ∈ t.toTable.update q g hkey ↔ _)

theorem eq_of_key (hr : r ∈ t) (hr' : r' ∈ t) (h : key r = key r') : r = r' :=
  Table.eq_of_key hr hr' h

theorem eq_of_index (hr : r ∈ t) (hr' : r' ∈ t) (hp : p r) (hp' : p r') (h : f r = f r') :
    r = r' :=
  eq_of_key hr hr' (t.indexed r hr r' hr' hp hp' h)

theorem filterMap_update {β : Type} {v : α → Option β} (hv : ∀ r, q r → v (g r) = v r) :
    (t.update q g hkey hindex).rows.filterMap v = t.rows.filterMap v := by
  simp only [update, Table.update, List.filterMap_map]
  congr 1
  funext r
  by_cases hq : q r
  · simp [hq, hv r hq]
  · simp [hq]

variable [DecidableEq κ] [DecidableEq ι]

/-- `INSERT`, or `none` where the key or the index refuses the row. -/
def insert? (t : Indexed key p f) (r : α) : Option (Indexed key p f) :=
  if hfree : ∃ x ∈ t.rows, p x ∧ p r ∧ f x = f r then none
  else if hkey : key r ∈ t.rows.map key then none
  else some {
    rows := t.rows ++ [r]
    unique := by
      rw [List.map_append, List.nodup_append]
      refine ⟨t.unique, List.nodup_singleton _, ?_⟩
      intro a ha b hb
      rw [List.map_singleton, List.mem_singleton] at hb
      exact fun hab => hkey (hb ▸ hab ▸ ha)
    indexed := by
      intro a ha b hb hpa hpb hf
      rw [List.mem_append, List.mem_singleton] at ha hb
      rcases ha with ha | rfl <;> rcases hb with hb | rfl
      · exact t.indexed a ha b hb hpa hpb hf
      · exact (hfree ⟨a, ha, hpa, hpb, hf⟩).elim
      · exact (hfree ⟨b, hb, hpb, hpa, hf.symm⟩).elim
      · rfl }

theorem insert?_some (h : t.insert? r = some u) : u.rows = t.rows ++ [r] := by
  unfold insert? at h
  split at h
  · cases h
  · split at h
    · cases h
    · cases h
      rfl

theorem insert?_none (h : t.insert? r = none) : ∃ x ∈ t, f x = f r ∨ key x = key r := by
  unfold insert? at h
  split_ifs at h with hfree hkey
  · obtain ⟨x, hx, -, -, hf⟩ := hfree
    exact ⟨x, hx, .inl hf⟩
  · obtain ⟨x, hx, hkey⟩ := List.mem_map.mp hkey
    exact ⟨x, hx, .inr hkey⟩

theorem mem_insert? (h : t.insert? r = some u) : r' ∈ u ↔ r' ∈ t ∨ r' = r := by
  have hrows : r' ∈ u.rows ↔ r' ∈ t.rows ∨ r' = r := by
    rw [insert?_some h, List.mem_append, List.mem_singleton]
  exact hrows

theorem key_ne_of_insert? (h : t.insert? r = some u) (hr : r' ∈ t) : key r' ≠ key r := by
  intro heq
  have hmem : key r ∈ t.rows.map key := heq ▸ List.mem_map_of_mem hr
  simp only [insert?] at h
  split at h <;> cases h

end Indexed

end Gridops.Lib
