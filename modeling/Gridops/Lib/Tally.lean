import Gridops.Lib.Table

/-!
# Weighing the rows of a table

`t.tally w` adds up what each row of a table weighs. The weights are in an ordered
monoid, so one tally can bound several quantities at once. The lemmas say how a
tally moves when rows are updated, dropped or inserted, and how the weight of the
one row with a given key is taken out of it.
-/

namespace Gridops.Lib

namespace Table

variable {α κ M : Type} {key : α → κ} [AddCommMonoid M]

def tally (t : Table key) (w : α → M) : M := (t.rows.map w).sum

variable {t u : Table key} {w w' : α → M} {r : α}

@[simp] theorem tally_empty : (empty : Table key).tally w = 0 := rfl

theorem tally_add : t.tally (fun a => w a + w' a) = t.tally w + t.tally w' :=
  List.sum_map_add

theorem tally_update {p : α → Bool} {f : α → α} {hf : ∀ r, key (f r) = key r} :
    (t.update p f hf).tally w = t.tally fun a => w (if p a then f a else a) := by
  simp only [tally, update, List.map_map]
  rfl

theorem tally_mem (S : AddSubmonoid M) (h : ∀ a ∈ t, w a ∈ S) : t.tally w ∈ S := by
  refine S.list_sum_mem fun m hm => ?_
  obtain ⟨a, ha, rfl⟩ := List.mem_map.mp hm
  exact h a ha

theorem tally_retain {p : α → Bool} :
    (t.retain p).tally w = t.tally fun a => if p a then w a else 0 := by
  simp only [tally, retain]
  induction t.rows with
  | nil => rfl
  | cons a l ih => by_cases hp : p a <;> simp [hp, ih]

variable [DecidableEq κ]

theorem tally_insert? (h : t.insert? r = some u) : u.tally w = t.tally w + w r := by
  simp [tally, (insert?_some.mp h).2]

theorem tally_split (hr : r ∈ t) :
    t.tally w = w r + t.tally fun a => if key a = key r then 0 else w a := by
  obtain ⟨before, after, hrows⟩ := List.append_of_mem (mem_rows.mpr hr)
  have hunique := t.unique
  simp only [hrows, List.map_append, List.map_cons, List.nodup_middle, List.nodup_cons,
    List.mem_append, List.mem_map, not_or, not_exists, not_and] at hunique
  have hskip : ∀ l : List α, (∀ a ∈ l, ¬key a = key r) →
      l.map (fun a => if key a = key r then 0 else w a) = l.map w :=
    fun l hl => List.map_congr_left fun a ha => if_neg (hl a ha)
  simp only [tally, hrows, List.map_append, List.map_cons, List.sum_append, List.sum_cons,
    hskip before hunique.1.1, hskip after hunique.1.2, if_true, zero_add]
  exact add_left_comm _ _ _

section Ordered

variable [PartialOrder M] [IsOrderedAddMonoid M]

omit [DecidableEq κ] in
theorem tally_mono (h : ∀ a ∈ t, w a ≤ w' a) : t.tally w ≤ t.tally w' :=
  List.sum_le_sum h

omit [DecidableEq κ] in
theorem tally_nonneg (h : ∀ a ∈ t, 0 ≤ w a) : 0 ≤ t.tally w := by
  refine List.sum_nonneg fun m hm => ?_
  obtain ⟨a, ha, rfl⟩ := List.mem_map.mp hm
  exact h a ha

theorem tally_le_add {k : κ} {d : M} (hd : 0 ≤ d) (hrow : ∀ a ∈ t, key a = k → w' a ≤ w a + d)
    (hrest : ∀ a ∈ t, key a ≠ k → w' a ≤ w a) : t.tally w' ≤ t.tally w + d := by
  cases hfind : t.find k with
  | none =>
    have hne : ∀ a ∈ t, key a ≠ k := by
      rintro a ha rfl
      rw [find_key ha] at hfind
      cases hfind
    exact (tally_mono fun a ha => hrest a ha (hne a ha)).trans (le_add_of_nonneg_right hd)
  | some r =>
    obtain ⟨hr, rfl⟩ := find_some_iff.mp hfind
    rw [tally_split (w := w') hr, tally_split (w := w) hr, add_right_comm]
    refine add_le_add (hrow r hr rfl) (tally_mono fun a ha => ?_)
    split
    · exact le_rfl
    · next hne => exact hrest a ha hne

omit [DecidableEq κ] in
/-- Rows that weigh something, each matched by a row of another table that names its key, weigh
no more than that table. -/
theorem tally_le_tally {β κ' : Type} {key' : β → κ'} {u : Table key'} {v : β → M} (link : β → κ)
    (hv : ∀ b ∈ u, 0 ≤ v b) (h : ∀ a ∈ t, w a ≤ 0 ∨ ∃ b ∈ u, link b = key a ∧ w a ≤ v b) :
    t.tally w ≤ u.tally v := by
  have hlists : ∀ (l : List α) (l' : List β), (l.map key).Nodup → (∀ b ∈ l', 0 ≤ v b) →
      (∀ a ∈ l, w a ≤ 0 ∨ ∃ b ∈ l', link b = key a ∧ w a ≤ v b) →
      (l.map w).sum ≤ (l'.map v).sum := by
    intro l
    induction l with
    | nil =>
      intro l' _ hv _
      refine List.sum_nonneg fun m hm => ?_
      obtain ⟨b, hb, rfl⟩ := List.mem_map.mp hm
      exact hv b hb
    | cons a l ih =>
      intro l' hnodup hv h
      rw [List.map_cons, List.nodup_cons] at hnodup
      rw [List.map_cons, List.sum_cons]
      rcases h a List.mem_cons_self with hle | ⟨b, hb, hlink, hle⟩
      · have hrest := ih l' hnodup.2 hv fun a' ha' => h a' (List.mem_cons_of_mem _ ha')
        exact (add_le_add hle hrest).trans_eq (zero_add _)
      · -- The match of `a` is used up: the other rows have other keys.
        obtain ⟨before, after, rfl⟩ := List.append_of_mem hb
        have hsum : ((before ++ b :: after).map v).sum = v b + ((before ++ after).map v).sum := by
          simp only [List.map_append, List.map_cons, List.sum_append, List.sum_cons]
          exact add_left_comm _ _ _
        rw [hsum]
        refine add_le_add hle (ih _ hnodup.2 (fun b' hb' => hv b' ?_) fun a' ha' => ?_)
        · simp only [List.mem_append, List.mem_cons] at hb' ⊢
          exact hb'.imp_right .inr
        · refine (h a' (List.mem_cons_of_mem _ ha')).imp_right ?_
          rintro ⟨b', hb', hlink', hle'⟩
          refine ⟨b', ?_, hlink', hle'⟩
          have hne : b' ≠ b := by
            rintro rfl
            exact hnodup.1 (hlink.symm.trans hlink' ▸ List.mem_map_of_mem ha')
          simp only [List.mem_append, List.mem_cons] at hb' ⊢
          exact hb'.imp_right fun hb' => hb'.resolve_left hne
  exact hlists t.rows u.rows t.unique hv h

end Ordered

end Table

end Gridops.Lib
