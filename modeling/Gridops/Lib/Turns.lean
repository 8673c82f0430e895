import Mathlib

/-!
# Taking turns

Rows fall into groups, and each group has an order of its own. A row's turn is its place in its
group, and a scan takes a number of rows in the order of their turns: the first of every group,
then the second of every group, and so on. So a group is at most one row ahead of any other that
has rows left.
-/

namespace Gridops.Lib

/-- How rows are put in order: their group, their place in it, and what decides within a turn. -/
structure Turns (α ι κ τ : Type) where
  group : α → ι
  key : α → κ
  tie : α → τ

namespace Turns

variable {α ι κ τ : Type} [DecidableEq ι] [LinearOrder κ] (T : Turns α ι κ τ) (rows : List α)

def line (g : ι) : List α :=
  (rows.filter (T.group · == g)).insertionSort (T.key · ≤ T.key ·)

variable {T rows} {x y : α} {g : ι} {n k : ℕ}

theorem mem_line : x ∈ T.line rows g ↔ x ∈ rows ∧ T.group x = g := by
  simp [line]

theorem nodup_line (hnodup : rows.Nodup) : (T.line rows g).Nodup :=
  (List.perm_insertionSort ..).nodup_iff.mpr (hnodup.filter _)

variable [DecidableEq α] (T rows)

/-- `ROW_NUMBER() OVER (PARTITION BY group ORDER BY key)`. -/
def turn (x : α) : ℕ := (T.line rows (T.group x)).idxOf x + 1

variable {T rows}

theorem turn_of_line (hnodup : rows.Nodup) (h : (T.line rows g)[k]? = some x) :
    T.turn rows x = k + 1 := by
  obtain ⟨hlt, rfl⟩ := List.getElem?_eq_some_iff.mp h
  rw [turn, (mem_line.mp (List.getElem_mem hlt)).2, (nodup_line hnodup).idxOf_getElem]

theorem line_turn (hx : x ∈ rows) : (T.line rows (T.group x))[T.turn rows x - 1]? = some x := by
  have hmem : x ∈ T.line rows (T.group x) := mem_line.mpr ⟨hx, rfl⟩
  rw [turn, Nat.add_sub_cancel, List.getElem?_eq_getElem (List.idxOf_lt_length_of_mem hmem),
    List.getElem_idxOf]

theorem turn_lt (hx : x ∈ rows) (hy : y ∈ rows) (hgroup : T.group x = T.group y)
    (hkey : T.key x < T.key y) : T.turn rows x < T.turn rows y := by
  by_contra hle
  have hsorted : (T.line rows (T.group x)).Pairwise (T.key · ≤ T.key ·) :=
    List.pairwise_insertionSort _ _
  obtain ⟨hltx, hgetx⟩ := List.getElem?_eq_some_iff.mp (line_turn (T := T) hx)
  obtain ⟨hlty, hgety⟩ := List.getElem?_eq_some_iff.mp (hgroup ▸ line_turn (T := T) hy)
  rcases (not_lt.mp hle).lt_or_eq with hlt | heq
  · have hpos : 0 < T.turn rows y := Nat.succ_pos _
    have := List.pairwise_iff_getElem.mp hsorted _ _ hlty hltx (by omega)
    rw [hgetx, hgety] at this
    exact absurd hkey (not_lt.mpr this)
  · have : x = y := by
      rw [← hgetx, ← hgety]
      simp only [heq]
    exact absurd hkey (this ▸ lt_irrefl _)

theorem turn_inj (hx : x ∈ rows) (hy : y ∈ rows) (hgroup : T.group x = T.group y)
    (h : T.turn rows x = T.turn rows y) : x = y := by
  have := line_turn (T := T) hx
  rw [h, hgroup, line_turn hy] at this
  exact (Option.some.inj this).symm

variable [LinearOrder τ] (T rows)

def rank (x : α) : ℕ ×ₗ τ := toLex (T.turn rows x, T.tie x)

def scan (n : ℕ) : List α := (rows.insertionSort (T.rank rows · ≤ T.rank rows ·)).take n

theorem pairwise_ranked : (rows.insertionSort (T.rank rows · ≤ T.rank rows ·)).Pairwise
    (T.rank rows · ≤ T.rank rows ·) :=
  List.pairwise_insertionSort _ _

variable {T rows}

theorem mem_of_mem_scan (h : x ∈ T.scan rows n) : x ∈ rows :=
  (List.mem_insertionSort _).mp (List.mem_of_mem_take h)

theorem nodup_scan (hnodup : rows.Nodup) : (T.scan rows n).Nodup :=
  ((List.perm_insertionSort ..).nodup_iff.mpr hnodup).sublist (List.take_sublist ..)

theorem scanned_before (hx : x ∈ rows) (hturn : T.turn rows x < T.turn rows y)
    (hy : y ∈ T.scan rows n) : [x, y].Sublist (T.scan rows n) := by
  have hnot : ¬T.rank rows y ≤ T.rank rows x := by
    simp only [rank, Prod.Lex.toLex_le_toLex]
    omega
  have hpairs := T.pairwise_ranked rows
  rw [← List.take_append_drop n (List.insertionSort ..)] at hpairs
  obtain ⟨hpairs, -, hcross⟩ := List.pairwise_append.mp hpairs
  have hscanned : x ∈ T.scan rows n := by
    have hall := (List.mem_insertionSort (T.rank rows · ≤ T.rank rows ·)).mpr hx
    rw [← List.take_append_drop n (List.insertionSort ..)] at hall
    exact (List.mem_append.mp hall).resolve_right fun hdrop => hnot (hcross y hy x hdrop)
  obtain ⟨before, after, hsplit⟩ := List.append_of_mem hy
  rw [hsplit] at hscanned ⊢
  change (T.scan rows n).Pairwise _ at hpairs
  rw [hsplit] at hpairs
  rcases List.mem_append.mp hscanned with hbefore | hafter
  · exact (List.singleton_sublist.mpr hbefore).append (List.singleton_sublist.mpr (by simp))
  · rcases List.mem_cons.mp hafter with rfl | hafter
    · exact absurd hturn (lt_irrefl _)
    · have := (List.pairwise_cons.mp (List.pairwise_append.mp hpairs).2.1).1 x hafter
      exact absurd this hnot

def scanned (T : Turns α ι κ τ) (rows : List α) (n : ℕ) (g : ι) : ℕ :=
  ((T.scan rows n).filter (T.group · == g)).length

/-- Some scanned row of a group has a turn as large as their number. -/
theorem exists_turn_ge (hnodup : rows.Nodup) (hpos : 0 < T.scanned rows n g) :
    ∃ x ∈ T.scan rows n, T.group x = g ∧ T.scanned rows n g ≤ T.turn rows x := by
  by_contra hnone
  have hsmall : ∀ x ∈ T.scan rows n, T.group x = g → T.turn rows x < T.scanned rows n g :=
    fun x hx hg => not_le.mp fun hle => hnone ⟨x, hx, hg, hle⟩
  have hinj : (((T.scan rows n).filter (T.group · == g)).map (T.turn rows ·)).Nodup := by
    refine ((nodup_scan hnodup).filter _).map_on fun x hx y hy h => ?_
    simp only [List.mem_filter, beq_iff_eq] at hx hy
    exact turn_inj (mem_of_mem_scan hx.1) (mem_of_mem_scan hy.1) (hx.2.trans hy.2.symm) h
  have hsub : ((T.scan rows n).filter (T.group · == g)).map (T.turn rows ·) ⊆
      List.range' 1 (T.scanned rows n g - 1) := by
    intro k hk
    obtain ⟨x, hx, rfl⟩ := List.mem_map.mp hk
    simp only [List.mem_filter, beq_iff_eq] at hx
    have := hsmall x hx.1 hx.2
    simp only [List.mem_range'_1, turn] at this ⊢
    omega
  have hle := (hinj.subperm hsub).length_le
  rw [List.length_map, List.length_range'] at hle
  change T.scanned rows n g ≤ _ at hle
  omega

/-- **Groups take turns.** A group is at most one row ahead of one with rows left. -/
theorem scanned_le_succ (hnodup : rows.Nodup) {g' : ι} {left : α} (hleft : left ∈ rows)
    (hgroup : T.group left = g') (hnot : left ∉ T.scan rows n) :
    T.scanned rows n g ≤ T.scanned rows n g' + 1 := by
  rcases Nat.eq_zero_or_pos (T.scanned rows n g) with hzero | hpos
  · omega
  obtain ⟨x, hx, -, hge⟩ := exists_turn_ge hnodup hpos
  have hlate : T.turn rows x ≤ T.turn rows left := by
    by_contra hlt
    exact hnot ((scanned_before hleft (not_le.mp hlt) hx).subset (by simp))
  obtain ⟨hlt, -⟩ := List.getElem?_eq_some_iff.mp (line_turn (T := T) hleft)
  -- the rows of the other group up to this turn are scanned
  have hsub : (T.line rows g').take (T.scanned rows n g - 1) ⊆
      (T.scan rows n).filter (T.group · == g') := by
    intro y hy
    obtain ⟨k, -, rfl⟩ := List.mem_take_iff_getElem.mp hy
    have hlen : k < (T.line rows g').length := by omega
    have hmem := mem_line.mp (List.getElem_mem hlen)
    have hturn := turn_of_line hnodup (List.getElem?_eq_getElem hlen)
    refine List.mem_filter.mpr ⟨?_, beq_iff_eq.mpr hmem.2⟩
    exact (scanned_before hmem.1 (by omega) hx).subset (by simp)
  have hle := (((nodup_line hnodup).sublist (List.take_sublist ..)).subperm hsub).length_le
  rw [List.length_take] at hle
  rw [hgroup] at hlt
  change _ ≤ T.scanned rows n g' at hle
  omega

end Turns

end Gridops.Lib
