import Mathlib

/-!
# Limits on a sliding window

Something happens at most `n` times in any window of length `w` if it is only let happen while it
happened less than `n` times since `w` ago. The check looks at one window, the one that ends now;
the bound is about all of them, since a window that holds the new time begins after that one does.
-/

namespace Gridops.Lib

variable {M : Type} [AddCommGroup M] [LinearOrder M] [IsOrderedAddMonoid M]

/-- How often it happened since `a`. -/
def happenedSince (times : List M) (a : M) : ℕ := times.countP (a ≤ ·)

/-- How often it happened in the half-open window of length `w` from `a`. -/
def happenedWithin (times : List M) (a w : M) : ℕ := times.countP fun t => a ≤ t ∧ t < a + w

variable {times : List M} {a w now : M} {n : ℕ}

omit [AddCommGroup M] [IsOrderedAddMonoid M] in
@[simp]
theorem happenedSince_concat :
    happenedSince (times ++ [now]) a = happenedSince times a + if a ≤ now then 1 else 0 := by
  rw [happenedSince, happenedSince, List.countP_append, List.countP_singleton]
  simp

omit [IsOrderedAddMonoid M] in
theorem happenedWithin_le_since {b : M} (h : b ≤ a) :
    happenedWithin times a w ≤ happenedSince times b := by
  refine List.countP_mono_left fun t _ ht => ?_
  have hwithin := of_decide_eq_true ht
  exact decide_eq_true (h.trans hwithin.1)

/-- **One more** where fewer than `n` happened in the window that ends now. -/
theorem happenedWithin_concat (h : ∀ a, happenedWithin times a w ≤ n)
    (hnow : happenedSince times (now - w) < n) (a : M) :
    happenedWithin (times ++ [now]) a w ≤ n := by
  rw [happenedWithin, List.countP_append, List.countP_singleton]
  split
  · next hin =>
    have hin := of_decide_eq_true hin
    have hbegin : now - w ≤ a := sub_le_iff_le_add.mpr hin.2.le
    have hle : happenedWithin times a w ≤ happenedSince times (now - w) :=
      happenedWithin_le_since hbegin
    rw [happenedWithin] at hle
    omega
  · exact h a

end Gridops.Lib
