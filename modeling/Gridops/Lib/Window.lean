import Mathlib

/-!
# Windows of a list

`window l a b` are the elements of `l` from place `a` up to place `b`. A log that keeps the
newest part of a growing sequence holds a window of it, and what it is told next starts
where the window ends: adjacent windows join, and every suffix of a window is the window
of its length.
-/

namespace Gridops.Lib

variable {α : Type}

def window (l : List α) (a b : ℕ) : List α := (l.drop a).take (b - a)

variable {l : List α} {a b c n : ℕ}

theorem length_window (hb : b ≤ l.length) : (window l a b).length = b - a := by
  rw [window, List.length_take, List.length_drop]
  omega

@[simp]
theorem window_self : window l a a = [] := by
  rw [window, Nat.sub_self, List.take_zero]

theorem window_append (hab : a ≤ b) (hbc : b ≤ c) :
    window l a b ++ window l b c = window l a c := by
  have hlength : c - a = (b - a) + (c - b) := by omega
  have hdrop : (l.drop a).drop (b - a) = l.drop b := by
    rw [List.drop_drop, Nat.add_sub_cancel' hab]
  rw [window, window, window, hlength, List.take_add, hdrop]

theorem drop_window : (window l a b).drop n = window l (a + n) b := by
  rw [window, window, List.drop_take, List.drop_drop, Nat.sub_sub]

theorem suffix_window {s : List α} (hab : a ≤ b) (hb : b ≤ l.length) (h : s <:+ window l a b) :
    s = window l (b - s.length) b := by
  have hle : s.length ≤ b - a := length_window hb ▸ h.length_le
  have hplace : a + (b - a - s.length) = b - s.length := by omega
  calc s = (window l a b).drop ((window l a b).length - s.length) := List.suffix_iff_eq_drop.mp h
    _ = window l (a + (b - a - s.length)) b := by rw [drop_window, length_window hb]
    _ = window l (b - s.length) b := by rw [hplace]

end Gridops.Lib
