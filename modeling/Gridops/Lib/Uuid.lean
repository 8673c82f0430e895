import Gridops.Lib.Json

/-!
# UUID texts

A UUID is a number below `2 ^ 128`. It is written as 32 lowercase hexadecimal digits in
five groups with hyphens between them, and read with digits of either case in that form,
in braces, as a URN, or as the 32 digits alone.
-/

namespace Gridops.Lib.Uuid

open Gridops.Lib.Text

/-- The last `w` hexadecimal digits of a number. -/
def hexChars : Nat → Nat → List Char
  | 0, _ => []
  | w + 1, n => hexChars w (n / 16) ++ [hexDigit (n % 16)]

@[simp] theorem length_hexChars : ∀ w n, (hexChars w n).length = w
  | 0, _ => rfl
  | w + 1, n => by simp [hexChars, length_hexChars w]

/-- The number that hexadecimal digits write after `acc`. -/
def ofHex : Nat → List Char → Option Nat
  | acc, [] => some acc
  | acc, c :: cs => (hexValue c).bind fun d => ofHex (acc * 16 + d) cs

theorem ofHex_append (cs : List Char) (c : Char) : ∀ acc,
    ofHex acc (cs ++ [c]) = (ofHex acc cs).bind fun n => (hexValue c).map (n * 16 + ·) := by
  induction cs with
  | nil =>
    cases h : hexValue c <;> simp [ofHex, h]
  | cons d cs ih =>
    cases h : hexValue d <;> simp [ofHex, h, ih]

theorem ofHex_hexChars : ∀ w n, n < 16 ^ w → ofHex 0 (hexChars w n) = some n
  | 0, n, h => by
    rw [Nat.lt_one_iff.mp h]
    rfl
  | w + 1, n, h => by
    have hquot : n / 16 < 16 ^ w := by
      rw [Nat.div_lt_iff_lt_mul (by decide)]
      rwa [Nat.pow_succ] at h
    rw [hexChars, ofHex_append, ofHex_hexChars w _ hquot,
      hexValue_hexDigit _ (Nat.mod_lt _ (by decide))]
    simp only [Option.bind_some, Option.map_some, Nat.div_add_mod']

theorem ofHex_lt : ∀ {cs : List Char} {acc n : Nat}, ofHex acc cs = some n →
    n < (acc + 1) * 16 ^ cs.length
  | [], acc, n, h => by
    cases h
    simp
  | c :: cs, acc, n, h => by
    obtain ⟨d, hd, h⟩ := Option.bind_eq_some_iff.mp h
    have hdigit : d < 16 := by
      unfold hexValue at hd
      split at hd
      · cases hd
        omega
      split at hd
      · cases hd
        omega
      split at hd
      · cases hd
        omega
      · cases hd
    have hrest := ofHex_lt h
    calc n < (acc * 16 + d + 1) * 16 ^ cs.length := hrest
      _ ≤ (acc + 1) * 16 * 16 ^ cs.length := Nat.mul_le_mul_right _ (by omega)
      _ = (acc + 1) * 16 ^ (c :: cs).length := by
        rw [List.length_cons, Nat.pow_succ]
        ring

/-- Digits in groups of the given lengths and one of what is left. -/
def group : List Nat → List Char → List Char
  | [], cs => cs
  | n :: ns, cs => cs.take n ++ '-' :: group ns (cs.drop n)

/-- The digits of a text in such groups. -/
def ungroup : List Nat → List Char → Option (List Char)
  | [], cs => some cs
  | n :: ns, cs =>
    match cs.drop n with
    | [] => none
    | c :: rest => if c = '-' then (ungroup ns rest).map (cs.take n ++ ·) else none

theorem ungroup_group : ∀ (ns : List Nat) (cs : List Char), ns.sum ≤ cs.length →
    ungroup ns (group ns cs) = some cs
  | [], _, _ => rfl
  | n :: ns, cs, h => by
    rw [List.sum_cons] at h
    have htake : (cs.take n).length = n := by
      rw [List.length_take]
      omega
    have ih := ungroup_group ns (cs.drop n) (by
      rw [List.length_drop]
      omega)
    rw [group, ungroup, List.drop_left' htake, List.take_left' htake]
    dsimp only
    rw [if_pos rfl, ih, Option.map_some, List.take_append_drop]

theorem length_of_ungroup : ∀ {ns : List Nat} {cs ds : List Char},
    ungroup ns cs = some ds → cs.length = ds.length + ns.length
  | [], cs, ds, h => by
    cases h
    rfl
  | n :: ns, cs, ds, h => by
    unfold ungroup at h
    split at h
    · cases h
    · next c rest hdrop =>
      obtain ⟨-, h⟩ := Option.ite_none_right_eq_some.mp h
      obtain ⟨es, hes, rfl⟩ := Option.map_eq_some_iff.mp h
      have ih := length_of_ungroup hes
      have hlength := congrArg List.length (List.take_append_drop n cs)
      rw [hdrop, List.length_append, List.length_cons] at hlength
      simp only [List.length_append, List.length_cons]
      omega

theorem length_group : ∀ (ns : List Nat) (cs : List Char), ns.sum ≤ cs.length →
    (group ns cs).length = cs.length + ns.length
  | [], _, _ => rfl
  | n :: ns, cs, h => by
    rw [List.sum_cons] at h
    have ih := length_group ns (cs.drop n) (by
      rw [List.length_drop]
      omega)
    simp only [group, List.length_append, List.length_take, List.length_cons, ih,
      List.length_drop]
    omega

theorem mem_group : ∀ {ns : List Nat} {cs : List Char} {c : Char},
    c ∈ group ns cs → c = '-' ∨ c ∈ cs
  | [], cs, c, h => .inr h
  | n :: ns, cs, c, h => by
    rw [group, List.mem_append, List.mem_cons] at h
    rcases h with h | h | h
    · exact .inr (List.mem_of_mem_take h)
    · exact .inl h
    · exact (mem_group h).imp_right List.mem_of_mem_drop

def groups : List Nat := [8, 4, 4, 4]

def print (n : Nat) : String := String.ofList (group groups (hexChars 32 n))

def parseHyphenated (cs : List Char) : Option Nat := (ungroup groups cs).bind (ofHex 0)

/-- The hyphenated text in braces or after the URN's prefix, if there is one of them. -/
def unwrap (cs : List Char) : List Char :=
  if cs.length = 38 ∧ cs.head? = some openBrace ∧ cs.getLast? = some closeBrace then
    (cs.drop 1).dropLast
  else if cs.length = 45 then (Json.after "urn:uuid:".toList cs).getD cs
  else cs

def parse (s : String) : Option Nat :=
  let cs := s.toList
  if cs.length = 32 then ofHex 0 cs
  else if (unwrap cs).length = 36 then parseHyphenated (unwrap cs)
  else none

theorem toList_print (n : Nat) : (print n).toList = group groups (hexChars 32 n) :=
  String.toList_ofList

theorem length_print (n : Nat) : (print n).toList.length = 36 := by
  rw [toList_print, length_group _ _ (by simp [groups])]
  simp [groups]

/-- **A UUID is read back from its text.** -/
theorem parse_print {n : Nat} (h : n < 2 ^ 128) : parse (print n) = some n := by
  have hlength := length_print n
  have hplain : unwrap (print n).toList = (print n).toList := by
    rw [unwrap, if_neg (by omega), if_neg (by omega)]
  have hhyphenated : parseHyphenated (print n).toList = some n := by
    rw [toList_print, parseHyphenated, ungroup_group _ _ (by simp [groups]), Option.bind_some,
      ofHex_hexChars 32 n (by norm_num at h ⊢; exact h)]
  rw [parse, if_neg (by omega), hplain, if_pos hlength, hhyphenated]

theorem lt_of_parse {s : String} {n : Nat} (h : parse s = some n) : n < 2 ^ 128 := by
  have hdigits : ∀ cs : List Char, cs.length = 32 → ofHex 0 cs = some n → n < 2 ^ 128 := by
    intro cs hcs hread
    have hlt := ofHex_lt hread
    rw [hcs] at hlt
    exact hlt
  unfold parse at h
  dsimp only at h
  split at h
  · next hlength => exact hdigits _ hlength h
  · split at h
    · obtain ⟨ds, hds, h⟩ := Option.bind_eq_some_iff.mp h
      have hgroups := length_of_ungroup hds
      simp only [groups, List.length_cons, List.length_nil] at hgroups
      exact hdigits ds (by omega) h
    · cases h

theorem print_ascii {n : Nat} {c : Char} (h : c ∈ (print n).toList) :
    c = '-' ∨ ∃ d < 16, c = hexDigit d := by
  have hdigits : ∀ w n, ∀ c ∈ hexChars w n, ∃ d < 16, c = hexDigit d := by
    intro w
    induction w with
    | zero => intro n c hc; cases hc
    | succ w ih =>
      intro n c hc
      rw [hexChars, List.mem_append, List.mem_singleton] at hc
      rcases hc with hc | rfl
      · exact ih _ c hc
      · exact ⟨_, Nat.mod_lt _ (by decide), rfl⟩
  rw [toList_print] at h
  exact (mem_group h).imp_right (hdigits _ _ c)

theorem utf8ByteSize_print (n : Nat) : (print n).utf8ByteSize = 36 := by
  rw [utf8ByteSize_eq, utf8Length_of_ascii, length_print]
  intro c hc
  rcases print_ascii hc with rfl | ⟨d, hd, rfl⟩
  · decide
  · exact hexDigit_ascii d hd

end Gridops.Lib.Uuid
