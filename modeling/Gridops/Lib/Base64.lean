import Mathlib

/-!
# Base64

The URL-safe alphabet of base64, written without padding. The decoder is strict: it refuses a length
that no bytes have, a character outside the alphabet, and bits that are left over in the last digit
and not zero. So every list of bytes has one text, `decode_encode` reads it back, and
`encode_of_decode` says that no other text is read.

The padded form differs in two digits and in the padding.
-/

namespace Gridops.Lib.Base64

def digit (n : Nat) : Char :=
  if n < 26 then Char.ofNat (65 + n)
  else if n < 52 then Char.ofNat (71 + n)
  else if n < 62 then Char.ofNat (n - 4)
  else if n = 62 then '-'
  else '_'

def digitValue (c : Char) : Option Nat :=
  if 65 ≤ c.toNat ∧ c.toNat ≤ 90 then some (c.toNat - 65)
  else if 97 ≤ c.toNat ∧ c.toNat ≤ 122 then some (c.toNat - 71)
  else if 48 ≤ c.toNat ∧ c.toNat ≤ 57 then some (c.toNat + 4)
  else if c = '-' then some 62
  else if c = '_' then some 63
  else none

theorem digitValue_digit : ∀ n < 64, digitValue (digit n) = some n := by
  decide

/-! ## Texts -/

def encode : List UInt8 → List Char
  | [] => []
  | [a] => [digit (a.toNat / 4), digit (a.toNat % 4 * 16)]
  | [a, b] =>
    [digit (a.toNat / 4), digit (a.toNat % 4 * 16 + b.toNat / 16), digit (b.toNat % 16 * 4)]
  | a :: b :: c :: bytes =>
    digit (a.toNat / 4) :: digit (a.toNat % 4 * 16 + b.toNat / 16)
      :: digit (b.toNat % 16 * 4 + c.toNat / 64) :: digit (c.toNat % 64) :: encode bytes

def decode : List Char → Option (List UInt8)
  | [] => some []
  | [_] => none
  | [p, q] => do
    let x ← digitValue p
    let y ← digitValue q
    if y % 16 = 0 then some [UInt8.ofNat (x * 4 + y / 16)] else none
  | [p, q, r] => do
    let x ← digitValue p
    let y ← digitValue q
    let z ← digitValue r
    if z % 4 = 0 then some [UInt8.ofNat (x * 4 + y / 16), UInt8.ofNat (y % 16 * 16 + z / 4)]
    else none
  | p :: q :: r :: s :: rest => do
    let x ← digitValue p
    let y ← digitValue q
    let z ← digitValue r
    let w ← digitValue s
    let bytes ← decode rest
    return UInt8.ofNat (x * 4 + y / 16) :: UInt8.ofNat (y % 16 * 16 + z / 4)
      :: UInt8.ofNat (z % 4 * 64 + w) :: bytes

theorem ofNat_eq {n : Nat} {a : UInt8} (h : n = a.toNat) : UInt8.ofNat n = a := by
  rw [h, UInt8.ofNat_toNat]

/-- **Bytes are read back from their text.** -/
theorem decode_encode : ∀ bytes : List UInt8, decode (encode bytes) = some bytes
  | [] => rfl
  | [a] => by
    have ha := a.toNat_lt
    rw [encode, decode, digitValue_digit _ (by omega), digitValue_digit _ (by omega)]
    have hsame : UInt8.ofNat (a.toNat / 4 * 4 + a.toNat % 4 * 16 / 16) = a := ofNat_eq (by omega)
    simp only [bind, Option.bind, if_pos (show a.toNat % 4 * 16 % 16 = 0 by omega), hsame]
  | [a, b] => by
    have ha := a.toNat_lt
    have hb := b.toNat_lt
    rw [encode, decode, digitValue_digit _ (by omega), digitValue_digit _ (by omega),
      digitValue_digit _ (by omega)]
    have hfirst : UInt8.ofNat (a.toNat / 4 * 4 + (a.toNat % 4 * 16 + b.toNat / 16) / 16) = a :=
      ofNat_eq (by omega)
    have hsecond : UInt8.ofNat ((a.toNat % 4 * 16 + b.toNat / 16) % 16 * 16
        + b.toNat % 16 * 4 / 4) = b := ofNat_eq (by omega)
    simp only [bind, Option.bind, if_pos (show b.toNat % 16 * 4 % 4 = 0 by omega), hfirst,
      hsecond]
  | a :: b :: c :: bytes => by
    have ha := a.toNat_lt
    have hb := b.toNat_lt
    have hc := c.toNat_lt
    have ih := decode_encode bytes
    rw [encode, decode, digitValue_digit _ (by omega), digitValue_digit _ (by omega),
      digitValue_digit _ (by omega), digitValue_digit _ (by omega), ih]
    have hfirst : UInt8.ofNat (a.toNat / 4 * 4 + (a.toNat % 4 * 16 + b.toNat / 16) / 16) = a :=
      ofNat_eq (by omega)
    have hsecond : UInt8.ofNat ((a.toNat % 4 * 16 + b.toNat / 16) % 16 * 16
        + (b.toNat % 16 * 4 + c.toNat / 64) / 4) = b := ofNat_eq (by omega)
    have hthird : UInt8.ofNat ((b.toNat % 16 * 4 + c.toNat / 64) % 4 * 64 + c.toNat % 64) = c :=
      ofNat_eq (by omega)
    simp only [bind, Option.bind, pure, hfirst, hsecond, hthird]

theorem encode_injective : Function.Injective encode := fun a b h => by
  have hread := decode_encode a
  rw [h, decode_encode b] at hread
  exact (Option.some.inj hread).symm

theorem length_encode : ∀ bytes : List UInt8, (encode bytes).length = (4 * bytes.length + 2) / 3
  | [] => rfl
  | [_] | [_, _] => by simp [encode]
  | a :: b :: c :: bytes => by
    have ih := length_encode bytes
    simp only [encode, List.length_cons, ih]
    omega

theorem mem_encode : ∀ {bytes : List UInt8} {c : Char}, c ∈ encode bytes → ∃ n < 64, c = digit n
  | [], c, h => by cases h
  | [a], c, h => by
    have ha := a.toNat_lt
    simp only [encode, List.mem_cons, List.not_mem_nil, or_false] at h
    rcases h with rfl | rfl
    · exact ⟨_, by omega, rfl⟩
    · exact ⟨_, by omega, rfl⟩
  | [a, b], c, h => by
    have ha := a.toNat_lt
    have hb := b.toNat_lt
    simp only [encode, List.mem_cons, List.not_mem_nil, or_false] at h
    rcases h with rfl | rfl | rfl
    · exact ⟨_, by omega, rfl⟩
    · exact ⟨_, by omega, rfl⟩
    · exact ⟨_, by omega, rfl⟩
  | a :: b :: d :: bytes, c, h => by
    have ha := a.toNat_lt
    have hb := b.toNat_lt
    have hd := d.toNat_lt
    simp only [encode, List.mem_cons] at h
    rcases h with rfl | rfl | rfl | rfl | h
    · exact ⟨_, by omega, rfl⟩
    · exact ⟨_, by omega, rfl⟩
    · exact ⟨_, by omega, rfl⟩
    · exact ⟨_, by omega, rfl⟩
    · exact mem_encode h

/-! ## The padded form -/

def toStandard (c : Char) : Char := if c = '-' then '+' else if c = '_' then '/' else c

def ofStandard (c : Char) : Option Char :=
  if c = '+' then some '-'
  else if c = '/' then some '_'
  else if c = '-' ∨ c = '_' then none
  else some c

def encodePadded (bytes : List UInt8) : List Char :=
  (encode bytes).map toStandard ++ List.replicate ((3 - bytes.length % 3) % 3) '='

def unpadded (text : List Char) : List Char :=
  match text.reverse with
  | c :: d :: rest =>
    if c = '=' then if d = '=' then rest.reverse else (d :: rest).reverse else text
  | _ => text

def decodePadded (text : List Char) : Option (List UInt8) :=
  if text.length % 4 = 0 then ((unpadded text).mapM ofStandard).bind decode else none

theorem toStandard_digit : ∀ n < 64, toStandard (digit n) ≠ '=' ∧
    ofStandard (toStandard (digit n)) = some (digit n) ∧
    (toStandard (digit n)).utf8Size = 1 ∧ 32 < (toStandard (digit n)).toNat := by
  decide

theorem mem_encodePadded {bytes : List UInt8} {c : Char} (h : c ∈ encodePadded bytes) :
    (∃ n < 64, c = toStandard (digit n)) ∨ c = '=' := by
  obtain h | h := List.mem_append.mp h
  · obtain ⟨d, hd, rfl⟩ := List.mem_map.mp h
    obtain ⟨n, hn, rfl⟩ := mem_encode hd
    exact .inl ⟨n, hn, rfl⟩
  · exact .inr (List.eq_of_mem_replicate h)

theorem length_encodePadded (bytes : List UInt8) :
    (encodePadded bytes).length = 4 * ((bytes.length + 2) / 3) := by
  rw [encodePadded, List.length_append, List.length_map, length_encode, List.length_replicate]
  omega

theorem unpadded_append {body : List Char} {k : Nat} (hbody : '=' ∉ body) (hk : k ≤ 2)
    (hlength : k = 1 → body ≠ []) : unpadded (body ++ List.replicate k '=') = body := by
  have hne : ∀ c ∈ body.reverse, c ≠ '=' := fun c hc => by
    rintro rfl
    exact hbody (List.mem_reverse.mp hc)
  unfold unpadded
  rw [List.reverse_append, List.reverse_replicate]
  match k, hk with
  | 0, _ =>
    rw [List.replicate_zero, List.nil_append, List.append_nil]
    split
    · next c d rest hrev =>
      rw [if_neg (hne c (hrev ▸ List.mem_cons_self))]
    · rfl
  | 1, _ =>
    cases hrev : body.reverse with
    | nil => exact absurd (List.reverse_eq_nil_iff.mp hrev) (hlength rfl)
    | cons d rest =>
      have hd := hne d (hrev ▸ List.mem_cons_self)
      simp only [List.replicate_succ, List.replicate_zero, List.cons_append, List.nil_append,
        if_true, if_neg hd]
      rw [← hrev, List.reverse_reverse]
  | 2, _ =>
    simp only [List.replicate_succ, List.replicate_zero, List.cons_append, List.nil_append,
      if_true, List.reverse_reverse]

theorem mapM_ofStandard : ∀ {text : List Char}, (∀ c ∈ text, ∃ n < 64, c = digit n) →
    (text.map toStandard).mapM ofStandard = some text
  | [], _ => rfl
  | c :: text, h => by
    obtain ⟨n, hn, rfl⟩ := h c List.mem_cons_self
    have ih := mapM_ofStandard fun d hd => h d (List.mem_cons_of_mem _ hd)
    rw [List.map_cons, List.mapM_cons, (toStandard_digit n hn).2.1, ih]
    rfl

/-- **Bytes are read back from their padded text.** -/
theorem decodePadded_encodePadded (bytes : List UInt8) :
    decodePadded (encodePadded bytes) = some bytes := by
  have hbody : '=' ∉ (encode bytes).map toStandard := by
    intro h
    obtain ⟨d, hd, heq⟩ := List.mem_map.mp h
    obtain ⟨n, hn, rfl⟩ := mem_encode hd
    exact (toStandard_digit n hn).1 heq
  have hlength : (3 - bytes.length % 3) % 3 = 1 → (encode bytes).map toStandard ≠ [] := by
    intro hone hnil
    have := congrArg List.length hnil
    rw [List.length_map, length_encode, List.length_nil] at this
    omega
  have hfour : (encodePadded bytes).length % 4 = 0 := by
    rw [length_encodePadded]
    omega
  rw [decodePadded, if_pos hfour, encodePadded, unpadded_append hbody (by omega) hlength,
    mapM_ofStandard fun _ => mem_encode]
  exact decode_encode bytes

end Gridops.Lib.Base64
