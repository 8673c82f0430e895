import Mathlib

/-!
# JSON texts

JSON values, the compact text a serializer writes for them and a parser of such texts, over lists of
characters. Numbers are integers: a fraction or an exponent is refused. A text is written without
blanks, in the order of the fields; the parser also takes blanks and every escape of the grammar.

`parse_print` is the round trip, for every value. `utf8Length_print_le` bounds a text by its value,
for readers that refuse long ones. `rearrange` reorders the fields of every object, as a program
does that reads a text into maps and writes it again.
-/

namespace Gridops.Lib

namespace Text

def quote : Char := Char.ofNat 0x22
def backslash : Char := Char.ofNat 0x5c
def openBrace : Char := Char.ofNat 0x7b
def closeBrace : Char := Char.ofNat 0x7d

def utf8Length (cs : List Char) : Nat := (cs.map Char.utf8Size).sum

@[simp] theorem utf8Length_nil : utf8Length [] = 0 := rfl

@[simp] theorem utf8Length_cons (c : Char) (cs : List Char) :
    utf8Length (c :: cs) = c.utf8Size + utf8Length cs := by
  simp [utf8Length]

@[simp] theorem utf8Length_append (cs ds : List Char) :
    utf8Length (cs ++ ds) = utf8Length cs + utf8Length ds := by
  simp [utf8Length]

theorem utf8ByteSize_ofList (cs : List Char) :
    (String.ofList cs).utf8ByteSize = utf8Length cs := by
  induction cs with
  | nil => rfl
  | cons c cs ih =>
    rw [String.ofList_cons, String.utf8ByteSize_append, String.utf8ByteSize_singleton, ih,
      utf8Length_cons]

theorem utf8ByteSize_eq (s : String) : s.utf8ByteSize = utf8Length s.toList := by
  rw [← utf8ByteSize_ofList, String.ofList_toList]

theorem utf8Length_of_ascii : ∀ {cs : List Char}, (∀ c ∈ cs, c.toNat < 128) →
    utf8Length cs = cs.length
  | [], _ => rfl
  | c :: cs, h => by
    have hc : c.utf8Size = 1 := by
      have hlt := h c (by simp)
      unfold Char.utf8Size
      rw [if_pos (by simpa [UInt32.le_iff_toNat_le] using Nat.le_of_lt_succ hlt)]
    rw [utf8Length_cons, hc, utf8Length_of_ascii fun d hd => h d (by simp [hd])]
    simp [Nat.add_comm]

def hexDigit (n : Nat) : Char := Nat.digitChar n

def hexValue (c : Char) : Option Nat :=
  if 48 ≤ c.toNat ∧ c.toNat ≤ 57 then some (c.toNat - 48)
  else if 97 ≤ c.toNat ∧ c.toNat ≤ 102 then some (c.toNat - 87)
  else if 65 ≤ c.toNat ∧ c.toNat ≤ 70 then some (c.toNat - 55)
  else none

theorem hexValue_hexDigit : ∀ n < 16, hexValue (hexDigit n) = some n := by
  decide

theorem hexDigit_ascii : ∀ n < 16, (hexDigit n).toNat < 128 := by
  decide

end Text

open Text

/-! ## Values and their texts -/

inductive Json
  | null
  | bool (b : Bool)
  | num (n : Int)
  | str (s : String)
  | arr (items : List Json)
  | obj (fields : List (String × Json))

namespace Json

def shortEscape (c : Char) : Option Char :=
  match c.toNat with
  | 0x22 => some quote
  | 0x5c => some backslash
  | 8 => some 'b'
  | 9 => some 't'
  | 10 => some 'n'
  | 12 => some 'f'
  | 13 => some 'r'
  | _ => none

def escape (c : Char) : List Char :=
  match shortEscape c with
  | some e => [backslash, e]
  | none =>
    if c.toNat < 0x20 then
      [backslash, 'u', '0', '0', hexDigit (c.toNat / 16), hexDigit (c.toNat % 16)]
    else [c]

def printString (s : String) : List Char := quote :: s.toList.flatMap escape ++ [quote]

def printInt (n : Int) : List Char :=
  if n < 0 then '-' :: Nat.toDigits 10 n.natAbs else Nat.toDigits 10 n.natAbs

mutual

def print : Json → List Char
  | .null => ['n', 'u', 'l', 'l']
  | .bool true => ['t', 'r', 'u', 'e']
  | .bool false => ['f', 'a', 'l', 's', 'e']
  | .num n => printInt n
  | .str s => printString s
  | .arr [] => ['[', ']']
  | .arr (v :: vs) => '[' :: print v ++ printItems vs
  | .obj [] => [openBrace, closeBrace]
  | .obj ((k, v) :: fs) => openBrace :: printString k ++ ':' :: print v ++ printFields fs

/-- The items after the first, up to the bracket that closes them. -/
def printItems : List Json → List Char
  | [] => [']']
  | v :: vs => ',' :: print v ++ printItems vs

def printFields : List (String × Json) → List Char
  | [] => [closeBrace]
  | (k, v) :: fs => ',' :: printString k ++ ':' :: print v ++ printFields fs

end

/-! ## Parsing -/

def isBlank (c : Char) : Bool := c == ' ' || c == '\n' || c == '\t' || c == '\r'

def skip (cs : List Char) : List Char := cs.dropWhile isBlank

def after : List Char → List Char → Option (List Char)
  | [], cs => some cs
  | _ :: _, [] => none
  | w :: ws, c :: cs => if w = c then after ws cs else none

def unescape (e : Char) : Option Char :=
  if e = quote then some quote
  else if e = backslash then some backslash
  else if e = '/' then some '/'
  else if e = 'b' then some (Char.ofNat 8)
  else if e = 't' then some (Char.ofNat 9)
  else if e = 'n' then some (Char.ofNat 10)
  else if e = 'f' then some (Char.ofNat 12)
  else if e = 'r' then some (Char.ofNat 13)
  else none

def hex4 (a b c d : Char) : Option Nat := do
  return ((← hexValue a) * 16 + (← hexValue b)) * 256 + (← hexValue c) * 16 + (← hexValue d)

/-- The characters of a string up to its closing quote. A code unit that is half of a pair
needs the other half. -/
def parseChars : List Char → Option (List Char × List Char)
  | [] => none
  | c :: cs =>
    if c = quote then some ([], cs)
    else if c = backslash then
      match cs with
      | 'u' :: h₁ :: h₂ :: h₃ :: h₄ :: cs =>
        match hex4 h₁ h₂ h₃ h₄ with
        | none => none
        | some n =>
          if 0xd800 ≤ n ∧ n ≤ 0xdbff then
            match cs with
            | b :: 'u' :: l₁ :: l₂ :: l₃ :: l₄ :: cs =>
              match hex4 l₁ l₂ l₃ l₄ with
              | none => none
              | some m =>
                if b = backslash ∧ 0xdc00 ≤ m ∧ m ≤ 0xdfff then
                  (parseChars cs).map fun (s, r) =>
                    (Char.ofNat (0x10000 + (n - 0xd800) * 0x400 + (m - 0xdc00)) :: s, r)
                else none
            | _ => none
          else if 0xdc00 ≤ n ∧ n ≤ 0xdfff then none
          else (parseChars cs).map fun (s, r) => (Char.ofNat n :: s, r)
      | e :: cs =>
        match unescape e with
        | none => none
        | some c => (parseChars cs).map fun (s, r) => (c :: s, r)
      | [] => none
    else if c.toNat < 0x20 then none
    else (parseChars cs).map fun (s, r) => (c :: s, r)

/-- A character after which an integer would go on, or be none. -/
def goesOn (c : Char) : Bool := c.isDigit || c == '.' || c == 'e' || c == 'E'

def parseNat (cs : List Char) : Option (Nat × List Char) :=
  let ds := cs.takeWhile Char.isDigit
  let n := Nat.ofDigitChars 10 ds 0
  let rest := cs.dropWhile Char.isDigit
  if ds = Nat.toDigits 10 n ∧ rest.head?.all (!goesOn ·) then some (n, rest) else none

def parseNumber : List Char → Option (Json × List Char)
  | [] => none
  | c :: cs =>
    if c = '-' then
      match parseNat cs with
      | some (n + 1, r) => some (.num (.negSucc n), r)
      | _ => none
    else (parseNat (c :: cs)).map fun (n, r) => (.num n, r)

mutual

/-- `fuel` bounds the tokens that are read. -/
def parseValue : Nat → List Char → Option (Json × List Char)
  | 0, _ => none
  | fuel + 1, cs =>
    match skip cs with
    | [] => none
    | c :: cs =>
      if c = 'n' then (after ['u', 'l', 'l'] cs).map fun r => (.null, r)
      else if c = 't' then (after ['r', 'u', 'e'] cs).map fun r => (.bool true, r)
      else if c = 'f' then (after ['a', 'l', 's', 'e'] cs).map fun r => (.bool false, r)
      else if c = quote then (parseChars cs).map fun (s, r) => (.str (String.ofList s), r)
      else if c = '[' then
        match skip cs with
        | c :: cs =>
          if c = ']' then some (.arr [], cs)
          else do
            let (v, cs) ← parseValue fuel (c :: cs)
            let (vs, r) ← parseItems fuel cs
            return (.arr (v :: vs), r)
        | [] => none
      else if c = openBrace then
        match skip cs with
        | c :: cs =>
          if c = closeBrace then some (.obj [], cs)
          else do
            let (f, cs) ← parseField fuel (c :: cs)
            let (fs, r) ← parseFields fuel cs
            return (.obj (f :: fs), r)
        | [] => none
      else parseNumber (c :: cs)

def parseItems : Nat → List Char → Option (List Json × List Char)
  | 0, _ => none
  | fuel + 1, cs =>
    match skip cs with
    | [] => none
    | c :: cs =>
      if c = ']' then some ([], cs)
      else if c = ',' then do
        let (v, cs) ← parseValue fuel cs
        let (vs, r) ← parseItems fuel cs
        return (v :: vs, r)
      else none

def parseField : Nat → List Char → Option ((String × Json) × List Char)
  | 0, _ => none
  | fuel + 1, cs =>
    match skip cs with
    | [] => none
    | c :: cs =>
      if c = quote then do
        let (k, cs) ← parseChars cs
        match skip cs with
        | [] => none
        | c :: cs =>
          if c = ':' then do
            let (v, r) ← parseValue fuel cs
            return ((String.ofList k, v), r)
          else none
      else none

def parseFields : Nat → List Char → Option (List (String × Json) × List Char)
  | 0, _ => none
  | fuel + 1, cs =>
    match skip cs with
    | [] => none
    | c :: cs =>
      if c = closeBrace then some ([], cs)
      else if c = ',' then do
        let (f, cs) ← parseField fuel cs
        let (fs, r) ← parseFields fuel cs
        return (f :: fs, r)
      else none

end

def parse (cs : List Char) : Option Json :=
  match parseValue (cs.length + 1) cs with
  | some (v, r) => if skip r = [] then some v else none
  | none => none

theorem parseChars_escape_append (c : Char) (cs : List Char) :
    parseChars (escape c ++ cs) = (parseChars cs).map fun (s, r) => (c :: s, r) := by
  unfold escape
  cases hshort : shortEscape c with
  | some e =>
    unfold shortEscape at hshort
    have hc := Char.ofNat_toNat c
    split at hshort <;> rename_i hcode
    all_goals
      first
      | cases hshort
        rw [hcode] at hc
        rw [← hc]
        rfl
      | cases hshort
  | none =>
    have hquote : c ≠ quote := by
      rintro rfl
      cases hshort
    have hslash : c ≠ backslash := by
      rintro rfl
      cases hshort
    dsimp only
    split
    · have hhex : hex4 '0' '0' (hexDigit (c.toNat / 16)) (hexDigit (c.toNat % 16)) =
          some c.toNat := by
        have hhigh := hexValue_hexDigit (c.toNat / 16) (by omega)
        have hlow := hexValue_hexDigit (c.toNat % 16) (by omega)
        have hzero : hexValue '0' = some 0 := by decide
        simp only [hex4, hhigh, hlow, hzero, bind, Option.bind]
        congr 1
        omega
      simp only [List.cons_append, List.nil_append, parseChars]
      rw [if_neg (by decide), if_pos trivial, hhex]
      dsimp only
      rw [if_neg (by omega), if_neg (by omega), Char.ofNat_toNat]
    · next hplain =>
      rw [List.cons_append, List.nil_append]
      conv_lhs => unfold parseChars
      rw [if_neg hquote, if_neg hslash, if_neg hplain]

theorem parseChars_escape (cs rest : List Char) :
    parseChars (cs.flatMap escape ++ quote :: rest) = some (cs, rest) := by
  induction cs with
  | nil =>
    rw [parseChars.eq_def]
    exact if_pos rfl
  | cons c cs ih =>
    rw [List.flatMap_cons, List.append_assoc, parseChars_escape_append, ih]
    rfl

/-- What may follow a number. -/
def Ends (rest : List Char) : Prop := rest.head?.all (!goesOn ·) = true

theorem parseNat_print (n : Nat) {rest : List Char} (hrest : Ends rest) :
    parseNat (Nat.toDigits 10 n ++ rest) = some (n, rest) := by
  have hdigits : ∀ c ∈ Nat.toDigits 10 n, c.isDigit = true := fun c hc =>
    Nat.isDigit_of_mem_toDigits (by decide) (by decide) hc
  have hhead : ∀ c, rest.head? = some c → c.isDigit = false := by
    intro c hc
    rw [Ends, hc] at hrest
    simp only [goesOn, Option.all_some, Bool.not_or, Bool.and_eq_true, Bool.not_eq_true'] at hrest
    exact hrest.1.1.1
  have hstop : rest.takeWhile Char.isDigit = [] ∧ rest.dropWhile Char.isDigit = rest := by
    cases rest with
    | nil => exact ⟨rfl, rfl⟩
    | cons c cs => simp [hhead c rfl]
  have htake : (Nat.toDigits 10 n ++ rest).takeWhile Char.isDigit = Nat.toDigits 10 n := by
    rw [List.takeWhile_append_of_pos hdigits, hstop.1, List.append_nil]
  have hdrop : (Nat.toDigits 10 n ++ rest).dropWhile Char.isDigit = rest := by
    rw [List.dropWhile_append_of_pos hdigits, hstop.2]
  have hvalue : Nat.ofDigitChars 10 (Nat.toDigits 10 n) 0 = n :=
    Nat.ofDigitChars_toDigits (by decide) (by decide)
  unfold parseNat
  simp only [htake, hdrop, hvalue]
  exact if_pos ⟨trivial, hrest⟩

theorem toDigits_eq_cons (n : Nat) : ∃ d ds, Nat.toDigits 10 n = d :: ds ∧ d.isDigit = true := by
  cases hdigits : Nat.toDigits 10 n with
  | nil => exact absurd hdigits Nat.toDigits_ne_nil
  | cons d ds =>
    have hmem : d ∈ Nat.toDigits 10 n := by
      rw [hdigits]
      exact List.mem_cons_self
    exact ⟨d, ds, rfl, Nat.isDigit_of_mem_toDigits (by decide) (by decide) hmem⟩

theorem parseNumber_print (n : Int) {rest : List Char} (hrest : Ends rest) :
    parseNumber (printInt n ++ rest) = some (.num n, rest) := by
  unfold printInt
  cases n with
  | negSucc n =>
    rw [if_pos (Int.negSucc_lt_zero n), List.cons_append, parseNumber, parseNat_print _ hrest]
    rfl
  | ofNat n =>
    have hparse := parseNat_print n hrest
    obtain ⟨d, ds, hdigits, hd⟩ := toDigits_eq_cons n
    have hminus : d ≠ '-' := by
      rintro rfl
      cases hd
    simp only [Int.ofNat_eq_natCast, Int.natAbs_natCast]
    rw [if_neg (Int.not_lt.mpr (Int.natCast_nonneg n))]
    rw [hdigits, List.cons_append] at hparse ⊢
    rw [parseNumber, if_neg hminus, hparse]
    rfl

/-! ## The round trip -/

/-- The first character of a text: no blank, and nothing that closes. -/
def Opens (cs : List Char) : Prop :=
  ∃ c r, cs = c :: r ∧ isBlank c = false ∧ c ≠ ']' ∧ c ≠ closeBrace

theorem opens_printString (s : String) : Opens (printString s) :=
  ⟨quote, _, rfl, by decide, by decide, by decide⟩

theorem printInt_eq_cons (n : Int) :
    ∃ c r, printInt n = c :: r ∧ (c.isDigit = true ∨ c = '-') := by
  unfold printInt
  split
  · exact ⟨'-', _, rfl, .inr rfl⟩
  · obtain ⟨d, ds, hdigits, hd⟩ := toDigits_eq_cons n.natAbs
    exact ⟨d, ds, hdigits, .inl hd⟩

theorem ne_of_number {c c' : Char} (hc : c.isDigit = true ∨ c = '-')
    (hc' : (c'.isDigit || c' == '-') = false) : c ≠ c' := by
  rintro rfl
  rcases hc with hc | rfl
  · rw [hc] at hc'
    cases hc'
  · cases hc'

theorem opens_printInt (n : Int) : Opens (printInt n) := by
  obtain ⟨c, r, hprint, hc⟩ := printInt_eq_cons n
  refine ⟨c, r, hprint, ?_, ne_of_number hc (by decide), ne_of_number hc (by decide)⟩
  have hblank : ∀ c', c' = ' ' ∨ c' = '\n' ∨ c' = '\t' ∨ c' = '\r' → c ≠ c' := by
    rintro c' (rfl | rfl | rfl | rfl) <;> exact ne_of_number hc (by decide)
  simp [isBlank, hblank]

theorem opens_print (j : Json) : Opens (print j) := by
  cases j with
  | null => exact ⟨'n', _, rfl, by decide, by decide, by decide⟩
  | bool b => cases b <;> exact ⟨_, _, rfl, by decide, by decide, by decide⟩
  | num n =>
    exact opens_printInt n
  | str s =>
    exact opens_printString s
  | arr items => cases items <;> exact ⟨'[', _, rfl, by decide, by decide, by decide⟩
  | obj fields =>
    cases fields with
    | nil => exact ⟨openBrace, _, rfl, by decide, by decide, by decide⟩
    | cons f fs => exact ⟨openBrace, _, rfl, by decide, by decide, by decide⟩

theorem ends_printItems (vs : List Json) (rest : List Char) : Ends (printItems vs ++ rest) := by
  cases vs <;> rfl

theorem ends_printFields (fs : List (String × Json)) (rest : List Char) :
    Ends (printFields fs ++ rest) := by
  cases fs <;> rfl

theorem skip_cons {c : Char} (hblank : isBlank c = false) (cs : List Char) :
    skip (c :: cs) = c :: cs := by
  simp [skip, hblank]

theorem parseField_print {v : Json} {fuel : Nat} (k : String) {rest : List Char}
    (hv : parseValue fuel (print v ++ rest) = some (v, rest)) :
    parseField (fuel + 1) (printString k ++ ':' :: print v ++ rest) = some ((k, v), rest) := by
  have hchars := parseChars_escape k.toList (':' :: (print v ++ rest))
  simp only [printString, List.cons_append, List.append_assoc, List.nil_append]
  rw [parseField, skip_cons (by decide)]
  dsimp only
  rw [hchars]
  simp [skip_cons (show isBlank ':' = false by decide), hv]

mutual

theorem parseValue_print : ∀ (j : Json) (fuel : Nat) (rest : List Char),
    (print j).length ≤ fuel → Ends rest → parseValue fuel (print j ++ rest) = some (j, rest)
  | j, 0, rest, hfuel, _ => by
    obtain ⟨c, r, hprint, -⟩ := opens_print j
    simp [hprint] at hfuel
  | .null, fuel + 1, rest, _, _ => by
    simp [parseValue, print, skip_cons (show isBlank 'n' = false by decide), after]
  | .bool true, fuel + 1, rest, _, _ => by
    simp [parseValue, print, skip_cons (show isBlank 't' = false by decide), after]
  | .bool false, fuel + 1, rest, _, _ => by
    simp [parseValue, print, skip_cons (show isBlank 'f' = false by decide), after]
  | .num n, fuel + 1, rest, _, hrest => by
    have hnumber := parseNumber_print n hrest
    obtain ⟨c, r, hprint, hc⟩ := printInt_eq_cons n
    obtain ⟨c', r', hopen, hblank, -⟩ := opens_printInt n
    obtain ⟨rfl, rfl⟩ := List.cons.inj (hprint.symm.trans hopen)
    simp only [print]
    rw [hprint, List.cons_append] at hnumber ⊢
    rw [parseValue, skip_cons hblank]
    dsimp only
    rw [if_neg (ne_of_number hc (by decide)), if_neg (ne_of_number hc (by decide)),
      if_neg (ne_of_number hc (by decide)), if_neg (ne_of_number hc (by decide)),
      if_neg (ne_of_number hc (by decide)), if_neg (ne_of_number hc (by decide)), hnumber]
  | .str s, fuel + 1, rest, _, _ => by
    have hchars := parseChars_escape s.toList rest
    simp only [print, printString, List.cons_append, List.append_assoc, List.nil_append]
    rw [parseValue, skip_cons (by decide)]
    dsimp only
    rw [if_neg (by decide), if_neg (by decide), if_neg (by decide), if_pos rfl, hchars]
    simp
  | .arr [], fuel + 1, rest, _, _ => by
    simp only [print, List.cons_append, List.nil_append]
    rw [parseValue, skip_cons (by decide)]
    dsimp only
    rw [if_neg (by decide), if_neg (by decide), if_neg (by decide), if_neg (by decide), if_pos rfl,
      skip_cons (by decide)]
    rfl
  | .arr (v :: vs), fuel + 1, rest, hfuel, _ => by
    simp only [print, List.length_cons, List.length_append, List.cons_append] at hfuel
    have hv := parseValue_print v fuel (printItems vs ++ rest) (by omega) (ends_printItems vs rest)
    have hvs := parseItems_print vs fuel rest (by omega)
    obtain ⟨c, r, hopen, hblank, hclose, -⟩ := opens_print v
    simp only [print, List.cons_append, List.append_assoc]
    rw [parseValue, skip_cons (by decide)]
    dsimp only
    rw [if_neg (by decide), if_neg (by decide), if_neg (by decide), if_neg (by decide), if_pos rfl]
    rw [hopen, List.cons_append] at hv ⊢
    rw [skip_cons hblank]
    dsimp only
    rw [if_neg hclose, hv]
    simp only [bind, Option.bind, hvs, pure]
  | .obj [], fuel + 1, rest, _, _ => by
    simp only [print, List.cons_append, List.nil_append]
    rw [parseValue, skip_cons (by decide)]
    dsimp only
    rw [if_neg (by decide), if_neg (by decide), if_neg (by decide), if_neg (by decide),
      if_neg (by decide), if_pos rfl, skip_cons (by decide)]
    rfl
  | .obj (_ :: _), 1, rest, hfuel, _ => by
    simp [print, printString] at hfuel
  | .obj ((k, v) :: fs), fuel + 2, rest, hfuel, _ => by
    simp only [print, printString, List.length_cons, List.length_append, List.cons_append] at hfuel
    have hv := parseValue_print v fuel (printFields fs ++ rest) (by omega)
      (ends_printFields fs rest)
    have hfs := parseFields_print fs (fuel + 1) rest (by omega)
    have hfield := parseField_print k hv
    obtain ⟨c, r, hopen, hblank, -, hclose⟩ := opens_printString k
    simp only [print, List.cons_append, List.append_assoc] at hfield ⊢
    rw [parseValue, skip_cons (by decide)]
    dsimp only
    rw [if_neg (by decide), if_neg (by decide), if_neg (by decide), if_neg (by decide),
      if_neg (by decide), if_pos rfl]
    rw [hopen, List.cons_append] at hfield ⊢
    rw [skip_cons hblank]
    dsimp only
    rw [if_neg hclose, hfield]
    simp only [bind, Option.bind, hfs, pure]

theorem parseItems_print : ∀ (vs : List Json) (fuel : Nat) (rest : List Char),
    (printItems vs).length ≤ fuel → parseItems fuel (printItems vs ++ rest) = some (vs, rest)
  | vs, 0, rest, hfuel => by
    cases vs <;> simp [printItems] at hfuel
  | [], fuel + 1, rest, _ => by
    simp only [printItems, List.cons_append, List.nil_append]
    rw [parseItems, skip_cons (by decide)]
    rfl
  | v :: vs, fuel + 1, rest, hfuel => by
    simp only [printItems, List.length_cons, List.length_append, List.cons_append] at hfuel
    have hv := parseValue_print v fuel (printItems vs ++ rest) (by omega) (ends_printItems vs rest)
    have hvs := parseItems_print vs fuel rest (by omega)
    simp only [printItems, List.cons_append, List.append_assoc]
    rw [parseItems, skip_cons (by decide)]
    dsimp only
    rw [if_neg (by decide), if_pos rfl, hv]
    simp only [bind, Option.bind, hvs, pure]

theorem parseFields_print : ∀ (fs : List (String × Json)) (fuel : Nat) (rest : List Char),
    (printFields fs).length ≤ fuel → parseFields fuel (printFields fs ++ rest) = some (fs, rest)
  | fs, 0, rest, hfuel => by
    cases fs <;> simp [printFields] at hfuel
  | [], fuel + 1, rest, _ => by
    simp only [printFields, List.cons_append, List.nil_append]
    rw [parseFields, skip_cons (by decide)]
    rfl
  | _ :: _, 1, rest, hfuel => by
    simp [printFields, printString] at hfuel
  | (k, v) :: fs, fuel + 2, rest, hfuel => by
    simp only [printFields, printString, List.length_cons, List.length_append,
      List.cons_append] at hfuel
    have hv := parseValue_print v fuel (printFields fs ++ rest) (by omega)
      (ends_printFields fs rest)
    have hfs := parseFields_print fs (fuel + 1) rest (by omega)
    have hfield := parseField_print k hv
    simp only [printFields, List.cons_append, List.append_assoc] at hfield ⊢
    rw [parseFields, skip_cons (by decide)]
    dsimp only
    rw [if_neg (by decide), if_pos rfl, hfield]
    simp only [bind, Option.bind, hfs, pure]

end

/-- **Every value is read back from its text.** -/
theorem parse_print (j : Json) : parse (print j) = some j := by
  have hvalue := parseValue_print j ((print j).length + 1) [] (Nat.le_succ _) rfl
  rw [List.append_nil] at hvalue
  unfold parse
  rw [hvalue]
  rfl

theorem print_injective : Function.Injective print := fun j j' h => by
  have hparse := parse_print j
  rw [h, parse_print j'] at hparse
  exact (Option.some.inj hparse).symm

/-! ## The size of a text -/

/-- A string may be written with six bytes for each of its own. -/
def stringWeight (s : String) : Nat := 6 * s.utf8ByteSize + 2

mutual

/-- A bound on the bytes a value is written with. -/
def weight : Json → Nat
  | .null => 4
  | .bool _ => 5
  | .num n => (printInt n).length
  | .str s => stringWeight s
  | .arr vs => 2 + weightItems vs
  | .obj fs => 2 + weightFields fs

def weightItems : List Json → Nat
  | [] => 0
  | v :: vs => weight v + 1 + weightItems vs

def weightFields : List (String × Json) → Nat
  | [] => 0
  | (k, v) :: fs => stringWeight k + weight v + 2 + weightFields fs

end

theorem escape_ascii {c : Char} (h : escape c ≠ [c]) : ∀ d ∈ escape c, d.toNat < 128 := by
  unfold escape shortEscape at h ⊢
  split
  · next e he =>
    split at he <;> cases he <;> exact List.all_iff_forall_prop.mp (by decide)
  · next he =>
    rw [he] at h
    split
    · have hlow := hexDigit_ascii (c.toNat % 16) (Nat.mod_lt _ (by decide))
      have hhigh := hexDigit_ascii (c.toNat / 16) (by omega)
      simp [hlow, hhigh, backslash]
    · next hctrl =>
      rw [if_neg hctrl] at h
      exact absurd rfl h

theorem length_escape_le (c : Char) : (escape c).length ≤ 6 := by
  unfold escape
  split
  · simp
  · split <;> simp

theorem utf8Length_escape_le (c : Char) : utf8Length (escape c) ≤ 6 * c.utf8Size := by
  have hpos : 1 ≤ c.utf8Size := c.utf8Size_pos
  by_cases h : escape c = [c]
  · rw [h]
    simp only [utf8Length_cons, utf8Length_nil]
    omega
  · rw [utf8Length_of_ascii (escape_ascii h)]
    have hlength := length_escape_le c
    omega

theorem utf8Length_printString_le (s : String) : utf8Length (printString s) ≤ stringWeight s := by
  have hchars : ∀ cs : List Char, utf8Length (cs.flatMap escape) ≤ 6 * utf8Length cs := by
    intro cs
    induction cs with
    | nil => simp
    | cons c cs ih =>
      have hc := utf8Length_escape_le c
      simp only [List.flatMap_cons, utf8Length_append, utf8Length_cons]
      omega
  have hquote : quote.utf8Size = 1 := by decide
  have hs := hchars s.toList
  simp only [printString, stringWeight, utf8ByteSize_eq, utf8Length_cons, utf8Length_append,
    utf8Length_nil]
  omega

theorem utf8Length_printInt (n : Int) : utf8Length (printInt n) = (printInt n).length := by
  have hdigits : ∀ c ∈ Nat.toDigits 10 n.natAbs, c.toNat < 128 := fun c hc => by
    have hdigit := Nat.isDigit_of_mem_toDigits (by decide) (by decide) hc
    simp only [Char.isDigit, Bool.and_eq_true, decide_eq_true_eq] at hdigit
    exact Nat.lt_of_le_of_lt hdigit.2 (by decide)
  refine utf8Length_of_ascii fun c hc => ?_
  unfold printInt at hc
  split at hc
  · rcases List.mem_cons.mp hc with rfl | hc
    · decide
    · exact hdigits c hc
  · exact hdigits c hc

mutual

theorem utf8Length_print_le : ∀ j : Json, utf8Length (print j) ≤ weight j
  | .null | .bool true | .bool false => by decide
  | .num n => by
    simp only [print, weight, utf8Length_printInt, Nat.le_refl]
  | .str s => by
    simp only [print, weight, utf8Length_printString_le]
  | .arr [] | .obj [] => by
    simp only [print, weight, weightItems, weightFields]
    decide
  | .arr (v :: vs) => by
    have hv := utf8Length_print_le v
    have hvs := utf8Length_printItems_le vs
    have hbracket : '['.utf8Size = 1 := by decide
    simp only [print, weight, weightItems, List.cons_append, utf8Length_cons, utf8Length_append,
      hbracket]
    omega
  | .obj ((k, v) :: fs) => by
    have hk := utf8Length_printString_le k
    have hv := utf8Length_print_le v
    have hfs := utf8Length_printFields_le fs
    have hbrace : openBrace.utf8Size = 1 := by decide
    have hcolon : ':'.utf8Size = 1 := by decide
    simp only [print, weight, weightFields, List.cons_append, List.append_assoc, utf8Length_cons,
      utf8Length_append, hbrace, hcolon]
    omega

theorem utf8Length_printItems_le : ∀ vs : List Json,
    utf8Length (printItems vs) ≤ 1 + weightItems vs
  | [] => by decide
  | v :: vs => by
    have hv := utf8Length_print_le v
    have hvs := utf8Length_printItems_le vs
    have hcomma : ','.utf8Size = 1 := by decide
    simp only [printItems, weightItems, List.cons_append, utf8Length_cons, utf8Length_append,
      hcomma]
    omega

theorem utf8Length_printFields_le : ∀ fs : List (String × Json),
    utf8Length (printFields fs) ≤ 1 + weightFields fs
  | [] => by decide
  | (k, v) :: fs => by
    have hk := utf8Length_printString_le k
    have hv := utf8Length_print_le v
    have hfs := utf8Length_printFields_le fs
    have hcomma : ','.utf8Size = 1 := by decide
    have hcolon : ':'.utf8Size = 1 := by decide
    simp only [printFields, weightFields, List.cons_append, List.append_assoc, utf8Length_cons,
      utf8Length_append, hcomma, hcolon]
    omega

end

/-! ## Values with their fields in another order

A reader that keeps the fields of an object in a map of its own writes them in that map's order.
-/

mutual

def rearrange (f : List (String × Json) → List (String × Json)) : Json → Json
  | .null => .null
  | .bool b => .bool b
  | .num n => .num n
  | .str s => .str s
  | .arr vs => .arr (rearrangeItems f vs)
  | .obj fs => .obj (f (rearrangeFields f fs))

def rearrangeItems (f : List (String × Json) → List (String × Json)) : List Json → List Json
  | [] => []
  | v :: vs => rearrange f v :: rearrangeItems f vs

def rearrangeFields (f : List (String × Json) → List (String × Json)) :
    List (String × Json) → List (String × Json)
  | [] => []
  | (k, v) :: fs => (k, rearrange f v) :: rearrangeFields f fs

end

/-- `f` only changes the order of the fields. -/
def Rearranges (f : List (String × Json) → List (String × Json)) : Prop := ∀ fs, (f fs).Perm fs

theorem weightFields_eq_sum (fs : List (String × Json)) :
    weightFields fs = (fs.map fun p => stringWeight p.1 + weight p.2 + 2).sum := by
  induction fs with
  | nil => rfl
  | cons p fs ih => simp [weightFields, ih]

theorem rearrangeFields_eq_map (f : List (String × Json) → List (String × Json))
    (fs : List (String × Json)) :
    rearrangeFields f fs = fs.map fun p => (p.1, rearrange f p.2) := by
  induction fs with
  | nil => rfl
  | cons p fs ih => simp [rearrangeFields, ih]

mutual

theorem rearrange_id : ∀ j : Json, rearrange id j = j
  | .null | .bool _ | .num _ | .str _ => rfl
  | .arr vs => by rw [rearrange, rearrangeItems_id vs]
  | .obj fs => by rw [rearrange, rearrangeFields_id fs]; rfl

theorem rearrangeItems_id : ∀ vs : List Json, rearrangeItems id vs = vs
  | [] => rfl
  | v :: vs => by rw [rearrangeItems, rearrange_id v, rearrangeItems_id vs]

theorem rearrangeFields_id : ∀ fs : List (String × Json), rearrangeFields id fs = fs
  | [] => rfl
  | (k, v) :: fs => by rw [rearrangeFields, rearrange_id v, rearrangeFields_id fs]

end

section Weight

variable {f : List (String × Json) → List (String × Json)}

mutual

theorem weight_rearrange (hf : Rearranges f) : ∀ j : Json, weight (rearrange f j) = weight j
  | .null | .bool _ | .num _ | .str _ => rfl
  | .arr vs => by rw [rearrange, weight, weightItems_rearrange hf vs, weight]
  | .obj fs => by
    rw [rearrange, weight, weightFields_eq_sum, ((hf _).map _).sum_eq, ← weightFields_eq_sum,
      weightFields_rearrange hf fs, weight]

theorem weightItems_rearrange (hf : Rearranges f) : ∀ vs : List Json,
    weightItems (rearrangeItems f vs) = weightItems vs
  | [] => rfl
  | v :: vs => by
    rw [rearrangeItems, weightItems, weight_rearrange hf v, weightItems_rearrange hf vs,
      weightItems]

theorem weightFields_rearrange (hf : Rearranges f) : ∀ fs : List (String × Json),
    weightFields (rearrangeFields f fs) = weightFields fs
  | [] => rfl
  | (k, v) :: fs => by
    rw [rearrangeFields, weightFields, weight_rearrange hf v, weightFields_rearrange hf fs,
      weightFields]

end

end Weight

end Json

end Gridops.Lib
