import Mathlib

/-!
# Job log texts

`strip_ansi_sequences` of `job_log.rs` takes a control sequence to end at a letter. The standard
lets it end at any character from `@` to `~`.
-/

namespace Gridops.Ci

def esc : Char := Char.ofNat 0x1b

def stripFrom (inSequence : Bool) : List Char → List Char
  | [] => []
  | c :: rest =>
    if inSequence then stripFrom (!c.isAlpha) rest
    else if c ≠ esc then c :: stripFrom false rest
    else
      match rest with
      | [] => []
      | next :: following =>
        if next = '[' then stripFrom true following else stripFrom false (next :: following)

def stripAnsiSequences (value : List Char) : List Char := stripFrom false value

/-- A character of the text, or a control sequence as the standard has it. -/
inductive Piece where
  | plain (c : Char) (h : c ≠ esc)
  | sequence (parameters intermediates : List Char) (final : Char)
    (hparameters : ∀ c ∈ parameters, 0x30 ≤ c.toNat ∧ c.toNat ≤ 0x3f)
    (hintermediates : ∀ c ∈ intermediates, 0x20 ≤ c.toNat ∧ c.toNat ≤ 0x2f)
    (hfinal : 0x40 ≤ final.toNat ∧ final.toNat ≤ 0x7e)

namespace Piece

def render : Piece → List Char
  | plain c _ => [c]
  | sequence parameters intermediates final .. =>
    esc :: '[' :: (parameters ++ intermediates ++ [final])

def text : Piece → List Char
  | plain c _ => [c]
  | sequence .. => []

def isPlain : Piece → Bool
  | plain .. => true
  | sequence .. => false

/-- The sequence is one that ends where the code takes it to end. -/
def endsInLetter : Piece → Bool
  | plain .. => true
  | sequence _ _ final .. => final.isAlpha

/-- Whether the code reads a sequence after this piece. -/
def after (inSequence : Bool) : Piece → Bool
  | plain c _ => inSequence && !c.isAlpha
  | sequence _ _ final .. => !final.isAlpha

end Piece

theorem stripFrom_true (c : Char) (rest : List Char) :
    stripFrom true (c :: rest) = stripFrom (!c.isAlpha) rest := by
  cases rest <;> rfl

theorem stripFrom_false {c : Char} (h : c ≠ esc) (rest : List Char) :
    stripFrom false (c :: rest) = c :: stripFrom false rest := by
  cases rest <;> simp [stripFrom, h]

theorem isAlpha_of_le {c : Char} (h : c.toNat ≤ 0x3f) : c.isAlpha = false := by
  have hval : c.val.toNat ≤ 0x3f := h
  have hupper : 'A'.val.toNat = 65 := rfl
  have hlower : 'a'.val.toNat = 97 := rfl
  simp only [Char.isAlpha, Char.isUpper, Char.isLower, Bool.or_eq_false_iff,
    Bool.and_eq_false_iff, decide_eq_false_iff_not, ge_iff_le, UInt32.le_iff_toNat_le]
  omega

theorem stripFrom_body {body : List Char} (h : ∀ c ∈ body, c.toNat ≤ 0x3f) (final : Char)
    (rest : List Char) :
    stripFrom true (body ++ [final] ++ rest) = stripFrom (!final.isAlpha) rest := by
  induction body with
  | nil => exact stripFrom_true final rest
  | cons c body ih =>
    obtain ⟨hc, hbody⟩ := List.forall_mem_cons.mp h
    show stripFrom true (c :: (body ++ [final] ++ rest)) = _
    rw [stripFrom_true, isAlpha_of_le hc]
    exact ih hbody

/-- Text is lost inside what the code takes for a sequence; only a letter brings it back to the
text. -/
theorem stripFrom_render (inSequence : Bool) (piece : Piece) (rest : List Char) :
    stripFrom inSequence (piece.render ++ rest) =
      (if inSequence then [] else piece.text) ++ stripFrom (piece.after inSequence) rest := by
  cases piece with
  | plain c h =>
    cases inSequence with
    | true => simp [stripFrom_true, Piece.render, Piece.after]
    | false => simp [stripFrom_false h, Piece.render, Piece.text, Piece.after]
  | sequence ps is final hps his hfinal =>
    have hbody : ∀ c ∈ ps ++ is, c.toNat ≤ 0x3f := by
      intro c hc
      rcases List.mem_append.mp hc with hc | hc
      · exact (hps c hc).2
      · have := (his c hc).2
        omega
    have hskip := stripFrom_body hbody final rest
    cases inSequence with
    | true => exact (stripFrom_true _ _).trans ((stripFrom_true _ _).trans hskip)
    | false => exact hskip

variable (pieces : List Piece)

/-- Nothing is invented, also where the code starts inside a sequence. -/
theorem length_stripFrom_le (inSequence : Bool) :
    (stripFrom inSequence (pieces.flatMap Piece.render)).length ≤
      (pieces.flatMap Piece.text).length := by
  induction pieces generalizing inSequence with
  | nil => exact Nat.le_refl _
  | cons piece pieces ih =>
    rw [List.flatMap_cons, List.flatMap_cons, stripFrom_render, List.length_append,
      List.length_append]
    apply Nat.add_le_add _ (ih _)
    split
    · exact Nat.zero_le _
    · exact Nat.le_refl _

theorem stripFrom_eq_text_iff (inSequence : Bool) :
    stripFrom inSequence (pieces.flatMap Piece.render) = pieces.flatMap Piece.text ↔
      (∀ piece ∈ pieces.head?, inSequence → ¬ piece.isPlain) ∧
        pieces.IsChain (fun piece next => piece.endsInLetter ∨ ¬ next.isPlain) := by
  induction pieces generalizing inSequence with
  | nil => simp [stripFrom]
  | cons piece pieces ih =>
    rw [List.flatMap_cons, List.flatMap_cons, stripFrom_render, List.isChain_cons]
    cases piece with
    | plain c h =>
      cases inSequence with
      | true =>
        -- The character is lost, and what follows cannot make up for it.
        have hle := length_stripFrom_le pieces ((Piece.plain c h).after true)
        constructor
        · intro heq
          have hlength := congrArg List.length heq
          simp only [Piece.text, List.length_append, List.length_singleton, if_true,
            List.length_nil] at hlength
          omega
        · simp [Piece.isPlain]
      | false => simp [Piece.text, Piece.isPlain, Piece.endsInLetter, Piece.after, ih]
    | sequence ps is final hps his hfinal =>
      cases hletter : final.isAlpha <;>
        simp [Piece.text, Piece.isPlain, Piece.endsInLetter, Piece.after, hletter, ih]

/-- Exactly the sequences are removed when no text follows one that ends in something else than a
letter. -/
theorem stripAnsiSequences_eq_text_iff :
    stripAnsiSequences (pieces.flatMap Piece.render) = pieces.flatMap Piece.text ↔
      pieces.IsChain (fun piece next => piece.endsInLetter ∨ ¬ next.isPlain) := by
  show stripFrom false _ = _ ↔ _
  rw [stripFrom_eq_text_iff]
  simp

/-- `ESC [ ~` before the text `ok`: the text is lost up to its first letter. -/
theorem stripAnsiSequences_tilde :
    let tilde := Piece.sequence [] [] '~' (by simp) (by simp) (by decide)
    let pieces := [tilde, .plain 'o' (by decide), .plain 'k' (by decide)]
    stripAnsiSequences (pieces.flatMap Piece.render) = ['k'] ∧
      pieces.flatMap Piece.text = ['o', 'k'] := by
  decide

end Gridops.Ci
