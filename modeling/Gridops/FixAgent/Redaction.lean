import Gridops.FixAgent.Exec

/-!
# Masking secrets

`redact` of `gridops-agent/src/session.rs`, which `AgentEvent::new` applies to every text that is
stored of a session: a run of letters, digits, `_` and `-` that begins like a credential and is long
enough for one is cut after its beginning.
-/

namespace Gridops.FixAgent

def secretPrefixes : List Text :=
  ["ghp_", "gho_", "ghu_", "ghs_", "ghr_", "github_pat_", "sk-", "AKIA", "xoxb-", "glpat-"].map
    String.toList

def secretMinLen : ℕ := 16

def isToken (c : Char) : Bool := c.isAlphanum || c = '_' || c = '-'

def redactToken (token : Text) : Text :=
  match secretPrefixes.find? (·.isPrefixOf token) with
  | some start =>
    if secretMinLen ≤ token.length - start.length then start ++ "[redacted]".toList else token
  | none => token

/-- The loop of `redact`, from the next token on. -/
def redactFrom : Text → Text
  | [] => []
  | c :: rest =>
    let after := rest.dropWhile isToken
    redactToken (c :: rest.takeWhile isToken) ++
      (after.takeWhile (!isToken ·) ++ redactFrom (after.dropWhile (!isToken ·)))
termination_by text => text.length
decreasing_by
  have hrest := List.length_dropWhile_le isToken rest
  have hafter := List.length_dropWhile_le (!isToken ·) (rest.dropWhile isToken)
  rw [List.length_cons]
  omega

def redact (text : Text) : Text :=
  text.takeWhile (!isToken ·) ++ redactFrom (text.dropWhile (!isToken ·))

/-- The maximal runs of token characters, with empty ones between other characters. -/
def runs (text : Text) : List Text := text.splitOnP (!isToken ·)

/-- The runs with the other characters put back between them. -/
def weave (runs : List Text) (others : Text) : Text :=
  (List.zipWith (· ++ ·) runs (others.map ([·]) ++ [[]])).flatten

def others (text : Text) : Text := text.filter (!isToken ·)

def Secret (run : Text) : Prop :=
  ∃ start ∈ secretPrefixes, start <+: run ∧ start.length + secretMinLen ≤ run.length

instance (run : Text) : Decidable (Secret run) := inferInstanceAs (Decidable (∃ _ ∈ _, _))

section Redact

variable {run text rest : Text} {c : Char}

theorem redactToken_of_not_secret (h : ¬ Secret run) : redactToken run = run := by
  rw [redactToken]
  split
  · next start hstart =>
    have hbegins : start <+: run := by simpa using List.find?_some hstart
    refine if_neg fun hlong => h ⟨start, List.mem_of_find?_eq_some hstart, hbegins, ?_⟩
    have hlength := hbegins.length_le
    rw [secretMinLen] at hlong ⊢
    omega
  · rfl

theorem runs_eq_singleton (h : ∀ c ∈ run, isToken c) : runs run = [run] :=
  List.splitOnP_eq_singleton fun c hc => by simp [h c hc]

theorem runs_redactToken (h : ∀ c ∈ run, isToken c) :
    ∀ part ∈ runs (redactToken run), ¬ Secret part := by
  by_cases hsecret : Secret run
  · have hmarked : ∀ start ∈ secretPrefixes,
        ∀ part ∈ runs (start ++ "[redacted]".toList), ¬ Secret part := by
      decide +kernel
    -- No prefix begins with another, so the first that fits is the one.
    have hunique : ∀ start ∈ secretPrefixes, ∀ other ∈ secretPrefixes, start <+: other →
        start = other := by
      decide +kernel
    obtain ⟨start, hmem, hstart, hlong⟩ := hsecret
    obtain ⟨other, hother⟩ : ∃ other, secretPrefixes.find? (·.isPrefixOf run) = some other :=
      Option.isSome_iff_exists.mp (List.find?_isSome.mpr ⟨start, hmem, by simpa using hstart⟩)
    have hbegins : other <+: run := by simpa using List.find?_some hother
    obtain rfl : start = other := by
      have hmem' := List.mem_of_find?_eq_some hother
      rcases List.prefix_or_prefix_of_prefix hstart hbegins with hp | hp
      · exact hunique _ hmem _ hmem' hp
      · exact (hunique _ hmem' _ hmem hp).symm
    rw [redactToken, hother]
    simp only [if_pos (Nat.le_sub_of_add_le' hlong)]
    exact hmarked start hmem
  · rw [redactToken_of_not_secret hsecret, runs_eq_singleton h]
    simpa using hsecret

theorem redact_append (h : ∀ c ∈ run, isToken c) (hrest : rest.takeWhile isToken = []) :
    redact (run ++ rest) = redactToken run ++ redact rest := by
  have hdrop : rest.dropWhile isToken = rest := by
    simpa [hrest] using List.takeWhile_append_dropWhile (p := isToken) (l := rest)
  cases run with
  | nil => rfl
  | cons c run =>
    obtain ⟨hc, hrun⟩ := List.forall_mem_cons.mp h
    simp [redact, redactFrom, hc, List.takeWhile_append_of_pos hrun,
      List.dropWhile_append_of_pos hrun, hrest, hdrop]

theorem redact_runs (run text : Text) (hrun : ∀ c ∈ run, isToken c) :
    redact (run ++ text) = weave ((runs (run ++ text)).map redactToken)
        (others (run ++ text)) ∧
      ∀ part ∈ runs (redact (run ++ text)), ¬ Secret part := by
  induction text generalizing run with
  | nil =>
    have hwhole : redact (run ++ []) = redactToken run := by
      rw [redact_append hrun rfl]
      simp [redact, redactFrom]
    have hothers : others run = [] := List.filter_eq_nil_iff.mpr (by simpa using hrun)
    rw [hwhole, List.append_nil, runs_eq_singleton hrun, hothers]
    exact ⟨by simp [weave], runs_redactToken hrun⟩
  | cons c rest ih =>
    cases hc : isToken c with
    | true =>
      rw [List.append_cons]
      exact ih (run ++ [c]) (by simpa [or_imp, forall_and, hc] using hrun)
    | false =>
      obtain ⟨hweave, hparts⟩ := ih [] (by simp)
      have hother : redact (c :: rest) = c :: redact rest := by simp [redact, hc]
      have hruns : runs (run ++ c :: rest) = run :: runs rest :=
        List.splitOnP_append_cons_of_forall_mem (by simpa using hrun) c (by simp [hc]) rest
      have hothers : others (run ++ c :: rest) = c :: others rest := by
        have hnone : run.filter (!isToken ·) = [] := List.filter_eq_nil_iff.mpr (by simpa using hrun)
        simp [others, hnone, hc]
      rw [redact_append hrun (by simp [hc]), hother, hruns, hothers]
      constructor
      · rw [List.nil_append] at hweave
        rw [hweave]
        simp [weave]
      · rw [runs, List.splitOnP_append_cons _ _ (by simp [hc])]
        exact List.forall_mem_append.mpr ⟨runs_redactToken hrun, hparts⟩

/-- **No credential is stored.** A text is its runs with the other characters between them; `redact`
cuts the runs that look like credentials and keeps everything else, and doing it again changes
nothing. -/
theorem redact_spec (text : Text) :
    weave (runs text) (others text) = text ∧
    redact text = weave ((runs text).map redactToken) (others text) ∧
    (∀ run, ¬ Secret run → redactToken run = run) ∧
    (∀ run ∈ runs (redact text), ¬ Secret run) ∧ redact (redact text) = redact text := by
  have hkeep : ∀ run, ¬ Secret run → redactToken run = run := fun _ => redactToken_of_not_secret
  have hwhole : ∀ text, weave (runs text) (others text) = text := List.splitOnP_spec
  obtain ⟨hweave, hparts⟩ := redact_runs [] text (by simp)
  obtain ⟨hagain, -⟩ := redact_runs [] (redact text) (by simp)
  refine ⟨hwhole text, hweave, hkeep, hparts, ?_⟩
  have hsame : (runs (redact text)).map redactToken = (runs (redact text)).map id :=
    List.map_congr_left fun run hrun => hkeep run (hparts run hrun)
  rw [List.nil_append, hsame, List.map_id, hwhole] at hagain
  exact hagain

end Redact

end Gridops.FixAgent
