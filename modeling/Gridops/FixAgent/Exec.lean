import Mathlib

/-!
# Commands in the sandbox

The agent runs scripts in its sandbox through `ManagerSandbox::exec`, which posts them to the
manager's exec endpoint. The manager checks the request, clamps its limits (`plan`), runs the
command in the container, and keeps the first quarter and the last three quarters of a byte budget
of each output stream (`OutputCapture`).

Texts are lists of characters and `utf8` is the bytes of one. Docker delivers output in frames that
are cut anywhere. `String::from_utf8_lossy` is the parameter `Lossy`.
-/

namespace Gridops.FixAgent

abbrev Text := List Char
abbrev Bytes := List UInt8

def utf8 (t : Text) : Bytes := t.flatMap String.utf8EncodeChar

theorem utf8_append (a b : Text) : utf8 (a ++ b) = utf8 a ++ utf8 b := List.flatMap_append

theorem utf8_cons (c : Char) (t : Text) : utf8 (c :: t) = String.utf8EncodeChar c ++ utf8 t :=
  List.flatMap_cons

theorem length_utf8_of_ascii {t : Text} (h : ∀ c ∈ t, c.utf8Size = 1) :
    (utf8 t).length = t.length := by
  induction t with
  | nil => rfl
  | cons c t ih =>
    rw [utf8_cons, List.length_append, String.length_utf8EncodeChar, h c List.mem_cons_self,
      ih fun d hd => h d (List.mem_cons_of_mem _ hd), List.length_cons, Nat.add_comm]

def nul : Char := Char.ofNat 0

/-- `String::from_utf8_lossy`. It replaces what is not UTF-8, and a zero byte is never part of
that. -/
structure Lossy where
  decode : Bytes → Text
  decode_utf8 : ∀ t, decode (utf8 t) = t
  decode_nul : ∀ a b, decode (a ++ 0 :: b) = decode a ++ nul :: decode b
  decode_ne_nil : ∀ {a}, a ≠ [] → decode a ≠ []
  nul_notMem : ∀ {a}, 0 ∉ a → nul ∉ decode a

/-! ### A decoder -/

theorem utf8_injective : Function.Injective utf8 := by
  intro a b h
  refine String.ofList_inj.mp (String.toByteArray_inj.mp ?_)
  exact congrArg List.toByteArray h

theorem zero_notMem_utf8EncodeChar {c : Char} (h : c ≠ nul) : 0 ∉ String.utf8EncodeChar c := by
  have hpos : c.val.toNat ≠ 0 := fun hzero => h (Char.ext (UInt32.toNat_inj.mp hzero))
  have hbyte : ∀ n, 0 < n → n < 256 → (0 : UInt8) ≠ UInt8.ofNat n := by
    intro n hn hlt heq
    have hnat : (0 : UInt8).toNat = (UInt8.ofNat n).toNat := congrArg UInt8.toNat heq
    rw [UInt8.toNat_ofNat_of_lt' hlt, UInt8.toNat_zero] at hnat
    omega
  rw [String.utf8EncodeChar]
  split
  · simp only [List.mem_singleton]
    exact hbyte _ (by omega) (by omega)
  split
  · simp only [List.mem_cons, List.not_mem_nil, or_false, not_or]
    exact ⟨hbyte _ (by omega) (by omega), hbyte _ (by omega) (by omega)⟩
  split
  · simp only [List.mem_cons, List.not_mem_nil, or_false, not_or]
    exact ⟨hbyte _ (by omega) (by omega), hbyte _ (by omega) (by omega),
      hbyte _ (by omega) (by omega)⟩
  · simp only [List.mem_cons, List.not_mem_nil, or_false, not_or]
    exact ⟨hbyte _ (by omega) (by omega), hbyte _ (by omega) (by omega),
      hbyte _ (by omega) (by omega), hbyte _ (by omega) (by omega)⟩

theorem zero_mem_utf8 {t : Text} : 0 ∈ utf8 t ↔ nul ∈ t := by
  rw [utf8, List.mem_flatMap]
  constructor
  · rintro ⟨c, hc, hzero⟩
    by_cases hnul : c = nul
    · exact hnul ▸ hc
    · exact absurd hzero (zero_notMem_utf8EncodeChar hnul)
  · exact fun h => ⟨nul, h, by decide⟩

theorem intercalate_append {α : Type} (sep : List α) {xs ys : List (List α)} (hx : xs ≠ [])
    (hy : ys ≠ []) :
    sep.intercalate (xs ++ ys) = sep.intercalate xs ++ sep ++ sep.intercalate ys := by
  induction xs with
  | nil => exact absurd rfl hx
  | cons x xs ih =>
    by_cases hnil : xs = []
    · rw [hnil, List.singleton_append, List.intercalate_cons_of_ne_nil hy,
        List.intercalate_singleton]
    · rw [List.cons_append, List.intercalate_cons_of_ne_nil (by simp [hnil]),
        List.intercalate_cons_of_ne_nil hnil, ih hnil]
      simp

open Classical in
/-- The text with these bytes, or a replacement character. -/
noncomputable def readText (b : Bytes) : Text :=
  if h : ∃ t, utf8 t = b then h.choose else [Char.ofNat 0xFFFD]

theorem readText_utf8 (t : Text) : readText (utf8 t) = t := by
  have h : ∃ t', utf8 t' = utf8 t := ⟨t, rfl⟩
  rw [readText, dif_pos h]
  exact utf8_injective h.choose_spec

theorem readText_spec (b : Bytes) :
    utf8 (readText b) = b ∨ readText b = [Char.ofNat 0xFFFD] := by
  unfold readText
  split
  · next h => exact .inl h.choose_spec
  · exact .inr rfl

noncomputable def decodeSegments (b : Bytes) : Text :=
  [nul].intercalate ((b.splitOn 0).map readText)

theorem decodeSegments_of_notMem {b : Bytes} (h : 0 ∉ b) : decodeSegments b = readText b := by
  have hsingle : b.splitOn 0 = [b] :=
    List.splitOnP_eq_singleton fun x hx => beq_eq_false_iff_ne.mpr (ne_of_mem_of_not_mem hx h)
  rw [decodeSegments, hsingle, List.map_singleton, List.intercalate_singleton]

theorem decodeSegments_nul (a b : Bytes) :
    decodeSegments (a ++ 0 :: b) = decodeSegments a ++ nul :: decodeSegments b := by
  have hsplit : (a ++ 0 :: b).splitOn 0 = a.splitOn 0 ++ b.splitOn 0 :=
    List.splitOnP_append_cons a b rfl
  have hne : ∀ b : Bytes, (b.splitOn 0).map readText ≠ [] := fun b hnil =>
    List.splitOnP_ne_nil _ _ (List.map_eq_nil_iff.mp hnil)
  rw [decodeSegments, hsplit, List.map_append, intercalate_append _ (hne a) (hne b),
    List.append_assoc]
  rfl

theorem decodeSegments_utf8 (t : Text) : decodeSegments (utf8 t) = t := by
  by_cases h : nul ∈ t
  · obtain ⟨a, b, ht, ha⟩ := List.eq_append_cons_of_mem h
    have hbytes : utf8 t = utf8 a ++ 0 :: utf8 b := by
      rw [ht, utf8_append]
      rfl
    rw [hbytes, decodeSegments_nul, decodeSegments_utf8 b,
      decodeSegments_of_notMem (mt zero_mem_utf8.mp ha), readText_utf8, ht]
  · rw [decodeSegments_of_notMem (mt zero_mem_utf8.mp h), readText_utf8]
termination_by t.length

/-- A decoder with the laws: it replaces what is not UTF-8 between two zero bytes as a whole. -/
noncomputable def Lossy.bySegments : Lossy where
  decode := decodeSegments
  decode_utf8 := decodeSegments_utf8
  decode_nul := decodeSegments_nul
  decode_ne_nil {a} ha hnil := by
    by_cases h : 0 ∈ a
    · obtain ⟨x, y, rfl, -⟩ := List.eq_append_cons_of_mem h
      rw [decodeSegments_nul] at hnil
      exact List.append_ne_nil_of_right_ne_nil _ (List.cons_ne_nil _ _) hnil
    · rw [decodeSegments_of_notMem h] at hnil
      obtain heq | heq := readText_spec a
      · rw [hnil] at heq
        exact ha heq.symm
      · rw [hnil] at heq
        cases heq
  nul_notMem {a} ha hmem := by
    rw [decodeSegments_of_notMem ha] at hmem
    obtain heq | heq := readText_spec a
    · rw [← heq] at ha
      exact ha (zero_mem_utf8.mpr hmem)
    · rw [heq] at hmem
      exact absurd hmem (by decide)

structure ExecRequest where
  command : List Text
  workdir : Text
  timeoutSeconds : ℕ
  maxOutputBytes : ℕ
  env : List (Text × Text)
deriving DecidableEq

def repoRoot : Text := "/workspace/repo".toList

/-- A `bash -lc` script run from the repository root. -/
def ExecRequest.script (script : Text) (timeoutSeconds : ℕ) : ExecRequest where
  command := ["bash".toList, "-lc".toList, script]
  workdir := repoRoot
  timeoutSeconds := timeoutSeconds
  maxOutputBytes := 64 * 1024
  env := [("CI".toList, "true".toList), ("GIT_TERMINAL_PROMPT".toList, "0".toList)]

def ExecRequest.withOutputLimit (r : ExecRequest) (bytes : ℕ) : ExecRequest :=
  { r with maxOutputBytes := bytes }

def shellQuote (value : Text) : Text :=
  ['\''] ++ value.flatMap (fun c => if c = '\'' then ['\'', '\\', '\'', '\''] else [c]) ++ ['\'']

inductive Quoting where
  | plain | quoted | escaped
deriving DecidableEq

/-- A word as the shell reads it. A word with a character that ends or expands it is not read. -/
def readWord : Quoting → Text → Option Text
  | .plain, [] => some []
  | .quoted, [] | .escaped, [] => none
  | .quoted, c :: rest =>
    if c = '\'' then readWord .plain rest else (readWord .quoted rest).map (c :: ·)
  | .escaped, c :: rest => (readWord .plain rest).map (c :: ·)
  | .plain, c :: rest =>
    if c = '\'' then readWord .quoted rest
    else if c = '\\' then readWord .escaped rest
    else if c.isAlphanum then (readWord .plain rest).map (c :: ·)
    else none

/-- **The shell reads a quoted value as that value.** -/
theorem readWord_shellQuote (value : Text) : readWord .plain (shellQuote value) = some value := by
  have hinside : ∀ value : Text, readWord .quoted
      (value.flatMap (fun c => if c = '\'' then ['\'', '\\', '\'', '\''] else [c]) ++ ['\'']) =
        some value := by
    intro value
    induction value with
    | nil => rfl
    | cons c value ih =>
      by_cases hc : c = '\''
      · -- The quote is closed, an escaped quote follows, and the quote is opened again.
        rw [hc, List.flatMap_cons]
        simp [readWord, ih]
      · rw [List.flatMap_cons, if_neg hc, List.append_assoc, List.singleton_append, readWord,
          if_neg hc, ih, Option.map_some]
  exact hinside value

def isWhitespace (c : Char) : Bool :=
  let n := c.toNat
  (9 ≤ n && n ≤ 13) || n == 32 || n == 0x85 || n == 0xA0 || n == 0x1680 ||
    (0x2000 ≤ n && n ≤ 0x200A) || n == 0x2028 || n == 0x2029 || n == 0x202F || n == 0x205F ||
    n == 0x3000

def isControl (c : Char) : Bool := c.toNat < 32 || (127 ≤ c.toNat && c.toNat < 160)

def trim (t : Text) : Text := ((t.dropWhile isWhitespace).reverse.dropWhile isWhitespace).reverse

def execMaxArguments : ℕ := 4096
def execMaxCommandBytes : ℕ := 262144
def maxPathBytes : ℕ := 4096

def validateCommand (command : List Text) : Bool :=
  !(command.head?.all fun program => (trim program).isEmpty) &&
    command.length ≤ execMaxArguments &&
    (command.map fun argument => (utf8 argument).length).sum ≤ execMaxCommandBytes &&
    command.all fun argument => argument.all (· ≠ nul)

def normalizedAbsolutePath (path : Text) : Option Text :=
  if path.head? ≠ some '/' ∨ (utf8 path).length > maxPathBytes ∨ path.any isControl then none
  else
    let segments := (path.splitOn '/').filter (· ≠ [])
    if segments.any fun segment => segment = ['.'] ∨ segment = ['.', '.'] then none
    else some ('/' :: List.intercalate ['/'] segments)

def validEnvName (name : Text) : Bool :=
  (utf8 name).length ≤ 256 &&
    (match name with
    | [] => false
    | first :: rest => (first.isAlpha || first == '_') &&
      rest.all fun c => c.isAlphanum || c == '_')

def execEnvironment (env : List (Text × Text)) : Except String (List Text) :=
  if env.length > 128 then .error "Exec environment may set at most 128 variables."
  else env.mapM fun e =>
    if validEnvName e.1 && (utf8 e.2).length ≤ 32768 && e.2.all (· ≠ nul) then
      .ok (e.1 ++ ['='] ++ e.2)
    else .error ("Exec environment variable \"" ++ String.ofList e.1 ++ "\" is invalid.")

def clampTimeoutSeconds (value : Option Int) : ℕ := (max 1 (min (value.getD 300) 1200)).toNat

def clampMaxOutputBytes (value : Option Int) : ℕ :=
  (max 1024 (min (value.getD 65536) 1048576)).toNat

structure ExecPlan where
  command : List Text
  workdir : Text
  env : List Text
  timeout : ℕ
  maxOutputBytes : ℕ
deriving DecidableEq

/-- The body of the request, and `SandboxExecRequest::plan` of it. -/
def ExecRequest.plan (r : ExecRequest) : Except String ExecPlan :=
  if !validateCommand r.command then
    .error "Exec command must be a non-empty argument list without NUL bytes."
  else
    match normalizedAbsolutePath r.workdir with
    | none =>
      .error "Exec working directory must be an absolute path without . or .. segments."
    | some workdir =>
      (execEnvironment r.env).map fun env =>
        let timeout := clampTimeoutSeconds (some r.timeoutSeconds)
        { command := ["timeout".toList, "-k".toList, "5".toList, timeout.repr.toList] ++ r.command
          workdir := workdir
          env := env
          timeout := timeout
          maxOutputBytes := clampMaxOutputBytes (some r.maxOutputBytes) }

/-! ## Output -/

structure OutputCapture where
  head : Bytes
  tail : Bytes
  headLimit : ℕ
  tailLimit : ℕ
  total : ℕ
deriving DecidableEq

namespace OutputCapture

def new (maxBytes : ℕ) : OutputCapture where
  head := []
  tail := []
  headLimit := maxBytes / 4
  tailLimit := maxBytes - maxBytes / 4
  total := 0

def push (c : OutputCapture) (bytes : Bytes) : OutputCapture :=
  let headRoom := c.headLimit - c.head.length
  let rest := bytes.drop headRoom
  { c with
    total := c.total + bytes.length
    head := c.head ++ bytes.take headRoom
    tail :=
      if rest.length ≥ c.tailLimit then rest.drop (rest.length - c.tailLimit)
      else c.tail.drop (c.tail.length + rest.length - c.tailLimit) ++ rest }

def finish (l : Lossy) (c : OutputCapture) : Text × Bool :=
  let dropped := c.total - c.head.length - c.tail.length
  if dropped = 0 then (l.decode (c.head ++ c.tail), false)
  else
    (l.decode c.head ++ "\n…[".toList ++ dropped.repr.toList ++ " bytes truncated]…\n".toList
      ++ l.decode c.tail, true)

/-- What is kept of a stream: the first quarter of the budget, and the end of what follows. -/
def ofStream (max : ℕ) (stream : Bytes) : OutputCapture where
  head := stream.take (max / 4)
  tail := (stream.drop (max / 4)).rtake (max - max / 4)
  headLimit := max / 4
  tailLimit := max - max / 4
  total := stream.length

variable (max : ℕ) (stream : Bytes)

theorem push_tail (c : OutputCapture) (bytes : Bytes) : (c.push bytes).tail =
    (c.tail ++ bytes.drop (c.headLimit - c.head.length)).rtake c.tailLimit := by
  rw [push, List.rtake, List.drop_append, List.length_append]
  dsimp only
  split
  · rw [List.drop_eq_nil_of_le (by omega : c.tail.length ≤ _), List.nil_append]
    congr 1
    omega
  · rw [Nat.sub_eq_zero_of_le (by omega : _ ≤ c.tail.length), List.drop_zero]

theorem rtake_rtake_append (n : ℕ) (a b : Bytes) : (a.rtake n ++ b).rtake n = (a ++ b).rtake n := by
  simp only [List.rtake_eq_reverse_take_reverse, List.reverse_append, List.reverse_reverse,
    List.take_append, List.take_take]
  rw [Nat.min_eq_left (Nat.sub_le _ _)]

theorem push_ofStream (bytes : Bytes) :
    (ofStream max stream).push bytes = ofStream max (stream ++ bytes) := by
  have hroom : max / 4 - (stream.take (max / 4)).length = max / 4 - stream.length := by
    rw [List.length_take]
    omega
  have hpush : (ofStream max stream).push bytes =
      ⟨stream.take (max / 4) ++ bytes.take (max / 4 - (stream.take (max / 4)).length),
        ((ofStream max stream).push bytes).tail, max / 4, max - max / 4,
        stream.length + bytes.length⟩ := rfl
  rw [hpush, push_tail]
  simp only [ofStream, hroom, rtake_rtake_append, ← List.drop_append, ← List.take_append,
    List.length_append]

theorem foldl_push (frames : List Bytes) :
    frames.foldl push (new max) = ofStream max frames.flatten := by
  have hloop : ∀ stream, frames.foldl push (ofStream max stream) =
      ofStream max (stream ++ frames.flatten) := by
    induction frames with
    | nil => exact fun stream => congrArg _ (List.append_nil stream).symm
    | cons frame frames ih =>
      intro stream
      rw [List.foldl_cons, push_ofStream, ih, List.flatten_cons, List.append_assoc]
  have hnew : new max = ofStream max [] := by simp [new, ofStream, List.rtake]
  rw [hnew, hloop, List.nil_append]

theorem length_ofStream : (ofStream max stream).head.length = min (max / 4) stream.length ∧
    (ofStream max stream).tail.length = min (max - max / 4) (stream.length - max / 4) := by
  refine ⟨List.length_take, ?_⟩
  simp only [ofStream, List.rtake, List.length_drop]
  omega

theorem finish_ofStream (l : Lossy) : (ofStream max stream).finish l =
    if stream.length ≤ max then (l.decode stream, false)
    else (l.decode (ofStream max stream).head ++ "\n…[".toList ++
      (stream.length - max).repr.toList ++ " bytes truncated]…\n".toList ++
      l.decode (ofStream max stream).tail, true) := by
  have hdropped : (ofStream max stream).total - (ofStream max stream).head.length -
      (ofStream max stream).tail.length = stream.length - max := by
    have hlength := length_ofStream max stream
    have htotal : (ofStream max stream).total = stream.length := rfl
    omega
  rw [finish]
  simp only [hdropped, Nat.sub_eq_zero_iff_le]
  split
  · next hfits =>
    have hall : (stream.drop (max / 4)).length - (max - max / 4) = 0 := by
      rw [List.length_drop]
      omega
    simp only [ofStream, List.rtake, hall, List.drop_zero, List.take_append_drop]
  · rfl

/-- **What is captured of a stream does not depend on its chunks**: all of it, or a budget's worth
and the count of what is missing. -/
theorem foldl_push_spec (l : Lossy) (frames : List Bytes) :
    let stream := frames.flatten
    let c := frames.foldl push (new max)
    (stream.length ≤ max → c.finish l = (l.decode stream, false)) ∧
    (max < stream.length → c.head = stream.take (max / 4) ∧
      c.tail = stream.drop (stream.length - (max - max / 4)) ∧
      c.finish l = (l.decode c.head ++ "\n…[".toList ++ (stream.length - max).repr.toList ++
        " bytes truncated]…\n".toList ++ l.decode c.tail, true)) ∧
    ∀ sent, sent <+: frames → (sent.foldl push (new max)).head.length ≤ max / 4 ∧
      (sent.foldl push (new max)).tail.length ≤ max - max / 4 := by
  intro stream c
  have hc : c = ofStream max stream := foldl_push max frames
  have hfinish := finish_ofStream max stream l
  rw [hc]
  refine ⟨fun hfits => ?_, fun hlong => ⟨rfl, ?_, ?_⟩, fun sent _ => ?_⟩
  · rw [hfinish, if_pos hfits]
  · show (stream.drop (max / 4)).drop _ = _
    rw [List.drop_drop, List.length_drop]
    congr 1
    omega
  · rw [hfinish, if_neg (Nat.not_le.mpr hlong)]
  · rw [foldl_push]
    have hlength := length_ofStream max sent.flatten
    omega

end OutputCapture

/-! ## Running -/

inductive Frame where
  | stdout (message : Bytes)
  | stderr (message : Bytes)
deriving DecidableEq

def Frame.stdout? : Frame → Option Bytes
  | .stdout message => some message
  | .stderr _ => none

def Frame.stderr? : Frame → Option Bytes
  | .stdout _ => none
  | .stderr message => some message

inductive Execution where
  | finished (frames : List Frame) (exitCode : Int) (elapsedMs : ℕ)
  /-- It outlived its deadline. -/
  | abandoned (frames : List Frame)
  | failed (error : String)
deriving DecidableEq

structure ExecOutput where
  exitCode : Int
  stdout : Text
  stderr : Text
  stdoutTruncated : Bool
  stderrTruncated : Bool
  timedOut : Bool
deriving DecidableEq

def captured (l : Lossy) (maxBytes : ℕ) (frames : List Bytes) : Text × Bool :=
  (frames.foldl OutputCapture.push (.new maxBytes)).finish l

def timedOutExit (exitCode : Int) (elapsedMs timeout : ℕ) : Bool :=
  (exitCode == 124 || exitCode == 137) && elapsedMs + 500 ≥ timeout * 1000

def runExec (l : Lossy) (plan : ExecPlan) (execution : Execution) : Except String ExecOutput :=
  let output (frames : List Frame) (exitCode : Int) (timedOut : Bool) : ExecOutput :=
    let stdout := captured l plan.maxOutputBytes (frames.filterMap Frame.stdout?)
    let stderr := captured l plan.maxOutputBytes (frames.filterMap Frame.stderr?)
    { exitCode := exitCode
      stdout := stdout.1
      stderr := stderr.1
      stdoutTruncated := stdout.2
      stderrTruncated := stderr.2
      timedOut := timedOut }
  match execution with
  | .finished frames exitCode elapsedMs =>
    .ok (output frames exitCode (timedOutExit exitCode elapsedMs plan.timeout))
  | .abandoned frames => .ok (output frames (-1) true)
  | .failed error => .error error

structure Sandbox where
  lossy : Lossy
  run : ExecPlan → Execution

/-- `ManagerSandbox::exec` and the manager's `exec_in_sandbox`. -/
def Sandbox.exec (s : Sandbox) (r : ExecRequest) : Except String ExecOutput :=
  r.plan.bind fun plan => runExec s.lossy plan (s.run plan)

def ExecOutput.requireSuccess (o : ExecOutput) (what : String) : Except String Text :=
  if o.exitCode = 0 ∧ !o.timedOut then .ok o.stdout
  else
    let detail := if (trim o.stderr).isEmpty then o.stdout else o.stderr
    .error (what ++ " failed (exit " ++ toString o.exitCode ++
      (if o.timedOut then ", timed out" else "") ++ "): " ++
      String.ofList ((trim detail).take 800))

theorem captured_spec (l : Lossy) (maxBytes : ℕ) (frames : List Bytes) :
    (captured l maxBytes frames).2 = decide (maxBytes < frames.flatten.length) ∧
      (frames.flatten.length ≤ maxBytes →
        (captured l maxBytes frames).1 = l.decode frames.flatten) := by
  rw [captured, OutputCapture.foldl_push, OutputCapture.finish_ofStream]
  by_cases hfits : frames.flatten.length ≤ maxBytes
  · rw [if_pos hfits]
    exact ⟨(decide_eq_false (Nat.not_lt.mpr hfits)).symm, fun _ => rfl⟩
  · rw [if_neg hfits]
    exact ⟨(decide_eq_true (Nat.lt_of_not_le hfits)).symm, fun hle => absurd hle hfits⟩

theorem plan_script {script : Text} {timeout limit : ℕ}
    (hnul : nul ∉ script) (hsize : (utf8 script).length ≤ 262000) :
    ∃ plan, ((ExecRequest.script script timeout).withOutputLimit limit).plan = .ok plan ∧
      plan.command.drop 4 = ["bash".toList, "-lc".toList, script] ∧ plan.workdir = repoRoot ∧
      plan.maxOutputBytes = clampMaxOutputBytes (some limit) := by
  have hvalid : validateCommand ["bash".toList, "-lc".toList, script] = true := by
    have hwords : ("bash".toList.all (· ≠ nul)) = true ∧ ("-lc".toList.all (· ≠ nul)) = true ∧
        (trim "bash".toList).isEmpty = false ∧ (utf8 "bash".toList).length = 4 ∧
        (utf8 "-lc".toList).length = 3 := by decide
    obtain ⟨hbash, hflag, htrim, hfour, hthree⟩ := hwords
    have hscript : (script.all (· ≠ nul)) = true :=
      List.all_eq_true.mpr fun c hc => decide_eq_true fun heq => hnul (heq ▸ hc)
    have hbytes : 4 + (3 + ((utf8 script).length + 0)) ≤ execMaxCommandBytes := by
      rw [execMaxCommandBytes]
      omega
    have hcount : (2 : ℕ) + 1 ≤ execMaxArguments := by decide
    simp only [validateCommand, List.head?_cons, Option.all_some, htrim, Bool.not_false,
      List.length_cons, List.length_nil, List.map_cons, List.map_nil, List.sum_cons, List.sum_nil,
      hfour, hthree, hbytes, hcount, decide_true, List.all_cons, List.all_nil, hbash, hflag,
      hscript, Bool.and_true]
  have henv : ∃ env, execEnvironment [("CI".toList, "true".toList),
      ("GIT_TERMINAL_PROMPT".toList, "0".toList)] = .ok env := ⟨_, rfl⟩
  simp only [ExecRequest.plan, ExecRequest.withOutputLimit, ExecRequest.script, hvalid]
  exact ⟨_, rfl, rfl, rfl, rfl⟩

/-- A script, run in the checkout, succeeds and writes this to its standard output. -/
def Sandbox.Prints (s : Sandbox) (script : Text) (out : Bytes) : Prop :=
  ∀ plan : ExecPlan, plan.command.drop 4 = ["bash".toList, "-lc".toList, script] →
    plan.workdir = repoRoot →
    ∃ frames ms, s.run plan = .finished frames 0 ms ∧
      (frames.filterMap Frame.stdout?).flatten = out

/-- **A script's output comes back whole if it fits the clamped budget, and is reported as truncated
if not.** -/
theorem Sandbox.Prints.exec_ok {s : Sandbox} {script : Text} {out : Bytes}
    (h : s.Prints script out) (hnul : nul ∉ script) (hsize : (utf8 script).length ≤ 262000)
    (timeout limit : ℕ) :
    ∃ o, s.exec ((ExecRequest.script script timeout).withOutputLimit limit) = .ok o ∧
      o.stdoutTruncated = decide (clampMaxOutputBytes (some limit) < out.length) ∧
      (out.length ≤ clampMaxOutputBytes (some limit) → ∀ what,
        o.requireSuccess what = .ok (s.lossy.decode out)) := by
  obtain ⟨plan, hplan, hcommand, hworkdir, hbudget⟩ := plan_script hnul hsize
  obtain ⟨frames, ms, hrun, hout⟩ := h plan hcommand hworkdir
  obtain ⟨htruncated, hwhole⟩ := captured_spec s.lossy plan.maxOutputBytes
    (frames.filterMap Frame.stdout?)
  rw [hout, hbudget] at htruncated hwhole
  have hexec : s.exec ((ExecRequest.script script timeout).withOutputLimit limit) =
      runExec s.lossy plan (.finished frames 0 ms) := by
    rw [Sandbox.exec, hplan, ← hrun]
    rfl
  refine ⟨_, hexec, ?_, fun hfits what => ?_⟩
  · rw [← htruncated, ← hbudget]
  · rw [← hwhole hfits, ← hbudget]
    rfl

end Gridops.FixAgent
