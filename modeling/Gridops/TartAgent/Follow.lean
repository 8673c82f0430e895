import Gridops.Lib.Window

/-!
# Following a runner's log

`logs` of `gridops-tart-agent/src/main.rs` for a request that follows. It reads the whole file and
cuts the tail that was asked for; then it asks for the file's length, and from there on it sends
what a poll finds beyond what was sent. The process that writes the log appends at any time.

Each piece of the response is kept with its place in the file. The response is `Seamless` where the
pieces lie end to end. The length is asked for after the file was read: what is appended in between
belongs to neither piece.

A file that does not exist yet reads as empty, has length zero, and a poll finds nothing in it.
-/

namespace Gridops.TartAgent

open Lib (window window_append)

abbrev Bytes := List UInt8

def newline : UInt8 := 10

/-! ## The tail -/

/-- The query's `tail`: all of the file, or a number of lines. -/
inductive Tail where
  | all
  | lines (count : ℕ)
deriving DecidableEq

def newlinesBack (bytes : Bytes) : List ℕ :=
  (bytes.zipIdx.reverse.filter (·.1 == newline)).map (·.2)

/-- Where the tail begins that `read_log_tail` returns. -/
def tailStart : Tail → Bytes → ℕ
  | .all, _ => 0
  | .lines 0, bytes => bytes.length
  | .lines (n + 1), bytes => (newlinesBack bytes)[n + 1]?.elim 0 (· + 1)

def readLogTail (tail : Tail) (bytes : Bytes) : Bytes := bytes.drop (tailStart tail bytes)

section Tail

variable {bytes : Bytes} {i n : ℕ}

theorem newlinesBack_concat (b : UInt8) : newlinesBack (bytes ++ [b]) =
    if b = newline then bytes.length :: newlinesBack bytes else newlinesBack bytes := by
  by_cases hb : b = newline
  · simp [newlinesBack, List.zipIdx_append, hb]
  · simp [newlinesBack, List.zipIdx_append, hb]

theorem length_newlinesBack : (newlinesBack bytes).length = bytes.count newline := by
  induction bytes using List.reverseRecOn with
  | nil => rfl
  | append_singleton bytes b ih =>
    rw [newlinesBack_concat, List.count_append, ← ih]
    by_cases hb : b = newline
    · simp [hb]
    · simp [hb]

theorem newlinesBack_get (h : (newlinesBack bytes)[n]? = some i) :
    bytes[i]? = some newline ∧ (bytes.drop (i + 1)).count newline = n := by
  induction bytes using List.reverseRecOn generalizing n with
  | nil => cases h
  | append_singleton bytes b ih =>
    rw [newlinesBack_concat] at h
    by_cases hb : b = newline
    · rw [if_pos hb] at h
      cases n with
      | zero =>
        cases h
        simp [hb]
      | succ n =>
        obtain ⟨hi, hcount⟩ := ih h
        have hlt : i < bytes.length := (List.getElem?_eq_some_iff.mp hi).1
        rw [List.getElem?_append_left hlt, List.drop_append_of_le_length hlt, List.count_append,
          hcount]
        exact ⟨hi, by simp [hb]⟩
    · rw [if_neg hb] at h
      obtain ⟨hi, hcount⟩ := ih h
      have hlt : i < bytes.length := (List.getElem?_eq_some_iff.mp hi).1
      rw [List.getElem?_append_left hlt, List.drop_append_of_le_length hlt, List.count_append,
        hcount]
      exact ⟨hi, by simp [hb]⟩

/-- **The tail of so many lines** is all of the file, or begins after a newline and has exactly as
many newlines. -/
theorem tailStart_lines (bytes : Bytes) (n : ℕ) :
    (bytes.count newline ≤ n + 1 ∧ tailStart (.lines (n + 1)) bytes = 0) ∨
      ∃ i, tailStart (.lines (n + 1)) bytes = i + 1 ∧ bytes[i]? = some newline ∧
        (readLogTail (.lines (n + 1)) bytes).count newline = n + 1 := by
  cases hget : (newlinesBack bytes)[n + 1]? with
  | none =>
    rw [List.getElem?_eq_none_iff, length_newlinesBack] at hget
    refine .inl ⟨hget, ?_⟩
    rw [tailStart, List.getElem?_eq_none (length_newlinesBack.symm ▸ hget)]
    rfl
  | some i =>
    have hstart : tailStart (.lines (n + 1)) bytes = i + 1 := by
      rw [tailStart, hget]
      rfl
    refine .inr ⟨i, hstart, (newlinesBack_get hget).1, ?_⟩
    rw [readLogTail, hstart]
    exact (newlinesBack_get hget).2

theorem tailStart_le (tail : Tail) (bytes : Bytes) : tailStart tail bytes ≤ bytes.length := by
  match tail with
  | .all => exact Nat.zero_le _
  | .lines 0 => exact Nat.le_refl _
  | .lines (n + 1) =>
    rcases tailStart_lines bytes n with ⟨-, hzero⟩ | ⟨i, hstart, hi, -⟩
    · rw [hzero]
      exact Nat.zero_le _
    · rw [hstart]
      exact (List.getElem?_eq_some_iff.mp hi).1

def fileLines : Bytes → List Bytes
  | [] => []
  | b :: bytes =>
    if b = newline then [b] :: fileLines bytes
    else match fileLines bytes with
    | [] => [[b]]
    | line :: rest => (b :: line) :: rest

theorem flatten_fileLines (bytes : Bytes) : (fileLines bytes).flatten = bytes := by
  fun_induction fileLines bytes <;> simp_all

theorem nil_notMem_fileLines (bytes : Bytes) : [] ∉ fileLines bytes := by
  fun_induction fileLines bytes <;> simp_all

theorem fileLines_append (a t : Bytes) :
    fileLines (a ++ newline :: t) = fileLines (a ++ [newline]) ++ fileLines t := by
  induction a with
  | nil => simp [fileLines]
  | cons b a ih =>
    simp only [List.cons_append, fileLines, ih]
    split
    · rfl
    · cases hfirst : fileLines (a ++ [newline]) with
      | nil =>
        have hflat := flatten_fileLines (a ++ [newline])
        rw [hfirst] at hflat
        exact absurd hflat.symm (by simp)
      | cons line rest => rfl

def isEnded (bytes : Bytes) : Bool := bytes.getLast?.all (· = newline)

theorem isEnded_append (a t : Bytes) : isEnded (a ++ newline :: t) = isEnded t := by
  cases t with
  | nil => simp [isEnded]
  | cons c t => rw [isEnded, List.getLast?_append_cons, List.getLast?_cons_cons, isEnded]

theorem length_fileLines (bytes : Bytes) :
    (fileLines bytes).length = bytes.count newline + if isEnded bytes then 0 else 1 := by
  fun_induction fileLines bytes with
  | case1 => rfl
  | case2 bytes ih =>
    have hended : isEnded (newline :: bytes) = isEnded bytes := isEnded_append [] bytes
    rw [List.length_cons, ih, List.count_cons_self, hended, Nat.add_right_comm]
  | case3 b bytes hb hnil ih =>
    obtain rfl : bytes = [] := by rw [← flatten_fileLines bytes, hnil, List.flatten_nil]
    simp [isEnded, hb]
  | case4 b bytes hb line rest hcons ih =>
    cases bytes with
    | nil => cases hcons
    | cons c bytes =>
      rw [hcons] at ih
      rw [List.count_cons_of_ne hb, isEnded, List.getLast?_cons_cons, ← isEnded, ← ih]
      rfl

/-- A line without its newline comes on top of those that were asked for. -/
theorem readLogTail_lines (bytes : Bytes) (n : ℕ) : readLogTail (.lines (n + 1)) bytes =
    ((fileLines bytes).rtake (n + 1 + if isEnded bytes then 0 else 1)).flatten := by
  have hlines := length_fileLines bytes
  rw [List.rtake]
  rcases tailStart_lines bytes n with ⟨hfew, hzero⟩ | ⟨i, hstart, hi, hcount⟩
  · rw [readLogTail, hzero, Nat.sub_eq_zero_of_le (by omega), List.drop_zero, List.drop_zero,
      flatten_fileLines]
  · obtain ⟨hlt, hget⟩ := List.getElem?_eq_some_iff.mp hi
    have hsplit : bytes = bytes.take i ++ newline :: readLogTail (.lines (n + 1)) bytes := by
      rw [readLogTail, hstart, ← hget, ← List.drop_eq_getElem_cons hlt, List.take_append_drop]
    have happend := fileLines_append (bytes.take i) (readLogTail (.lines (n + 1)) bytes)
    have htail := length_fileLines (readLogTail (.lines (n + 1)) bytes)
    rw [hcount, ← isEnded_append (bytes.take i), ← hsplit] at htail
    rw [← hsplit] at happend
    rw [← htail, happend, List.length_append, Nat.add_sub_cancel, List.drop_left, flatten_fileLines]

/-- **A tail of so many lines is the last lines of the file exactly if** none is asked for, the
file ends with a newline, or it has no more lines. -/
theorem readLogTail_last_lines_iff (bytes : Bytes) (n : ℕ) :
    readLogTail (.lines n) bytes = ((fileLines bytes).rtake n).flatten ↔
      n = 0 ∨ isEnded bytes ∨ (fileLines bytes).length ≤ n := by
  cases n with
  | zero => simp [readLogTail, tailStart, List.rtake]
  | succ n =>
    rw [readLogTail_lines, List.rtake, List.rtake]
    by_cases hended : isEnded bytes
    · simp [hended]
    · by_cases hfew : (fileLines bytes).length ≤ n + 1
      · rw [Nat.sub_eq_zero_of_le hfew, Nat.sub_eq_zero_of_le (Nat.le_add_right_of_le hfew)]
        exact iff_of_true rfl (.inr (.inr hfew))
      · -- One line too many, and no line is empty.
        refine iff_of_false (fun heq => ?_) (by simp [hended, hfew])
        have hlt : (fileLines bytes).length - (n + 1 + 1) < (fileLines bytes).length := by omega
        rw [if_neg hended, List.drop_eq_getElem_cons hlt, List.flatten_cons,
          show (fileLines bytes).length - (n + 1 + 1) + 1 = (fileLines bytes).length - (n + 1) by
            omega] at heq
        have hnil := List.append_left_eq_self.mp heq
        exact nil_notMem_fileLines bytes (hnil ▸ List.getElem_mem hlt)

theorem readLogTail_unended : readLogTail (.lines 1) [97, newline, 98] = [97, newline, 98] ∧
    fileLines [97, newline, 98] = [[97, newline], [98]] := by decide

end Tail

/-! ## The response -/

structure Chunk where
  offset : ℕ
  bytes : Bytes
deriving DecidableEq

structure Poll where
  /-- What was appended since the operation before. -/
  appended : Bytes
  readable : Bool
deriving DecidableEq

structure Schedule where
  gap : Bytes
  stat : Bool
  polls : List Poll
deriving DecidableEq

def stream : Bytes → ℕ → List Poll → List Chunk
  | _, _, [] => []
  | file, offset, poll :: polls =>
    let file := file ++ poll.appended
    if poll.readable && decide (offset < file.length) then
      ⟨offset, file.drop offset⟩ :: stream file (offset + (file.drop offset).length) polls
    else stream file offset polls

def Schedule.offset (sch : Schedule) (file : Bytes) : ℕ :=
  if sch.stat then (file ++ sch.gap).length else 0

def Schedule.final (sch : Schedule) (file : Bytes) : Bytes :=
  file ++ sch.gap ++ (sch.polls.map (·.appended)).flatten

/-- `logs` with `follow`, on a file as it is when the request reads it. -/
def follow (tail : Tail) (file : Bytes) (sch : Schedule) : List Chunk :=
  ⟨tailStart tail file, readLogTail tail file⟩ ::
    stream (file ++ sch.gap) (sch.offset file) sch.polls

/-- The pieces lie end to end in the file, from a place on. -/
def Seamless (file : Bytes) : ℕ → List Chunk → Prop
  | _, [] => True
  | place, chunk :: chunks =>
    chunk.offset = place ∧ chunk.bytes = window file place (place + chunk.bytes.length) ∧
      Seamless file (place + chunk.bytes.length) chunks

instance decidableSeamless (file : Bytes) :
    (place : ℕ) → (chunks : List Chunk) → Decidable (Seamless file place chunks)
  | _, [] => .isTrue trivial
  | place, chunk :: chunks =>
    have := decidableSeamless file (place + chunk.bytes.length) chunks
    inferInstanceAs (Decidable (_ ∧ _ ∧ _))

def sends (offset : ℕ) : Bytes → List Poll → Bool
  | _, [] => false
  | file, poll :: polls =>
    (poll.readable && decide (offset < (file ++ poll.appended).length)) ||
      sends offset (file ++ poll.appended) polls

section Stream

variable {file : Bytes} {offset place : ℕ} {polls : List Poll}

theorem stream_eq_nil : stream file offset polls = [] ↔ sends offset file polls = false := by
  induction polls generalizing file with
  | nil => simp [stream, sends]
  | cons poll polls ih =>
    rw [stream, sends]
    by_cases hfinds : poll.readable && decide (offset < (file ++ poll.appended).length)
    · simp only [hfinds, if_true, Bool.true_or, reduceCtorEq]
    · rw [if_neg hfinds, eq_false_of_ne_true hfinds, Bool.false_or]
      exact ih

theorem stream_head {chunk : Chunk} {chunks : List Chunk}
    (h : stream file offset polls = chunk :: chunks) : chunk.offset = offset := by
  induction polls generalizing file with
  | nil => cases h
  | cons poll polls ih =>
    simp only [stream] at h
    split at h
    · cases h
      rfl
    · exact ih h

theorem drop_eq_window (h : offset ≤ file.length) (more : Bytes) :
    file.drop offset = window (file ++ more) offset file.length := by
  rw [window, List.drop_append_of_le_length h, List.take_append_of_le_length (by simp),
    List.take_of_length_le (by simp)]

/-- **The stream has no gap of its own**: from its offset on it is seamless. -/
theorem seamless_stream (h : offset ≤ file.length) :
    Seamless (file ++ (polls.map (·.appended)).flatten) offset (stream file offset polls) := by
  induction polls generalizing file offset with
  | nil => trivial
  | cons poll polls ih =>
    have hgrown : offset ≤ (file ++ poll.appended).length := by
      rw [List.length_append]
      omega
    rw [List.map_cons, List.flatten_cons, ← List.append_assoc]
    simp only [stream]
    split
    · have hend : offset + ((file ++ poll.appended).drop offset).length =
          (file ++ poll.appended).length := by
        rw [List.length_drop]
        omega
      refine ⟨rfl, ?_, ?_⟩
      · rw [hend]
        exact drop_eq_window hgrown _
      · rw [hend]
        exact ih (Nat.le_refl _)
    · exact ih hgrown

theorem seamless_stream_iff (h : offset ≤ file.length) :
    Seamless (file ++ (polls.map (·.appended)).flatten) place (stream file offset polls) ↔
      offset = place ∨ sends offset file polls = false := by
  constructor
  · intro hseamless
    rw [← stream_eq_nil]
    cases hstream : stream file offset polls with
    | nil => exact .inr rfl
    | cons chunk chunks =>
      rw [hstream] at hseamless
      exact .inl ((stream_head hstream).symm.trans hseamless.1)
  · rintro (rfl | hnothing)
    · exact seamless_stream h
    · rw [stream_eq_nil.mpr hnothing]
      trivial

end Stream

/-- **When following has no gap**: exactly if the length that was asked for is the one that was
read, or if nothing is sent after the tail. -/
theorem follow_seamless_iff (tail : Tail) (file : Bytes) (sch : Schedule) :
    Seamless (sch.final file) (tailStart tail file) (follow tail file sch) ↔
      (sch.stat ∧ sch.gap = []) ∨ (sch.stat = false ∧ file = []) ∨
        sends (sch.offset file) (file ++ sch.gap) sch.polls = false := by
  have hstart := tailStart_le tail file
  have hend : tailStart tail file + (readLogTail tail file).length = file.length := by
    rw [readLogTail, List.length_drop]
    omega
  have htail : readLogTail tail file =
      window (sch.final file) (tailStart tail file) file.length := by
    rw [Schedule.final, List.append_assoc]
    exact drop_eq_window hstart _
  have hoffset : sch.offset file ≤ (file ++ sch.gap).length := by
    unfold Schedule.offset
    split
    · exact Nat.le_refl _
    · exact Nat.zero_le _
  calc Seamless (sch.final file) (tailStart tail file) (follow tail file sch)
      ↔ Seamless (sch.final file) file.length
          (stream (file ++ sch.gap) (sch.offset file) sch.polls) := by
        simp only [follow, Seamless, hend, ← htail, true_and]
    _ ↔ sch.offset file = file.length ∨
          sends (sch.offset file) (file ++ sch.gap) sch.polls = false := seamless_stream_iff hoffset
    _ ↔ _ := by
        have hempty : 0 = file.length ↔ file = [] := eq_comm.trans List.length_eq_zero_iff
        unfold Schedule.offset
        cases sch.stat
        · simp [hempty]
        · simp

/-- Two bytes come between the tail and the length: they are in no piece of the response. -/
theorem follow_skips_appended :
    (follow .all [97, 10] ⟨[98, 10], true, [⟨[99, 10], true⟩]⟩).map (·.bytes) =
        [[97, 10], [99, 10]] ∧
      ¬Seamless (Schedule.final ⟨[98, 10], true, [⟨[99, 10], true⟩]⟩ [97, 10])
        (tailStart .all [97, 10]) (follow .all [97, 10] ⟨[98, 10], true, [⟨[99, 10], true⟩]⟩) := by
  decide

end Gridops.TartAgent
