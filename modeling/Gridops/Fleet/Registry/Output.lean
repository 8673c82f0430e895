import Gridops.Fleet.Store
import Gridops.Lib.Window

/-!
# The console output of a runner

`append_runner_output` of `gridops-core/src/fleet/registry/output.rs` appends a chunk of one
placement's output to its log stream: a row of `log_streams`, joined with its row of
`fleet_output_streams`, and a file. It reads the row, writes the file and records what the file now
holds, in a transaction each, with a lock held over the three. A stream that would outgrow its cap
moves to a new file, and one of the two files is removed at the end.

What comes between the three (a crash, the reconciler closing the stream) is left to
`Gridops.HostAgent.Output`.
-/

namespace Gridops.Fleet

open Gridops.Lib

abbrev Byte := UInt8

def newline : Byte := 10

def maxOutputChunkBytes : ℕ := 256 * 1024

/-- A stream that would grow past this keeps only its newest output. -/
def maxStreamBytes : ℕ := 32 * 1024 * 1024

def keepStreamBytes : ℕ := 16 * 1024 * 1024

structure RunnerOutputChunk where
  offset : ℕ
  data : List Byte
  finished : Bool
deriving DecidableEq

def RunnerOutputChunk.stop (chunk : RunnerOutputChunk) : ℕ := chunk.offset + chunk.data.length

structure RunnerOutputReceipt where
  received : ℕ
  finished : Bool
deriving DecidableEq

structure OutputRow where
  id : String
  path : String
  sizeBytes : ℕ
  complete : Bool
  receivedBytes : ℕ
deriving DecidableEq

structure Stream where
  id : String
  path : String
  size : ℕ
  received : ℕ
  /-- Not created yet: the first chunk creates it. -/
  new : Bool
deriving DecidableEq

abbrev Files := String → Option (List Byte)

def streamPath (id : String) : String := id ++ ".log"

/-- The file of a stream that was trimmed by a chunk ending there. -/
def trimmedPath (id : String) (stop : ℕ) : String := id ++ "." ++ stop.repr ++ ".log"

def RunnerOutputChunk.check (chunk : RunnerOutputChunk) : Except RegistryError Unit :=
  if chunk.data.length > maxOutputChunkBytes then
    .error (.invalidRequest "runner output chunk is too large")
  else if chunk.stop ≥ 2 ^ 63 then .error (.invalidRequest "runner output offset is too large")
  else .ok ()

def findStream (row : Option OutputRow) (newId : String) : RunnerOutputReceipt ⊕ Stream :=
  match row with
  | some r =>
    -- Late or replayed output for a closed stream changes nothing.
    if r.complete then .inl ⟨r.receivedBytes, true⟩
    else .inr ⟨r.id, r.path, r.sizeBytes, r.receivedBytes, false⟩
  | none => .inr ⟨newId, streamPath newId, 0, 0, true⟩

/-! ## Writing the file -/

def Stream.fresh (stream : Stream) (chunk : RunnerOutputChunk) : List Byte :=
  chunk.data.drop (min (stream.received - chunk.offset) chunk.data.length)

/-- The newest `keepStreamBytes` of the stream's `size` bytes followed by `fresh`, starting at a
line. -/
def newestOutput (file : List Byte) (size : ℕ) (fresh : List Byte) : List Byte :=
  let kept := min (keepStreamBytes - fresh.length) size
  let output := (file.drop (size - kept)).take kept ++ fresh
  output.drop ((output.findIdx? (· == newline)).elim 0 (· + 1))

structure FileWrite where
  path : String
  keep : List Byte
  bytes : List Byte
deriving DecidableEq

inductive FilePlan where
  | nothing
  | write (write : FileWrite)
  | unreadable
deriving DecidableEq

/-- `File::set_len`, which fills up with zeros. -/
def setLen (size : ℕ) (file : List Byte) : List Byte :=
  file.take size ++ List.replicate (size - file.length) 0

/-- No room for what is new: the newest output, in another file. Else after the recorded bytes. -/
def Stream.plan (stream : Stream) (chunk : RunnerOutputChunk) (files : Files) : FilePlan :=
  let fresh := stream.fresh chunk
  if fresh = [] then .nothing
  else if stream.size + fresh.length ≤ maxStreamBytes then
    .write ⟨stream.path, setLen stream.size ((files stream.path).getD []), fresh⟩
  else
    match files stream.path with
    | none => .unreadable
    | some file =>
      .write ⟨trimmedPath stream.id chunk.stop, [], newestOutput file stream.size fresh⟩

def FileWrite.apply (write : FileWrite) (n : ℕ) (files : Files) : Files :=
  Function.update files write.path (some (write.keep ++ write.bytes.take n))

/-- The row of the stream in the transaction of `record_output`, created for its first chunk. -/
def insertOutput (row : Option OutputRow) (stream : Stream) (path : String) :
    Except RegistryError (Option OutputRow) :=
  if stream.new then
    match row with
    | none => .ok (some ⟨stream.id, path, 0, false, 0⟩)
    | some _ => .error .database
  else .ok row

/-- The transaction of `record_output`, after its authorization: whether the stream was still
open, and the row. -/
def recordOutput (row : Option OutputRow) (stream : Stream) (path : String) (size received : ℕ)
    (finished : Bool) : Except RegistryError (Bool × Option OutputRow) := do
  let row ← insertOutput row stream path
  match row with
  | some r =>
    if r.id = stream.id ∧ r.complete = false then
      .ok (true, some { r with
        path := path
        sizeBytes := size
        complete := finished
        receivedBytes := received })
    else .ok (false, row)
  | none => .ok (false, none)

def leftover (stream : Stream) (path : String) (recorded : Except RegistryError Bool) :
    Option String :=
  if path = stream.path then none
  else
    match recorded with
    | .ok true => some stream.path
    | _ => some path

def outputReceipt (stream : Stream) (chunk : RunnerOutputChunk) (recorded : Bool) :
    RunnerOutputReceipt :=
  if recorded then ⟨max stream.received chunk.stop, chunk.finished⟩
  -- The stream closed while this chunk was being written.
  else ⟨stream.received, true⟩

theorem trimmedPath_inj {id : String} {m n : ℕ} (h : trimmedPath id m = trimmedPath id n) :
    m = n := by
  rw [trimmedPath, trimmedPath, String.append_left_inj, String.append_right_inj] at h
  -- A number is read back from its digits.
  have hdigits := congrArg (fun text => Nat.ofDigitChars 10 text.toList 0) h
  simpa [Nat.toList_repr] using hdigits

theorem streamPath_ne (id : String) (n : ℕ) : streamPath id ≠ trimmedPath id n := by
  intro h
  have hlength := congrArg String.length h
  simp only [streamPath, trimmedPath, String.length_append] at hlength
  have hdot : ".".length = 1 := rfl
  omega

/-- The names that the file of a stream has had: the first, or one for a chunk that ended within
what was received. -/
def Named (id : String) (received : ℕ) (path : String) : Prop :=
  path = streamPath id ∨ ∃ stop ≤ received, path = trimmedPath id stop

theorem Named.mono {id path : String} {m n : ℕ} (h : Named id m path) (hmn : m ≤ n) :
    Named id n path := by
  obtain h | ⟨stop, hstop, h⟩ := h
  · exact .inl h
  · exact .inr ⟨stop, Nat.le_trans hstop hmn, h⟩

/-- A chunk that ends past what was received trims to a file of a new name. -/
theorem Named.ne_trimmed {id path : String} {received stop : ℕ} (h : Named id received path)
    (hstop : received < stop) : path ≠ trimmedPath id stop := by
  obtain rfl | ⟨earlier, hearlier, rfl⟩ := h
  · exact streamPath_ne id stop
  · intro hsame
    have := trimmedPath_inj hsame
    omega

/-! ## What a file holds -/

/-- The first `size` bytes of the file are the last ones of the first `received` bytes of the
output, each once and in order. -/
structure Holds (whole file : List Byte) (size received : ℕ) : Prop where
  size_le : size ≤ received
  received_le : received ≤ whole.length
  bytes : file.take size = window whole (received - size) received

structure PartOf (whole : List Byte) (chunk : RunnerOutputChunk) : Prop where
  stop_le : chunk.stop ≤ whole.length
  data : chunk.data = window whole chunk.offset chunk.stop

section Holds

variable {whole file fresh : List Byte} {size received stop n : ℕ}

theorem Holds.length_le (h : Holds whole file size received) : size ≤ file.length := by
  have hlength := congrArg List.length h.bytes
  rw [List.length_take, length_window h.received_le] at hlength
  have := h.size_le
  omega

theorem Holds.setLen_eq (h : Holds whole file size received) : setLen size file = file.take size := by
  rw [setLen, Nat.sub_eq_zero_of_le h.length_le, List.replicate_zero, List.append_nil]

theorem Holds.congr {file' : List Byte} (h : Holds whole file size received)
    (hsame : file'.take size = file.take size) : Holds whole file' size received :=
  ⟨h.size_le, h.received_le, hsame.trans h.bytes⟩

theorem Holds.joined (h : Holds whole file size received) (hstop : received ≤ stop) :
    file.take size ++ window whole received stop = window whole (received - size) stop := by
  rw [h.bytes, window_append (Nat.sub_le _ _) hstop]

theorem Holds.extend (h : Holds whole file size received) (hstop : received ≤ stop)
    (hwhole : stop ≤ whole.length) :
    Holds whole (file.take size ++ window whole received stop)
      ((file.take size).length + (window whole received stop).length) stop := by
  have hplace : received - size ≤ stop := Nat.le_trans (Nat.sub_le _ _) hstop
  rw [← List.length_append, h.joined hstop]
  refine ⟨?_, hwhole, ?_⟩
  · rw [length_window hwhole]
    exact Nat.sub_le _ _
  · rw [List.take_length, length_window hwhole, Nat.sub_sub_self hplace]

theorem newestOutput_suffix (file : List Byte) (size : ℕ) (fresh : List Byte) :
    newestOutput file size fresh <:+ file.take size ++ fresh := by
  have hkept : ∀ kept ≤ size,
      (file.drop (size - kept)).take kept = (file.take size).drop (size - kept) := by
    intro kept hkept
    rw [List.drop_take, Nat.sub_sub_self hkept]
  rw [newestOutput, hkept _ (Nat.min_le_right _ _)]
  refine (List.drop_suffix _ _).trans ?_
  exact List.suffix_append_self_iff.mpr (List.drop_suffix _ _)

theorem length_newestOutput (file : List Byte) (size : ℕ) (fresh : List Byte) :
    (newestOutput file size fresh).length ≤ max keepStreamBytes fresh.length := by
  rw [newestOutput, List.length_drop, List.length_append, List.length_take]
  omega

theorem Holds.trim (h : Holds whole file size received) (hstop : received ≤ stop)
    (hwhole : stop ≤ whole.length) (kept : List Byte)
    (hkept : kept = newestOutput file size (window whole received stop)) :
    Holds whole kept kept.length stop := by
  have hsuffix := newestOutput_suffix file size (window whole received stop)
  rw [← hkept, h.joined hstop] at hsuffix
  refine ⟨?_, hwhole, ?_⟩
  · have := hsuffix.length_le
    rw [length_window hwhole] at this
    omega
  · rw [List.take_length]
    exact suffix_window (by omega) hwhole hsuffix

end Holds

/-! ## What a write does -/

section Write

variable {whole : List Byte} {stream : Stream} {chunk : RunnerOutputChunk} {files : Files}
  {write : FileWrite}

theorem fresh_eq (hchunk : PartOf whole chunk) (hoffset : chunk.offset ≤ stream.received) :
    stream.fresh chunk = window whole stream.received chunk.stop := by
  have hdrop : stream.fresh chunk = chunk.data.drop (stream.received - chunk.offset) := by
    rw [Stream.fresh]
    by_cases hle : stream.received - chunk.offset ≤ chunk.data.length
    · rw [Nat.min_eq_left hle]
    · rw [Nat.min_eq_right (by omega), List.drop_length, List.drop_of_length_le (by omega)]
  rw [hdrop, hchunk.data, drop_window, Nat.add_sub_cancel' hoffset]

/-- The file holds the output up to the end of the chunk, under a new name or behind the recorded
bytes. -/
structure FileWrite.Sound (whole : List Byte) (stream : Stream) (chunk : RunnerOutputChunk)
    (files : Files) (write : FileWrite) : Prop where
  later : stream.received < chunk.stop
  holds : Holds whole (write.keep ++ write.bytes) (write.keep.length + write.bytes.length)
    chunk.stop
  bound : write.keep.length + write.bytes.length ≤ maxStreamBytes
  place : write.path = stream.path ∧ write.keep = ((files stream.path).getD []).take stream.size ∨
    write.path = trimmedPath stream.id chunk.stop

/-- **Writing.** What is written for a chunk that leaves no gap is sound. -/
theorem plan_spec (hholds : Holds whole ((files stream.path).getD []) stream.size stream.received)
    (hchunk : PartOf whole chunk) (hoffset : chunk.offset ≤ stream.received)
    (hsmall : chunk.data.length ≤ maxOutputChunkBytes) :
    match stream.plan chunk files with
    | .nothing => chunk.stop ≤ stream.received
    | .write write => write.Sound whole stream chunk files
    | .unreadable => True := by
  have hfresh := fresh_eq hchunk hoffset
  have hlength : (stream.fresh chunk).length = chunk.stop - stream.received := by
    rw [hfresh, length_window hchunk.stop_le]
  unfold Stream.plan
  by_cases hempty : stream.fresh chunk = []
  · simp only [hempty, if_true]
    rw [hempty, List.length_nil] at hlength
    omega
  have hlater : stream.received < chunk.stop := by
    have := List.length_pos_iff.mpr hempty
    omega
  have hstop : stream.received ≤ chunk.stop := Nat.le_of_lt hlater
  by_cases hfits : stream.size + (stream.fresh chunk).length ≤ maxStreamBytes
  · simp only [hempty, hfits]
    refine ⟨hlater, ?_, ?_, .inl ⟨rfl, hholds.setLen_eq⟩⟩
    · rw [hholds.setLen_eq, hfresh]
      exact hholds.extend hstop hchunk.stop_le
    · rw [hholds.setLen_eq, List.length_take, Nat.min_eq_left hholds.length_le]
      exact hfits
  · simp only [hempty, hfits]
    cases hfile : files stream.path with
    | none => trivial
    | some file =>
      rw [hfile, Option.getD_some] at hholds
      have hkept := length_newestOutput file stream.size (stream.fresh chunk)
      have hcaps : maxOutputChunkBytes ≤ keepStreamBytes ∧ keepStreamBytes ≤ maxStreamBytes := by
        decide
      have hfreshLe : (stream.fresh chunk).length ≤ chunk.data.length :=
        (List.drop_suffix _ _).length_le
      refine ⟨hlater, ?_, ?_, .inr rfl⟩
      · simp only [List.nil_append, List.length_nil, Nat.zero_add]
        exact hholds.trim hstop hchunk.stop_le _ (by rw [hfresh])
      · simp only [List.length_nil]
        omega

/-- However much of it was written, the file of the stream holds what it held. -/
theorem FileWrite.Sound.keeps (h : write.Sound whole stream chunk files)
    (hholds : Holds whole ((files stream.path).getD []) stream.size stream.received)
    (hnamed : Named stream.id stream.received stream.path) (n : ℕ) :
    Holds whole ((write.apply n files stream.path).getD []) stream.size stream.received := by
  obtain ⟨hpath, hkeep⟩ | hpath := h.place
  · rw [FileWrite.apply, hpath, Function.update_self, Option.getD_some, hkeep]
    have hlength : stream.size ≤ (((files stream.path).getD []).take stream.size).length :=
      Nat.le_of_eq (by rw [List.length_take, Nat.min_eq_left hholds.length_le])
    refine hholds.congr ?_
    rw [List.take_append_of_le_length hlength, List.take_take, Nat.min_self]
  · have hne : stream.path ≠ write.path := hpath ▸ hnamed.ne_trimmed h.later
    rwa [FileWrite.apply, Function.update_of_ne hne]

end Write

end Gridops.Fleet
