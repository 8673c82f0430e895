import Gridops.Fleet.Registry.Output
import Gridops.Lib.Run

/-!
# Shipping the output of a runner

One runner's output on its way to the control plane: the upload of
`gridops-host-agent/src/output.rs` on the agent, the requests and replies between the two, and the
appends of the control plane with the committed row and the log directory.

A request that was posted may be served at any time and any number of times, whoever posted it, so
retries, overlaps, replays and lost replies are all runs of the machine. An append may stop between
any two of its writes (a crash of the control plane, a failed write, a dropped request), with any
part of the file written. Authorization may be refused at both places that check it.
-/

namespace Gridops.HostAgent

open Gridops.Lib Gridops.Fleet

def chunkBytes : ℕ := 192 * 1024

def readBytes : ℕ := 16 * 1024

inductive Upload where
  | idle
  | asking
  /-- In `gather`: `position` bytes of the output are behind, `buffer` is read. -/
  | gathering (position received : ℕ) (buffer : List Byte)
  | sending (position : ℕ) (chunk : RunnerOutputChunk)
  | ended
deriving DecidableEq

def Upload.chunk : Upload → Option RunnerOutputChunk
  | .asking => some ⟨0, [], false⟩
  | .sending _ chunk => some chunk
  | _ => none

/-- The rest of the loop's body after `gather` has returned. -/
def flush (position received : ℕ) (buffer : List Byte) (ended : Bool) : Upload :=
  let skip := min (received - position) buffer.length
  if skip < buffer.length ∨ ended then
    .sending (position + buffer.length) ⟨position + skip, buffer.drop skip, ended⟩
  else .gathering (position + buffer.length) received []

def gather (position received : ℕ) (buffer : List Byte) : Upload :=
  if buffer.length < chunkBytes then .gathering position received buffer
  else flush position received buffer false

def Upload.take (receipt : RunnerOutputReceipt) : Upload → Upload
  | .asking => if receipt.finished then .ended else .gathering 0 receipt.received []
  | .sending position _ =>
    if receipt.finished then .ended else .gathering position receipt.received []
  | u => u

/-! ## The system -/

inductive Appending where
  | located (chunk : RunnerOutputChunk) (stream : Stream)
  | written (chunk : RunnerOutputChunk) (stream : Stream) (path : String) (size : ℕ)
  | recorded (chunk : RunnerOutputChunk) (stream : Stream) (path : String)
      (result : Except RegistryError Bool)

structure Shipping where
  row : Option OutputRow
  files : Files
  appending : Option Appending
  upload : Upload
  posted : List RunnerOutputChunk
  receipts : List (RunnerOutputChunk × RunnerOutputReceipt)
  /-- The stream was closed by a chunk that said the output is over. -/
  closedByChunk : Bool

inductive ShippingStep where
  | follow
  | post
  | take (receipt : RunnerOutputReceipt)
  | refused
  | restart
  | read (count : ℕ)
  | window
  | readEnd
  | readError
  /-- The append of a posted chunk takes the lock and finds the stream. -/
  | accept (chunk : RunnerOutputChunk) (newId : String) (authorized : Except RegistryError Unit)
  | write
  | record (authorized : Except RegistryError Unit)
  | reply
  /-- The append stops; of its file `count` bytes may be written. -/
  | abort (count : ℕ)
  /-- The reconciler closes a stream whose runner has ended. -/
  | closeStale
deriving DecidableEq

namespace Shipping

variable (whole : List Byte)

variable (s : Shipping)

def accept (chunk : RunnerOutputChunk) (newId : String) : Shipping :=
  match findStream s.row newId with
  | .inl receipt => { s with receipts := s.receipts ++ [(chunk, receipt)] }
  | .inr stream => { s with appending := some (.located chunk stream) }

def write (chunk : RunnerOutputChunk) (stream : Stream) : Option Shipping :=
  match stream.plan chunk s.files with
  | .nothing =>
    some { s with appending := some (.written chunk stream stream.path stream.size) }
  | .write w => some { s with
      files := w.apply w.bytes.length s.files
      appending := some (.written chunk stream w.path (w.keep.length + w.bytes.length)) }
  | .unreadable => none

def record (chunk : RunnerOutputChunk) (stream : Stream) (path : String) (size : ℕ)
    (authorized : Except RegistryError Unit) : Shipping :=
  match authorized.bind fun _ =>
      recordOutput s.row stream path size (max stream.received chunk.stop) chunk.finished with
  | .error e => { s with appending := some (.recorded chunk stream path (.error e)) }
  | .ok (updated, row) => { s with
      row := row
      appending := some (.recorded chunk stream path (.ok updated))
      closedByChunk := s.closedByChunk || (updated && chunk.finished) }

def reply (chunk : RunnerOutputChunk) (stream : Stream) (path : String)
    (result : Except RegistryError Bool) : Shipping :=
  { s with
    files := (leftover stream path result).elim s.files fun old => Function.update s.files old none
    appending := none
    receipts := match result with
      | .error _ => s.receipts
      | .ok updated => s.receipts ++ [(chunk, outputReceipt stream chunk updated)] }

def torn (count : ℕ) : Files :=
  match s.appending with
  | some (.located chunk stream) =>
    match stream.plan chunk s.files with
    | .write w => w.apply count s.files
    | _ => s.files
  | _ => s.files

def step : ShippingStep → Option Shipping
  | .follow => if s.upload = .idle then some { s with upload := .asking } else none
  | .post => s.upload.chunk.map fun chunk => { s with posted := s.posted ++ [chunk] }
  | .take receipt =>
    if s.upload.chunk.any fun chunk => (chunk, receipt) ∈ s.receipts then
      some { s with upload := s.upload.take receipt }
    else none
  | .refused => s.upload.chunk.map fun _ => { s with upload := .ended }
  | .restart => some { s with upload := .idle }
  | .read count =>
    match s.upload with
    | .gathering position received buffer =>
      let start := position + buffer.length
      if 0 < count ∧ count ≤ readBytes ∧ start + count ≤ whole.length then
        some { s with
          upload := gather position received (buffer ++ Lib.window whole start (start + count)) }
      else none
    | _ => none
  | .window =>
    match s.upload with
    | .gathering position received buffer =>
      if buffer = [] then none
      else some { s with upload := flush position received buffer false }
    | _ => none
  | .readEnd =>
    match s.upload with
    | .gathering position received buffer =>
      if position + buffer.length = whole.length then
        some { s with upload := flush position received buffer true }
      else none
    | _ => none
  | .readError =>
    match s.upload with
    | .gathering position received buffer =>
      -- `gather` takes an error for the end of the output.
      some { s with upload := flush position received buffer true }
    | _ => none
  | .accept chunk newId authorized =>
    if chunk ∈ s.posted ∧ s.appending.isNone ∧ chunk.check.isOk ∧ authorized.isOk then
      some (s.accept chunk newId)
    else none
  | .write =>
    match s.appending with
    | some (.located chunk stream) => s.write chunk stream
    | _ => none
  | .record authorized =>
    match s.appending with
    | some (.written chunk stream path size) =>
      some (s.record chunk stream path size authorized)
    | _ => none
  | .reply =>
    match s.appending with
    | some (.recorded chunk stream path result) => some (s.reply chunk stream path result)
    | _ => none
  | .abort count => some { s with files := s.torn count, appending := none }
  | .closeStale => some { s with row := s.row.map fun r => { r with complete := true } }

end Shipping

def shipping (whole : List Byte) : Machine Shipping ShippingStep := ⟨Shipping.step whole⟩

def Shipping.start (files : Files) : Shipping where
  row := none
  files := files
  appending := none
  upload := .idle
  posted := []
  receipts := []
  closedByChunk := false

end Gridops.HostAgent
