import Gridops.Fleet.Registry.Logs
import Gridops.Lib.Run

/-!
# Shipping the agent's log

The buffer of `gridops-host-agent/src/logs.rs`, the loop `ship_logs` of its supervisor and
the host's rows on the control plane. One batch is on its way at a time. Its request may
reach the control plane or not, and its reply may be lost; then the batch goes back in front
of the newer lines. A session that ends drops the loop wherever it stands, and with it the
batch that is on its way.
-/

namespace Gridops.HostAgent

open Gridops.Lib Gridops.Fleet

def bufferLines : ℕ := 5000

def batchLines : ℕ := 500

def batchBytes : ℕ := 512 * 1024

/-- `dropped` are the pushes that the count of dropped lines stands for. -/
structure LogBuffer where
  lines : List PushedLine
  dropped : List ℕ
deriving DecidableEq

def lineBytes (p : PushedLine) : ℕ :=
  p.line.message.utf8ByteSize + p.line.target.utf8ByteSize + 64

def countFitting : ℕ → List PushedLine → ℕ
  | _, [] => 0
  | used, p :: ps =>
    if used + lineBytes p ≤ batchBytes then countFitting (used + lineBytes p) ps + 1 else 0

def batchCount (lines : List PushedLine) : ℕ :=
  max (countFitting 0 (lines.take batchLines)) (if lines = [] then 0 else 1)

namespace LogBuffer

variable (b : LogBuffer)

def batch : AgentLogBatch := ⟨b.lines.take (batchCount b.lines), b.dropped⟩

def take : LogBuffer := ⟨b.lines.drop (batchCount b.lines), []⟩

def push (p : PushedLine) : LogBuffer :=
  if b.lines.length ≥ bufferLines then
    ⟨b.lines.tail ++ [p], b.dropped ++ (b.lines.head?.map PushedLine.seq).toList⟩
  else ⟨b.lines ++ [p], b.dropped⟩

def restoreLine (p : PushedLine) : LogBuffer :=
  if b.lines.length ≥ bufferLines then ⟨b.lines, b.dropped ++ [p.seq]⟩ else ⟨p :: b.lines, b.dropped⟩

def restore (batch : AgentLogBatch) : LogBuffer :=
  batch.lines.reverse.foldl restoreLine ⟨b.lines, b.dropped ++ batch.dropped⟩

end LogBuffer

/-! ## The system -/

structure LogShipping where
  pushed : List AgentLogLine
  buffer : LogBuffer
  /-- The batch on its way, and whether this attempt has stored it. -/
  sending : Option (AgentLogBatch × Bool)
  rows : List LogRow
  /-- Where every row that was ever inserted comes from. -/
  history : List Origin
  rejected : List ℕ
  /-- The batches that were stored without the cap cutting anything off. -/
  complete : List AgentLogBatch
deriving DecidableEq

inductive LogStep where
  | push (line : AgentLogLine)
  | ship
  | store (now : Int)
  | reply
  | fail
  | abandon
deriving DecidableEq

namespace LogShipping

def start : LogShipping := ⟨[], ⟨[], []⟩, none, [], [], [], []⟩

def cutOff (s : LogShipping) (batch : AgentLogBatch) (now : Int) : List ℕ :=
  let lines := unseen s.rows batch.lines
  (lines.drop (roomLeft s.rows now).toNat).map PushedLine.seq

def store (s : LogShipping) (batch : AgentLogBatch) (now : Int) : Option LogShipping :=
  match storeAgentLogs s.rows batch now with
  | .error _ => none
  | .ok rows => some { s with
      sending := some (batch, true)
      rows := rows
      history := s.history ++ (inserted s.rows batch now).map LogRow.origin
      rejected := s.rejected ++ s.cutOff batch now
      complete := if (wanted s.rows batch now).length ≤ (roomLeft s.rows now).toNat then
          s.complete ++ [batch]
        else s.complete }

def step (s : LogShipping) : LogStep → Option LogShipping
  | .push line => some { s with
      pushed := s.pushed ++ [line]
      buffer := s.buffer.push ⟨s.pushed.length, line⟩ }
  | .ship =>
    if s.sending = none ∧ (s.buffer.batch.lines ≠ [] ∨ s.buffer.batch.dropped ≠ []) then
      some { s with buffer := s.buffer.take, sending := some (s.buffer.batch, false) }
    else none
  | .store now =>
    match s.sending with
    | some (batch, false) => s.store batch now
    | _ => none
  | .reply =>
    match s.sending with
    | some (_, true) => some { s with sending := none }
    | _ => none
  | .fail =>
    match s.sending with
    | some (batch, _) => some { s with buffer := s.buffer.restore batch, sending := none }
    | none => none
  | .abandon => if s.sending = none then none else some { s with sending := none }

end LogShipping

def logShipping : Machine LogShipping LogStep := ⟨LogShipping.step⟩

end Gridops.HostAgent
