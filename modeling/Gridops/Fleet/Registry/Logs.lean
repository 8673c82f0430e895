import Gridops.Fleet.Store

/-!
# Log lines of an agent

`store_agent_logs` of `gridops-core/src/fleet/registry/logs.rs`: the rows of one host in
`fleet_agent_logs`. An agent that did not see the reply sends its batch again, and the
control plane recognises what it has by the look of the host's newest stored line.

Every line carries the number of its push, and every row where it comes from. The code has
neither; no function here looks at them.
-/

namespace Gridops.Fleet

def agentLogRetentionMillis : Int := 86400000

def maxBatch : ℕ := 500

def agentLogLinesPerHour : ℕ := 6000

def hourMillis : Int := 3600000

def noticeTarget : String := "gridops"

structure AgentLogLine where
  loggedAt : Int
  level : String
  target : String
  message : String
deriving DecidableEq

structure PushedLine where
  seq : ℕ
  line : AgentLogLine
deriving DecidableEq

/-- A batch, with the pushes that its count of dropped lines stands for. -/
structure AgentLogBatch where
  lines : List PushedLine
  dropped : List ℕ
deriving DecidableEq

inductive Origin where
  | line (seq : ℕ)
  | dropped (seqs : List ℕ)
  | overCap
deriving DecidableEq

structure LogRow where
  line : AgentLogLine
  receivedAt : Int
  origin : Origin
deriving DecidableEq

def fitting : ℕ → List Char → List Char
  | _, [] => []
  | max, c :: cs => if c.utf8Size ≤ max then c :: fitting (max - c.utf8Size) cs else []

def truncate (value : String) (max : ℕ) : String :=
  if value.utf8ByteSize > max then String.ofList (fitting max value.toList) else value

def AgentLogLine.clean (line : AgentLogLine) : AgentLogLine where
  level := if line.level ∈ ["error", "warn", "info", "debug", "trace"] then line.level else "info"
  target := truncate line.target 128
  message := truncate line.message 8192
  loggedAt := line.loggedAt

variable (now : Int)

def notice (message : String) : AgentLogLine := ⟨now, "warn", noticeTarget, message⟩

def droppedNotice (count : ℕ) : AgentLogLine :=
  notice now s!"{count} agent log lines were dropped while GridOps was unreachable"

def overCapNotice : AgentLogLine :=
  notice now (s!"this machine sent more than {agentLogLinesPerHour} log lines this hour; " ++
    "the rest of the hour's lines are dropped")

def newestLine (rows : List LogRow) : Option LogRow :=
  rows.reverse.find? fun row => row.line.target != noticeTarget

def afterLast {α : Type} (p : α → Bool) : List α → List α
  | [] => []
  | x :: xs => if xs.any p then afterLast p xs else if p x then xs else x :: xs

/-- The lines of a batch behind the last one that looks like the newest stored line. -/
def unseen (rows : List LogRow) (lines : List PushedLine) : List PushedLine :=
  match newestLine rows with
  | none => lines
  | some newest => afterLast (fun p => p.line.clean == newest.line) lines

def roomLeft (rows : List LogRow) (now : Int) : Int :=
  agentLogLinesPerHour - (rows.filter fun row => row.receivedAt ≥ now - now % hourMillis).length

def lineRows (lines : List PushedLine) : List LogRow :=
  lines.map fun p => ⟨p.line.clean, now, .line p.seq⟩

def droppedRows (dropped : List ℕ) : List LogRow :=
  if dropped.length > 0 then [⟨droppedNotice now dropped.length, now, .dropped dropped⟩] else []

/-- The notice of the cap. It takes the hour past its cap, so it is added once. -/
def overCapRows (room : Int) : List LogRow :=
  if 0 ≤ room then [⟨overCapNotice now, now, .overCap⟩] else []

def wanted (rows : List LogRow) (batch : AgentLogBatch) (now : Int) : List LogRow :=
  lineRows now (unseen rows batch.lines) ++ droppedRows now batch.dropped

def inserted (rows : List LogRow) (batch : AgentLogBatch) (now : Int) : List LogRow :=
  let lines := wanted rows batch now
  let room := roomLeft rows now
  if lines.length > room.toNat then lines.take room.toNat ++ overCapRows now room else lines

def storeAgentLogs (rows : List LogRow) (batch : AgentLogBatch) (now : Int) :
    Except RegistryError (List LogRow) :=
  if batch.lines.length > maxBatch then .error (.invalidRequest "too many log lines")
  else .ok ((rows ++ inserted rows batch now).filter fun row =>
    row.receivedAt ≥ now - agentLogRetentionMillis)

theorem afterLast_spec {α : Type} (p : α → Bool) (l : List α) :
    ((∀ x ∈ l, p x = false) ∧ afterLast p l = l) ∨
      ∃ before x, l = before ++ x :: afterLast p l ∧ l.reverse.find? p = some x := by
  induction l with
  | nil => exact .inl ⟨by simp, rfl⟩
  | cons x xs ih =>
    unfold afterLast
    by_cases hany : xs.any p = true
    · rw [if_pos hany]
      obtain ⟨hnone, -⟩ | ⟨before, y, hxs, hy⟩ := ih
      · obtain ⟨y, hy, hp⟩ := List.any_eq_true.mp hany
        rw [hnone y hy] at hp
        cases hp
      · refine .inr ⟨x :: before, y, by rw [List.cons_append, ← hxs], ?_⟩
        rw [List.reverse_cons, List.find?_append, hy, Option.some_or]
    · have hnone : ∀ y ∈ xs, p y = false := by simpa using hany
      have hrest : xs.reverse.find? p = none := by
        rw [List.find?_eq_none]
        intro y hy
        rw [hnone y (List.mem_reverse.mp hy)]
        exact Bool.false_ne_true
      rw [if_neg hany]
      by_cases hx : p x = true
      · rw [if_pos hx]
        refine .inr ⟨[], x, rfl, ?_⟩
        rw [List.reverse_cons, List.find?_append, hrest, Option.none_or,
          List.find?_cons_of_pos hx]
      · rw [if_neg hx]
        refine .inl ⟨fun y hy => ?_, rfl⟩
        rcases List.mem_cons.mp hy with rfl | hy
        · simpa using hx
        · exact hnone y hy

/-! ## Where rows come from -/

def lineSeqs (origins : List Origin) : List ℕ :=
  origins.filterMap fun origin =>
    match origin with
    | .line seq => some seq
    | _ => none

def countedSeqs (origins : List Origin) : List ℕ :=
  origins.flatMap fun origin =>
    match origin with
    | .dropped seqs => seqs
    | _ => []

section Origins

variable {rows : List LogRow} {batch : AgentLogBatch} {now : Int}

theorem lineSeqs_append (a b : List Origin) : lineSeqs (a ++ b) = lineSeqs a ++ lineSeqs b :=
  List.filterMap_append

theorem countedSeqs_append (a b : List Origin) :
    countedSeqs (a ++ b) = countedSeqs a ++ countedSeqs b :=
  List.flatMap_append

theorem origin_lineRows (lines : List PushedLine) :
    (lineRows now lines).map LogRow.origin = lines.map fun p => .line p.seq := by
  rw [lineRows, List.map_map]
  rfl

theorem lineSeqs_lineRows (lines : List PushedLine) :
    lineSeqs ((lineRows now lines).map LogRow.origin) = lines.map PushedLine.seq := by
  rw [origin_lineRows, lineSeqs, List.filterMap_map]
  exact congrFun List.filterMap_eq_map lines

theorem countedSeqs_lineRows (lines : List PushedLine) :
    countedSeqs ((lineRows now lines).map LogRow.origin) = [] := by
  rw [origin_lineRows, countedSeqs, List.flatMap_map]
  simp

def noticeRows (rows : List LogRow) (batch : AgentLogBatch) (now : Int) : List LogRow :=
  if (wanted rows batch now).length > (roomLeft rows now).toNat then
    overCapRows now (roomLeft rows now)
  else droppedRows now batch.dropped

theorem length_wanted (rows : List LogRow) (batch : AgentLogBatch) (now : Int) :
    (wanted rows batch now).length =
      (unseen rows batch.lines).length + (droppedRows now batch.dropped).length := by
  rw [wanted, List.length_append, lineRows, List.length_map]

theorem length_droppedRows (now : Int) (dropped : List ℕ) :
    (droppedRows now dropped).length ≤ 1 := by
  unfold droppedRows
  split <;> simp

/-- **What is inserted**: of the unseen lines those that fit, then the notices. -/
theorem inserted_eq (rows : List LogRow) (batch : AgentLogBatch) (now : Int) :
    inserted rows batch now =
      lineRows now ((unseen rows batch.lines).take (roomLeft rows now).toNat) ++
        noticeRows rows batch now := by
  have hlength := length_wanted rows batch now
  have hnotice := length_droppedRows now batch.dropped
  unfold inserted noticeRows
  simp only
  split
  · next hcut =>
    -- The notice of dropped lines is the last row, so it is the first to go.
    rw [wanted, List.take_append_of_le_length, lineRows, lineRows, List.map_take]
    rw [lineRows, List.length_map]
    omega
  · rw [wanted, List.take_of_length_le]
    omega

theorem target_noticeRows {row : LogRow} (h : row ∈ noticeRows rows batch now) :
    row.line.target = noticeTarget := by
  unfold noticeRows overCapRows droppedRows at h
  split at h <;> split at h <;> simp at h
  all_goals
    rw [h]
    rfl

theorem lineSeqs_noticeRows : lineSeqs ((noticeRows rows batch now).map LogRow.origin) = [] := by
  unfold noticeRows overCapRows droppedRows
  split <;> split <;> rfl

/-- The dropped lines are counted unless the cap cuts off the notice. -/
theorem countedSeqs_noticeRows : countedSeqs ((noticeRows rows batch now).map LogRow.origin) =
    if (wanted rows batch now).length > (roomLeft rows now).toNat then [] else batch.dropped := by
  unfold noticeRows
  split
  · unfold overCapRows
    split <;> rfl
  · unfold droppedRows
    split
    · simp [countedSeqs]
    · next hnone =>
      have : batch.dropped = [] := by simpa using hnone
      rw [this]
      rfl

end Origins

end Gridops.Fleet
