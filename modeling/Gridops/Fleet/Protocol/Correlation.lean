import Gridops.Fleet.Protocol.Outcomes
import Gridops.Lib.Run

/-!
# A result proves its own command

`validate_against` compares a result with the command it answers, and the evidence of a success
with the command's operation.
-/

namespace Gridops.Fleet

open Lib

section

variable (sha256 : List UInt8 → String)

/-- Evidence that an operation was done: it is of the operation's kind and repeats the identities
and digests the operation names. -/
inductive Proves (scope : CommandScope) : AgentOperation → SuccessEvidence → Prop
  | prepared p env : Proves scope (.prepareEnvironment p) (.preparedEnvironment env)
  | started s i : Proves scope (.startRunner s)
      (.runnerStarted s.preparedEnvironmentId s.executionProfileId s.profileRevision i)
  | inspectedHost i : Proves scope .inspectHost (.inspected i)
  | inspected i : Proves scope (.inspect i) (.inspected (some i))
  | drainedHost : Proves scope .drainHost (.drained none)
  | drained i : Proves scope (.drain i) (.drained (some i))
  | stopped i mode : Proves scope (.stop i mode) (.stopped i)
  | cleaned i absence exclusion (habsence : absence.resource = i)
      (hexclusion : exclusion.resource = i) :
      Proves scope (.cleanup i) (.cleaned i absence exclusion)
  | upgraded m v v' o : Proves scope (.upgradeAgent m v v' o) (.agentUpgraded m v)
  | executed i program argv dir timeout limit status out err : Proves scope
      (.executeSandbox i program argv dir timeout limit) (.sandboxExecuted i status out err)
  | fileRead i path limit (chunk : TransferChunk) (hsize : chunk.bytes.length ≤ limit)
      (howner : chunk.ownedBy scope) : Proves scope
      (.sandboxFile i (.read path chunk.offset limit)) (.sandboxFileApplied i
        (.read path chunk.offset limit)
        (.read (some chunk) chunk.bytes.length (sha256 chunk.bytes)))
  | fileEnded i path offset limit : Proves scope (.sandboxFile i (.read path offset limit))
      (.sandboxFileApplied i (.read path offset limit) (.read none 0 (sha256 [])))
  | fileWritten i path a n digest : Proves scope (.sandboxFile i (.write path a n digest))
      (.sandboxFileApplied i (.write path a n digest) (.written ⟨a, n, digest⟩))
  | published i path (artifact : ArtifactReceipt) : Proves scope
      (.sandboxArtifact i (.publish path artifact.artifactId))
      (.sandboxArtifactApplied i (.publish path artifact.artifactId) (.published artifact))
  | fetched i a limit (chunk : TransferChunk) (hstream : chunk.stream = .artifact a)
      (hsize : chunk.bytes.length ≤ limit) (howner : chunk.ownedBy scope) : Proves scope
      (.sandboxArtifact i (.fetch a chunk.offset limit)) (.sandboxArtifactApplied i
        (.fetch a chunk.offset limit)
        (.fetched chunk chunk.bytes.length (sha256 chunk.bytes)))

theorem evidenceMatches_iff {c : AgentCommandEnvelope} {evidence : SuccessEvidence} :
    evidenceMatches sha256 c evidence ↔ Proves sha256 c.scope c.operation evidence := by
  unfold evidenceMatches fileResultMatches artifactResultMatches
  generalize c.operation = operation
  constructor
  · intro h
    -- One case per kind of operation, and per kind of file and artifact result.
    split at h <;> try split at h
    all_goals simp only [Bool.and_eq_true, beq_iff_eq, Option.isNone_iff_eq_none,
      Bool.false_eq_true] at h
    all_goals grind [Proves]
  · rintro (_ | _) <;> simp_all

/-- A result is accepted exactly if an agent builds it for the command, and its evidence proves the
operation. -/
theorem validateAgainst_iff {r : AgentCommandResult} {c : AgentCommandEnvelope} :
    r.validateAgainst sha256 c = .ok () ↔ r = resultFor c r.resultId r.outcome r.observedAt ∧
      ∀ evidence, r.outcome = .succeeded evidence →
        Proves sha256 c.scope c.operation evidence := by
  constructor
  · intro h
    obtain ⟨hsame, h⟩ := guard_eq_ok h
    obtain ⟨hhash, h⟩ := guard_eq_ok h
    obtain ⟨-, h⟩ := guard_eq_ok h
    push Not at hsame hhash
    obtain ⟨hcommand, hoperation, hhost, hepoch, hincarnation, hsession, hsame⟩ := hsame
    constructor
    · obtain ⟨_, _, _, _, _, _, _, scope, generation, _, _, _⟩ := r
      cases hsame
      cases hc : c.scope <;> cases generation <;> simp_all [resultFor, scopeGenerationMatches]
    · intro evidence hevidence
      rw [hevidence] at h
      exact (evidenceMatches_iff sha256).mp (check_eq_ok h).1
  · rintro ⟨hr, hproves⟩
    rw [hr]
    exact resultFor_validateAgainst sha256 c _ _ _ fun evidence hevidence =>
      (evidenceMatches_iff sha256).mpr (hproves evidence hevidence)

/-- **A result proves its own command only**, as long as the hashes of commands do not collide. -/
theorem result_proves_own_command (digest : AgentCommandEnvelope → String) (r : AgentCommandResult)
    (c c' : AgentCommandEnvelope) (hc : c.requestHash = c.canonicalHash digest)
    (hc' : c'.requestHash = c'.canonicalHash digest)
    (hinj : c.canonicalHash digest = c'.canonicalHash digest →
      { c with requestHash := "" } = { c' with requestHash := "" }) :
    (r.validateAgainst sha256 c = .ok () ↔ r = resultFor c r.resultId r.outcome r.observedAt ∧
      ∀ evidence, r.outcome = .succeeded evidence →
        Proves sha256 c.scope c.operation evidence) ∧
    (r.validateAgainst sha256 c = .ok () → r.validateAgainst sha256 c' = .ok () → c = c') := by
  refine ⟨validateAgainst_iff sha256, fun h h' => ?_⟩
  have hhash : r.requestHash = c.requestHash := by rw [((validateAgainst_iff sha256).mp h).1]; rfl
  have hhash' : r.requestHash = c'.requestHash := by rw [((validateAgainst_iff sha256).mp h').1]; rfl
  have hsame : c.requestHash = c'.requestHash := hhash.symm.trans hhash'
  have hblank := hinj (by rw [← hc, ← hc', hsame])
  calc
    c = { ({ c with requestHash := "" } : AgentCommandEnvelope) with
        requestHash := c.requestHash } := rfl
    _ = { ({ c' with requestHash := "" } : AgentCommandEnvelope) with
        requestHash := c'.requestHash } := by rw [hblank, hsame]

end

namespace Sample

def inspectHost : AgentCommandEnvelope where
  commandId := 1
  operationId := 1
  idempotencyKey := .other "inspect"
  hostId := 1
  hostEpoch := 1
  controlPlaneIncarnation := 1
  authoritySessionId := 1
  scope := .host
  expectedRevision := 1
  issuedAt := 0
  deadlineAt := 1000
  requestHash := "inspect"
  operation := .inspectHost

end Sample

theorem result_proves_own_command_inspect :
    (resultFor Sample.inspectHost 1 (.succeeded (.inspected none)) 5).validateAgainst (fun _ => "")
      { Sample.inspectHost with operation := .drainHost, requestHash := "drain" } ≠ .ok () :=
  fun h => absurd ((result_proves_own_command _
    (fun e => if e.operation = .inspectHost then "inspect" else "drain") _ Sample.inspectHost _
    rfl rfl (by decide)).2 rfl h) (by decide)

end Gridops.Fleet
