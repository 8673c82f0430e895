import Gridops.Lib.Base64
import Gridops.Lib.Codec
import Gridops.Lib.Uuid
import Gridops.Fleet.Protocol.Primitives

/-!
# Envelopes on the wire

The JSON an `AgentCommandEnvelope` is written as and read from: the serde attributes of
`protocol/agent.rs`, `protocol/primitives.rs`, `domain.rs` and `ids.rs`, one codec a type.
A codec's `Valid` says which numbers and texts are values of the type at all, since the
envelope model holds identifiers as numbers and every text as a `String`.

The text of a time is what `chrono` makes of it, so it is a parameter `TimeText`.
-/

namespace Gridops.Fleet

open Gridops.Lib Gridops.Lib.Json Gridops.Lib.Text

def isControl (c : Char) : Bool := c.toNat < 0x20 || (0x7f ≤ c.toNat && c.toNat ≤ 0x9f)

/-- A text of 1 to `max` characters without control characters. -/
def isBoundedText (max : Nat) (s : String) : Bool :=
  s.toList != [] && s.toList.length ≤ max && s.toList.all (!isControl ·)

def upstreamTextOk : String → Bool := isBoundedText 128

def imageReferenceOk : String → Bool := isBoundedText 300

def sandboxArgumentOk (s : String) : Bool :=
  s.utf8ByteSize ≤ 16384 && s.toList.all (·.toNat != 0)

def sandboxProgramOk (s : String) : Bool :=
  s.toList != [] && s.utf8ByteSize ≤ 1024 && s.toList.all (·.toNat != 0)

def sandboxPathOk (s : String) : Bool :=
  s.toList != [] && s.utf8ByteSize ≤ 1024
    && s.toList.all (fun c => !isControl c && c != backslash && c != ':')
    && (s.toList.splitOn '/').all fun part => part != [] && part != ['.'] && part != ['.', '.']

theorem utf8Length_le_four : ∀ cs : List Char, utf8Length cs ≤ 4 * cs.length
  | [] => Nat.le_refl _
  | c :: cs => by
    have hc := c.utf8Size_le_four
    have hcs := utf8Length_le_four cs
    rw [utf8Length_cons, List.length_cons]
    omega

theorem stringWeight_of_length {s : String} {max : Nat} (h : s.toList.length ≤ max) :
    stringWeight s ≤ 24 * max + 2 := by
  have hbytes := utf8Length_le_four s.toList
  rw [stringWeight, utf8ByteSize_eq]
  omega

theorem stringWeight_of_bounded {max : Nat} {s : String} (h : isBoundedText max s = true) :
    stringWeight s ≤ 24 * max + 2 := by
  simp only [isBoundedText, Bool.and_eq_true, decide_eq_true_eq] at h
  exact stringWeight_of_length h.1.2

/-! ## Codecs of identifiers, counters, texts and times -/

namespace Wire

def uuid : Codec Nat :=
  .ofText Uuid.print (fun s => (Uuid.parse s).filter (· != 0)) (fun n => n ≠ 0 ∧ n < 2 ^ 128)
    (fun _ => 218)
    (fun {n} h => by
      rw [Uuid.parse_print h.2]
      simp [h.1])
    (fun {s n} h => by
      obtain ⟨hparse, hnil⟩ := Option.filter_eq_some_iff.mp h
      exact ⟨by simpa using hnil, Uuid.lt_of_parse hparse⟩)
    fun _ => by rw [stringWeight, Uuid.utf8ByteSize_print]

def maxCounter : Nat := 2 ^ 63 - 1

/-- `HostEpoch`, `Generation`, `Revision` and `ExternalId`. -/
def counter : Codec Nat := .bounded 1 maxCounter (by decide)

def processId : Codec Nat := .bounded 1 4294967295 (by decide)

def byteOffset : Codec Nat := .bounded 0 maxCounter (by decide)

def upstreamText : Codec String :=
  .text upstreamTextOk (fun _ => 3074) fun h => stringWeight_of_bounded h

def imageReference : Codec String :=
  .text imageReferenceOk (fun _ => 7202) fun h => stringWeight_of_bounded h

def sandboxArgument : Codec String := .text sandboxArgumentOk stringWeight fun _ => Nat.le_refl _

def sandboxProgram : Codec String :=
  .text sandboxProgramOk (fun _ => 6146) fun h => by
    simp only [sandboxProgramOk, Bool.and_eq_true, decide_eq_true_eq] at h
    rw [stringWeight]
    omega

def sandboxPath : Codec String :=
  .text sandboxPathOk (fun _ => 6146) fun h => by
    simp only [sandboxPathOk, Bool.and_eq_true, decide_eq_true_eq] at h
    rw [stringWeight]
    omega

theorem uuid_ne_null (n : Nat) : uuid.encode n ≠ .null := by
  intro h
  cases h

theorem upstreamText_ne_null (s : String) : upstreamText.encode s ≠ .null := by
  intro h
  cases h

theorem sandboxPath_ne_null (s : String) : sandboxPath.encode s ≠ .null := by
  intro h
  cases h

def sha256Digest : Codec String :=
  .text validateSecretText (fun _ => 1034) fun h => by
    simp only [validateSecretText, Bool.and_eq_true, beq_iff_eq] at h
    exact stringWeight_of_length (Nat.le_of_eq h.1.1)

def anyText : Codec String := .text (fun _ => true) stringWeight fun _ => Nat.le_refl _

end Wire

/-- How times are written and read: RFC 3339 in UTC with milliseconds. -/
structure TimeText where
  format : Millis → String
  parse : String → Option Millis
  parse_format : ∀ {t}, WireTimestamp.Carries t → parse (format t) = some t
  carries_of_parse : ∀ {s t}, parse s = some t → WireTimestamp.Carries t
  format_size : ∀ {t}, WireTimestamp.Carries t → (format t).utf8ByteSize ≤ 32

def Wire.timestamp (T : TimeText) : Codec Millis :=
  .ofText T.format T.parse WireTimestamp.Carries (fun _ => 194) T.parse_format T.carries_of_parse
    fun h => by
      have hsize := T.format_size h
      rw [stringWeight]
      omega

/-! ## Idempotency keys -/

namespace IdempotencyKey

def text : IdempotencyKey → String
  | .prepare p => "prepare:" ++ Uuid.print p
  | .start p => "start:" ++ Uuid.print p
  | .cleanup p minute => "cleanup:" ++ Uuid.print p ++ ":" ++ String.ofList (printInt minute)
  | .inspect p bucket => "inspect:" ++ Uuid.print p ++ ":" ++ String.ofList (printInt bucket)
  | .other text => text

def timed (cs : List Char) : Option (PlacementId × Int) := do
  let p ← Uuid.parse (String.ofList (cs.take 36))
  let number ← after [':'] (cs.drop 36)
  match parseNumber number with
  | some (.num n, []) => some (p, n)
  | _ => none

def guess (cs : List Char) : Option IdempotencyKey :=
  ((after "prepare:".toList cs).bind fun r => (Uuid.parse (String.ofList r)).map .prepare)
    <|> ((after "start:".toList cs).bind fun r => (Uuid.parse (String.ofList r)).map .start)
    <|> ((after "cleanup:".toList cs).bind fun r => (timed r).map fun (p, n) => .cleanup p n)
    <|> ((after "inspect:".toList cs).bind fun r => (timed r).map fun (p, n) => .inspect p n)

def ofText (s : String) : IdempotencyKey :=
  match guess s.toList with
  | some k => if k.text = s then k else .other s
  | none => .other s

theorem text_ofText (s : String) : (ofText s).text = s := by
  unfold ofText
  split
  · split
    · assumption
    · rfl
  · rfl

theorem after_append : ∀ (word cs : List Char), after word (word ++ cs) = some cs
  | [], _ => rfl
  | w :: ws, cs => by rw [List.cons_append, after, if_pos rfl, after_append ws cs]

theorem ofText_prepare {p : PlacementId} (h : p < 2 ^ 128) :
    ofText (text (.prepare p)) = .prepare p := by
  have hguess : guess (text (.prepare p)).toList = some (.prepare p) := by
    rw [guess, text, String.toList_append, after_append, Option.bind_some, String.ofList_toList,
      Uuid.parse_print h]
    rfl
  rw [ofText, hguess]
  exact if_pos rfl

end IdempotencyKey

def Wire.idempotencyKey : Codec IdempotencyKey :=
  .ofText IdempotencyKey.text
    (fun s => if Store.validateIdempotencyKey s then some (IdempotencyKey.ofText s) else none)
    (fun k => Store.validateIdempotencyKey k.text = true ∧ IdempotencyKey.ofText k.text = k)
    (fun _ => 3074)
    (fun {k} h => by rw [if_pos h.1, h.2])
    (fun {s k} h => by
      obtain ⟨hs, hk⟩ := Option.ite_none_right_eq_some.mp h
      cases hk
      rw [IdempotencyKey.text_ofText]
      exact ⟨hs, rfl⟩)
    fun {k} h => by
      have hkey := h.1
      simp only [Store.validateIdempotencyKey, Bool.and_eq_true, decide_eq_true_eq] at hkey
      exact stringWeight_of_length hkey.1.2

namespace Wire

open Record Variants

def runnerMode : Codec RunnerMode :=
  .named (fun | .ephemeral => "ephemeral" | .persistent => "persistent") [.ephemeral, .persistent]
    (by rintro (_ | _) <;> decide) (by decide) (by decide)

def preparedWorkload : Codec PreparedWorkload :=
  .named (fun | .ciRunner => "ci_runner" | .fixSandbox => "fix_sandbox") [.ciRunner, .fixSandbox]
    (by rintro (_ | _) <;> decide) (by decide) (by decide)

def runtimeKind : Codec RuntimeKind :=
  .named (fun | .docker => "docker" | .tartVm => "tart_vm" | .nativeProcess => "native_process")
    [.docker, .tartVm, .nativeProcess] (by rintro (_ | _ | _) <;> decide) (by decide) (by decide)

def executionOs : Codec ExecutionOs :=
  .named (fun | .linux => "linux" | .macos => "macos" | .windows => "windows")
    [.linux, .macos, .windows] (by rintro (_ | _ | _) <;> decide) (by decide) (by decide)

def architecture : Codec Architecture :=
  .named (fun | .x64 => "x64" | .arm64 => "arm64") [.x64, .arm64]
    (by rintro (_ | _) <;> decide) (by decide) (by decide)

def stopMode : Codec StopMode :=
  .named (fun | .idleOnly => "idle_only" | .cancelBusy => "cancel_busy") [.idleOnly, .cancelBusy]
    (by rintro (_ | _) <;> decide) (by decide) (by decide)

/-! ## The parts of an envelope -/

def ciTarget : Codec CiTarget :=
  tagged "platform" <| Variants.iso
    ((case "github_repository" ((field "installation_id" counter).and
        (field "repository_id" counter)) true).or
      ((case "github_organization" ((field "installation_id" counter).and
          (field "organization_id" counter)) true).or
        ((case "bitbucket_workspace" ((field "connection_id" upstreamText).and
            (field "workspace_uuid" uuid)) true).or
          (case "bitbucket_repository" ((field "connection_id" upstreamText).and
            ((field "workspace_uuid" uuid).and (field "repository_uuid" uuid))) true))))
    { toFun
        | .inl (installation, repository) => .githubRepository installation repository
        | .inr (.inl (installation, organization)) => .githubOrganization installation organization
        | .inr (.inr (.inl (connection, workspace))) => .bitbucketWorkspace connection workspace
        | .inr (.inr (.inr (connection, workspace, repository))) =>
          .bitbucketRepository connection workspace repository
      invFun
        | .githubRepository installation repository => .inl (installation, repository)
        | .githubOrganization installation organization => .inr (.inl (installation, organization))
        | .bitbucketWorkspace connection workspace => .inr (.inr (.inl (connection, workspace)))
        | .bitbucketRepository connection workspace repository =>
          .inr (.inr (.inr (connection, workspace, repository)))
      left_inv := by rintro (_ | _ | _ | _) <;> rfl
      right_inv := by rintro (_ | _ | _ | _) <;> rfl }

def maxCpuMillis : Nat := 4000000
def maxMemoryMib : Nat := 4 * 1024 * 1024
def maxDiskBytes : Nat := 64 * 1024 * 1024 * 1024 * 1024

/-- `RawResourceRequest`, whose other fields are ignored, with the checks of
`ResourceRequest::new`. -/
def resourceRequest : Codec ResourceRequest :=
  object (Record.iso
    ((field "cpu_millis" (.bounded 1 maxCpuMillis (by decide))).and
      ((field "memory_mib" (.bounded 1 maxMemoryMib (by decide))).and
        (field "disk_bytes" (.bounded 0 maxDiskBytes (by decide)))))
    ⟨fun (cpu, memory, disk) => ⟨cpu, memory, disk⟩,
      fun r => (r.cpuMillis, r.memoryMib, r.diskBytes),
      fun _ => rfl, fun _ => rfl⟩) false

def executionConfiguration : Codec ExecutionConfiguration :=
  object (Record.iso
    ((optional "network" upstreamText upstreamText_ne_null).and
      ((optional "session_id" uuid uuid_ne_null).and
        ((fieldOr "requires_interactive" .bool (some false) (fun b _ => Codec.valid_bool b)).and
          (fieldOr "requires_docker_socket" .bool (some false) (fun b _ => Codec.valid_bool b)))))
    ⟨fun (network, session, interactive, socket) => ⟨network, session, interactive, socket⟩,
      fun c => (c.network, c.sessionId, c.requiresInteractive, c.requiresDockerSocket),
      fun _ => rfl, fun _ => rfl⟩) true

def prepareEnvironment : Record PrepareEnvironment :=
  Record.iso
    ((field "execution_profile_id" uuid).and <| (field "profile_revision" counter).and <|
      (field "workload" preparedWorkload).and <| (field "target" ciTarget).and <|
      (field "runtime_kind" runtimeKind).and <| (field "execution_os" executionOs).and <|
      (field "architecture" architecture).and <| (field "mode" runnerMode).and <|
      (field "image" imageReference).and <| (field "labels" upstreamText.list).and <|
      (field "configuration" executionConfiguration).and <|
      (field "resource_request" resourceRequest).and <| field "allocation_ids" uuid.list)
    ⟨fun (profile, revision, workload, target, runtime, os, arch, mode, image, labels,
        configuration, request, allocations) =>
        ⟨profile, revision, workload, target, runtime, os, arch, mode, image, labels, configuration,
          request, allocations⟩,
      fun p => (p.executionProfileId, p.profileRevision, p.workload, p.target, p.runtimeKind,
        p.executionOs, p.architecture, p.mode, p.image, p.labels, p.configuration,
        p.resourceRequest, p.allocationIds),
      fun _ => rfl, fun _ => rfl⟩

def localResourceIdentity : Codec LocalResourceIdentity :=
  tagged "kind" <| Variants.iso
    ((case "docker" (field "object_id" upstreamText) true).or
      ((case "tart_vm" (field "name" upstreamText) true).or
        (case "native_process" ((field "boot_id" upstreamText).and <|
          (field "process_id" processId).and <|
          field "start_marker" upstreamText) true)))
    { toFun
        | .inl objectId => .docker objectId
        | .inr (.inl name) => .tartVm name
        | .inr (.inr (boot, process, marker)) => .nativeProcess boot process marker
      invFun
        | .docker objectId => .inl objectId
        | .tartVm name => .inr (.inl name)
        | .nativeProcess boot process marker => .inr (.inr (boot, process, marker))
      left_inv := by rintro (_ | _ | _) <;> rfl
      right_inv := by rintro (_ | _ | _) <;> rfl }

def startRunner (T : TimeText) : Record StartRunner :=
  Record.iso
    ((field "prepared_environment_id" uuid).and <| (field "execution_profile_id" uuid).and <|
      (field "profile_revision" counter).and <| (field "bootstrap_reference" uuid).and <|
      (field "bootstrap_expires_at" (timestamp T)).and <|
      (field "resource_request" resourceRequest).and <| field "allocation_ids" uuid.list)
    ⟨fun (environment, profile, revision, bootstrap, expires, request, allocations) =>
        ⟨environment, profile, revision, bootstrap, expires, request, allocations⟩,
      fun s => (s.preparedEnvironmentId, s.executionProfileId, s.profileRevision,
        s.bootstrapReference, s.bootstrapExpiresAt, s.resourceRequest, s.allocationIds),
      fun _ => rfl, fun _ => rfl⟩

def maxBytes : Codec Nat := .bounded 1 262144 (by decide)

def sandboxFileAction : Codec SandboxFileAction :=
  tagged "kind" <| Variants.iso
    ((case "read" ((field "path" sandboxPath).and <| (field "offset" byteOffset).and <|
        field "max_bytes" maxBytes) true).or
      (case "write" ((field "path" sandboxPath).and <| (field "artifact_id" uuid).and <|
        (field "expected_length" byteOffset).and <| field "sha256" sha256Digest) true))
    { toFun
        | .inl (path, offset, max) => .read path offset max
        | .inr (path, artifact, length, digest) => .write path artifact length digest
      invFun
        | .read path offset max => .inl (path, offset, max)
        | .write path artifact length digest => .inr (path, artifact, length, digest)
      left_inv := by rintro (_ | _) <;> rfl
      right_inv := by rintro (_ | _) <;> rfl }

def sandboxArtifactAction : Codec SandboxArtifactAction :=
  tagged "kind" <| Variants.iso
    ((case "publish" ((field "path" sandboxPath).and <| field "artifact_id" uuid) true).or
      (case "fetch" ((field "artifact_id" uuid).and <| (field "offset" byteOffset).and <|
        field "max_bytes" maxBytes) true))
    { toFun
        | .inl (path, artifact) => .publish path artifact
        | .inr (artifact, offset, max) => .fetch artifact offset max
      invFun
        | .publish path artifact => .inl (path, artifact)
        | .fetch artifact offset max => .inr (artifact, offset, max)
      left_inv := by rintro (_ | _) <;> rfl
      right_inv := by rintro (_ | _) <;> rfl }

/-! ## Operations and envelopes -/

def expectedResource : Record LocalResourceIdentity :=
  field "expected_resource" localResourceIdentity

/-- A case without fields of its own ignores every other field. -/
def agentOperation (T : TimeText) : Codec AgentOperation :=
  tagged "kind" <| Variants.iso
    ((case "prepare_environment" prepareEnvironment true).or <|
      (case "start_runner" (startRunner T) true).or <|
      (case "inspect_host" Record.unit false).or <|
      (case "drain_host" Record.unit false).or <|
      (case "inspect" expectedResource true).or <|
      (case "drain" expectedResource true).or <|
      (case "stop" (expectedResource.and <| field "mode" stopMode) true).or <|
      (case "cleanup" expectedResource true).or <|
      (case "upgrade_agent" ((field "signed_manifest_reference" uuid).and <|
        (field "expected_version" upstreamText).and <| (field "current_version" upstreamText).and <|
        field "drain_operation_id" uuid) true).or <|
      (case "execute_sandbox" (expectedResource.and <| (field "program" sandboxProgram).and <|
        (field "argv" sandboxArgument.list).and <|
        (optional "working_directory" sandboxPath sandboxPath_ne_null).and <|
        (field "timeout_ms" (.bounded 1 300000 (by decide))).and <|
        field "output_limit_bytes" (.bounded 1 1048576 (by decide))) true).or <|
      (case "sandbox_file" (expectedResource.and <| field "action" sandboxFileAction) true).or <|
      case "sandbox_artifact" (expectedResource.and <| field "action" sandboxArtifactAction) true)
    { toFun
        | .inl p => .prepareEnvironment p
        | .inr (.inl s) => .startRunner s
        | .inr (.inr (.inl ())) => .inspectHost
        | .inr (.inr (.inr (.inl ()))) => .drainHost
        | .inr (.inr (.inr (.inr (.inl r)))) => .inspect r
        | .inr (.inr (.inr (.inr (.inr (.inl r))))) => .drain r
        | .inr (.inr (.inr (.inr (.inr (.inr (.inl (r, mode))))))) => .stop r mode
        | .inr (.inr (.inr (.inr (.inr (.inr (.inr (.inl r))))))) => .cleanup r
        | .inr (.inr (.inr (.inr (.inr (.inr (.inr (.inr (.inl (m, e, c, d))))))))) =>
          .upgradeAgent m e c d
        | .inr (.inr (.inr (.inr (.inr (.inr (.inr (.inr (.inr (.inl (r, p, as, d, t, o)))))))))) =>
          .executeSandbox r p as d t o
        | .inr (.inr (.inr (.inr (.inr (.inr (.inr (.inr (.inr (.inr (.inl (r, a))))))))))) =>
          .sandboxFile r a
        | .inr (.inr (.inr (.inr (.inr (.inr (.inr (.inr (.inr (.inr (.inr (r, a))))))))))) =>
          .sandboxArtifact r a
      invFun
        | .prepareEnvironment p => .inl p
        | .startRunner s => .inr (.inl s)
        | .inspectHost => .inr (.inr (.inl ()))
        | .drainHost => .inr (.inr (.inr (.inl ())))
        | .inspect r => .inr (.inr (.inr (.inr (.inl r))))
        | .drain r => .inr (.inr (.inr (.inr (.inr (.inl r)))))
        | .stop r mode => .inr (.inr (.inr (.inr (.inr (.inr (.inl (r, mode)))))))
        | .cleanup r => .inr (.inr (.inr (.inr (.inr (.inr (.inr (.inl r)))))))
        | .upgradeAgent m e c d =>
          .inr (.inr (.inr (.inr (.inr (.inr (.inr (.inr (.inl (m, e, c, d)))))))))
        | .executeSandbox r p as dir t o =>
          .inr (.inr (.inr (.inr (.inr (.inr (.inr (.inr (.inr (.inl (r, p, as, dir, t, o))))))))))
        | .sandboxFile r a =>
          .inr (.inr (.inr (.inr (.inr (.inr (.inr (.inr (.inr (.inr (.inl (r, a)))))))))))
        | .sandboxArtifact r a =>
          .inr (.inr (.inr (.inr (.inr (.inr (.inr (.inr (.inr (.inr (.inr (r, a)))))))))))
      left_inv := by
        rintro (_ | _ | _ | _ | _ | _ | _ | _ | _ | _ | _ | _) <;> rfl
      right_inv := by
        rintro (_ | _ | _ | _ | _ | _ | _ | _ | _ | _ | _ | _) <;> rfl }

def commandScope : Codec CommandScope :=
  tagged "kind" <| Variants.iso
    ((case "host" Record.unit false).or
      (case "placement" ((field "placement_id" uuid).and <| (field "backend_id" uuid).and <|
        field "generation" counter) true))
    { toFun
        | .inl () => .host
        | .inr (placement, backend, generation) => .placement placement backend generation
      invFun
        | .host => .inl ()
        | .placement placement backend generation => .inr (placement, backend, generation)
      left_inv := by rintro (_ | _) <;> rfl
      right_inv := by rintro (_ | _) <;> rfl }

def agentCommandEnvelope (T : TimeText) : Codec AgentCommandEnvelope :=
  object (Record.iso
    ((field "protocol_version" (.bounded 1 1 (by decide))).and <| (field "command_id" uuid).and <|
      (field "operation_id" uuid).and <| (field "idempotency_key" idempotencyKey).and <|
      (field "host_id" uuid).and <| (field "host_epoch" counter).and <|
      (field "control_plane_incarnation" uuid).and <| (field "authority_session_id" uuid).and <|
      (field "scope" commandScope).and <| (field "expected_revision" counter).and <|
      (field "issued_at" (timestamp T)).and <| (field "deadline_at" (timestamp T)).and <|
      (field "request_hash" anyText).and <| field "operation" (agentOperation T))
    ⟨fun (version, command, operation, key, host, epoch, incarnation, session, scope, revision,
        issued, deadline, hash, work) =>
        ⟨version, command, operation, key, host, epoch, incarnation, session, scope, revision,
          issued, deadline, hash, work⟩,
      fun e => (e.protocolVersion, e.commandId, e.operationId, e.idempotencyKey, e.hostId,
        e.hostEpoch, e.controlPlaneIncarnation, e.authoritySessionId, e.scope, e.expectedRevision,
        e.issuedAt, e.deadlineAt, e.requestHash, e.operation),
      fun _ => rfl, fun _ => rfl⟩) true

/-! ## The size of an envelope -/

section Size

@[simp] theorem cost_uuid (n : Nat) : uuid.cost n = 218 := (rfl)
@[simp] theorem cost_counter (n : Nat) : counter.cost n = 20 := (rfl)
@[simp] theorem cost_processId (n : Nat) : processId.cost n = 20 := (rfl)
@[simp] theorem cost_byteOffset (n : Nat) : byteOffset.cost n = 20 := (rfl)
@[simp] theorem cost_maxBytes (n : Nat) : maxBytes.cost n = 20 := (rfl)
@[simp] theorem cost_upstreamText (s : String) : upstreamText.cost s = 3074 := (rfl)
@[simp] theorem cost_imageReference (s : String) : imageReference.cost s = 7202 := (rfl)
@[simp] theorem cost_sandboxProgram (s : String) : sandboxProgram.cost s = 6146 := (rfl)
@[simp] theorem cost_sandboxPath (s : String) : sandboxPath.cost s = 6146 := (rfl)
@[simp] theorem cost_sha256Digest (s : String) : sha256Digest.cost s = 1034 := (rfl)
@[simp] theorem cost_anyText (s : String) : anyText.cost s = stringWeight s := (rfl)
@[simp] theorem cost_idempotencyKey (k : IdempotencyKey) : idempotencyKey.cost k = 3074 := (rfl)
variable (T : TimeText)

@[simp] theorem cost_timestamp (t : Millis) : (timestamp T).cost t = 194 := (rfl)

theorem nameCost_eq : nameCost = 200 := (rfl)

theorem cost_ciTarget_le (t : CiTarget) : ciTarget.cost t ≤ 5000 := by
  cases t <;> simp [ciTarget] <;> rw [nameCost_eq] <;> omega

theorem cost_resourceRequest (r : ResourceRequest) : resourceRequest.cost r = 668 := by
  simp [resourceRequest, nameCost]

theorem cost_executionConfiguration_le (c : ExecutionConfiguration) :
    executionConfiguration.cost c ≤ 4200 := by
  have hnetwork := upstreamText.cost_option_le upstreamText_ne_null
    (fun s => Nat.le_of_eq (cost_upstreamText s)) c.network
  have hsession := uuid.cost_option_le uuid_ne_null
    (fun n => Nat.le_of_eq (cost_uuid n)) c.sessionId
  simp only [executionConfiguration, Record.cost_object, Record.cost_iso, Record.cost_and,
    Record.cost_optional, Record.cost_fieldOr, Equiv.coe_fn_symm_mk, Codec.cost_bool]
  have hname := nameCost_eq
  omega

theorem cost_localResourceIdentity_le (r : LocalResourceIdentity) :
    localResourceIdentity.cost r ≤ 7200 := by
  cases r <;> simp [localResourceIdentity] <;> rw [nameCost_eq] <;> omega

theorem cost_sandboxFileAction_le (a : SandboxFileAction) : sandboxFileAction.cost a ≤ 9000 := by
  cases a <;> simp [sandboxFileAction] <;> rw [nameCost_eq] <;> omega

theorem cost_sandboxArtifactAction_le (a : SandboxArtifactAction) :
    sandboxArtifactAction.cost a ≤ 9000 := by
  cases a <;> simp [sandboxArtifactAction] <;> rw [nameCost_eq] <;> omega

theorem cost_commandScope_le (s : CommandScope) : commandScope.cost s ≤ 2000 := by
  cases s <;> simp [commandScope] <;> rw [nameCost_eq] <;> omega

theorem listCost_sandboxArgument (argv : List String) :
    sandboxArgument.listCost argv = 6 * (argv.map (·.utf8ByteSize)).sum + 3 * argv.length := by
  induction argv with
  | nil => rfl
  | cons s argv ih =>
    have hcost : sandboxArgument.cost s = 6 * s.utf8ByteSize + 2 := rfl
    simp only [Codec.listCost, List.map_cons, List.sum_cons, List.length_cons] at ih ⊢
    omega

theorem length_of_checkAllocations {ids : List AllocationId} (h : checkAllocations ids = .ok ()) :
    ids.length ≤ 64 := by
  unfold checkAllocations maxResourceDomainDepth at h
  split at h
  · cases h
  · omega

theorem listCost_uuid_le {ids : List Nat} (h : ids.length ≤ 64) : uuid.listCost ids ≤ 14016 := by
  have hcost := uuid.listCost_le (fun n => Nat.le_of_eq (cost_uuid n)) ids
  omega

theorem cost_prepareEnvironment_le {p : PrepareEnvironment} (hlabels : p.labels.length ≤ 100)
    (hids : p.allocationIds.length ≤ 64) : prepareEnvironment.cost p ≤ 400000 := by
  have htarget := cost_ciTarget_le p.target
  have hconfiguration := cost_executionConfiguration_le p.configuration
  have htexts := upstreamText.listCost_le (fun s => Nat.le_of_eq (cost_upstreamText s)) p.labels
  have hallocations := listCost_uuid_le hids
  simp only [prepareEnvironment, Record.cost_iso, Record.cost_and, Record.cost_field,
    Equiv.coe_fn_symm_mk, cost_uuid, cost_counter, preparedWorkload, runtimeKind, executionOs,
    architecture, runnerMode, Codec.cost_named, cost_imageReference, Codec.cost_list,
    cost_resourceRequest]
  rw [nameCost_eq]
  linarith

theorem cost_startRunner_le {s : StartRunner} (hids : s.allocationIds.length ≤ 64) :
    (startRunner T).cost s ≤ 20000 := by
  have hallocations := listCost_uuid_le hids
  simp only [startRunner, Record.cost_iso, Record.cost_and, Record.cost_field,
    Equiv.coe_fn_symm_mk, cost_uuid, cost_counter, cost_timestamp, Codec.cost_list,
    cost_resourceRequest]
  rw [nameCost_eq]
  omega

theorem cost_agentOperation_le {op : AgentOperation} {scope : CommandScope} {revision : Nat}
    (h : op.check scope revision = .ok ()) :
    (agentOperation T).cost op ≤ 500000 := by
  unfold AgentOperation.check at h
  split at h
  · cases h
  cases op with
  | prepareEnvironment p =>
    obtain ⟨⟨⟩, hallocations, h⟩ := bind_eq_ok h
    have hlabels : p.labels.length ≤ 100 := by
      obtain ⟨hconsistent, h⟩ := guard_eq_ok h
      simp only [PrepareEnvironment.inconsistent, Bool.or_eq_true, decide_eq_true_eq]
        at hconsistent
      omega
    have hcost := cost_prepareEnvironment_le hlabels (length_of_checkAllocations hallocations)
    simp [agentOperation]
    rw [nameCost_eq]
    omega
  | startRunner s =>
    obtain ⟨⟨⟩, hallocations, -⟩ := bind_eq_ok h
    have hcost := cost_startRunner_le T (length_of_checkAllocations hallocations)
    simp [agentOperation]
    rw [nameCost_eq]
    omega
  | executeSandbox r p argv dir t o =>
    have hr := cost_localResourceIdentity_le r
    have hdir := sandboxPath.cost_option_le sandboxPath_ne_null
      (fun s => Nat.le_of_eq (cost_sandboxPath s)) dir
    have hargv : sandboxArgument.listCost argv ≤ 393600 := by
      rw [listCost_sandboxArgument]
      dsimp only at h
      split at h
      · cases h
      · omega
    simp [agentOperation, expectedResource]
    rw [nameCost_eq]
    omega
  | inspectHost | drainHost =>
    simp [agentOperation]
    rw [nameCost_eq]
    omega
  | inspect r | drain r | cleanup r =>
    have hr := cost_localResourceIdentity_le r
    simp [agentOperation, expectedResource]
    rw [nameCost_eq]
    omega
  | stop r mode =>
    have hr := cost_localResourceIdentity_le r
    simp [agentOperation, expectedResource, stopMode]
    rw [nameCost_eq]
    omega
  | upgradeAgent =>
    simp [agentOperation]
    rw [nameCost_eq]
    omega
  | sandboxFile r a =>
    have hr := cost_localResourceIdentity_le r
    have ha := cost_sandboxFileAction_le a
    simp [agentOperation, expectedResource]
    rw [nameCost_eq]
    omega
  | sandboxArtifact r a =>
    have hr := cost_localResourceIdentity_le r
    have ha := cost_sandboxArtifactAction_le a
    simp [agentOperation, expectedResource]
    rw [nameCost_eq]
    omega

theorem cost_agentCommandEnvelope_le {e : AgentCommandEnvelope} (hshape : e.checkShape = .ok ())
    (hhash : e.requestHash.utf8ByteSize ≤ 43) :
    (agentCommandEnvelope T).cost e ≤ 1024 * 1024 := by
  obtain ⟨⟨⟩, hcheck, -⟩ := bind_eq_ok hshape
  have hoperation := cost_agentOperation_le T hcheck
  have hscope := cost_commandScope_le e.scope
  have hweight : stringWeight e.requestHash ≤ 260 := by
    rw [stringWeight]
    omega
  simp only [agentCommandEnvelope, Record.cost_object, Record.cost_iso, Record.cost_and,
    Record.cost_field, Equiv.coe_fn_symm_mk, Codec.cost_bounded, cost_uuid, cost_counter,
    cost_idempotencyKey, cost_timestamp, cost_anyText]
  rw [nameCost_eq]
  linarith

end Size

def maxJsonBytes : Nat := 2 * 1024 * 1024
def defaultJsonBytes : Nat := 1024 * 1024

variable {α : Type} (c : Codec α)

/-- `serde_json::to_string`. -/
def serialize (a : α) : List Char := print (c.encode a)

def parseJson (body : List Char) (limit : Nat) : Except ContractError α :=
  if limit = 0 ∨ limit > maxJsonBytes ∨ utf8Length body > limit then .error .payloadTooLarge
  else
    match (Json.parse body).bind c.decode with
    | some a => .ok a
    | none => .error .invalidJson

def sortFields (fs : List (String × Json)) : List (String × Json) :=
  fs.mergeSort fun p q => decide (p.1 ≤ q.1)

/-- A body that was read as a `serde_json::Value` and written again, as the agent's client hands
a polled command to the dispatcher. -/
def forward (body : List Char) : Option (List Char) :=
  (Json.parse body).map fun j => print (j.rearrange sortFields)

theorem rearranges_sortFields : Rearranges sortFields := fun fs => List.mergeSort_perm fs _

variable {a : α} {limit : Nat}

theorem parseJson_rearranged (ha : c.Valid a) (hcost : c.cost a ≤ limit)
    (hlimit : 0 < limit ∧ limit ≤ maxJsonBytes) {f : List (String × Json) → List (String × Json)}
    (hf : Rearranges f) :
    parseJson c (print ((c.encode a).rearrange f)) limit = .ok a := by
  have hsize : utf8Length (print ((c.encode a).rearrange f)) ≤ limit :=
    calc utf8Length (print ((c.encode a).rearrange f))
        ≤ ((c.encode a).rearrange f).weight := utf8Length_print_le _
      _ = (c.encode a).weight := weight_rearrange hf _
      _ ≤ c.cost a := c.weight_le ha
      _ ≤ limit := hcost
  rw [parseJson, if_neg (by omega), parse_print, Option.bind_some, c.decode_encode ha hf]

/-- **A valid value is read back from its text.** -/
theorem parseJson_serialize (ha : c.Valid a) (hcost : c.cost a ≤ limit)
    (hlimit : 0 < limit ∧ limit ≤ maxJsonBytes) : parseJson c (serialize c a) limit = .ok a := by
  have hread := parseJson_rearranged c ha hcost hlimit (f := id) .refl
  rwa [rearrange_id] at hread

theorem parseJson_forward (ha : c.Valid a) (hcost : c.cost a ≤ limit)
    (hlimit : 0 < limit ∧ limit ≤ maxJsonBytes) :
    (forward (serialize c a)).map (parseJson c · limit) = some (.ok a) := by
  rw [forward, serialize, parse_print]
  exact congrArg some (parseJson_rearranged c ha hcost hlimit rearranges_sortFields)

theorem valid_of_parseJson {body : List Char} (h : parseJson c body limit = .ok a) : c.Valid a := by
  obtain ⟨-, h⟩ := guard_eq_ok h
  split at h
  · next hread =>
    cases h
    obtain ⟨j, -, hdecode⟩ := Option.bind_eq_some_iff.mp hread
    exact c.valid_of_decode hdecode
  · cases h

theorem serialize_injOn {b : α} (ha : c.Valid a) (hb : c.Valid b)
    (h : serialize c a = serialize c b) : a = b :=
  c.encode_injOn ha hb (print_injective h)

end Wire

structure Sha256 where
  digest : List Char → List UInt8
  length_digest : ∀ text, (digest text).length = 32

def Sha256.NoCollision (S : Sha256) (text : List Char) : Prop :=
  ∀ other, S.digest other = S.digest text → other = text

def envelopeHash (S : Sha256) (T : TimeText) (e : AgentCommandEnvelope) : String :=
  String.ofList (Base64.encode (S.digest (Wire.serialize (Wire.agentCommandEnvelope T) e)))

theorem utf8ByteSize_envelopeHash (S : Sha256) (T : TimeText) (e : AgentCommandEnvelope) :
    (envelopeHash S T e).utf8ByteSize = 43 := by
  have hascii : ∀ n < 64, (Base64.digit n).toNat < 128 := by decide
  rw [envelopeHash, utf8ByteSize_ofList, utf8Length_of_ascii, Base64.length_encode,
    S.length_digest]
  intro c hc
  obtain ⟨n, hn, rfl⟩ := Base64.mem_encode hc
  exact hascii n hn

theorem envelopeHash_inj {S : Sha256} {T : TimeText} {e e' : AgentCommandEnvelope}
    (hfree : S.NoCollision (Wire.serialize (Wire.agentCommandEnvelope T) e))
    (he : (Wire.agentCommandEnvelope T).Valid e) (he' : (Wire.agentCommandEnvelope T).Valid e')
    (h : envelopeHash S T e' = envelopeHash S T e) : e' = e := by
  have hdigest := Base64.encode_injective (String.ofList_injective h)
  exact Wire.serialize_injOn _ he' he (hfree _ hdigest)

end Gridops.Fleet
